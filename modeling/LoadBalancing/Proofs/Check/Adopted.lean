/-
Hosts that another checker takes over.

A checker that takes in hosts writes a verdict for each of its sessions, the one that the
session begins with. If the hosts keep their verdicts, what is written is what was there, so
nobody's verdicts change. If the hosts are new, the verdicts are theirs alone. Sessions are
known by address, and a session that just began is like any other one that just began: it
waits, and counted nothing.
-/
import LoadBalancing.Proofs.Check.Watched
import LoadBalancing.Proofs.Host.Verdicts

set_option autoImplicit false

namespace LoadBalancing

/-- A session that just began. -/
def Session.fresh (host : Host) (check : Nat) : Session where
  host
  check
  state := .idle
  successes := 0
  failures := 0
  flipped := false

namespace Checker

variable (c : Checker) {t : HostTable} (now : Nat) {h : Host}

/-! ## Verdicts -/

/-- Hosts that come spare a host if none of the verdicts does that their sessions begin with. -/
theorem spares_startHosts (hosts : List Host)
    (initial : HostTable → Host → Nat → CheckSettings → Health)
    (spares : ∀ o ∈ hosts, ∀ (t' : HostTable) (settings : CheckSettings), ∀ i < c.checks.length,
      t.states.size ≤ t'.states.size →
      t'.Spares (t'.setVerdict o i (initial t' o i settings)).2 h) :
    t.Spares (hosts.foldl (fun (c, t) host => startHost initial now c t host) (c, t)).2 h := by
  -- that the checks stay is part of what is shown, since the range of the numbers rests on it
  suffices both : (fun s : Checker × HostTable => s.1.checks = c.checks ∧ t.Spares s.2 h)
      (hosts.foldl (fun (c, t) host => startHost initial now c t host) (c, t)) by
    exact both.2
  refine List.foldlRecOn
    (motive := fun s : Checker × HostTable => s.1.checks = c.checks ∧ t.Spares s.2 h)
    hosts _ ⟨rfl, .refl t h⟩ ?_
  rintro ⟨c', t'⟩ before o ho
  refine List.foldlRecOn
    (motive := fun s : Checker × HostTable => s.1.checks = c.checks ∧ t.Spares s.2 h)
    c'.checks.zipIdx _ before ?_
  rintro ⟨c'', t''⟩ ⟨hchecks, before'⟩ ⟨settings, index⟩ hmem
  have inRange : index < c.checks.length := by
    have := List.snd_lt_of_mem_zipIdx hmem
    rw [← before.1]
    omega
  exact ⟨hchecks, before'.trans (spares o ho t'' settings index inRange before'.size)⟩

/-- New hosts are others. -/
theorem spares_add {hosts : List Host} (apart : ∀ o ∈ hosts, o.id ≠ h.id) :
    t.Spares (c.add t now hosts).2 h := by
  refine c.spares_startHosts now hosts _ fun o ho t' settings i _ _ => ?_
  exact HostTable.spares_setVerdict_of_ne (apart o ho) i _

/-- **Hosts that keep their verdicts** are given those that they have. -/
theorem spares_adopt (known : h.id < t.states.size) (few : c.checks.length ≤ maxHealthChecks)
    (hosts : List Host) : t.Spares (c.adopt t now hosts).2 h := by
  refine c.spares_startHosts now hosts _ fun o ho t' settings i hi later => ?_
  exact HostTable.spares_setVerdict_same (Nat.lt_of_lt_of_le known later)
    (Nat.lt_of_lt_of_le hi few)

/-! ## Sessions -/

/-- Hosts that come to other addresses leave a session alone. -/
theorem get?_startHosts_of_ne (t : HostTable) {hosts : List Host} {key : SessionKey}
    (initial : HostTable → Host → Nat → CheckSettings → Health)
    (apart : ∀ o ∈ hosts, o.address ≠ key.address) :
    (hosts.foldl (fun (c, t) host => startHost initial now c t host) (c, t)).1.sessions.get? key
      = c.sessions.get? key := by
  refine List.foldlRecOn
    (motive := fun s : Checker × HostTable => s.1.sessions.get? key = c.sessions.get? key)
    hosts _ rfl ?_
  rintro ⟨c', t'⟩ before o ho
  refine startHost_induct (P := fun c'' => c''.sessions.get? key = c.sessions.get? key) c' t' now
    initial (fun c'' t'' index v _ same => ?_) before
  have hne : ¬ key = ⟨o.address, index⟩ := by
    rintro rfl
    exact apart o ho rfl
  rw [startSession_eq, SortedMap.get?_insert, if_neg hne]
  exact same

/-- Hosts that leave other addresses do so, too. -/
theorem get?_remove_of_ne {hosts : List Host} {key : SessionKey}
    (apart : ∀ o ∈ hosts, o.address ≠ key.address) :
    (c.remove hosts).sessions.get? key = c.sessions.get? key := by
  rw [get?_remove, if_neg]
  rintro ⟨-, o, ho, heq⟩
  exact apart o ho heq

/-- All sessions just began. -/
def AllFresh (c : Checker) : Prop :=
  ∀ key live, c.sessions.get? key = some live →
    live.session = .fresh live.session.host key.check

theorem allFresh_adopt (fresh : c.sessions = ∅) (t : HostTable) (hosts : List Host) :
    (c.adopt t now hosts).1.AllFresh := by
  refine startHosts_induct c t now hosts _ (fun host c' t' index v _ before => ?_) ?_
  · intro key live hlive
    rw [startSession_eq, SortedMap.get?_insert] at hlive
    by_cases hkey : key = ⟨host.address, index⟩
    · subst hkey
      rw [if_pos rfl, Option.some.injEq] at hlive
      subst hlive
      rfl
    · rw [if_neg hkey] at hlive
      exact before key live hlive
  · intro key live hlive
    rw [fresh, SortedMap.get?_empty] at hlive
    cases hlive

/-- **A host that is adopted has one new session for each check**, if it is the only one at its
address. -/
theorem get?_adopt (fresh : c.sessions = ∅) (t : HostTable) {hosts : List Host} (hmem : h ∈ hosts)
    (own : ∀ o ∈ hosts, o.address = h.address → o = h) (i : Nat) :
    if i < c.checks.length then
      ∃ epoch, (c.adopt t now hosts).1.sessions.get? ⟨h.address, i⟩ = some ⟨.fresh h i, epoch⟩
    else (c.adopt t now hosts).1.sessions.get? ⟨h.address, i⟩ = none := by
  have hwatched := (c.hears_adopt t now hosts).watched ⟨h.address, i⟩
  rw [watched_eq_none fresh] at hwatched
  split
  next inRange =>
    rw [if_pos inRange] at hwatched
    -- whoever came last to the address is the host
    have hlast : Notice.settle (hosts.map .came) h.address none = some h := by
      rcases Notice.settle_came hosts h.address none with ⟨nobody, -⟩ | ⟨o, ho, heq, hlast⟩
      · exact absurd rfl (nobody h hmem)
      · rw [hlast, own o ho heq]
    rw [hlast] at hwatched
    obtain ⟨⟨session, epoch⟩, hlive, hhost⟩ := watched_eq_some.1 hwatched
    have hfresh : session = .fresh session.host i := c.allFresh_adopt now fresh t hosts _ _ hlive
    have hhost' : session.host = h := hhost
    rw [hhost'] at hfresh
    exact ⟨epoch, by rw [hlive, hfresh]⟩
  next outOfRange =>
    rw [if_neg outOfRange] at hwatched
    exact Option.map_eq_none_iff.1 hwatched

end Checker

end LoadBalancing
