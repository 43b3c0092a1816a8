/-
Which host a checker watches under which key, and what changes it.

Only the owner changes it, by telling who comes and who leaves. Probes, timers and
answers replace sessions all the time, but always by one of the same host. A host that
comes takes over all sessions at its address; when a host leaves, the sessions at its
address end, whoever they belong to by then.
-/
import LoadBalancing.Proofs.Check.Operations

set_option autoImplicit false

namespace LoadBalancing

/-! ## Notices -/

/-- What the owner of a checker tells it about a host. -/
inductive Notice where
  | came (host : Host)
  | left (host : Host)
  deriving DecidableEq

namespace Notice

/-- Who is at an address after a notice. One that leaves takes along whoever is there. -/
def tell (address : String) (present : Option Host) : Notice → Option Host
  | .came h => if h.address = address then some h else present
  | .left h => if h.address = address then none else present

/-- Who is at an address after some notices. -/
def settle (notices : List Notice) (address : String) (present : Option Host) : Option Host :=
  notices.foldl (tell address) present

/-- Who is at an address if all that was ever said are these notices: the host that came
last, unless one left from there afterwards. -/
def present (history : List Notice) (address : String) : Option Host :=
  settle history address none

theorem settle_append (before after : List Notice) (address : String) (o : Option Host) :
    settle (before ++ after) address o = settle after address (settle before address o) :=
  List.foldl_append

theorem settle_left (hosts : List Host) (address : String) (o : Option Host) :
    settle (hosts.map .left) address o =
      if ∃ h ∈ hosts, h.address = address then none else o := by
  induction hosts generalizing o with
  | nil => simp [settle]
  | cons first rest ih =>
    unfold settle at ih ⊢
    rw [List.map_cons, List.foldl_cons, ih, tell]
    by_cases hfirst : first.address = address
    · rw [if_pos hfirst, ite_self, if_pos ⟨first, List.mem_cons_self, hfirst⟩]
    · have hrest : (∃ h ∈ first :: rest, h.address = address) ↔
          ∃ h ∈ rest, h.address = address := by
        simp only [List.mem_cons, exists_eq_or_imp, hfirst, false_or]
      rw [if_neg hfirst]
      simp only [hrest]

/-- Where nobody came, things are as before; else the one who came last is there. -/
theorem settle_came (hosts : List Host) (address : String) (o : Option Host) :
    (∀ h ∈ hosts, h.address ≠ address) ∧ settle (hosts.map .came) address o = o ∨
      ∃ h ∈ hosts, h.address = address ∧ ∀ o', settle (hosts.map .came) address o' = some h := by
  induction hosts generalizing o with
  | nil => exact .inl ⟨by simp, rfl⟩
  | cons first rest ih =>
    rcases ih (tell address o (.came first)) with ⟨hnone, hsame⟩ | ⟨h, hmem, haddress, hlast⟩
    · by_cases hfirst : first.address = address
      · refine .inr ⟨first, List.mem_cons_self, hfirst, fun o' => ?_⟩
        -- nobody comes to this address after the first one
        rcases ih (tell address o' (.came first)) with ⟨-, hsame'⟩ | ⟨h, hmem, haddress, -⟩
        · rw [tell, if_pos hfirst] at hsame'
          rw [List.map_cons, settle, List.foldl_cons, tell, if_pos hfirst]
          exact hsame'
        · exact absurd haddress (hnone h hmem)
      · refine .inl ⟨?_, ?_⟩
        · intro h hmem
          rcases List.mem_cons.1 hmem with rfl | hrest
          · exact hfirst
          · exact hnone h hrest
        · rw [tell, if_neg hfirst] at hsame
          rw [List.map_cons, settle, List.foldl_cons, tell, if_neg hfirst]
          exact hsame
    · exact .inr ⟨h, List.mem_cons_of_mem _ hmem, haddress, fun o' => hlast _⟩

end Notice

namespace Checker

/-- The host whose session is kept under a key. -/
def watched (c : Checker) (key : SessionKey) : Option Host :=
  (c.sessions.get? key).map (·.session.host)

theorem watched_eq_some {c : Checker} {key : SessionKey} {host : Host} :
    c.watched key = some host ↔
      ∃ live, c.sessions.get? key = some live ∧ live.session.host = host :=
  Option.map_eq_some_iff

theorem watched_eq_none {c : Checker} (h : c.sessions = ∅) (key : SessionKey) :
    c.watched key = none := by
  rw [watched, h, SortedMap.get?_empty, Option.map_none]

/-! ## Time and answers -/

/-- The same hosts are watched by the same checks. -/
structure SameWatch (before after : Checker) : Prop where
  checks : after.checks = before.checks
  watched : ∀ key, after.watched key = before.watched key

variable {c c' c'' : Checker}

theorem SameWatch.refl (c : Checker) : SameWatch c c := ⟨rfl, fun _ => rfl⟩

theorem SameWatch.trans (h : SameWatch c c') (h' : SameWatch c' c'') : SameWatch c c'' :=
  ⟨h'.checks.trans h.checks, fun key => (h'.watched key).trans (h.watched key)⟩

/-- A session may be replaced by one of the same host. -/
theorem SameWatch.insert {key : SessionKey} {live next : LiveSession}
    (hlive : c.sessions.get? key = some live) (hhost : next.session.host = live.session.host)
    (hchecks : c'.checks = c.checks) (hsessions : c'.sessions = c.sessions.insert key next) :
    SameWatch c c' where
  checks := hchecks
  watched k := by
    show (c'.sessions.get? k).map _ = (c.sessions.get? k).map _
    rw [hsessions, SortedMap.get?_insert]
    split
    next h => rw [h, hlive, Option.map_some, Option.map_some, hhost]
    next => rfl

variable (t : HostTable) (now : Nat) (jitter : Jitter)

theorem sameWatch_sendProbe (c : Checker) (key : SessionKey) (epoch : Nat) :
    SameWatch c (c.sendProbe now key epoch).1 := by
  by_cases waits : ∃ live, c.sessions.get? key = some live ∧ key.check < c.checks.length ∧
      live.epoch = epoch ∧ live.session.state = .idle
  · obtain ⟨live, hlive, inRange, rfl, idle⟩ := waits
    rw [sendProbe_eq c now hlive (List.getElem?_eq_getElem inRange) idle]
    refine .insert hlive ?_ rfl rfl
    rfl
  · -- a timer that comes too late changes no session at all
    have late (live : LiveSession) (hlive : c.sessions.get? key = some live)
        (inRange : key.check < c.checks.length) (hepoch : live.epoch = epoch) :
        live.session.state ≠ .idle :=
      fun idle => waits ⟨live, hlive, inRange, hepoch, idle⟩
    obtain ⟨n, -, heq⟩ := sendProbe_late c now late
    rw [heq]
    exact ⟨rfl, fun _ => rfl⟩

section Probes

variable {t now jitter} {key : SessionKey} {probe : Nat}
  {after : Checker × HostTable × Option Transition}

theorem sameWatch_finish {outcome : ProbeOutcome}
    (h : c.finish t now jitter key probe outcome = .ok after) : SameWatch c after.1 := by
  rcases finish_cases c t now jitter h with rfl | ⟨live, settings, delay, hlive, rfl⟩
  · exact .refl c
  · exact .insert hlive (Session.host_complete live.session settings t probe outcome) rfl rfl

/-- An answer leaves all hosts watched. -/
theorem sameWatch_deliver {result : Except ProbeError ProbeAnswer}
    (h : c.deliver t now jitter key probe result = .ok after) : SameWatch c after.1 := by
  rw [deliver] at h
  split at h
  · have counted : SameWatch c { c with stats := c.stats.countResult result } :=
      ⟨rfl, fun _ => rfl⟩
    exact counted.trans (sameWatch_finish h)
  · cases h
    exact .refl c

theorem sameWatch_giveUp (h : c.giveUp t now jitter key probe = .ok after) :
    SameWatch c after.1 := by
  rw [giveUp] at h
  split at h
  · have counted : SameWatch c { c with stats := c.stats.countTimeout } := ⟨rfl, fun _ => rfl⟩
    exact counted.trans (sameWatch_finish h)
  · cases h
    exact .refl c

theorem sameWatch_fire {timer : Timer} {fired : Fired}
    (h : c.fire t now jitter timer = .ok fired) : SameWatch c fired.checker := by
  rcases fire_cases c t now jitter h with ⟨epoch, -, rfl⟩ | ⟨probe, after, -, hafter, rfl⟩
  · exact sameWatch_sendProbe now c timer.key epoch
  · exact sameWatch_giveUp hafter

/-- Doing all that is due leaves all hosts watched. -/
theorem sameWatch_fireDue {fired : Fired} (h : c.fireDue t now jitter = .ok fired) :
    SameWatch c fired.checker := by
  refine fireDue_induct (P := fun c _ fired => SameWatch c fired.checker) c t now jitter ?_ ?_ h
  · intro c _
    exact .refl c
  · intro c t timer rest first others _ _ hfire ih
    have popped : SameWatch c { c with agenda := rest } := ⟨rfl, fun _ => rfl⟩
    exact (popped.trans (sameWatch_fire hfire)).trans ih

end Probes

/-! ## Hosts that come and go -/

@[simp] theorem checks_startSession (c : Checker) (host : Host) (index : Nat) (v : Health) :
    (c.startSession t now host index v).1.checks = c.checks := rfl

theorem checks_startHosts (c : Checker) (hosts : List Host)
    (initial : HostTable → Host → Nat → CheckSettings → Health) :
    (hosts.foldl (fun (c, t) host => startHost initial now c t host) (c, t)).1.checks
      = c.checks := by
  refine startHosts_induct (P := fun c' => c'.checks = c.checks) c t now hosts initial ?_ rfl
  intro host c' t' index v _ h
  rw [checks_startSession, h]

@[simp] theorem checks_remove (c : Checker) (hosts : List Host) :
    (c.remove hosts).checks = c.checks := rfl

theorem watched_startSession (c : Checker) (host : Host) (index : Nat) (v : Health)
    (key : SessionKey) :
    (c.startSession t now host index v).1.watched key =
      if key = ⟨host.address, index⟩ then some host else c.watched key := by
  rw [watched, startSession_eq, SortedMap.get?_insert]
  split <;> rfl

/-- Some checks of a host begin. The induction is on the checks still to come, so what was
watched before may be anything. -/
theorem watched_foldl_startSession (c : Checker) (host : Host)
    (initial : HostTable → Host → Nat → CheckSettings → Health)
    (checks : List (CheckSettings × Nat)) (key : SessionKey) :
    (checks.foldl (fun (c, t) (settings, index) =>
        c.startSession t now host index (initial t host index settings)) (c, t)).1.watched key =
      if key.address = host.address ∧ key.check ∈ checks.map (·.2) then some host
      else c.watched key := by
  induction checks generalizing c t with
  | nil => simp
  | cons e rest ih =>
    obtain ⟨settings, index⟩ := e
    have hfirst := watched_startSession t now c host index (initial t host index settings) key
    rw [List.foldl_cons]
    dsimp only
    generalize c.startSession t now host index (initial t host index settings) = first at hfirst ⊢
    obtain ⟨c', t'⟩ := first
    rw [ih, hfirst]
    by_cases hself : key = ⟨host.address, index⟩
    · subst hself
      simp
    · rw [if_neg hself]
      by_cases haddress : key.address = host.address
      · -- the address is right, so the check is another one
        have hindex : ¬ index = key.check := by
          rintro rfl
          exact hself (by rw [← haddress])
        have hmem : key.check ∈ ((settings, index) :: rest).map (·.2) ↔
            key.check ∈ rest.map (·.2) := by
          simp [Ne.symm hindex]
        refine ite_cond_congr ?_
        rw [hmem]
      · rw [if_neg fun h => haddress h.1, if_neg fun h => haddress h.1]

/-- All checks of a host begin: whoever had its address is not watched any more. -/
theorem watched_startHost (c : Checker) (host : Host)
    (initial : HostTable → Host → Nat → CheckSettings → Health) (key : SessionKey) :
    (startHost initial now c t host).1.watched key =
      if key.address = host.address ∧ key.check < c.checks.length then some host
      else c.watched key := by
  have hindex : key.check ∈ c.checks.zipIdx.map (·.2) ↔ key.check < c.checks.length := by
    rw [List.zipIdx_map_snd, List.mem_range'_1]
    omega
  rw [startHost, watched_foldl_startSession]
  simp only [hindex]

theorem watched_startHosts (c : Checker) (hosts : List Host)
    (initial : HostTable → Host → Nat → CheckSettings → Health) (key : SessionKey) :
    (hosts.foldl (fun (c, t) host => startHost initial now c t host) (c, t)).1.watched key =
      if key.check < c.checks.length then
        Notice.settle (hosts.map .came) key.address (c.watched key)
      else c.watched key := by
  induction hosts generalizing c t with
  | nil => exact (ite_self _).symm
  | cons host rest ih =>
    have hfirst := watched_startHost t now c host initial key
    have hchecks := checks_startHosts t now c [host] initial
    rw [List.foldl_cons, List.foldl_nil] at hchecks
    rw [List.foldl_cons]
    dsimp only at hchecks ⊢
    generalize startHost initial now c t host = first at hfirst hchecks ⊢
    obtain ⟨c', t'⟩ := first
    rw [ih, hfirst, hchecks, List.map_cons, Notice.settle, Notice.settle, List.foldl_cons,
      Notice.tell]
    by_cases inRange : key.check < c.checks.length
    · -- the first host decides about its own address, unless a later one comes to it too
      rw [if_pos inRange, if_pos inRange]
      by_cases haddress : key.address = host.address
      · rw [if_pos ⟨haddress, inRange⟩, if_pos haddress.symm]
      · rw [if_neg fun h => haddress h.1, if_neg fun h => haddress h.symm]
    · rw [if_neg inRange, if_neg inRange, if_neg fun h => inRange h.2]

theorem watched_remove (c : Checker) (hosts : List Host) (key : SessionKey) :
    (c.remove hosts).watched key =
      if key.check < c.checks.length then
        Notice.settle (hosts.map .left) key.address (c.watched key)
      else c.watched key := by
  rw [watched, get?_remove, Notice.settle_left]
  by_cases inRange : key.check < c.checks.length
  · rw [if_pos inRange]
    by_cases hleft : ∃ h ∈ hosts, h.address = key.address
    · rw [if_pos ⟨inRange, hleft⟩, if_pos hleft, Option.map_none]
    · rw [if_neg fun h => hleft h.2, if_neg hleft, watched]
  · rw [if_neg inRange, if_neg fun h => inRange h.1, watched]

/-! ## Being told -/

/-- A checker that was told some notices: under every address it watches the host that is
there now, with all its checks. -/
structure Hears (before : Checker) (notices : List Notice) (after : Checker) : Prop where
  checks : after.checks = before.checks
  watched : ∀ key, after.watched key =
    if key.check < before.checks.length then
      Notice.settle notices key.address (before.watched key)
    else before.watched key

theorem SameWatch.hears (h : SameWatch c c') : Hears c [] c' where
  checks := h.checks
  watched key := by
    rw [h.watched, Notice.settle, List.foldl_nil, ite_self]

theorem Hears.trans {first second : List Notice} (h : Hears c first c')
    (h' : Hears c' second c'') : Hears c (first ++ second) c'' where
  checks := h'.checks.trans h.checks
  watched key := by
    rw [h'.watched, h.watched, h.checks]
    by_cases inRange : key.check < c.checks.length
    · rw [if_pos inRange, if_pos inRange, if_pos inRange, Notice.settle_append]
    · rw [if_neg inRange, if_neg inRange, if_neg inRange]

theorem hears_add (c : Checker) (hosts : List Host) :
    Hears c (hosts.map .came) (c.add t now hosts).1 :=
  ⟨checks_startHosts t now c hosts _, watched_startHosts t now c hosts _⟩

theorem hears_adopt (c : Checker) (hosts : List Host) :
    Hears c (hosts.map .came) (c.adopt t now hosts).1 :=
  ⟨checks_startHosts t now c hosts _, watched_startHosts t now c hosts _⟩

theorem hears_remove (c : Checker) (hosts : List Host) :
    Hears c (hosts.map .left) (c.remove hosts) :=
  ⟨checks_remove c hosts, watched_remove c hosts⟩

end Checker

end LoadBalancing
