/-
Each probe counts at most once, and what comes too late counts for nothing.

The counters of a checker are kept apart from its sessions, and sessions come and go under
the same keys. So nothing in a checker says by itself that its figures agree. Here a ledger
is kept beside it, with an entry for each probe that was out and is not any more. How the
probe ended is told by what happened then: its answer came in, the timer that gives it up
went off, or its session was removed, replaced or shut down.

All rests on the numbers of probes. They are given out once, so the probes that were ever
sent are told apart by them, and each of them is either out or in the ledger, and not in
both and not twice (`Balanced.ends`). The figures are then those of the ledger. A probe is
entered when the checker does not wait for it any more, whatever the reason, so the invariant
has to show that nothing but the end of one probe is counted, and that it is counted once.
-/
import LoadBalancing.Proofs.Check.Awaited

set_option autoImplicit false

namespace LoadBalancing

/-! ## Probes that are out -/

namespace Checker

/-- The probes that are out, each with the key of its session. -/
def pending (c : Checker) : List (SessionKey × Nat) :=
  c.sessions.entries.filterMap fun (key, live) =>
    match live.session.state with
    | .sent probe => some (key, probe)
    | _ => none

/-- The probes that were out before and are not any more. -/
def missing (before after : Checker) : List (SessionKey × Nat) :=
  before.pending.filter fun p => !after.isPending p.1 p.2

variable {c c' : Checker} {key : SessionKey} {probe : Nat}

/-- A probe is among those that are out if the checker waits for it. -/
theorem mem_pending : (key, probe) ∈ c.pending ↔ c.isPending key probe = true := by
  rw [isPending_iff, pending, List.mem_filterMap]
  constructor
  · rintro ⟨⟨k, live⟩, hmem, hout⟩
    dsimp only at hout
    split at hout
    next p sent =>
      cases hout
      exact ⟨live, SortedMap.mem_entries_iff.1 hmem, sent⟩
    next => cases hout
  · rintro ⟨live, hlive, sent⟩
    exact ⟨(key, live), SortedMap.mem_entries_iff.2 hlive, by simp [sent]⟩

/-- A session has one probe out at most. -/
theorem nodup_pending (c : Checker) : c.pending.Nodup := by
  rw [pending, List.Nodup, List.pairwise_filterMap]
  refine c.sessions.increasing.imp ?_
  rintro ⟨k, live⟩ ⟨k', live'⟩ hlt p hp _ hq rfl
  dsimp only at hp hq
  -- both are the probe of one key, and no key stands in a map twice
  split at hp
  · split at hq
    · have hkey : k = k' := congrArg Prod.fst (Option.some.inj (hp.trans hq.symm))
      simp [hkey] at hlt
    · cases hq
  · cases hp

/-- So no probe is missing twice. -/
theorem nodup_missing (c c' : Checker) : (missing c c').Nodup :=
  c.nodup_pending.filter _

/-- A probe is missing if the checker waited for it before and does not any more. -/
theorem mem_missing : (key, probe) ∈ missing c c' ↔
    c.isPending key probe = true ∧ ¬ c'.isPending key probe = true := by
  rw [missing, List.mem_filter, mem_pending]
  simp

/-- Where no probe was sent, those that are missing and those that are still out are those
that were out. -/
theorem missing_append_perm
    (out : ∀ key probe, c'.isPending key probe = true → c.isPending key probe = true) :
    (missing c c' ++ c'.pending).Perm c.pending := by
  have hnodup : (missing c c' ++ c'.pending).Nodup := by
    refine List.nodup_append.2 ⟨nodup_missing c c', c'.nodup_pending, ?_⟩
    rintro ⟨key, probe⟩ hmissing _ hpending rfl
    exact (mem_missing.1 hmissing).2 (mem_pending.1 hpending)
  rw [List.perm_ext_iff_of_nodup hnodup c.nodup_pending]
  rintro ⟨key, probe⟩
  rw [List.mem_append, mem_missing, mem_pending, mem_pending]
  constructor
  · rintro (⟨before, -⟩ | after)
    · exact before
    · exact out key probe after
  · intro before
    by_cases after : c'.isPending key probe = true
    · exact .inr after
    · exact .inl ⟨before, after⟩

/-- The end of one probe is the end of no other. -/
theorem missing_eq_singleton (before : c.isPending key probe = true)
    (out : ∀ k p, c'.isPending k p = true ↔ k ≠ key ∧ c.isPending k p = true) :
    missing c c' = [(key, probe)] := by
  rw [← List.perm_singleton, List.perm_ext_iff_of_nodup (nodup_missing c c')
    (List.pairwise_singleton _ _)]
  rintro ⟨k, p⟩
  rw [mem_missing, out, List.mem_singleton, Prod.mk.injEq]
  constructor
  · rintro ⟨hp, hended⟩
    have hkey : k = key := Classical.byContradiction fun hne => hended ⟨hne, hp⟩
    subst hkey
    -- one session has one probe out
    obtain ⟨live, hlive, sent⟩ := (isPending_iff c).1 hp
    obtain ⟨live', hlive', sent'⟩ := (isPending_iff c).1 before
    obtain rfl := Option.some.inj (hlive.symm.trans hlive')
    exact ⟨rfl, SessionState.sent.inj (sent.symm.trans sent')⟩
  · rintro ⟨rfl, rfl⟩
    exact ⟨before, fun h => h.1 rfl⟩

/-- If all that were out still are, none is missing. -/
theorem missing_eq_nil
    (kept : ∀ k p, c.isPending k p = true → c'.isPending k p = true) : missing c c' = [] := by
  rw [List.eq_nil_iff_forall_not_mem]
  rintro ⟨k, p⟩ hmem
  obtain ⟨before, after⟩ := mem_missing.1 hmem
  exact after (kept k p before)

/-! ### What each operation does to them -/

/-- A renewed session has the probe out that its state says, and no other session changes. -/
theorem isPending_of_insert {live : LiveSession}
    (hsessions : c'.sessions = c.sessions.insert key live) (k : SessionKey) (p : Nat) :
    c'.isPending k p = true ↔
      if k = key then live.session.state = .sent p else c.isPending k p = true := by
  rw [isPending_iff, isPending_iff, hsessions, SortedMap.get?_insert]
  split <;> simp

/-- What happens when hosts come and go: no probe is sent, and nothing is counted. -/
structure Quiet (before after : Checker) : Prop where
  out : ∀ key probe, after.isPending key probe = true → before.isPending key probe = true
  later : before.lastNumber ≤ after.lastNumber
  stats : after.stats = before.stats

/-- Nothing happens. -/
theorem Quiet.refl (c : Checker) : Quiet c c := ⟨fun _ _ h => h, Nat.le_refl _, rfl⟩

/-- A session begins without a probe. The session whose place it takes may have had one. -/
theorem Quiet.startSession (h : Quiet c c') (t : HostTable) (now : Nat) (host : Host)
    (index : Nat) (v : Health) : Quiet c (c'.startSession t now host index v).1 := by
  rw [startSession_eq]
  refine ⟨fun k p hp => h.out k p ?_, Nat.le_succ_of_le h.later, h.stats⟩
  -- the session that begins is idle
  rw [isPending_of_insert rfl] at hp
  split at hp
  · cases hp
  · exact hp

/-- Sessions begin for all hosts that come, one after the other. -/
theorem quiet_startHosts (c : Checker) (t : HostTable) (now : Nat) (hosts : List Host)
    (initial : HostTable → Host → Nat → CheckSettings → Health) :
    Quiet c (hosts.foldl (fun (c, t) host => startHost initial now c t host) (c, t)).1 :=
  startHosts_induct (P := Quiet c) c t now hosts initial
    (fun host _ t index v _ h => h.startSession t now host index v) (.refl c)

/-- Sessions that are removed take their probes with them. -/
theorem quiet_remove (c : Checker) (hosts : List Host) : Quiet c (c.remove hosts) := by
  refine ⟨fun k p hp => ?_, Nat.le_refl _, rfl⟩
  rw [isPending_iff, get?_remove] at hp
  rw [isPending_iff]
  split at hp
  · obtain ⟨_, hnone, -⟩ := hp
    cases hnone
  · exact hp

/-- At the end nothing is out. -/
theorem quiet_shutdown (c : Checker) : Quiet c c.shutdown := by
  refine ⟨fun k p hp => ?_, Nat.le_refl _, rfl⟩
  rw [isPending_iff] at hp
  obtain ⟨_, hnone, -⟩ := hp
  cases hnone

section Probes

variable {t : HostTable} {now : Nat} {jitter : Jitter} {outcome : ProbeOutcome}
  {after : Checker × HostTable × Option Transition}

/-- Once the outcome of a probe is taken, its session has no probe out. -/
theorem isPending_finish (numbered : c.Numbered) (pending : c.isPending key probe = true)
    (taken : c.finish t now jitter key probe outcome = .ok after) (k : SessionKey) (p : Nat) :
    after.1.isPending k p = true ↔ k ≠ key ∧ c.isPending k p = true := by
  obtain ⟨live, hlive, sent⟩ := (isPending_iff c).1 pending
  have inRange := numbered.inRange key live hlive
  obtain ⟨delay, rfl⟩ :=
    exists_of_finish c t now jitter hlive (List.getElem?_eq_getElem inRange) taken
  have idle : (live.session.complete c.checks[key.check] t probe outcome).2.1.clearFlipped.state
      = .idle := by
    rw [Session.clearFlipped]
    exact Session.state_complete _ t probe outcome sent
  rw [isPending_of_insert rfl]
  split
  next h => simp [idle, h]
  next h => simp [h]

/-- What a checker counts it has counted before, and numbers are used up one by one. -/
theorem counts_finish (taken : c.finish t now jitter key probe outcome = .ok after) :
    after.1.stats = c.stats ∧ c.lastNumber ≤ after.1.lastNumber := by
  rcases finish_cases c t now jitter taken with rfl | ⟨live, settings, delay, -, rfl⟩
  · exact ⟨rfl, Nat.le_refl _⟩
  · exact ⟨rfl, Nat.le_succ _⟩

end Probes

end Checker

/-! ## The ledger -/

namespace Watch

/-- How a probe came to its end. -/
inductive Fate where
  | answered (result : Except ProbeError ProbeAnswer)
  | givenUp
  /-- Its session was removed, replaced or shut down while it was out. -/
  | dropped

namespace Fate

/-- The host answered as it should. -/
def isPassed : Fate → Bool
  | .answered (.ok _) => true
  | _ => false

/-- The probe came back with an error. -/
def isFailed : Fate → Bool
  | .answered (.error _) => true
  | _ => false

/-- The error was one of the network. -/
def isNetworkFailure : Fate → Bool
  | .answered (.error e) => e.isNetwork
  | _ => false

/-- No answer came in time. -/
def isGivenUp : Fate → Bool
  | .givenUp => true
  | _ => false

/-- Nobody waits for the answer. -/
def isDropped : Fate → Bool
  | .dropped => true
  | _ => false

end Fate

/-- A probe that is not out any more, and how it ended. -/
structure Entry where
  key : SessionKey
  probe : Nat
  fate : Fate

/-- The entries of some probes that ended in the same way. -/
def close (fate : Fate) (probes : List (SessionKey × Nat)) : List Entry :=
  probes.map fun p => ⟨p.1, p.2, fate⟩

/-- The counters that go with a ledger, where so many probes were sent. -/
def tally (sent : Nat) (ledger : List Entry) : ProbeStats where
  attempts := sent
  successes := ledger.countP (·.fate.isPassed)
  failures := ledger.countP (·.fate.isFailed)
  networkFailures := ledger.countP (·.fate.isNetworkFailure)
  timeouts := ledger.countP (·.fate.isGivenUp)

/-- What may happen to a watch. -/
inductive Event where
  | add (now : Nat) (hosts : List Host)
  | adopt (now : Nat) (hosts : List Host)
  | remove (hosts : List Host)
  | shutdown
  | fire (now : Nat) (jitter : Jitter) (timer : Timer)
  | deliver (now : Nat) (jitter : Jitter) (request : ProbeRequest)
      (result : Except ProbeError ProbeAnswer)
  | outside (hosts : HostTable)

/-- How a probe ends that an event puts an end to. -/
def Event.fate : Event → Fate
  | .fire .. => .givenUp
  | .deliver _ _ _ result => .answered result
  | _ => .dropped

/-- The watch after an event, unless an overflow breaks it off. -/
def apply (w : Watch) : Event → Except Overflow Watch
  | .add now hosts =>
    .ok ⟨(w.checker.add w.hosts now hosts).1, (w.checker.add w.hosts now hosts).2, w.sent⟩
  | .adopt now hosts =>
    .ok ⟨(w.checker.adopt w.hosts now hosts).1, (w.checker.adopt w.hosts now hosts).2, w.sent⟩
  | .remove hosts => .ok { w with checker := w.checker.remove hosts }
  | .shutdown => .ok { w with checker := w.checker.shutdown }
  | .fire now jitter timer => w.fire now jitter timer
  | .deliver now jitter request result => w.deliver now jitter request result
  | .outside hosts => .ok { w with hosts }

/-- A timer goes off only if it is set, and only a probe that was sent is answered. -/
def Event.Possible (w : Watch) : Event → Prop
  | .fire _ _ timer => timer ∈ w.checker.agenda
  | .deliver _ _ request _ => request ∈ w.sent
  | _ => True

instance (w : Watch) (e : Event) : Decidable (e.Possible w) :=
  match e with
  | .fire _ _ timer => inferInstanceAs (Decidable (timer ∈ w.checker.agenda))
  | .deliver _ _ request _ => inferInstanceAs (Decidable (request ∈ w.sent))
  | .add _ _ | .adopt _ _ | .remove _ | .shutdown | .outside _ => .isTrue trivial

/-- The probes that an event puts an end to. -/
def Event.booked (e : Event) (before after : Watch) : List Entry :=
  close e.fate (Checker.missing before.checker after.checker)

/-- A watch that came about by some events, and the ledger of its probes. -/
inductive Account : Watch → List Entry → Prop where
  | start (checks : List CheckSettings) (hosts : HostTable) :
      Account ⟨.fresh checks, hosts, []⟩ []
  | step {w w' : Watch} {ledger : List Entry} (e : Event) :
      Account w ledger → e.Possible w → w.apply e = .ok w' →
        Account w' (ledger ++ e.booked w w')

/-- Events are steps. -/
theorem step_iff {w w' : Watch} :
    Step w w' ↔ ∃ e : Event, e.Possible w ∧ w.apply e = .ok w' := by
  constructor
  · intro step
    cases step with
    | add now hosts => exact ⟨.add now hosts, trivial, rfl⟩
    | adopt now hosts => exact ⟨.adopt now hosts, trivial, rfl⟩
    | remove hosts => exact ⟨.remove hosts, trivial, rfl⟩
    | shutdown => exact ⟨.shutdown, trivial, rfl⟩
    | fire now jitter timer hmem done => exact ⟨.fire now jitter timer, hmem, done⟩
    | deliver now jitter request result hmem done =>
      exact ⟨.deliver now jitter request result, hmem, done⟩
    | outside hosts => exact ⟨.outside hosts, trivial, rfl⟩
  · rintro ⟨e, possible, done⟩
    cases e with
    | fire now jitter timer => exact .fire now jitter timer possible done
    | deliver now jitter request result => exact .deliver now jitter request result possible done
    | add now hosts =>
      cases done
      exact .add w now hosts
    | adopt now hosts =>
      cases done
      exact .adopt w now hosts
    | remove hosts =>
      cases done
      exact .remove w hosts
    | shutdown =>
      cases done
      exact .shutdown w
    | outside hosts =>
      cases done
      exact .outside w hosts

/-- Every reachable watch has a ledger, and no other watch has one. -/
theorem reachable_iff {w : Watch} : Reachable w ↔ ∃ ledger, Account w ledger := by
  constructor
  · intro r
    induction r with
    | start checks hosts => exact ⟨[], .start checks hosts⟩
    | step _ hstep ih =>
      obtain ⟨ledger, account⟩ := ih
      obtain ⟨e, possible, done⟩ := step_iff.1 hstep
      exact ⟨_, account.step e possible done⟩
  · rintro ⟨ledger, account⟩
    induction account with
    | start checks hosts => exact .start checks hosts
    | step e _ possible done ih => exact ih.step (step_iff.2 ⟨e, possible, done⟩)

/-! ## Counting entries -/

section Tally

variable {sent : Nat} {ledger : List Entry} {probes : List (SessionKey × Nat)}

/-- Entries are of the probes that they were made of. -/
theorem map_id_close (fate : Fate) (probes : List (SessionKey × Nat)) :
    (close fate probes).map (fun e => (e.key, e.probe)) = probes := by
  rw [close, List.map_map]
  exact List.map_id _

/-- They all are of one kind, or none of them is. -/
theorem countP_close (test : Fate → Bool) (fate : Fate) (probes : List (SessionKey × Nat)) :
    (close fate probes).countP (fun e => test e.fate) = if test fate then probes.length else 0 := by
  rw [close, List.countP_map]
  cases h : test fate with
  | true => simp [Function.comp_def, h]
  | false => simp [Function.comp_def, h]

/-- Entries of one kind raise the counters of this kind. -/
theorem tally_append_close (fate : Fate) :
    tally sent (ledger ++ close fate probes) =
      { attempts := sent
        successes := (tally sent ledger).successes + if fate.isPassed then probes.length else 0
        failures := (tally sent ledger).failures + if fate.isFailed then probes.length else 0
        networkFailures := (tally sent ledger).networkFailures +
          if fate.isNetworkFailure then probes.length else 0
        timeouts := (tally sent ledger).timeouts +
          if fate.isGivenUp then probes.length else 0 } := by
  simp only [tally, List.countP_append, countP_close]

/-- An answer that counts is the end of one probe. -/
theorem tally_answered (one : probes.length = 1) (result : Except ProbeError ProbeAnswer) :
    tally sent (ledger ++ close (.answered result) probes) =
      (tally sent ledger).countResult result := by
  rw [tally_append_close, one]
  cases result with
  | ok answer => rfl
  | error e => rfl

/-- A probe that is given up is counted once. -/
theorem tally_givenUp (one : probes.length = 1) :
    tally sent (ledger ++ close .givenUp probes) = (tally sent ledger).countTimeout := by
  rw [tally_append_close, one]
  rfl

/-- What is dropped is not counted. -/
theorem tally_dropped : tally sent (ledger ++ close .dropped probes) = tally sent ledger := by
  rw [tally_append_close]
  rfl

/-- Every entry is of one kind. -/
theorem length_ledger (ledger : List Entry) :
    ledger.length = ledger.countP (·.fate.isPassed) + ledger.countP (·.fate.isFailed) +
      ledger.countP (·.fate.isGivenUp) + ledger.countP (·.fate.isDropped) := by
  induction ledger with
  | nil => rfl
  | cons e rest ih =>
    -- of the four kinds an entry is of exactly one
    have hone : (if e.fate.isPassed then 1 else 0) + (if e.fate.isFailed then 1 else 0) +
        (if e.fate.isGivenUp then 1 else 0) + (if e.fate.isDropped then 1 else 0) = 1 := by
      rcases e.fate with (_ | _) | _ | _ <;> rfl
    rw [List.length_cons, List.countP_cons, List.countP_cons, List.countP_cons, List.countP_cons]
    omega

/-- Broken connections are failures. -/
theorem networkFailures_le (ledger : List Entry) :
    ledger.countP (·.fate.isNetworkFailure) ≤ ledger.countP (·.fate.isFailed) := by
  refine List.countP_mono_left fun e _ => ?_
  rcases e.fate with (_ | _) | _ | _ <;> simp [Fate.isNetworkFailure, Fate.isFailed]

end Tally

/-! ## The invariant -/

/-- The probes that were sent have different numbers, and each of them is out or in the
ledger, once. The counters are those of the ledger. -/
structure Balanced (c : Checker) (sent : List ProbeRequest) (ledger : List Entry) : Prop where
  distinct : (sent.map (·.probe)).Nodup
  given : ∀ r ∈ sent, r.probe ≤ c.lastNumber
  ends : (ledger.map (fun e => (e.key, e.probe)) ++ c.pending).Perm
    (sent.map fun r => (r.key, r.probe))
  stats : c.stats = tally sent.length ledger

variable {c c' : Checker} {sent : List ProbeRequest} {ledger : List Entry}

/-- In the beginning nothing was sent, and nothing is entered. -/
theorem balanced_fresh (checks : List CheckSettings) : Balanced (.fresh checks) [] [] where
  distinct := .nil
  given r hr := by cases hr
  ends := .nil
  stats := rfl

/-- **Probes that end.** No probe is sent, and the probes that are not out any more are
entered. -/
theorem Balanced.end (h : Balanced c sent ledger) (fate : Fate)
    (out : ∀ key probe, c'.isPending key probe = true → c.isPending key probe = true)
    (later : c.lastNumber ≤ c'.lastNumber)
    (stats : c'.stats = tally sent.length (ledger ++ close fate (Checker.missing c c'))) :
    Balanced c' sent (ledger ++ close fate (Checker.missing c c')) where
  distinct := h.distinct
  given r hr := Nat.le_trans (h.given r hr) later
  ends := by
    rw [List.map_append, map_id_close, List.append_assoc]
    exact ((Checker.missing_append_perm out).append_left _).trans h.ends
  stats := stats

/-- **A probe that is sent** under a number that was not given out before. No probe ends. -/
theorem Balanced.send (h : Balanced c sent ledger) {request : ProbeRequest}
    (out : ∀ key probe, c'.isPending key probe = true ↔
      (key = request.key ∧ probe = request.probe) ∨ c.isPending key probe = true)
    (number : c.lastNumber < request.probe) (last : c'.lastNumber = request.probe)
    (stats : c'.stats = c.stats.countAttempt) : Balanced c' (sent ++ [request]) ledger := by
  have hnew : request.probe ∉ sent.map (·.probe) := by
    rintro hmem
    obtain ⟨r, hr, heq⟩ := List.mem_map.1 hmem
    have := h.given r hr
    omega
  -- what is out was sent, so the new probe was not out
  have hout : (request.key, request.probe) ∉ c.pending := by
    intro hmem
    obtain ⟨r, hr, heq⟩ := List.mem_map.1 (h.ends.mem_iff.1 (List.mem_append_right _ hmem))
    exact hnew (List.mem_map.2 ⟨r, hr, (Prod.mk.inj heq).2⟩)
  have hpending : c'.pending.Perm (c.pending ++ [(request.key, request.probe)]) := by
    have hnodup : (c.pending ++ [(request.key, request.probe)]).Nodup :=
      List.nodup_append.2 ⟨c.nodup_pending, List.pairwise_singleton _ _, fun p hp q hq heq =>
        hout (List.mem_singleton.1 hq ▸ heq ▸ hp)⟩
    rw [List.perm_ext_iff_of_nodup c'.nodup_pending hnodup]
    rintro ⟨key, probe⟩
    rw [Checker.mem_pending, out, List.mem_append, Checker.mem_pending, List.mem_singleton,
      Prod.mk.injEq, or_comm]
  refine ⟨?_, ?_, ?_, ?_⟩
  · rw [List.map_append, List.map_singleton]
    exact List.nodup_append.2 ⟨h.distinct, List.pairwise_singleton _ _, fun p hp q hq heq =>
      hnew (List.mem_singleton.1 hq ▸ heq ▸ hp)⟩
  · intro r hr
    rcases List.mem_append.1 hr with hold | hlast
    · have := h.given r hold
      omega
    · exact Nat.le_of_eq (by rw [List.mem_singleton.1 hlast, last])
  · rw [List.map_append, List.map_singleton]
    refine (hpending.append_left _).trans ?_
    rw [← List.append_assoc]
    exact h.ends.append_right _
  · rw [stats, h.stats, List.length_append, List.length_singleton]
    rfl

/-! ## One event -/

/-- Hosts come and go. -/
theorem Balanced.quiet (h : Balanced c sent ledger) (quiet : Checker.Quiet c c') :
    Balanced c' sent (ledger ++ close .dropped (Checker.missing c c')) :=
  h.end .dropped quiet.out quiet.later (by rw [quiet.stats, h.stats, tally_dropped])

section Probes

variable {t : HostTable} {now : Nat} {jitter : Jitter} {key : SessionKey} {probe : Nat}
  {after : Checker × HostTable × Option Transition}

/-- The outcome of a probe is taken that is out: it ends, and is counted by what it came to. -/
theorem Balanced.finish (h : Balanced c sent ledger) (numbered : c.Numbered)
    (pending : c.isPending key probe = true) {outcome : ProbeOutcome} (fate : Fate)
    {stats : ProbeStats}
    (counted : ∀ probes : List (SessionKey × Nat), probes.length = 1 →
      stats = tally sent.length (ledger ++ close fate probes))
    (taken : { c with stats }.finish t now jitter key probe outcome = .ok after) :
    Balanced after.1 sent (ledger ++ close fate (Checker.missing c after.1)) := by
  have out (k : SessionKey) (p : Nat) :
      after.1.isPending k p = true ↔ k ≠ key ∧ c.isPending k p = true :=
    Checker.isPending_finish (c := { c with stats }) ⟨numbered.given, numbered.inRange⟩ pending
      taken k p
  obtain ⟨hstats, later⟩ := Checker.counts_finish taken
  -- the one probe that is missing is the one whose outcome was taken
  refine h.end fate (fun k p hp => ((out k p).1 hp).2) later ?_
  rw [hstats]
  exact counted _ (by rw [Checker.missing_eq_singleton pending out, List.length_singleton])

/-- Where nothing changes that probes depend on, nothing is entered. -/
theorem Balanced.same (h : Balanced c sent ledger) (fate : Fate)
    (sessions : c'.sessions = c.sessions) (later : c.lastNumber ≤ c'.lastNumber)
    (stats : c'.stats = c.stats) :
    Balanced c' sent (ledger ++ close fate (Checker.missing c c')) := by
  have same (k : SessionKey) (p : Nat) : c'.isPending k p = c.isPending k p := by
    rw [Checker.isPending, Checker.isPending, sessions]
  refine h.end fate (fun k p hp => by rwa [← same]) later ?_
  rw [Checker.missing_eq_nil fun k p hp => by rwa [same], close, List.map_nil, List.append_nil,
    stats, h.stats]

/-- An answer comes in, in time or late. -/
theorem Balanced.deliver (h : Balanced c sent ledger) (numbered : c.Numbered)
    {result : Except ProbeError ProbeAnswer}
    (taken : c.deliver t now jitter key probe result = .ok after) :
    Balanced after.1 sent (ledger ++ close (.answered result) (Checker.missing c after.1)) := by
  by_cases pending : c.isPending key probe = true
  · rw [Checker.deliver_pending c t now jitter pending] at taken
    refine h.finish numbered pending _ (fun probes one => ?_) taken
    rw [tally_answered one, h.stats]
  · rw [Checker.deliver_late c t now jitter pending] at taken
    cases taken
    exact h.same _ rfl (Nat.le_refl _) rfl

/-- The timer goes off that gives a probe up, in time or late. -/
theorem Balanced.giveUp (h : Balanced c sent ledger) (numbered : c.Numbered)
    (taken : c.giveUp t now jitter key probe = .ok after) :
    Balanced after.1 sent (ledger ++ close .givenUp (Checker.missing c after.1)) := by
  by_cases pending : c.isPending key probe = true
  · rw [Checker.giveUp_pending c t now jitter pending] at taken
    refine h.finish numbered pending _ (fun probes one => ?_) taken
    rw [tally_givenUp one, h.stats]
  · rw [Checker.giveUp_late c t now jitter pending] at taken
    cases taken
    exact h.same _ rfl (Nat.le_refl _) rfl

/-- The timer goes off that sends the next probe, in time or late. -/
theorem Balanced.sendProbe (h : Balanced c sent ledger) (now : Nat) (key : SessionKey)
    (epoch : Nat) :
    let sending := c.sendProbe now key epoch
    Balanced sending.1 (sent ++ sending.2.toList)
      (ledger ++ close .givenUp (Checker.missing c sending.1)) := by
  by_cases waits : ∃ live, c.sessions.get? key = some live ∧ key.check < c.checks.length ∧
      live.epoch = epoch ∧ live.session.state = .idle
  · obtain ⟨live, hlive, inRange, rfl, idle⟩ := waits
    have hcheck := List.getElem?_eq_getElem inRange
    have hequation := Checker.sendProbe_eq c now hlive hcheck idle
    obtain ⟨request, hrequest, hkey, hprobe⟩ := Checker.exists_request c now hlive hcheck idle
    dsimp only
    rw [hrequest, Option.toList_some]
    -- the session was idle, so all that was out still is
    have out (k : SessionKey) (p : Nat) :
        (c.sendProbe now key live.epoch).1.isPending k p = true ↔
          (k = request.key ∧ p = request.probe) ∨ c.isPending k p = true := by
      rw [hequation, Checker.isPending_of_insert rfl, hkey, hprobe]
      by_cases hk : k = key
      · subst hk
        have hidle : ¬ c.isPending k p = true := by
          rw [Checker.isPending_iff, hlive]
          rintro ⟨_, heq, sent⟩
          cases heq
          rw [idle] at sent
          cases sent
        simp [hidle, eq_comm]
      · simp [hk]
    rw [Checker.missing_eq_nil fun k p hp => (out k p).2 (.inr hp), close, List.map_nil,
      List.append_nil]
    refine h.send out ?_ ?_ ?_
    · rw [hprobe]
      exact Nat.lt_succ_self _
    · rw [hequation, hprobe]
    · rw [hequation]
  · -- a timer that comes too late sends nothing
    have late (live : LiveSession) (hlive : c.sessions.get? key = some live)
        (inRange : key.check < c.checks.length) (hepoch : live.epoch = epoch) :
        live.session.state ≠ .idle :=
      fun idle => waits ⟨live, hlive, inRange, hepoch, idle⟩
    obtain ⟨n, later, heq⟩ := Checker.sendProbe_late c now late
    dsimp only
    rw [heq, Option.toList_none, List.append_nil]
    exact h.same _ rfl later rfl

end Probes

/-- **One event** keeps the balance. -/
theorem Balanced.apply {w w' : Watch} (h : Balanced w.checker w.sent ledger) (e : Event)
    (numbered : w.checker.Numbered) (done : w.apply e = .ok w') :
    Balanced w'.checker w'.sent (ledger ++ e.booked w w') := by
  cases e with
  | add now hosts =>
    cases done
    exact h.quiet (Checker.quiet_startHosts w.checker w.hosts now hosts _)
  | adopt now hosts =>
    cases done
    exact h.quiet (Checker.quiet_startHosts w.checker w.hosts now hosts _)
  | remove hosts =>
    cases done
    exact h.quiet (Checker.quiet_remove w.checker hosts)
  | shutdown =>
    cases done
    exact h.quiet (Checker.quiet_shutdown w.checker)
  | outside hosts =>
    cases done
    exact h.quiet (.refl w.checker)
  | deliver now jitter request result =>
    obtain ⟨after, hafter, rfl⟩ := Except.map_eq_ok.1 done
    exact h.deliver numbered hafter
  | fire now jitter timer =>
    -- that the timer leaves the agenda is nothing that probes depend on
    have popped :
        Balanced { w.checker with agenda := w.checker.agenda.erase timer } w.sent ledger :=
      ⟨h.distinct, h.given, h.ends, h.stats⟩
    have numbered' :
        ({ w.checker with agenda := w.checker.agenda.erase timer } : Checker).Numbered :=
      ⟨fun other hother => numbered.given other (List.mem_of_mem_erase hother), numbered.inRange⟩
    -- a timer either sends the next probe or gives one up
    obtain ⟨fired, hfired, rfl⟩ := Except.map_eq_ok.1 done
    rcases Checker.fire_cases _ w.hosts now jitter hfired with
      ⟨epoch, -, rfl⟩ | ⟨probe, after, -, hafter, rfl⟩
    · exact popped.sendProbe now timer.key epoch
    · rw [List.append_nil]
      exact popped.giveUp numbered' hafter

/-- **The balance of every run**, by induction over its events. -/
theorem Account.balanced {w : Watch} (account : Account w ledger) :
    Balanced w.checker w.sent ledger := by
  induction account with
  | start checks hosts => exact balanced_fresh checks
  | step e before _ done ih =>
    -- that numbers are given out once is known of every watch that can be reached
    have orderly := (reachable_iff.2 ⟨_, before⟩).orderly
    exact ih.apply e orderly.toNumbered done

/-! ## Every reachable state -/

/-- What the ledger of a watch says: the figures of the checker agree with each other and with the
ledger, and what comes too late has no effect. -/
structure Conserved (w : Watch) (ledger : List Entry) : Prop where
  /-- Every probe that was sent passed, failed, was given up, is out, or was dropped. -/
  attempts : w.checker.stats.attempts =
    w.checker.stats.successes + w.checker.stats.failures + w.checker.stats.timeouts +
      w.checker.pending.length + ledger.countP (·.fate.isDropped)
  network : w.checker.stats.networkFailures ≤ w.checker.stats.failures
  /-- The counters count entries, and the probes that were sent. -/
  stats : w.checker.stats = tally w.sent.length ledger
  /-- The probes that were sent are those in the ledger and those that are out. -/
  ends : (ledger.map (fun e => (e.key, e.probe)) ++ w.checker.pending).Perm
    (w.sent.map fun r => (r.key, r.probe))
  /-- No number stands for two of them, under whatever keys. -/
  once : (ledger.map (·.probe) ++ w.checker.pending.map (·.2)).Nodup
  /-- A probe that ended is out no more, not even for a new session under its key. -/
  ended : ∀ e ∈ ledger, ∀ key, ¬ w.checker.isPending key e.probe = true
  /-- The answer to a probe that is not out changes nothing. -/
  lateAnswer : ∀ key probe, ¬ w.checker.isPending key probe = true → ∀ now jitter result,
    w.checker.deliver w.hosts now jitter key probe result = .ok (w.checker, w.hosts, none)
  /-- A timer that gives up a probe that is not out leaves the agenda, and that is all. -/
  lateTimer : ∀ timer probe, timer.kind = .giveUp probe →
    ¬ w.checker.isPending timer.key probe = true → ∀ now jitter,
    w.fire now jitter timer =
      .ok { w with checker := { w.checker with agenda := w.checker.agenda.erase timer } }

/-- A number stands for one probe, whether that is out or ended, because the numbers that were sent
are all different. -/
theorem Balanced.once {w : Watch} (h : Balanced w.checker w.sent ledger) :
    (ledger.map (·.probe) ++ w.checker.pending.map (·.2)).Nodup := by
  -- without their keys, the two lists still are the same up to order
  have hnumbers := h.ends.map Prod.snd
  rw [List.map_append, List.map_map, List.map_map] at hnumbers
  exact hnumbers.nodup_iff.2 h.distinct

/-- A probe that ended is not out, as its number would be there twice. -/
theorem Balanced.ended {w : Watch} (h : Balanced w.checker w.sent ledger) {e : Entry}
    (he : e ∈ ledger) (key : SessionKey) : ¬ w.checker.isPending key e.probe = true := by
  intro out
  obtain ⟨-, -, hdisjoint⟩ := List.nodup_append.1 h.once
  exact hdisjoint e.probe (List.mem_map_of_mem he) e.probe
    (List.mem_map.2 ⟨(key, e.probe), Checker.mem_pending.2 out, rfl⟩) rfl

/-- Each probe that was sent has one end or is out. Counting both sides gives the equation. -/
theorem Balanced.attempts {w : Watch} (h : Balanced w.checker w.sent ledger) :
    w.checker.stats.attempts =
      w.checker.stats.successes + w.checker.stats.failures + w.checker.stats.timeouts +
        w.checker.pending.length + ledger.countP (·.fate.isDropped) := by
  -- the two lists have the same length, and every entry is of one kind
  have hsent := h.ends.length_eq
  rw [List.length_append, List.length_map, List.length_map, length_ledger] at hsent
  rw [h.stats]
  show w.sent.length = ledger.countP _ + ledger.countP _ + ledger.countP _ + _ + _
  omega

/-- A timer for a probe that is not out has nothing to give up. -/
theorem fire_of_late (w : Watch) (now : Nat) (jitter : Jitter) {timer : Timer} {probe : Nat}
    (hkind : timer.kind = .giveUp probe) (late : ¬ w.checker.isPending timer.key probe = true) :
    w.fire now jitter timer =
      .ok { w with checker := { w.checker with agenda := w.checker.agenda.erase timer } } := by
  have late' : ¬ ({ w.checker with agenda := w.checker.agenda.erase timer } : Checker).isPending
      timer.key probe = true := late
  simp only [Watch.fire, Checker.fire, hkind]
  rw [Checker.giveUp_late _ w.hosts now jitter late']
  show Except.ok (Watch.mk _ w.hosts (w.sent ++ [])) = _
  rw [List.append_nil]

/-- **Each probe counts at most once**, in whatever order hosts come and go, timers go off and
answers come in. -/
theorem Account.conserved {w : Watch} (account : Account w ledger) : Conserved w ledger where
  attempts := account.balanced.attempts
  network := by
    rw [account.balanced.stats]
    exact networkFailures_le ledger
  stats := account.balanced.stats
  ends := account.balanced.ends
  once := account.balanced.once
  ended _ he key := account.balanced.ended he key
  lateAnswer _ _ late now jitter result :=
    Checker.deliver_late w.checker w.hosts now jitter late result
  lateTimer _ _ hkind late now jitter := w.fire_of_late now jitter hkind late

/-! ### A host that is removed and comes again -/

section Returning

/-- The host of `oneHost`. -/
def onlyHost : Host :=
  ⟨0, "a", default, ∅⟩

/-- The host leaves while its first probe is out, and comes again. Its new session, under the same
key, sends another probe, which is answered. -/
def returning : List Event :=
  [.remove [onlyHost], .add 10 [onlyHost],
    .fire 10 (fun _ => (0, 0)) ⟨10, ⟨"a", 0⟩, .nextProbe 3⟩,
    .deliver 20 (fun _ => (0, 0)) ⟨⟨"a", 0⟩, 4, .tcp none []⟩ (.ok .healthy)]

/-- The watch after all this. -/
def returned : Watch :=
  (returning.foldlM apply firstProbe).toOption.get (by decide)

/-- One probe was dropped and one passed. The answer to the first one, when it comes after all,
is not taken for that of the second one. -/
theorem conserved_returned :
    ∃ ledger, Account returned ledger ∧ Conserved returned ledger ∧
      returned.checker.stats = ⟨2, 1, 0, 0, 0⟩ ∧
      returned.checker.deliver returned.hosts 30 (fun _ => (0, 0)) ⟨"a", 0⟩ 2 (.ok .healthy) =
        .ok (returned.checker, returned.hosts, none) := by
  obtain ⟨ledger, account⟩ : ∃ ledger, Account returned ledger := by
    obtain ⟨_, out⟩ := reachable_iff.1 reachable_firstProbe
    exact ⟨_, (((out.step (.remove [onlyHost]) trivial rfl).step
      (.add 10 [onlyHost]) trivial rfl).step
        (.fire 10 (fun _ => (0, 0)) ⟨10, ⟨"a", 0⟩, .nextProbe 3⟩) (by decide) rfl).step
          (.deliver 20 (fun _ => (0, 0)) ⟨⟨"a", 0⟩, 4, .tcp none []⟩ (.ok .healthy)) (by decide) rfl⟩
  exact ⟨ledger, account, account.conserved, by decide,
    account.conserved.lateAnswer ⟨"a", 0⟩ 2 (by decide) 30 _ _⟩

end Returning

end Watch

end LoadBalancing
