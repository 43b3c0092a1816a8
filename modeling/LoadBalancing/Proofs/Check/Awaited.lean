/-
No session is ever stuck: each waits for exactly one timer, and that timer is set.

Timers are never taken back, and sessions are replaced under their keys, so the
agenda holds timers that nobody means any more. What keeps them apart is their
number. Every timer carries a number that was given out before, and what a session
waits for carries the number given out last when it began to wait. Hence a timer
that was just set is the only one of its kind (`armed_eq_zero_of_fresh`), and this
is all that the three ways to renew a session have to use (`Orderly.renew`).

An idle session waits for the timer of its epoch. A session whose probe is out
waits for the timer that gives the probe up, and there must be no timer of its
epoch left, else its host would be probed twice as often from then on.
-/
import LoadBalancing.Proofs.Check.Watch

set_option autoImplicit false

namespace LoadBalancing

/-! ## Counting timers -/

namespace Agenda

/-- How many timers there are for a session and for one purpose. -/
def armed (agenda : Agenda) (key : SessionKey) (kind : TimerKind) : Nat :=
  agenda.countP fun timer => decide (timer.key = key ∧ timer.kind = kind)

theorem armed_schedule (timer : Timer) (agenda : Agenda) (key : SessionKey) (kind : TimerKind) :
    (schedule timer agenda).armed key kind =
      agenda.armed key kind + if timer.key = key ∧ timer.kind = kind then 1 else 0 := by
  rw [armed, (schedule_perm timer agenda).countP_eq, List.countP_cons]
  simp [armed]

/-- A timer that goes off is one fewer of its own kind, and of no other. -/
theorem armed_erase {timer : Timer} {agenda : Agenda} (h : timer ∈ agenda) (key : SessionKey)
    (kind : TimerKind) :
    armed (agenda.erase timer) key kind =
      agenda.armed key kind - if timer.key = key ∧ timer.kind = kind then 1 else 0 := by
  have hperm : agenda.Perm (timer :: agenda.erase timer) := List.perm_cons_erase h
  have hcount : agenda.armed key kind = armed (agenda.erase timer) key kind +
      if timer.key = key ∧ timer.kind = kind then 1 else 0 := by
    rw [armed, hperm.countP_eq, List.countP_cons]
    simp [armed]
  omega

theorem armed_pos {timer : Timer} {agenda : Agenda} (h : timer ∈ agenda) :
    0 < agenda.armed timer.key timer.kind :=
  List.countP_pos_iff.2 ⟨timer, h, by simp⟩

/-- No timer carries a number that was not given out yet. -/
theorem armed_eq_zero_of_fresh {agenda : Agenda} {n : Nat}
    (numbered : ∀ timer ∈ agenda, timer.kind.number ≤ n) (key : SessionKey) {kind : TimerKind}
    (later : n < kind.number) : agenda.armed key kind = 0 := by
  rw [armed, List.countP_eq_zero]
  intro timer htimer
  have hle := numbered timer htimer
  simp only [decide_eq_true_eq, not_and]
  rintro - rfl
  omega

end Agenda

/-! ## What a session waits for -/

namespace LiveSession

/-- The agenda holds what a session waits for, once, and nothing that would make it
send a second probe. -/
def Awaits (live : LiveSession) (agenda : Agenda) (key : SessionKey) : Prop :=
  match live.session.state with
  | .idle => agenda.armed key (.nextProbe live.epoch) = 1
  | .sent probe =>
    agenda.armed key (.giveUp probe) = 1 ∧ agenda.armed key (.nextProbe live.epoch) = 0
  | .cancelled => False

/-- A timer of this kind is the one that the session waits for. -/
def Means (live : LiveSession) : TimerKind → Prop
  | .nextProbe epoch => live.epoch = epoch ∧ live.session.state = .idle
  | .giveUp probe => live.session.state = .sent probe

variable {live : LiveSession} {agenda agenda' : Agenda} {key : SessionKey} {timer : Timer} {n : Nat}

/-- What a session waits for depends on the timers of its own key alone. -/
theorem Awaits.congr (h : live.Awaits agenda key)
    (same : ∀ kind, agenda'.armed key kind = agenda.armed key kind) : live.Awaits agenda' key := by
  unfold Awaits at h ⊢
  split <;> simp_all

/-- A session that begins to wait in a new epoch has one timer for it, the new one. -/
theorem awaits_schedule_of_idle (idle : live.session.state = .idle)
    (given : ∀ timer ∈ agenda, timer.kind.number ≤ n) (new : live.epoch = n + 1) (due : Nat) :
    live.Awaits (Agenda.schedule ⟨due, key, .nextProbe live.epoch⟩ agenda) key := by
  have hnone : agenda.armed key (.nextProbe live.epoch) = 0 :=
    Agenda.armed_eq_zero_of_fresh given key (by rw [TimerKind.number]; omega)
  simp only [Awaits, idle]
  rw [Agenda.armed_schedule, hnone]
  simp

/-- A session that sends a probe under a new number has one timer to give it up, and
none for a next probe if none was left. -/
theorem awaits_schedule_of_sent {probe : Nat} (sent : live.session.state = .sent probe)
    (given : ∀ timer ∈ agenda, timer.kind.number ≤ n) (new : probe = n + 1) (due : Nat)
    (fired : agenda.armed key (.nextProbe live.epoch) = 0) :
    live.Awaits (Agenda.schedule ⟨due, key, .giveUp probe⟩ agenda) key := by
  have hnone : agenda.armed key (.giveUp probe) = 0 :=
    Agenda.armed_eq_zero_of_fresh given key (by rw [TimerKind.number]; omega)
  simp only [Awaits, sent]
  rw [Agenda.armed_schedule, Agenda.armed_schedule, hnone, fired]
  simp

/-- A timer that the session does not wait for may go off. -/
theorem Awaits.erase (h : live.Awaits agenda timer.key) (hmem : timer ∈ agenda)
    (stale : ¬ live.Means timer.kind) : live.Awaits (agenda.erase timer) timer.key := by
  unfold Awaits at h ⊢
  split at h
  next idle =>
    have hkind : timer.kind ≠ .nextProbe live.epoch := by
      intro heq
      exact stale (by rw [heq]; exact ⟨rfl, idle⟩)
    rw [Agenda.armed_erase hmem, if_neg fun both => hkind both.2, Nat.sub_zero]
    exact h
  next probe sent =>
    -- the timer that gives the probe up is still set, and none that sends another one
    have hkind : timer.kind ≠ .giveUp probe := by
      intro heq
      exact stale (by rw [heq]; exact sent)
    refine ⟨?_, ?_⟩
    · rw [Agenda.armed_erase hmem, if_neg fun both => hkind both.2, Nat.sub_zero]
      exact h.1
    · rw [Agenda.armed_erase hmem, h.2, Nat.zero_sub]
  next => exact h.elim

/-- While a timer for the next probe of the session's epoch is set, the session is idle,
and that timer is the only one. -/
theorem Awaits.idle_of_mem (h : live.Awaits agenda timer.key) (hmem : timer ∈ agenda)
    (hkind : timer.kind = .nextProbe live.epoch) :
    live.session.state = .idle ∧ agenda.armed timer.key (.nextProbe live.epoch) = 1 := by
  -- a session whose probe is out has no such timer
  have hpos : 0 < agenda.armed timer.key (.nextProbe live.epoch) := by
    rw [← hkind]
    exact Agenda.armed_pos hmem
  unfold Awaits at h
  split at h
  next idle => exact ⟨idle, h⟩
  next => omega
  next => exact h.elim

end LiveSession

/-! ## The invariant -/

namespace Checker

/-- Timers carry numbers that were given out, and sessions belong to checks that exist. -/
structure Numbered (c : Checker) : Prop where
  given : ∀ timer ∈ c.agenda, timer.kind.number ≤ c.lastNumber
  inRange : ∀ key live, c.sessions.get? key = some live → key.check < c.checks.length

/-- Every session but that of `key` waits for a timer that is set. So it is in the midst of
a step, when the timer of one session is gone and the next one is not there yet. -/
structure OrderlyBut (c : Checker) (key : SessionKey) : Prop extends Numbered c where
  awaited : ∀ k live, k ≠ key → c.sessions.get? k = some live → live.Awaits c.agenda k

/-- Every session waits for a timer that is set. -/
structure Orderly (c : Checker) : Prop extends Numbered c where
  awaited : ∀ key live, c.sessions.get? key = some live → live.Awaits c.agenda key

variable {c : Checker}

theorem Orderly.but (h : c.Orderly) (key : SessionKey) : c.OrderlyBut key :=
  ⟨h.toNumbered, fun k live _ => h.awaited k live⟩

theorem orderly_fresh (checks : List CheckSettings) : (fresh checks).Orderly where
  given timer htimer := by simp [fresh] at htimer
  inRange key live hlive := by simp [fresh] at hlive
  awaited key live hlive := by simp [fresh] at hlive

/-- **One renewal.** A session is put under its key with one new timer. If all other
sessions waited properly before, and this one does now, then all do. Nothing is asked
of the session that was there before, which may have lost its timer already. -/
theorem OrderlyBut.renew {c' : Checker} {key : SessionKey} {live : LiveSession} {timer : Timer}
    (h : c.OrderlyBut key) (inRange : key.check < c.checks.length)
    (self : live.Awaits (Agenda.schedule timer c.agenda) key)
    (hkey : timer.key = key) (hnumber : timer.kind.number = c.lastNumber + 1)
    (hchecks : c'.checks = c.checks) (hsessions : c'.sessions = c.sessions.insert key live)
    (hagenda : c'.agenda = Agenda.schedule timer c.agenda)
    (hlast : c'.lastNumber = c.lastNumber + 1) : c'.Orderly where
  given t ht := by
    rw [hagenda, Agenda.mem_schedule] at ht
    rcases ht with rfl | ht
    · omega
    · have := h.given t ht
      omega
  inRange k l hl := by
    rw [hsessions, SortedMap.get?_insert] at hl
    rw [hchecks]
    split at hl
    next heq => rwa [heq]
    next => exact h.inRange k l hl
  awaited k l hl := by
    rw [hsessions, SortedMap.get?_insert] at hl
    rw [hagenda]
    split at hl
    next heq =>
      cases hl
      rwa [heq]
    next hne =>
      -- another session: the new timer is not under its key
      refine (h.awaited k l hne hl).congr fun kind => ?_
      have hother : ¬(timer.key = k ∧ timer.kind = kind) := fun both => hne (both.1.symm.trans hkey)
      rw [Agenda.armed_schedule, if_neg hother, Nat.add_zero]

/-! ## Steps of the owner -/

theorem Orderly.startSession (h : c.Orderly) (t : HostTable) (now : Nat) (host : Host)
    (index : Nat) (v : Health) (inRange : index < c.checks.length) :
    (c.startSession t now host index v).1.Orderly := by
  rw [startSession_eq]
  exact (h.but _).renew inRange
    (LiveSession.awaits_schedule_of_idle rfl h.given rfl now) rfl rfl rfl rfl rfl rfl

theorem Orderly.add (h : c.Orderly) (t : HostTable) (now : Nat) (hosts : List Host) :
    (c.add t now hosts).1.Orderly :=
  startHosts_induct c t now hosts _
    (fun host _ t index v inRange h => h.startSession t now host index v inRange) h

theorem Orderly.adopt (h : c.Orderly) (t : HostTable) (now : Nat) (hosts : List Host) :
    (c.adopt t now hosts).1.Orderly :=
  startHosts_induct c t now hosts _
    (fun host _ t index v inRange h => h.startSession t now host index v inRange) h

/-- Removing hosts leaves all timers, and the sessions of the others. -/
theorem Orderly.remove (h : c.Orderly) (hosts : List Host) : (c.remove hosts).Orderly := by
  -- a session that is there afterwards was there before
  have left (key : SessionKey) (live : LiveSession)
      (hl : (c.remove hosts).sessions.get? key = some live) :
      c.sessions.get? key = some live := by
    rw [get?_remove] at hl
    split at hl
    · cases hl
    · exact hl
  exact ⟨⟨h.given, fun key live hl => h.inRange key live (left key live hl)⟩,
    fun key live hl => h.awaited key live (left key live hl)⟩

theorem orderly_shutdown (c : Checker) : c.shutdown.Orderly where
  given timer htimer := by simp [Checker.shutdown] at htimer
  inRange key live hlive := by simp [Checker.shutdown] at hlive
  awaited key live hlive := by simp [Checker.shutdown] at hlive

/-! ## Probes and their outcomes -/

section Probes

variable (t : HostTable) (now : Nat) (jitter : Jitter) {key : SessionKey} {probe : Nat}

/-- What a checker counts has no part in it. -/
theorem OrderlyBut.withStats (h : c.OrderlyBut key) (stats : ProbeStats) :
    ({ c with stats } : Checker).OrderlyBut key :=
  ⟨⟨h.given, h.inRange⟩, h.awaited⟩

/-- A session that sends its probe waits for the timer that gives it up, and for no other
if the timer of its epoch is gone. -/
theorem OrderlyBut.sendProbe (h : c.OrderlyBut key) {live : LiveSession}
    (hlive : c.sessions.get? key = some live) (idle : live.session.state = .idle)
    (fired : c.agenda.armed key (.nextProbe live.epoch) = 0) :
    (c.sendProbe now key live.epoch).1.Orderly := by
  have inRange := h.inRange key live hlive
  rw [sendProbe_eq c now hlive (List.getElem?_eq_getElem inRange) idle]
  refine h.renew inRange ?_ rfl rfl rfl rfl rfl rfl
  exact LiveSession.awaits_schedule_of_sent rfl h.given rfl _ fired

/-- Once the outcome of its probe is taken, the session waits again, even though the
timer that would have given the probe up may be gone. -/
theorem OrderlyBut.finish (h : c.OrderlyBut key) (pending : c.isPending key probe = true)
    {outcome : ProbeOutcome} {after : Checker × HostTable × Option Transition}
    (taken : c.finish t now jitter key probe outcome = .ok after) : after.1.Orderly := by
  obtain ⟨live, hlive, sent⟩ := (isPending_iff c).1 pending
  have inRange := h.inRange key live hlive
  obtain ⟨delay, rfl⟩ :=
    exists_of_finish c t now jitter hlive (List.getElem?_eq_getElem inRange) taken
  have idle : (live.session.complete c.checks[key.check] t probe outcome).2.1.clearFlipped.state
      = .idle := by
    rw [Session.clearFlipped]
    exact Session.state_complete _ t probe outcome sent
  exact h.renew inRange (LiveSession.awaits_schedule_of_idle idle h.given rfl (now + delay))
    rfl rfl rfl rfl rfl rfl

/-- An answer to a probe, in time or late. The timer that would give the probe up stays
behind in the agenda, and the session does not wait for it any more. -/
theorem Orderly.deliver (h : c.Orderly) {result : Except ProbeError ProbeAnswer}
    {after : Checker × HostTable × Option Transition}
    (taken : c.deliver t now jitter key probe result = .ok after) : after.1.Orderly := by
  by_cases pending : c.isPending key probe = true
  · rw [deliver_pending c t now jitter pending] at taken
    exact ((h.but key).withStats (c.stats.countResult result)).finish t now jitter pending taken
  · rw [deliver_late c t now jitter pending] at taken
    cases taken
    exact h

end Probes

/-! ## Timers -/

section Timers

variable (t : HostTable) (now : Nat) (jitter : Jitter) {timer : Timer}

/-- Numbers that are used up for nothing do no harm. -/
theorem Orderly.withLastNumber (h : c.Orderly) {n : Nat} (later : c.lastNumber ≤ n) :
    ({ c with lastNumber := n } : Checker).Orderly :=
  ⟨⟨fun timer htimer => Nat.le_trans (h.given timer htimer) later, h.inRange⟩, h.awaited⟩

/-- When a timer leaves the agenda, only the session of its key can miss it. -/
theorem Orderly.pop (h : c.Orderly) (hmem : timer ∈ c.agenda) :
    ({ c with agenda := c.agenda.erase timer } : Checker).OrderlyBut timer.key where
  given other hother := h.given other (List.mem_of_mem_erase hother)
  inRange := h.inRange
  awaited key live hne hlive := by
    refine (h.awaited key live hlive).congr fun kind => ?_
    show Agenda.armed (c.agenda.erase timer) key kind = c.agenda.armed key kind
    rw [Agenda.armed_erase hmem, if_neg fun both => hne both.1.symm, Nat.sub_zero]

/-- Nobody misses a timer that its session does not wait for. -/
theorem Orderly.popStale (h : c.Orderly) (hmem : timer ∈ c.agenda)
    (stale : ∀ live, c.sessions.get? timer.key = some live → ¬ live.Means timer.kind) :
    ({ c with agenda := c.agenda.erase timer } : Checker).Orderly where
  toNumbered := (h.pop hmem).toNumbered
  awaited key live hlive := by
    by_cases hkey : key = timer.key
    · -- the session of this key waits for another timer than this one
      subst hkey
      exact (h.awaited timer.key live hlive).erase hmem (stale live hlive)
    · exact (h.pop hmem).awaited key live hkey hlive

/-- The timer that its session waits for: the session moves on, and waits for the next. -/
theorem Orderly.fire_of_means (h : c.Orderly) (hmem : timer ∈ c.agenda) {live : LiveSession}
    (hlive : c.sessions.get? timer.key = some live) (hmeans : live.Means timer.kind)
    {fired : Fired}
    (goesOff : { c with agenda := c.agenda.erase timer }.fire t now jitter timer = .ok fired) :
    fired.checker.Orderly := by
  rcases fire_cases _ t now jitter goesOff with
    ⟨epoch, hkind, rfl⟩ | ⟨probe, after, hkind, hafter, rfl⟩
  · rw [hkind] at hmeans
    obtain ⟨rfl, idle⟩ := hmeans
    -- it was the only timer of this epoch, so there is none when the probe is out
    have hone := ((h.awaited timer.key live hlive).idle_of_mem hmem hkind).2
    have hnone : Agenda.armed (c.agenda.erase timer) timer.key (.nextProbe live.epoch) = 0 := by
      rw [Agenda.armed_erase hmem, hone, if_pos ⟨rfl, hkind⟩]
    exact (h.pop hmem).sendProbe now hlive idle hnone
  · rw [hkind] at hmeans
    -- the probe is still out, so its outcome is that it was given up
    have pending : ({ c with agenda := c.agenda.erase timer } : Checker).isPending
        timer.key probe = true := (isPending_iff _).2 ⟨live, hlive, hmeans⟩
    rw [giveUp_pending _ t now jitter pending] at hafter
    exact ((h.pop hmem).withStats c.stats.countTimeout).finish t now jitter pending hafter

/-- A timer that no session waits for: nothing happens that a session could notice. -/
theorem Orderly.fire_of_stale (h : c.Orderly) (hmem : timer ∈ c.agenda)
    (stale : ∀ live, c.sessions.get? timer.key = some live → ¬ live.Means timer.kind)
    {fired : Fired}
    (goesOff : { c with agenda := c.agenda.erase timer }.fire t now jitter timer = .ok fired) :
    fired.checker.Orderly := by
  have popped := h.popStale hmem stale
  rcases fire_cases _ t now jitter goesOff with
    ⟨epoch, hkind, rfl⟩ | ⟨probe, after, hkind, hafter, rfl⟩
  · -- a session of this epoch would be the one that the timer is for, were it idle
    have late (live : LiveSession) (hlive : c.sessions.get? timer.key = some live)
        (_ : timer.key.check < c.checks.length) (hepoch : live.epoch = epoch) :
        live.session.state ≠ .idle := by
      intro idle
      refine stale live hlive ?_
      rw [hkind]
      exact ⟨hepoch, idle⟩
    obtain ⟨n, hn, heq⟩ := sendProbe_late { c with agenda := c.agenda.erase timer } now late
    simp only [heq]
    exact popped.withLastNumber hn
  · have late : ¬ ({ c with agenda := c.agenda.erase timer } : Checker).isPending
        timer.key probe = true := by
      rw [isPending_iff]
      rintro ⟨live, hlive, hsent⟩
      refine stale live hlive ?_
      rw [hkind]
      exact hsent
    rw [giveUp_late _ t now jitter late] at hafter
    cases hafter
    exact popped

/-- **One timer.** Any timer may go off, at any time. If it is the one that its session
waits for, the session moves on and waits for the next; if not, nothing happens that a
session could notice. -/
theorem Orderly.fire (h : c.Orderly) (hmem : timer ∈ c.agenda) {fired : Fired}
    (goesOff : { c with agenda := c.agenda.erase timer }.fire t now jitter timer = .ok fired) :
    fired.checker.Orderly := by
  by_cases meant : ∃ live, c.sessions.get? timer.key = some live ∧ live.Means timer.kind
  · obtain ⟨live, hlive, hmeans⟩ := meant
    exact h.fire_of_means t now jitter hmem hlive hmeans goesOff
  · refine h.fire_of_stale t now jitter hmem ?_ goesOff
    intro live hlive hmeans
    exact meant ⟨live, hlive, hmeans⟩

end Timers

end Checker

/-! ## Every reachable state -/

namespace Watch

theorem Step.orderly {w w' : Watch} (step : Step w w') (h : w.checker.Orderly) :
    w'.checker.Orderly := by
  cases step with
  | add now hosts => exact h.add w.hosts now hosts
  | adopt now hosts => exact h.adopt w.hosts now hosts
  | remove hosts => exact h.remove hosts
  | shutdown => exact Checker.orderly_shutdown w.checker
  | fire now jitter timer hmem done =>
    obtain ⟨fired, hfired, rfl⟩ := Except.map_eq_ok.1 done
    exact h.fire w.hosts now jitter hmem hfired
  | deliver now jitter request result _ done =>
    obtain ⟨after, hafter, rfl⟩ := Except.map_eq_ok.1 done
    exact h.deliver w.hosts now jitter hafter
  | outside hosts => exact h

theorem Reachable.orderly {w : Watch} (r : Reachable w) : w.checker.Orderly := by
  induction r with
  | start checks hosts => exact Checker.orderly_fresh checks
  | step _ hstep ih => exact hstep.orderly ih

/-- **No session is ever stuck.** Whatever happened before, and in whatever order, a
session is either idle, and there is exactly one timer that sends the next probe of its
epoch, or one probe is out, and there is exactly one timer that gives it up and none that
sends another in the same epoch. A session that is cancelled is not kept. -/
theorem Reachable.session_awaited {w : Watch} (r : Reachable w) {key : SessionKey}
    {live : LiveSession} (hlive : w.checker.sessions.get? key = some live) :
    (live.session.state = .idle ∧ w.checker.agenda.armed key (.nextProbe live.epoch) = 1) ∨
      ∃ probe, live.session.state = .sent probe ∧
        w.checker.agenda.armed key (.giveUp probe) = 1 ∧
        w.checker.agenda.armed key (.nextProbe live.epoch) = 0 := by
  have hawaits := r.orderly.awaited key live hlive
  unfold LiveSession.Awaits at hawaits
  split at hawaits
  next idle => exact .inl ⟨idle, hawaits⟩
  next probe sent => exact .inr ⟨probe, sent, hawaits⟩
  next => exact hawaits.elim

/-- A watch of one host by one check, before the first probe. -/
def oneHost : Watch :=
  let check : CheckSettings :=
    { timeout := 100, interval := 500, jitter := 0, jitterPercent := 0, unhealthyInterval := 500
      burstInterval := none, noTrafficInterval := none, healthyThreshold := 1
      unhealthyThreshold := 2, alwaysStartHealthy := false, payload := .tcp none []
      timeout_pos := by decide, interval_pos := by decide, unhealthyInterval_pos := by decide
      burstInterval_pos := by simp, noTrafficInterval_pos := by simp }
  let (host, hosts) := HostTable.empty.enroll "a" 1 default ∅
  ⟨((Checker.fresh [check]).add hosts 0 [host]).1,
    ((Checker.fresh [check]).add hosts 0 [host]).2, []⟩

/-- The same watch, when the timer that was due at once has gone off. -/
def firstProbe : Watch :=
  (oneHost.fire 0 (fun _ => (0, 0)) ⟨0, ⟨"a", 0⟩, .nextProbe 1⟩).toOption.get (by decide)

theorem reachable_oneHost : Reachable oneHost :=
  (Reachable.start _ _).step (.add _ 0 _)

theorem reachable_firstProbe : Reachable firstProbe :=
  reachable_oneHost.step (.fire 0 _ _ (by decide) (Except.eq_ok_get _))

/-- The probe is out, and the timer that gives it up is set. -/
theorem session_awaited_firstProbe :
    ∃ live, firstProbe.checker.sessions.get? ⟨"a", 0⟩ = some live ∧
      live.session.state = .sent 2 ∧
      firstProbe.checker.agenda.armed ⟨"a", 0⟩ (.giveUp 2) = 1 ∧
      firstProbe.checker.agenda.armed ⟨"a", 0⟩ (.nextProbe live.epoch) = 0 := by
  obtain ⟨live, hlive, sent⟩ : ∃ live, firstProbe.checker.sessions.get? ⟨"a", 0⟩ = some live ∧
      live.session.state = .sent 2 :=
    ⟨_, rfl, rfl⟩
  refine ⟨live, hlive, sent, ?_⟩
  -- the session has a probe out, so it is not the idle case
  rcases reachable_firstProbe.session_awaited hlive with ⟨idle, _⟩ | ⟨probe, hsent, htimers⟩
  · rw [sent] at idle
    cases idle
  · rw [sent] at hsent
    cases hsent
    exact htimers

end Watch

end LoadBalancing
