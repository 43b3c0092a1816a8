/-
What each operation of a checker does, said once.

A checker changes in one way only: a session is put under its key together with a
timer for it, under a number that was never given out before. Beginning a session,
sending its probe and taking the outcome of a probe are three cases of it, and each
has an equation here. What is left are timers and answers that come too late, and
they change nothing that a session depends on. The proofs about checkers use these
lemmas and do not open the operations.

Where a delay overflows there is no checker afterwards, so all that is said about the
outcome of a probe is said of one that was taken. What a timer comes to is split by its
kind once (`fire_cases`), and there is one induction over the timers that are due
(`fireDue_induct`).
-/
import LoadBalancing.Check.Checker
import LoadBalancing.Proofs.Outcome
import LoadBalancing.Proofs.SortedMap.Lookup

set_option autoImplicit false

namespace LoadBalancing

/-! ## Settings -/

/-- What a configuration that can run is read into. -/
theorem CheckSettings.of_ofConfig {config : CheckConfig} {settings : CheckSettings}
    (settled : ofConfig config = .ok settings) :
    zeroField? config = none ∧ ProbePayload.ofConfig config.probe = .ok settings.payload ∧
      settings.healthyThreshold = config.healthyThreshold ∧
      settings.unhealthyThreshold = config.unhealthyThreshold := by
  rw [ofConfig] at settled
  split at settled
  · cases settled
  next nonzero =>
    dsimp only at settled
    split at settled
    · cases settled
    · obtain ⟨payload, hpayload, hsettings⟩ := Except.bind_eq_ok.1 settled
      cases hsettings
      exact ⟨nonzero, hpayload, rfl, rfl⟩

/-! ## Sessions -/

namespace Session

variable (s : Session) (settings : CheckSettings) (t : HostTable) (probe : Nat)
  (outcome : ProbeOutcome)

@[simp] theorem isPending_iff : s.isPending probe = true ↔ s.state = .sent probe := by
  rw [isPending, decide_eq_true_eq]

@[simp] theorem host_count : (s.count outcome).host = s.host := by
  cases outcome <;> rfl

@[simp] theorem check_count : (s.count outcome).check = s.check := by
  cases outcome <;> rfl

@[simp] theorem state_count : (s.count outcome).state = s.state := by
  cases outcome <;> rfl

/-- The outcome of a probe is counted for the same host. -/
@[simp] theorem host_complete : (s.complete settings t probe outcome).2.1.host = s.host := by
  simp only [complete]
  split
  · rfl
  · split <;> simp

/-- The outcome of the pending probe leaves the session idle. -/
theorem state_complete {s : Session} (pending : s.state = .sent probe) :
    (s.complete settings t probe outcome).2.1.state = .idle := by
  have hp : s.isPending probe = true := (isPending_iff s probe).2 pending
  simp only [complete, hp, Bool.not_true, Bool.false_eq_true, if_false]
  split <;> simp

end Session

/-! ## The agenda -/

namespace Agenda

/-- Scheduling adds a timer, wherever it comes to stand. -/
theorem schedule_perm (timer : Timer) (agenda : Agenda) :
    (schedule timer agenda).Perm (timer :: agenda) := by
  induction agenda with
  | nil => exact .refl _
  | cons next rest ih =>
    rw [schedule]
    split
    · exact .refl _
    · exact (ih.cons next).trans (.swap ..)

theorem mem_schedule {timer other : Timer} {agenda : Agenda} :
    other ∈ schedule timer agenda ↔ other = timer ∨ other ∈ agenda := by
  rw [(schedule_perm timer agenda).mem_iff, List.mem_cons]

end Agenda

/-! ## Checkers -/

namespace Checker

variable (c : Checker) (t : HostTable) (now : Nat) (jitter : Jitter)

theorem isPending_iff {key : SessionKey} {probe : Nat} :
    c.isPending key probe = true ↔
      ∃ live, c.sessions.get? key = some live ∧ live.session.state = .sent probe := by
  rw [isPending]
  split <;> simp_all

/-- Beginning a session puts it under its key, idle and due at once. -/
theorem startSession_eq (host : Host) (index : Nat) (initial : Health) :
    (c.startSession t now host index initial).1 =
      { c with
        sessions := c.sessions.insert ⟨host.address, index⟩
          ⟨⟨host, index, .idle, 0, 0, false⟩, c.lastNumber + 1⟩
        agenda := Agenda.schedule
          ⟨now, ⟨host.address, index⟩, .nextProbe (c.lastNumber + 1)⟩ c.agenda
        lastNumber := c.lastNumber + 1 } :=
  rfl

/-- A session that waits in the epoch of the timer sends its probe. -/
theorem sendProbe_eq {key : SessionKey} {live : LiveSession} {settings : CheckSettings}
    (hlive : c.sessions.get? key = some live) (hcheck : c.checks[key.check]? = some settings)
    (idle : live.session.state = .idle) :
    (c.sendProbe now key live.epoch).1 =
      { c with
        sessions := c.sessions.insert key
          { live with session := { live.session with state := .sent (c.lastNumber + 1) } }
        agenda := Agenda.schedule
          ⟨now + settings.timeout, key, .giveUp (c.lastNumber + 1)⟩ c.agenda
        lastNumber := c.lastNumber + 1
        stats := c.stats.countAttempt } := by
  simp [sendProbe, hlive, hcheck, Session.send, idle]

/-- It asks for the probe under the number that it just gave out. -/
theorem exists_request {key : SessionKey} {live : LiveSession} {settings : CheckSettings}
    (hlive : c.sessions.get? key = some live) (hcheck : c.checks[key.check]? = some settings)
    (idle : live.session.state = .idle) :
    ∃ request, (c.sendProbe now key live.epoch).2 = some request ∧ request.key = key ∧
      request.probe = c.lastNumber + 1 :=
  ⟨⟨key, c.lastNumber + 1, settings.payload⟩,
    by simp [sendProbe, hlive, hcheck, Session.send, idle], rfl, rfl⟩

/-- Any other timer for a next probe comes too late, and at most uses up a number. -/
theorem sendProbe_late {key : SessionKey} {epoch : Nat}
    (late : ∀ live, c.sessions.get? key = some live → key.check < c.checks.length →
      live.epoch = epoch → live.session.state ≠ .idle) :
    ∃ n, c.lastNumber ≤ n ∧ c.sendProbe now key epoch = ({ c with lastNumber := n }, none) := by
  rw [sendProbe]
  split
  next live settings hlive hcheck =>
    split
    · exact ⟨c.lastNumber, Nat.le_refl _, rfl⟩
    next hepoch =>
      -- the session is of this epoch but does not wait, so the number is given out in vain
      have inRange : key.check < c.checks.length := (List.getElem?_eq_some_iff.1 hcheck).1
      have hstate := late live hlive inRange (Classical.not_not.1 hepoch)
      refine ⟨c.lastNumber + 1, Nat.le_succ _, ?_⟩
      cases hs : live.session.state with
      | idle => exact absurd hs hstate
      | sent probe => simp [Session.send, hs]
      | cancelled => simp [Session.send, hs]
  · exact ⟨c.lastNumber, Nat.le_refl _, rfl⟩

/-- Taking the outcome of a probe puts the session back under its key, in a new epoch,
with a timer for its next probe. -/
theorem exists_of_finish {key : SessionKey} {live : LiveSession} {settings : CheckSettings}
    (hlive : c.sessions.get? key = some live) (hcheck : c.checks[key.check]? = some settings)
    {probe : Nat} {outcome : ProbeOutcome} {after : Checker × HostTable × Option Transition}
    (h : c.finish t now jitter key probe outcome = .ok after) :
    ∃ delay, after =
      ({ c with
          sessions := c.sessions.insert key
            ⟨(live.session.complete settings t probe outcome).2.1.clearFlipped, c.lastNumber + 1⟩
          agenda := Agenda.schedule
            ⟨now + delay, key, .nextProbe (c.lastNumber + 1)⟩ c.agenda
          lastNumber := c.lastNumber + 1 },
        (live.session.complete settings t probe outcome).2.2,
        (live.session.complete settings t probe outcome).1) := by
  simp only [finish, hlive, hcheck] at h
  split at h
  · cases h
  · cases h
    exact ⟨_, rfl⟩

/-- Without a session, or without a check for it, nothing happens. -/
theorem finish_cases {key : SessionKey} {probe : Nat} {outcome : ProbeOutcome}
    {after : Checker × HostTable × Option Transition}
    (h : c.finish t now jitter key probe outcome = .ok after) :
    after = (c, t, none) ∨
      ∃ live settings delay, c.sessions.get? key = some live ∧
        after =
          ({ c with
              sessions := c.sessions.insert key
                ⟨(live.session.complete settings t probe outcome).2.1.clearFlipped,
                  c.lastNumber + 1⟩
              agenda := Agenda.schedule
                ⟨now + delay, key, .nextProbe (c.lastNumber + 1)⟩ c.agenda
              lastNumber := c.lastNumber + 1 },
            (live.session.complete settings t probe outcome).2.2,
            (live.session.complete settings t probe outcome).1) := by
  cases hlive : c.sessions.get? key with
  | none =>
    simp only [finish, hlive] at h
    cases h
    exact .inl rfl
  | some live =>
    cases hcheck : c.checks[key.check]? with
    | none =>
      simp only [finish, hlive, hcheck] at h
      cases h
      exact .inl rfl
    | some settings =>
      -- that there is a state afterwards means that a delay could be computed
      obtain ⟨delay, hafter⟩ := exists_of_finish c t now jitter hlive hcheck h
      exact .inr ⟨live, settings, delay, rfl, hafter⟩

/-- Only a delay that overflows breaks off what the outcome of a probe asks for. -/
theorem exists_of_overflow {key : SessionKey} {probe : Nat} {outcome : ProbeOutcome}
    {overflow : Overflow} (h : c.finish t now jitter key probe outcome = .error overflow) :
    ∃ settings ∈ c.checks, ∃ verdict flipped hasTraffic first second,
      settings.nextDelay? verdict flipped hasTraffic first second = none := by
  rw [finish] at h
  split at h
  next live settings _ hcheck =>
    dsimp only at h
    split at h
    next hdelay => exact ⟨settings, List.mem_of_getElem? hcheck, _, _, _, _, _, hdelay⟩
    next => cases h
  next => cases h

theorem deliver_pending {key : SessionKey} {probe : Nat} (pending : c.isPending key probe = true)
    (result : Except ProbeError ProbeAnswer) :
    c.deliver t now jitter key probe result =
      { c with stats := c.stats.countResult result }.finish t now jitter key probe
        (.ofResult result) := by
  rw [deliver, if_pos pending]

theorem giveUp_pending {key : SessionKey} {probe : Nat} (pending : c.isPending key probe = true) :
    c.giveUp t now jitter key probe =
      { c with stats := c.stats.countTimeout }.finish t now jitter key probe .timedOut := by
  rw [giveUp, if_pos pending]

/-- An answer to a probe that is not out changes nothing. -/
theorem deliver_late {key : SessionKey} {probe : Nat} (late : ¬ c.isPending key probe = true)
    (result : Except ProbeError ProbeAnswer) :
    c.deliver t now jitter key probe result = .ok (c, t, none) := by
  rw [deliver, if_neg late]

/-- Giving up on a probe that is not out changes nothing. -/
theorem giveUp_late {key : SessionKey} {probe : Nat} (late : ¬ c.isPending key probe = true) :
    c.giveUp t now jitter key probe = .ok (c, t, none) := by
  rw [giveUp, if_neg late]

/-! ### Timers -/

/-- A timer sends a probe or gives one up, and nothing else. -/
theorem fire_cases {timer : Timer} {fired : Fired} (h : c.fire t now jitter timer = .ok fired) :
    (∃ epoch, timer.kind = .nextProbe epoch ∧
        fired = ⟨(c.sendProbe now timer.key epoch).1, t, [],
          (c.sendProbe now timer.key epoch).2.toList⟩) ∨
      ∃ probe after, timer.kind = .giveUp probe ∧
        c.giveUp t now jitter timer.key probe = .ok after ∧
        fired = ⟨after.1, after.2.1, after.2.2.toList, []⟩ := by
  rw [fire] at h
  split at h
  next epoch hkind =>
    cases h
    exact .inl ⟨epoch, hkind, rfl⟩
  next probe hkind =>
    obtain ⟨after, hafter, h⟩ := Except.bind_eq_ok.1 h
    cases h
    exact .inr ⟨probe, after, hkind, hafter, rfl⟩

/-- A timer that is broken off gave a probe up, and the delay after it overflows. -/
theorem exists_of_fire_overflow {timer : Timer} {overflow : Overflow}
    (h : c.fire t now jitter timer = .error overflow) :
    ∃ settings ∈ c.checks, ∃ verdict flipped hasTraffic first second,
      settings.nextDelay? verdict flipped hasTraffic first second = none := by
  rw [fire] at h
  split at h
  · cases h
  next probe _ =>
    rcases Except.bind_eq_error.1 h with hgiveUp | ⟨after, -, hnever⟩
    · rw [giveUp] at hgiveUp
      split at hgiveUp
      · exact exists_of_overflow { c with stats := c.stats.countTimeout } t now jitter hgiveUp
      · cases hgiveUp
    · cases hnever

/-- If the next timer is for later, there is nothing to do. -/
theorem fireDue_of_later {c : Checker} {now : Nat}
    (later : ∀ timer ∈ c.agenda.head?, now < timer.due) (t : HostTable) (jitter : Jitter) :
    c.fireDue t now jitter = .ok ⟨c, t, [], []⟩ := by
  rw [fireDue]
  split
  · rfl
  next timer rest hagenda =>
    rw [dif_pos (later timer (by rw [hagenda]; rfl))]

/-- If it is due, it goes off, and then all that is due is done. -/
theorem fireDue_of_due {c : Checker} {now : Nat} {timer : Timer} {rest : List Timer}
    (hagenda : c.agenda = timer :: rest) (due : timer.due ≤ now) (t : HostTable)
    (jitter : Jitter) :
    c.fireDue t now jitter =
      ({ c with agenda := rest }.fire t now jitter timer >>= fun first =>
        (first.checker.fireDue first.hosts now jitter).map first.followedBy) := by
  rw [fireDue]
  split
  next hnone => simp [hnone] at hagenda
  next hcons =>
    obtain ⟨rfl, rfl⟩ := List.cons.inj (hcons.symm.trans hagenda)
    -- an overflow ends the loop, which is what it does in the chain as well
    rw [dif_neg (Nat.not_lt.2 due)]
    split
    next hfire =>
      rw [hfire]
      rfl
    next first hfire =>
      simp only [hfire]
      rfl

/-- **One induction over the timers that are due.** What holds where nothing is due, and is handed
on from what is left after the first due timer to all of it, holds of all that is done. -/
theorem fireDue_induct {P : Checker → HostTable → Fired → Prop}
    (done : ∀ c t, P c t ⟨c, t, [], []⟩)
    (turn : ∀ (c : Checker) (t : HostTable) (timer : Timer) (rest : List Timer)
      (first others : Fired), c.agenda = timer :: rest → timer.due ≤ now →
      { c with agenda := rest }.fire t now jitter timer = .ok first →
      P first.checker first.hosts others → P c t (first.followedBy others))
    {fired : Fired} (h : c.fireDue t now jitter = .ok fired) : P c t fired := by
  fun_induction fireDue c t now jitter generalizing fired with
  | case1 c t hnone =>
    cases h
    exact done c t
  | case2 c t timer rest hagenda later =>
    cases h
    exact done c t
  | case3 c t timer rest hagenda later overflow hfire => cases h
  | case4 c t timer rest hagenda later first hfire fewer ih =>
    obtain ⟨others, hothers, rfl⟩ := Except.map_eq_ok.1 h
    exact turn c t timer rest first others hagenda (Nat.not_lt.1 later) hfire (ih hothers)

/-! ### Hosts that come and go -/

/-- What every beginning of a session keeps, the beginning of all sessions of a host
keeps. The checks stay the same on the way, so the numbers stay in range. -/
theorem startHost_induct {P : Checker → Prop} {host : Host}
    (initial : HostTable → Host → Nat → CheckSettings → Health)
    (start : ∀ c t index v, index < c.checks.length → P c →
      P (c.startSession t now host index v).1)
    (h : P c) : P (startHost initial now c t host).1 := by
  -- that the checks stay is part of what is shown, since the range of the numbers rests on it
  have both : P (startHost initial now c t host).1 ∧
      (startHost initial now c t host).1.checks = c.checks := by
    refine List.foldlRecOn
      (motive := fun s : Checker × HostTable => P s.1 ∧ s.1.checks = c.checks)
      c.checks.zipIdx _ ⟨h, rfl⟩ ?_
    rintro ⟨c', t'⟩ ⟨h', same⟩ ⟨settings, index⟩ he
    have inRange : index < c'.checks.length := by
      have := List.snd_lt_of_mem_zipIdx he
      rw [same]
      omega
    exact ⟨start c' t' index _ inRange h', same⟩
  exact both.1

/-- What every beginning of a session keeps, taking in hosts keeps, whatever verdicts
they begin with. -/
theorem startHosts_induct {P : Checker → Prop} (hosts : List Host)
    (initial : HostTable → Host → Nat → CheckSettings → Health)
    (start : ∀ host c t index v, index < c.checks.length → P c →
      P (c.startSession t now host index v).1)
    (h : P c) :
    P (hosts.foldl (fun (c, t) host => startHost initial now c t host) (c, t)).1 := by
  refine List.foldlRecOn (motive := fun s : Checker × HostTable => P s.1) hosts _ h ?_
  rintro ⟨c', t'⟩ h' host -
  exact startHost_induct c' t' now initial (start host) h'

/-- Removing hosts takes away the sessions under their addresses, and no others. -/
theorem get?_remove (hosts : List Host) (key : SessionKey) :
    (c.remove hosts).sessions.get? key =
      if key.check < c.checks.length ∧ ∃ h ∈ hosts, h.address = key.address then none
      else c.sessions.get? key := by
  -- the keys that are taken out are those of the addresses, one for each check
  have told : key ∈ (hosts.flatMap fun h => (List.range c.checks.length).map fun index =>
      (⟨h.address, index⟩ : SessionKey)) ↔
      key.check < c.checks.length ∧ ∃ h ∈ hosts, h.address = key.address := by
    simp only [List.mem_flatMap, List.mem_map, List.mem_range]
    constructor
    · rintro ⟨h, hh, index, hindex, rfl⟩
      exact ⟨hindex, h, hh, rfl⟩
    · rintro ⟨hindex, h, hh, haddress⟩
      exact ⟨h, hh, key.check, hindex, by rw [haddress]⟩
  rw [remove, SortedMap.get?_foldl_erase]
  simp only [told]

end Checker

end LoadBalancing
