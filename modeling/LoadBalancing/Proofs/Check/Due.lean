/-
Firing the timers that are due ends, and leaves none that is due.

The loop takes timers from the agenda that it puts new ones into, so its end is not plain
from its shape. It rests on what a check may wait for: the settings of a check hold that
its timeout and each of its intervals are positive, so whatever a timer asks for, what is
armed for it comes due later than now (`Checker.armed_fire`). Then the timers that are due
at the start are all that ever are due, and each turn makes them one fewer.

The loop is described here without the order in which an agenda is kept. A turn takes a
timer that no other one comes before, and a row of turns is a run (`Turns`). That the list
at hand is in order, in every reachable state, is an invariant (`Reachable.ordered`), and
from it `fireDue` is where each run comes to (`Drains`).

There is one way in which it comes to nothing. A turn that gives a probe up asks for a delay,
and a delay may overflow. The loop is then broken off, with all timers unhandled that stand
behind (`BreaksOff`). It is one or the other, and checks whose delays fit have no share in the
second (`Reachable.fireDue_drains`).
-/
import LoadBalancing.Proofs.Check.Awaited
import LoadBalancing.Proofs.Check.Delays
import LoadBalancing.Proofs.Check.Watched

set_option autoImplicit false

namespace LoadBalancing

/-! ## The order of timers -/

namespace Timer

instance : Std.TransCmp order :=
  inferInstanceAs (Std.TransCmp (compareLex (compareOn due)
    (compareLex (compareOn key)
      (compareLex (compareOn (TimerKind.rank ∘ kind)) (compareOn (TimerKind.number ∘ kind))))))

/-- Timers that compare as equal are the same. -/
instance : Std.LawfulEqCmp order where
  eq_of_compare {a b} h := by
    obtain ⟨hdue, h⟩ := Ordering.then_eq_eq.1 h
    obtain ⟨hkey, h⟩ := Ordering.then_eq_eq.1 h
    obtain ⟨hrank, hnumber⟩ := Ordering.then_eq_eq.1 h
    have hdue := Std.LawfulEqOrd.eq_of_compare hdue
    have hkey := Std.LawfulEqOrd.eq_of_compare hkey
    have hrank := Std.LawfulEqOrd.eq_of_compare hrank
    have hnumber := Std.LawfulEqOrd.eq_of_compare hnumber
    obtain ⟨due, key, kind⟩ := a
    obtain ⟨due', key', kind'⟩ := b
    cases kind <;> cases kind' <;> simp_all [TimerKind.rank, TimerKind.number]

/-- What comes first is due first. -/
theorem due_le_of_isLE {a b : Timer} (h : (a.order b).isLE) : a.due ≤ b.due := by
  have hdue : (compare a.due b.due).isLE := by
    rw [order, compareLex, Ordering.isLE_then_iff_and] at h
    exact h.1
  exact Nat.isLE_compare.1 hdue

end Timer

namespace Agenda

variable {agenda : Agenda} {timer : Timer} {now : Nat}

/-- Each timer stands before all that come after it. -/
def Ordered (agenda : Agenda) : Prop :=
  agenda.Pairwise fun a b => (a.order b).isLE

theorem Ordered.schedule (h : agenda.Ordered) (timer : Timer) :
    (Agenda.schedule timer agenda).Ordered := by
  induction agenda with
  | nil => exact List.pairwise_singleton ..
  | cons next rest ih =>
    obtain ⟨hnext, hrest⟩ := List.pairwise_cons.1 h
    rw [Agenda.schedule]
    split
    next before =>
      have hle : (timer.order next).isLE := by rw [before]; rfl
      refine List.pairwise_cons.2 ⟨?_, h⟩
      intro other hother
      rcases List.mem_cons.1 hother with rfl | hother
      · exact hle
      · exact Std.TransCmp.isLE_trans hle (hnext other hother)
    next behind =>
      -- timers that are equal stay in the order they came in
      have hle : (next.order timer).isLE := by
        rw [← Std.OrientedCmp.isGE_iff_isLE]
        revert behind
        cases timer.order next <;> simp
      refine List.pairwise_cons.2 ⟨?_, ih hrest⟩
      intro other hother
      rcases mem_schedule.1 hother with rfl | hother
      · exact hle
      · exact hnext other hother

theorem Ordered.armed {agenda' : Agenda} (h : agenda.Ordered) (armed : Armed now agenda agenda') :
    agenda'.Ordered := by
  cases armed with
  | none => exact h
  | later _ => exact h.schedule _

/-- What is armed is added to what there is. -/
theorem Armed.exists_perm {agenda' : Agenda} (h : Armed now agenda agenda') :
    ∃ armed : List Timer, armed.length ≤ 1 ∧ (∀ timer ∈ armed, now < timer.due) ∧
      agenda'.Perm (armed ++ agenda) := by
  cases h with
  | none => exact ⟨[], Nat.zero_le 1, by simp, .refl _⟩
  | @later timer later =>
    exact ⟨[timer], Nat.le_refl 1, by simpa using later, schedule_perm timer agenda⟩

theorem Ordered.erase (h : agenda.Ordered) (timer : Timer) :
    Ordered (agenda.erase timer) :=
  h.sublist List.erase_sublist

/-- What is due and what is for later is all there is. -/
theorem due_append_perm (agenda : Agenda) (now : Nat) :
    (agenda.due now ++ agenda.filter fun timer => now < timer.due).Perm agenda := by
  have rest : (agenda.filter fun timer => now < timer.due) =
      agenda.filter fun timer => !decide (timer.due ≤ now) := by
    refine List.filter_congr ?_
    intro timer _
    simp only [← decide_not, Nat.not_le]
  rw [rest, due]
  exact List.filter_append_perm _ agenda

/-- The timer that an agenda gives out next: none comes before it. -/
def First (agenda : Agenda) (timer : Timer) : Prop :=
  timer ∈ agenda ∧ ∀ other ∈ agenda, (timer.order other).isLE

/-- There is only one that can be next. -/
theorem First.eq {other : Timer} (h : agenda.First timer) (h' : agenda.First other) :
    timer = other :=
  Std.LawfulEqCmp.eq_of_compare (Std.OrientedCmp.isLE_antisymm (h.2 other h'.1) (h'.2 timer h.1))

theorem Ordered.first {rest : List Timer} (h : Ordered (timer :: rest)) :
    First (timer :: rest) timer := by
  refine ⟨List.mem_cons_self, ?_⟩
  intro other hother
  rcases List.mem_cons.1 hother with rfl | hother
  · exact Std.ReflCmp.isLE_rfl
  · exact (List.pairwise_cons.1 h).1 other hother

/-- The first of the timers that are due is the first of all. -/
theorem Ordered.exists_rest {others : List Timer} (h : agenda.Ordered)
    (hdue : agenda.due now = timer :: others) :
    timer.due ≤ now ∧ ∃ rest, agenda = timer :: rest ∧ Agenda.due rest now = others := by
  have hmem : timer ∈ agenda ∧ timer.due ≤ now := by
    have : timer ∈ agenda.due now := by rw [hdue]; exact List.mem_cons_self
    simpa [due] using this
  refine ⟨hmem.2, ?_⟩
  cases agenda with
  | nil => cases hmem.1
  | cons first rest =>
    by_cases hfirst : first.due ≤ now
    · rw [due, List.filter_cons_of_pos (by simpa using hfirst)] at hdue
      obtain ⟨rfl, hrest⟩ := List.cons.inj hdue
      exact ⟨rest, rfl, hrest⟩
    · -- what stands behind a timer for later is for later too
      have hle : first.due ≤ timer.due := Timer.due_le_of_isLE (h.first.2 timer hmem.1)
      omega

end Agenda

/-! ## The loop -/

namespace Watch

variable {w w' : Watch} {timer : Timer} {now : Nat} {jitter : Jitter}

/-- Doing all that is due. -/
def fireDue (w : Watch) (now : Nat) (jitter : Jitter) : Except Overflow Watch :=
  (w.checker.fireDue w.hosts now jitter).map fun fired : Checker.Fired =>
    ⟨fired.checker, fired.hosts, w.sent ++ fired.probes⟩

/-- A run of the loop, with the timers that it handles: each is the next of the agenda, and
is due. -/
inductive Turns (now : Nat) (jitter : Jitter) : Watch → List Timer → Watch → Prop where
  | none (w : Watch) : Turns now jitter w [] w
  | more {w first w' : Watch} {timer : Timer} {others : List Timer} :
      w.checker.agenda.First timer → timer.due ≤ now → w.fire now jitter timer = .ok first →
      Turns now jitter first others w' → Turns now jitter w (timer :: others) w'

/-- A timer that goes off is gone, and what is armed for it is for later. -/
theorem armed_fire (h : w.fire now jitter timer = .ok w') :
    Agenda.Armed now (w.checker.agenda.erase timer) w'.checker.agenda := by
  obtain ⟨fired, hfired, rfl⟩ := Except.map_eq_ok.1 h
  exact Checker.armed_fire hfired

theorem armed_deliver {request : ProbeRequest} {result : Except ProbeError ProbeAnswer}
    (h : w.deliver now jitter request result = .ok w') :
    Agenda.Armed now w.checker.agenda w'.checker.agenda := by
  obtain ⟨after, hafter, rfl⟩ := Except.map_eq_ok.1 h
  rw [Checker.deliver] at hafter
  split at hafter
  · exact Checker.armed_finish (c := { w.checker with stats := w.checker.stats.countResult result })
      hafter
  · cases hafter
    exact .none

theorem ordered_fire (h : w.checker.agenda.Ordered) (done : w.fire now jitter timer = .ok w') :
    w'.checker.agenda.Ordered :=
  (h.erase timer).armed (armed_fire done)

/-- If the next timer is for later, there is nothing to do. -/
theorem fireDue_of_later (later : ∀ timer ∈ w.checker.agenda.head?, now < timer.due) :
    w.fireDue now jitter = .ok w := by
  rw [fireDue, Checker.fireDue_of_later later]
  show Except.ok (Watch.mk w.checker w.hosts (w.sent ++ [])) = .ok w
  rw [List.append_nil]

/-- If it is due, it goes off, and all that is due then is done. -/
theorem fireDue_of_due {rest : List Timer} (hagenda : w.checker.agenda = timer :: rest)
    (hdue : timer.due ≤ now) :
    w.fireDue now jitter = w.fire now jitter timer >>= fun first => first.fireDue now jitter := by
  have taken : w.checker.agenda.erase timer = rest := by
    rw [hagenda, List.erase_cons_head]
  rw [fireDue, Checker.fireDue_of_due hagenda hdue, fire, taken, Except.map_bind]
  dsimp only
  cases { w.checker with agenda := rest }.fire w.hosts now jitter timer with
  | error overflow => rfl
  | ok first =>
    show ((first.checker.fireDue first.hosts now jitter).map _).map _ =
      (first.checker.fireDue first.hosts now jitter).map _
    cases first.checker.fireDue first.hosts now jitter with
    | error overflow => rfl
    | ok others =>
      show Except.ok (Watch.mk _ _ (w.sent ++ (first.probes ++ others.probes))) = _
      rw [← List.append_assoc]
      rfl

/-- An overflow breaks the loop off: some of the timers that were due are handled, and the next
one asks for a delay that overflows. It is not handled, and those behind it are not. -/
def BreaksOff (w : Watch) (now : Nat) (jitter : Jitter) (overflow : Overflow) : Prop :=
  ∃ (handled : List Timer) (timer : Timer) (others : List Timer) (last : Watch),
    w.checker.agenda.due now = handled ++ timer :: others ∧ Turns now jitter w handled last ∧
      last.fire now jitter timer = .error overflow

/-- All that was due is handled, first things first, or an overflow breaks that off. The
induction is on the timers that are due, of which each turn leaves all but the first. -/
theorem fireDue_cases (h : w.checker.agenda.Ordered) :
    (∃ w', w.fireDue now jitter = .ok w' ∧
        Turns now jitter w (w.checker.agenda.due now) w') ∨
      ∃ overflow, w.fireDue now jitter = .error overflow ∧ w.BreaksOff now jitter overflow := by
  unfold BreaksOff
  generalize hdue : w.checker.agenda.due now = due
  induction due generalizing w with
  | nil =>
    refine .inl ⟨w, fireDue_of_later fun timer hhead => ?_, .none w⟩
    have hnot := List.filter_eq_nil_iff.1 hdue timer (List.mem_of_head? hhead)
    simpa using hnot
  | cons timer others ih =>
    obtain ⟨hnow, rest, hagenda, hrest⟩ := h.exists_rest hdue
    -- the agenda is in order, so who is due and stands first comes before all others
    have next : w.checker.agenda.First timer := by
      rw [hagenda] at h ⊢
      exact h.first
    rw [fireDue_of_due hagenda hnow]
    cases hfire : w.fire now jitter timer with
    | error overflow => exact .inr ⟨overflow, rfl, [], timer, others, w, rfl, .none w, hfire⟩
    | ok first =>
      -- what a timer arms is not due yet, so the others that were due are all that is left
      have left : first.checker.agenda.due now = others := by
        rw [(armed_fire hfire).due_eq, hagenda, List.erase_cons_head, hrest]
      rcases ih (ordered_fire h hfire) left with
        ⟨w', hdone, turns⟩ | ⟨overflow, hbroken, handled, timer', others', last, hsplit, turns, hlast⟩
      · exact .inl ⟨w', hdone, .more next hnow hfire turns⟩
      · exact .inr ⟨overflow, hbroken, timer :: handled, timer', others', last, by rw [hsplit]; rfl,
          .more next hnow hfire turns, hlast⟩

/-- A run that has stopped somewhere goes on to where any complete run ends: whichever
timer is next, there is only one. -/
theorem Turns.onward {handled due : List Timer} {last : Watch}
    (complete : Turns now jitter w due last)
    (none_due : ∀ timer ∈ last.checker.agenda, now < timer.due)
    (run : Turns now jitter w handled w') :
    ∃ rest, handled ++ rest = due ∧ Turns now jitter w' rest last := by
  induction run generalizing due with
  | none w => exact ⟨due, rfl, complete⟩
  | more first hdue hfire _ ih =>
    cases complete with
    | none =>
      have hlater := none_due _ first.1
      omega
    | more first' _ hfire' others =>
      cases first.eq first'
      cases hfire.symm.trans hfire'
      obtain ⟨rest, rfl, hrest⟩ := ih others
      exact ⟨rest, rfl, hrest⟩

theorem Turns.ordered {handled : List Timer} (run : Turns now jitter w handled w')
    (h : w.checker.agenda.Ordered) : w'.checker.agenda.Ordered := by
  induction run with
  | none w => exact h
  | more _ _ hfire _ ih => exact ih (ordered_fire h hfire)

/-- No turn changes the checks. -/
theorem Turns.checks {handled : List Timer} (run : Turns now jitter w handled w') :
    w'.checker.checks = w.checker.checks := by
  induction run with
  | none w => rfl
  | more _ _ hfire _ ih =>
    obtain ⟨fired, hfired, rfl⟩ := Except.map_eq_ok.1 hfire
    exact ih.trans (Checker.sameWatch_fire hfired).checks

/-- Nothing is lost in a run: what was set and what was armed on the way is either handled
or still set, and for each timer that was handled at most one was armed, for later. -/
theorem Turns.balance {handled : List Timer} (run : Turns now jitter w handled w') :
    ∃ armed : List Timer, armed.length ≤ handled.length ∧ (∀ timer ∈ armed, now < timer.due) ∧
      (handled ++ w'.checker.agenda).Perm (armed ++ w.checker.agenda) := by
  induction run with
  | none w => exact ⟨[], Nat.le_refl _, by simp, .refl _⟩
  | @more w first w' timer others next _ hfire _ ih =>
    obtain ⟨armed, hlength, later, hperm⟩ := ih
    obtain ⟨new, hnew, hlater, hnext⟩ := (armed_fire hfire).exists_perm
    refine ⟨new ++ armed, ?_, ?_, ?_⟩
    · rw [List.length_append, List.length_cons]
      omega
    · exact List.forall_mem_append.2 ⟨hlater, later⟩
    · -- the timer that is handled stood in the agenda
      have stood := (List.perm_cons_erase next.1).symm
      rw [List.append_assoc]
      calc List.Perm (timer :: (others ++ w'.checker.agenda))
            (timer :: (armed ++ first.checker.agenda)) := hperm.cons timer
        List.Perm _ (timer :: (armed ++ (new ++ w.checker.agenda.erase timer))) :=
          (hnext.append_left armed).cons timer
        List.Perm _ (timer :: (new ++ (armed ++ w.checker.agenda.erase timer))) :=
          (List.perm_append_comm_assoc ..).cons timer
        List.Perm _ (new ++ (armed ++ timer :: w.checker.agenda.erase timer)) :=
          List.perm_middle.symm.trans (List.perm_middle.symm.append_left new)
        List.Perm _ (new ++ (armed ++ w.checker.agenda)) :=
          (stood.append_left armed).append_left new

/-! ## Every reachable state -/

theorem Step.ordered {w w' : Watch} (step : Step w w') (h : w.checker.agenda.Ordered) :
    w'.checker.agenda.Ordered := by
  -- the beginning of a session is the one thing that hosts coming in are made of
  have start (host : Host) (c : Checker) (t : HostTable) (now index : Nat) (v : Health)
      (hc : c.agenda.Ordered) : (c.startSession t now host index v).1.agenda.Ordered := by
    rw [Checker.startSession_eq]
    exact hc.schedule _
  cases step with
  | add now hosts =>
    exact Checker.startHosts_induct (P := fun c => c.agenda.Ordered) w.checker w.hosts now hosts _
      (fun host c t index v _ => start host c t now index v) h
  | adopt now hosts =>
    exact Checker.startHosts_induct (P := fun c => c.agenda.Ordered) w.checker w.hosts now hosts _
      (fun host c t index v _ => start host c t now index v) h
  | remove hosts => exact h
  | shutdown => exact .nil
  | fire now jitter timer _ done => exact ordered_fire h done
  | deliver now jitter request result _ done => exact h.armed (armed_deliver done)
  | outside hosts => exact h

theorem Reachable.ordered {w : Watch} (r : Reachable w) : w.checker.agenda.Ordered := by
  induction r with
  | start checks hosts => exact .nil
  | step _ hstep ih => exact hstep.ordered ih

/-- What the loop over the due timers makes of a watch. -/
structure Drains (w : Watch) (now : Nat) (jitter : Jitter) (w' : Watch) : Prop where
  /-- The loop ends: it handles the timers that were due at the start, each once. -/
  ends : Turns now jitter w (w.checker.agenda.due now) w'
  /-- It does nothing else. Wherever a run of it stands, it has handled the first of these
  timers, and it goes on with the rest of them, to the same end. -/
  onward : ∀ {handled : List Timer} {v : Watch}, Turns now jitter w handled v →
    ∃ rest, handled ++ rest = w.checker.agenda.due now ∧ Turns now jitter v rest w'
  /-- They are handled in the order in which they were due. -/
  inOrder : (w.checker.agenda.due now).Pairwise fun a b => a.due ≤ b.due
  /-- None is due in the end. -/
  none_due : ∀ timer ∈ w'.checker.agenda, now < timer.due
  /-- What is set in the end is what was not due, and at most one timer for each one that
  was handled, all of them for later. -/
  left : ∃ armed : List Timer, armed.length ≤ (w.checker.agenda.due now).length ∧
    (∀ timer ∈ armed, now < timer.due) ∧
    w'.checker.agenda.Perm (armed ++ w.checker.agenda.filter fun timer => now < timer.due)

theorem Turns.drains {w' : Watch} (ends : Turns now jitter w (w.checker.agenda.due now) w')
    (ordered : w.checker.agenda.Ordered) : w.Drains now jitter w' := by
  obtain ⟨armed, hlength, later, hperm⟩ := ends.balance
  have left : w'.checker.agenda.Perm
      (armed ++ w.checker.agenda.filter fun timer => now < timer.due) := by
    refine (List.perm_append_left_iff (w.checker.agenda.due now)).1 (hperm.trans ?_)
    calc List.Perm (armed ++ w.checker.agenda) (armed ++ (w.checker.agenda.due now ++
            w.checker.agenda.filter fun timer => now < timer.due)) :=
          (w.checker.agenda.due_append_perm now).symm.append_left armed
      List.Perm _ _ := List.perm_append_comm_assoc ..
  have none_due (timer : Timer) (h : timer ∈ w'.checker.agenda) : now < timer.due := by
    rcases List.mem_append.1 (left.mem_iff.1 h) with h | h
    · exact later timer h
    · simpa using (List.mem_filter.1 h).2
  exact {
    ends
    onward := fun run => ends.onward none_due run
    inOrder := (ordered.sublist List.filter_sublist).imp Timer.due_le_of_isLE
    none_due
    left := ⟨armed, hlength, later, left⟩ }

/-- Wherever a run stands, the loop has come by there: it does what is left to do. -/
theorem Turns.fireDue_eq {handled : List Timer} (run : Turns now jitter w handled w')
    (h : w.checker.agenda.Ordered) :
    w.fireDue now jitter = w'.fireDue now jitter ∧
      w.checker.agenda.due now = handled ++ w'.checker.agenda.due now := by
  induction run with
  | none w => exact ⟨rfl, rfl⟩
  | @more w first w' timer others next hdue hfire _ ih =>
    obtain ⟨rest, hagenda⟩ : ∃ rest, w.checker.agenda = timer :: rest := by
      -- the timer stands in front of the others
      cases hagenda : w.checker.agenda with
      | nil =>
        rw [hagenda] at next
        cases next.1
      | cons front rest =>
        rw [hagenda] at h next
        exact ⟨rest, by rw [next.eq h.first]⟩
    obtain ⟨hsame, hleft⟩ := ih (ordered_fire h hfire)
    refine ⟨?_, ?_⟩
    · rw [fireDue_of_due hagenda hdue, hfire, ← hsame]
      rfl
    · have hrest : first.checker.agenda.due now = Agenda.due rest now := by
        rw [(armed_fire hfire).due_eq, hagenda, List.erase_cons_head]
      rw [hagenda, List.cons_append, ← hleft, hrest, Agenda.due, Agenda.due,
        List.filter_cons_of_pos (by simpa using hdue)]

section Ordered

variable (ordered : w.checker.agenda.Ordered)

include ordered

/-- The loop returns exactly what it drains to. -/
theorem fireDue_eq_ok_iff : w.fireDue now jitter = .ok w' ↔ w.Drains now jitter w' := by
  constructor
  · intro hdone
    rcases fireDue_cases ordered with ⟨last, hlast, turns⟩ | ⟨overflow, hbroken, -⟩
    · cases hdone.symm.trans hlast
      exact turns.drains ordered
    · cases hdone.symm.trans hbroken
  · intro drains
    rw [(drains.ends.fireDue_eq ordered).1]
    exact fireDue_of_later fun timer hhead => drains.none_due timer (List.mem_of_head? hhead)

/-- It is broken off exactly where a run of it comes to a turn that is. -/
theorem fireDue_eq_error_iff {overflow : Overflow} :
    w.fireDue now jitter = .error overflow ↔ w.BreaksOff now jitter overflow := by
  constructor
  · intro hbroken
    rcases fireDue_cases ordered with ⟨last, hlast, -⟩ | ⟨overflow', hbroken', breaks⟩
    · cases hbroken.symm.trans hlast
    · cases hbroken.symm.trans hbroken'
      exact breaks
  · rintro ⟨handled, timer, others, last, hsplit, turns, hfire⟩
    obtain ⟨hsame, hdue⟩ := turns.fireDue_eq ordered
    have left : last.checker.agenda.due now = timer :: others :=
      List.append_cancel_left (hdue.symm.trans hsplit)
    obtain ⟨hnow, rest, hagenda, -⟩ := (turns.ordered ordered).exists_rest left
    rw [hsame, fireDue_of_due hagenda hnow, hfire]
    rfl

end Ordered

/-- Whatever the random numbers are, no delay of these checks overflows. -/
def Roomy (checks : List CheckSettings) : Prop :=
  ∀ s ∈ checks, ∀ verdict flipped hasTraffic first second,
    (s.nextDelay? verdict flipped hasTraffic first second).isSome = true

/-- Checks are roomy if all delays that their configurations promise fit. -/
theorem roomy_ofConfig {checks : List CheckSettings}
    (fits : ∀ s ∈ checks, ∃ c, CheckSettings.ofConfig c = .ok s ∧ c.InRange ∧
      ∀ verdict flipped hasTraffic, c.Fits verdict flipped hasTraffic) : Roomy checks := by
  intro s hs verdict flipped hasTraffic
  obtain ⟨c, settled, inRange, hfits⟩ := fits s hs
  exact (CheckSettings.returns_iff_fits settled inRange).2 (hfits verdict flipped hasTraffic)

/-- **Firing ends, and leaves none due**, or an overflow breaks it off. Which of the two it is
rests on the delays that the handled timers ask for, so it is the first one where none of the checks
has a delay that overflows. -/
theorem Reachable.fireDue_drains {w : Watch} (r : Reachable w) (now : Nat) (jitter : Jitter) :
    (∀ w', w.fireDue now jitter = .ok w' ↔ w.Drains now jitter w') ∧
      (∀ overflow, w.fireDue now jitter = .error overflow ↔ w.BreaksOff now jitter overflow) ∧
      (Roomy w.checker.checks → ∃ w', w.fireDue now jitter = .ok w') := by
  have ordered := r.ordered
  refine ⟨fun w' => fireDue_eq_ok_iff ordered, fun overflow => fireDue_eq_error_iff ordered,
    fun roomy => ?_⟩
  rcases fireDue_cases ordered with ⟨last, hlast, -⟩ | ⟨overflow, -, breaks⟩
  · exact ⟨last, hlast⟩
  · -- the turn that is broken off asks one of the checks for a delay
    obtain ⟨handled, timer, others, last, -, turns, hfire⟩ := breaks
    obtain ⟨s, hs, verdict, flipped, hasTraffic, first, second, hnone⟩ :=
      Checker.exists_of_fire_overflow _ last.hosts now jitter (Except.map_eq_error.1 hfire)
    have hroom := roomy s (turns.checks ▸ hs) verdict flipped hasTraffic first second
    rw [hnone] at hroom
    cases hroom

/-! ### Two hosts whose probes are given up -/

section Instances

/-- A second host came at 50, before the probe of the first was given up. -/
def twoHosts : Watch :=
  let enrolled := firstProbe.hosts.enroll "b" 1 default ∅
  ⟨(firstProbe.checker.add enrolled.2 50 [enrolled.1]).1,
    (firstProbe.checker.add enrolled.2 50 [enrolled.1]).2, firstProbe.sent⟩

/-- At 100 the first probe of one host is due, and the other one's is given up. -/
theorem fireDue_drains_twoHosts :
    Reachable twoHosts ∧
      twoHosts.checker.agenda.due 100 =
        [⟨50, ⟨"b", 0⟩, .nextProbe 3⟩, ⟨100, ⟨"a", 0⟩, .giveUp 2⟩] ∧
      Roomy twoHosts.checker.checks ∧
      ∃ w', twoHosts.fireDue 100 (fun _ => (0, 0)) = .ok w' ∧
        twoHosts.Drains 100 (fun _ => (0, 0)) w' := by
  have enrolled := reachable_firstProbe.step
    (.outside _ (firstProbe.hosts.enroll "b" 1 default ∅).2)
  have reachable : Reachable twoHosts :=
    enrolled.step (.add _ 50 [(firstProbe.hosts.enroll "b" 1 default ∅).1])
  obtain ⟨returns, -, finishes⟩ := reachable.fireDue_drains 100 fun _ => (0, 0)
  have roomy : Roomy twoHosts.checker.checks := by
    refine roomy_ofConfig fun s hs => ?_
    obtain rfl := List.mem_singleton.1 hs
    refine ⟨{ CheckConfig.standard with
      timeout := 100, interval := 500, jitterPercent := 0, unhealthyThreshold := 2
      healthyThreshold := 1 }, rfl, by constructor <;> decide, ?_⟩
    intro verdict flipped hasTraffic
    rw [CheckConfig.fits_iff]
    cases verdict <;> cases flipped <;> cases hasTraffic <;> decide
  obtain ⟨w', hdone⟩ := finishes roomy
  exact ⟨reachable, by decide, roomy, w', hdone, (returns w').1 hdone⟩

/-- A check that is hardly ever made. -/
def distantSettings : CheckSettings :=
  (CheckSettings.ofConfig CheckSettings.distantCheck).toOption.get rfl

/-- Two hosts that are checked so, before any probe. -/
def distantArrivals : Watch :=
  let a := HostTable.empty.enroll "a" 1 default ∅
  let b := a.2.enroll "b" 1 default ∅
  ⟨((Checker.fresh [distantSettings]).add b.2 0 [a.1, b.1]).1,
    ((Checker.fresh [distantSettings]).add b.2 0 [a.1, b.1]).2, []⟩

/-- The first probe of one host is out. -/
def distantProbe : Watch :=
  (distantArrivals.fire 0 (fun _ => (0, 0)) ⟨0, ⟨"a", 0⟩, .nextProbe 1⟩).toOption.get (by decide)

/-- The first probes of both are. -/
def distantProbes : Watch :=
  (distantProbe.fire 0 (fun _ => (0, 0)) ⟨0, ⟨"b", 0⟩, .nextProbe 2⟩).toOption.get (by decide)

/-- When both are to be given up, the loop stops at the first one, whatever the random numbers
are. -/
theorem not_drains_distantProbes :
    Reachable distantProbes ∧
      (∃ s, CheckSettings.ofConfig CheckSettings.distantCheck = .ok s ∧
        distantProbes.checker.checks = [s]) ∧
      distantProbes.checker.agenda.due 1000 =
        [⟨1000, ⟨"a", 0⟩, .giveUp 3⟩, ⟨1000, ⟨"b", 0⟩, .giveUp 4⟩] ∧
      ∀ jitter, (∃ overflow, distantProbes.fireDue 1000 jitter = .error overflow) ∧
        ∀ w', ¬ distantProbes.Drains 1000 jitter w' := by
  have arrivals : Reachable distantArrivals := (Reachable.start _ _).step (.add _ 0 _)
  have reachable : Reachable distantProbes :=
    (arrivals.step (.fire 0 _ _ (by decide) (Except.eq_ok_get _))).step
      (.fire 0 _ _ (by decide) (Except.eq_ok_get _))
  have hdue : distantProbes.checker.agenda.due 1000 =
      [⟨1000, ⟨"a", 0⟩, .giveUp 3⟩, ⟨1000, ⟨"b", 0⟩, .giveUp 4⟩] := by decide
  refine ⟨reachable, ⟨distantSettings, Except.eq_ok_get _, rfl⟩, hdue, fun jitter => ?_⟩
  -- the delay to the next probe cannot be computed, whatever number is drawn
  obtain ⟨overflow, hfire⟩ : ∃ overflow,
      distantProbes.fire 1000 jitter ⟨1000, ⟨"a", 0⟩, .giveUp 3⟩ = .error overflow :=
    ⟨_, rfl⟩
  have hbroken := (fireDue_eq_error_iff reachable.ordered).2
    ⟨[], _, _, distantProbes, hdue, .none _, hfire⟩
  refine ⟨⟨overflow, hbroken⟩, fun w' drains => ?_⟩
  cases ((fireDue_eq_ok_iff reachable.ordered).2 drains).symm.trans hbroken

end Instances

end Watch

end LoadBalancing
