/-
The agenda of a checker: what is to be done with which session, and when.

A timer either sends the next probe of a session or gives up on a probe that is out.
Timers are never taken back. Each carries the number under which it was set, and
when it comes due the session tells by that number whether it is still meant: a
session that was replaced, or whose probe was answered, has another one by then.

An agenda is kept in the order in which its timers come due. Of timers due at the
same time, those of the smaller session key come first.
-/
import LoadBalancing.Host.Basic

set_option autoImplicit false

namespace LoadBalancing

/-! ## Session keys -/

/-- Names a session (`SessionKey`): the address of its host, and the number of its check. -/
structure SessionKey where
  address : String
  check : Nat
  deriving DecidableEq, Repr

namespace SessionKey

/-- Keys compare by address, then by check. -/
def order : SessionKey → SessionKey → Ordering :=
  compareLex (compareOn address) (compareOn check)

instance : Ord SessionKey := ⟨order⟩

instance : Std.TransOrd SessionKey :=
  inferInstanceAs (Std.TransCmp (compareLex (compareOn address) (compareOn check)))

/-- Keys that compare as equal name the same session. -/
instance : Std.LawfulEqOrd SessionKey where
  eq_of_compare {a b} h := by
    obtain ⟨haddress, hcheck⟩ := Ordering.then_eq_eq.1 h
    cases a
    cases b
    simp_all [compareOn]

end SessionKey

/-! ## Timers -/

/-- What to do when a timer comes due (`TimerKind`). -/
inductive TimerKind where
  /-- Send the next probe, if the session still waits in this epoch. -/
  | nextProbe (epoch : Nat)
  /-- Give up on this probe, if it is still out. -/
  | giveUp (probe : Nat)
  deriving DecidableEq, Repr

namespace TimerKind

/-- Probes are sent before others are given up. -/
def rank : TimerKind → Nat
  | .nextProbe _ => 0
  | .giveUp _ => 1

/-- The number under which the timer was set. -/
def number : TimerKind → Nat
  | .nextProbe epoch => epoch
  | .giveUp probe => probe

end TimerKind

/-- Something to be done with a session at some time. -/
structure Timer where
  /-- When it comes due, in milliseconds. -/
  due : Nat
  key : SessionKey
  kind : TimerKind
  deriving DecidableEq, Repr

namespace Timer

/-- Timers compare by time, then by session, then by what they do. -/
def order : Timer → Timer → Ordering :=
  compareLex (compareOn due)
    (compareLex (compareOn key)
      (compareLex (compareOn (TimerKind.rank ∘ kind)) (compareOn (TimerKind.number ∘ kind))))

end Timer

/-! ## Agendas -/

/-- The timers of a checker, the next one first. -/
abbrev Agenda := List Timer

namespace Agenda

/-- Puts a timer behind all those that come before it. -/
def schedule (timer : Timer) : Agenda → Agenda
  | [] => [timer]
  | next :: rest =>
    if timer.order next = .lt then timer :: next :: rest else next :: schedule timer rest

/-- When the next timer comes due. -/
def nextDue? (agenda : Agenda) : Option Nat :=
  agenda.head?.map (·.due)

/-- The timers that are due at `now`. -/
def due (agenda : Agenda) (now : Nat) : List Timer :=
  agenda.filter fun timer => timer.due ≤ now

/-- How many timers are due at `now`. -/
def dueCount (agenda : Agenda) (now : Nat) : Nat :=
  agenda.countP fun timer => timer.due ≤ now

/-- A timer for later leaves those that are due as they were. -/
theorem due_schedule {timer : Timer} {now : Nat} (later : now < timer.due) (agenda : Agenda) :
    (schedule timer agenda).due now = agenda.due now := by
  induction agenda with
  | nil => simp [schedule, due, later]
  | cons next rest ih =>
    simp only [schedule]
    split
    · simp [due, later]
    · simp only [due, List.filter_cons] at ih ⊢
      rw [ih]

theorem length_due (agenda : Agenda) (now : Nat) :
    (agenda.due now).length = agenda.dueCount now :=
  List.countP_eq_length_filter.symm

/-- What becomes of an agenda at `now` if at most one timer is armed, and that one for later. -/
inductive Armed (now : Nat) (agenda : Agenda) : Agenda → Prop where
  | none : Armed now agenda agenda
  | later {timer : Timer} : now < timer.due → Armed now agenda (schedule timer agenda)

theorem Armed.due_eq {now : Nat} {agenda agenda' : Agenda} (h : Armed now agenda agenda') :
    agenda'.due now = agenda.due now := by
  cases h with
  | none => rfl
  | later h => exact due_schedule h agenda

theorem Armed.dueCount_eq {now : Nat} {agenda agenda' : Agenda} (h : Armed now agenda agenda') :
    agenda'.dueCount now = agenda.dueCount now := by
  rw [← length_due, h.due_eq, length_due]

end Agenda

end LoadBalancing
