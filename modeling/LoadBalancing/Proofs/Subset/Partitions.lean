/-
The partitions of subsets are current whenever they could be.

A subset computes its partitions by itself, for its own levels, when it is made, when it
catches up with health, and when it hears of a change that concerns it. It may be behind before
a change, since hosts may be given another health as they come. But then one of those who come
belongs to the subset (`HostSubset.Behind`), and so the change concerns it: the level in
question is computed anew. That goes also for subsets in the trie, which hear of a change only
if one of its hosts belongs to them.
-/
import LoadBalancing.Proofs.HostSet.Partitions
import LoadBalancing.Proofs.Subset.Engine

set_option autoImplicit false

namespace LoadBalancing

/-! ## One subset -/

namespace HostSubset

variable {plan : SubsetPlan} {t : HostTable} {set : PrioritySet} {s : HostSubset} {priority : Nat}
  {added : List Host}

/-- The partitions of a subset are current, but for one level maybe. That one may be behind if
one of those who come belongs to the subset. -/
def Behind (plan : SubsetPlan) (t : HostTable) (priority : Nat) (added : List Host)
    (s : HostSubset) : Prop :=
  ∀ p l, s.set.level? p = some l → l.Current t ∨
    p = priority ∧ ∃ o ∈ added, o.matchesTuple plan.settings.listAsAny s.metadata = true

theorem behind_of_current (h : s.set.Current t) : s.Behind plan t priority added :=
  fun p l hl => .inl (h.levels p l hl)

/-- **A subset that hears of a change** is current afterwards. -/
theorem Behind.update (h : s.Behind plan t priority added) (whole : PrioritySet)
    (removed : List Host) (w : Workshop) :
    (s.update plan t whole priority added removed w).1.set.Current t := by
  refine everywhere_weigh (PrioritySet.current_updateHosts (fun q l hq hl => ?_) fun l hl => ?_)
    (HostSet.lasting_current t) (plan.passesOn_any whole) priority
  · exact (h q l hl).resolve_right fun hbehind => hq hbehind.1
  · refine (h priority l hl).imp_right ?_
    rintro ⟨-, o, ho, hmatches⟩
    -- the one who comes enters this subset
    exact .inl (List.ne_nil_of_mem (List.mem_filter.2 ⟨ho, hmatches⟩))

theorem current_update (h : s.set.Current t) (whole : PrioritySet) (added removed : List Host)
    (w : Workshop) : (s.update plan t whole priority added removed w).1.set.Current t :=
  (behind_of_current h).update whole removed w

/-- A subset that is made anew is current. -/
theorem current_new (plan : SubsetPlan) (t : HostTable) (metadata : Tuple) (whole : PrioritySet)
    (w : Workshop) : (new plan t metadata whole w).1.set.Current t :=
  everywhere_fullSet (fun p => HostSet.current_empty p _ t) (HostSet.lasting_current t)
    (plan.passesOn_any whole) metadata

/-- A subset that catches up is current, whatever it was before. -/
theorem current_refresh (s : HostSubset) (plan : SubsetPlan) (t : HostTable) (whole : PrioritySet)
    (w : Workshop) : (s.refresh plan t whole w).1.set.Current t :=
  everywhere_refreshSet (PrioritySet.current_refreshHealth s.set t) (HostSet.lasting_current t)
    (plan.passesOn_any whole)

end HostSubset

/-! ## All subsets -/

namespace SubsetEngine

/-- What holds of every subset of an engine. -/
structure Throughout (e : SubsetEngine) (P : HostSubset → Prop) : Prop where
  any : P e.view.any
  defaults : ∀ s ∈ e.view.defaults, P s
  held : ∀ tuple s, e.view.root.get? tuple = some s → P s

variable {e : SubsetEngine} {P Q : HostSubset → Prop} {t : HostTable} {before after : PrioritySet}
  {priority : Nat} {added removed : List Host}

theorem Throughout.imp (h : e.Throughout P) (imp : ∀ s, P s → Q s) : e.Throughout Q :=
  ⟨imp _ h.any, fun s hs => imp s (h.defaults s hs), fun tuple s hs => imp s (h.held tuple s hs)⟩

theorem Throughout.and (h : e.Throughout P) (h' : e.Throughout Q) :
    e.Throughout fun s => P s ∧ Q s :=
  ⟨⟨h.any, h'.any⟩, fun s hs => ⟨h.defaults s hs, h'.defaults s hs⟩,
    fun tuple s hs => ⟨h.held tuple s hs, h'.held tuple s hs⟩⟩

/-- All subsets of an engine in step are in step. -/
theorem InStep.throughout {whole : PrioritySet} (h : e.InStep whole) :
    e.Throughout fun s => s.InStep e.plan whole :=
  ⟨h.standing.any, h.standing.defaults, fun tuple s hs => (h.holds tuple s hs).inStep⟩

/-- What subsets have after a change: those that hear of it, those that do not, and those that
come. -/
theorem Throughout.update (h : e.Throughout P)
    (hears : ∀ s w, P s → Q (s.update e.plan t after priority added removed w).1)
    (rests : ∀ s, P s → Q s) (comes : ∀ tuple w, Q (HostSubset.new e.plan t tuple after w).1) :
    (e.update t after priority added removed).Throughout Q := by
  have frame := sameFrame_updateTrie
    (e.changeStanding fun s w => s.update e.plan t after priority added removed w)
    t after priority added removed
  refine ⟨?_, fun s hs => ?_, fun tuple s hs => ?_⟩
  · rw [SubsetEngine.update, frame.any]
    exact hears _ _ h.any
  · rw [SubsetEngine.update, frame.defaults] at hs
    obtain ⟨s', hs', w, rfl⟩ := exists_of_mem_mapDefaults _ hs
    exact hears s' w (h.defaults s' hs')
  · exact held_updateTrie (e := e.changeStanding _) (P := fun _ s => P s) (Q := fun _ s => Q s)
      (fun _ s w hs => hears s w hs) (fun _ s hs _ _ => rests s hs)
      (fun tuple w _ _ _ => comes tuple w) h.held hs

/-- What subsets have once they caught up. -/
theorem Throughout.refresh (h : e.Throughout P) {whole : PrioritySet}
    (catchesUp : ∀ s w, P s → Q (s.refresh e.plan t whole w).1) :
    (e.refresh t whole).Throughout Q := by
  refine ⟨catchesUp _ _ h.any, fun s hs => ?_, fun tuple s hs => ?_⟩
  · obtain ⟨s', hs', w, rfl⟩ := exists_of_mem_mapDefaults _ hs
    exact catchesUp s' w (h.defaults s' hs')
  · obtain ⟨s', w, hbefore, rfl⟩ := exists_of_held_refresh hs
    exact catchesUp s' w (h.held tuple s' hbefore)

/-- A new engine goes by its plan. What its subsets have from the start, they keep while one
level after the other brings more of them. -/
theorem throughout_new {plan : SubsetPlan} {whole : PrioritySet}
    (comes : ∀ tuple w, P (HostSubset.new plan t tuple whole w).1)
    (hears : ∀ l ∈ whole.levels, ∀ s w, P s →
      P (s.update plan t whole l.priority l.hosts [] w).1) (engine : Nat) (w : Workshop) :
    (new plan engine t whole w).plan = plan ∧ (new plan engine t whole w).Throughout P := by
  refine List.foldlRecOn (motive := fun e : SubsetEngine => e.plan = plan ∧ e.Throughout P) _ _
    ⟨rfl, comes _ _, fun s hs => ?_, fun tuple s hs => ?_⟩ ?_
  · obtain ⟨metadata, -, w', rfl⟩ := exists_of_mem_mapDefaults _ hs
    exact comes metadata w'
  · cases (Trie.get?_empty tuple).symm.trans hs
  · rintro e ⟨rfl, h⟩ l hl
    -- the subsets that are always there were made for all hosts at once
    have frame := sameFrame_updateTrie e t whole l.priority l.hosts []
    refine ⟨frame.plan, by rw [frame.any]; exact h.any, by rw [frame.defaults]; exact h.defaults,
      fun tuple s hs => ?_⟩
    exact held_updateTrie (P := fun _ s => P s) (Q := fun _ s => P s)
      (fun _ s w hs => hears l hl s w hs) (fun _ s hs _ _ => hs)
      (fun tuple w _ _ _ => comes tuple w) h.held hs

/-- The partitions of all subsets are current. -/
def Current (e : SubsetEngine) (t : HostTable) : Prop :=
  e.Throughout fun s => s.set.Current t

/-- **An engine that hears of a change** is current afterwards, in all subsets: those that it
tells of the change, and those that it does not. -/
theorem current_update (holds : e.Holds before)
    (behind : e.Throughout (HostSubset.Behind e.plan t priority added)) :
    (e.update t after priority added removed).Current t := by
  have frame := sameFrame_updateTrie
    (e.changeStanding fun s w => s.update e.plan t after priority added removed w)
    t after priority added removed
  refine ⟨?_, fun s hs => ?_, fun tuple s hs => ?_⟩
  · rw [update, frame.any]
    exact behind.any.update after removed _
  · rw [update, frame.defaults] at hs
    obtain ⟨s', hs', w, rfl⟩ := exists_of_mem_mapDefaults _ hs
    exact (behind.defaults s' hs').update after removed w
  · refine held_updateTrie (e := e.changeStanding _)
      (P := fun tuple s => Entry e.plan before tuple s ∧ s.Behind e.plan t priority added)
      (Q := fun _ s => s.set.Current t) (fun tuple s w hs => hs.2.update after removed w)
      (fun tuple s hbefore hadded _ => ?_) (fun tuple w o _ _ => HostSubset.current_new _ _ _ _ _)
      (fun tuple s hs => ⟨holds tuple s hs, behind.held tuple s hs⟩) hs
    -- nobody who comes belongs to it, so it is not behind
    obtain ⟨entry, hbehind⟩ := hbefore
    refine PrioritySet.current_of_levels fun p l hl => (hbehind p l hl).resolve_right ?_
    rintro ⟨-, o, ho, hmatches⟩
    exact hadded o ho ((entry.matches_iff o).1 hmatches)

/-- An engine that catches up is current, whatever it was before. -/
theorem current_refresh (e : SubsetEngine) (t : HostTable) (whole : PrioritySet) :
    (e.refresh t whole).Current t := by
  have anyhow : e.Throughout fun _ => True :=
    ⟨trivial, fun _ _ => trivial, fun _ _ _ => trivial⟩
  exact anyhow.refresh fun s w _ => HostSubset.current_refresh s e.plan t whole w

/-- A new engine is current. -/
theorem current_new (plan : SubsetPlan) (engine : Nat) (t : HostTable) (whole : PrioritySet)
    (w : Workshop) : (new plan engine t whole w).Current t :=
  (throughout_new (fun tuple w => HostSubset.current_new plan t tuple whole w)
    (fun l _ _ w hs => HostSubset.current_update hs whole l.hosts [] w) engine w).2

end SubsetEngine

end LoadBalancing
