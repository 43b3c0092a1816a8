/-
The counts of an engine, against the subsets in its trie.

Counts are changed one subset at a time: by whether the subset had hosts before it was touched, and
whether it has some afterwards. What they are compared with is the trie as a whole: all that is held
there, each tuple once, and how many of these subsets have hosts (`CountsEntries`). The two agree
because a touch changes what is held at one tuple and nothing else, so the number of subsets with
hosts changes by what is noted (`Trie.length_activeTuples_insert`). They agree after each touch, so
the count of subsets with hosts is a number of subsets at every moment of a call, and is never less
than zero.

Whether hosts of a change are known, come twice or are all of one tuple has no part in this, nor
has the priority set that a call goes by.
-/
import LoadBalancing.Proofs.Subset.Engine
import LoadBalancing.Proofs.Subset.Entries

set_option autoImplicit false

namespace LoadBalancing

/-! ## Subsets with hosts -/

/-- Sets with the same hosts at each level are empty alike. -/
theorem PrioritySet.isEmpty_congr {s s' : PrioritySet}
    (same : ∀ p, s'.hostsAt p = s.hostsAt p) : s'.isEmpty = s.isEmpty := by
  rw [Bool.eq_iff_iff, isEmpty_iff, isEmpty_iff, List.eq_nil_iff_forall_not_mem,
    List.eq_nil_iff_forall_not_mem]
  simp only [mem_hosts, same]

/-- Health and weights move no hosts. -/
theorem HostSubset.isActive_refresh (s : HostSubset) (plan : SubsetPlan) (t : HostTable)
    (whole : PrioritySet) (w : Workshop) :
    (s.refresh plan t whole w).1.isActive = s.isActive :=
  congrArg Bool.not (PrioritySet.isEmpty_congr fun p => hostsAt_refreshSet plan t whole s.set p)

namespace Trie

variable {root root' : Trie HostSubset}

/-- Whether a subset with hosts is held at a tuple. -/
def isActiveAt (root : Trie HostSubset) (tuple : Tuple) : Bool :=
  (root.get? tuple).any HostSubset.isActive

/-- The tuples at which a subset with hosts is held. -/
def activeTuples (root : Trie HostSubset) : List Tuple :=
  (root.entries.filter fun e => e.2.isActive).map (·.1)

theorem length_activeTuples (root : Trie HostSubset) :
    root.activeTuples.length = (root.toList.filter HostSubset.isActive).length := by
  rw [activeTuples, List.length_map, ← map_entries, List.filter_map, List.length_map]
  rfl

theorem Unambiguous.mem_activeTuples (h : root.Unambiguous) {tuple : Tuple} :
    tuple ∈ root.activeTuples ↔ root.isActiveAt tuple = true := by
  rw [activeTuples, List.mem_map, isActiveAt, Option.any_eq_true]
  constructor
  · rintro ⟨e, he, rfl⟩
    obtain ⟨hmem, hactive⟩ := List.mem_filter.1 he
    exact ⟨e.2, h.mem_entries_iff.1 hmem, hactive⟩
  · rintro ⟨s, hs, hactive⟩
    exact ⟨(tuple, s), List.mem_filter.2 ⟨h.mem_entries_iff.2 hs, hactive⟩, rfl⟩

theorem Unambiguous.nodup_activeTuples (h : root.Unambiguous) : root.activeTuples.Nodup :=
  h.nodup_entries.sublist (List.filter_sublist.map _)

/-- As many subsets have hosts, if the same ones do. -/
theorem length_activeTuples_congr (h : root.Unambiguous) (h' : root'.Unambiguous)
    (same : ∀ tuple, root'.isActiveAt tuple = root.isActiveAt tuple) :
    root'.activeTuples.length = root.activeTuples.length := by
  apply List.Perm.length_eq
  rw [List.perm_ext_iff_of_nodup h'.nodup_activeTuples h.nodup_activeTuples]
  intro tuple
  rw [h'.mem_activeTuples, h.mem_activeTuples, same]

/-- All that are counted, one of them apart. -/
theorem Unambiguous.length_erase (h : root.Unambiguous) (tuple : Tuple) :
    root.activeTuples.length =
      (root.activeTuples.erase tuple).length + (root.isActiveAt tuple).toNat := by
  -- the tuple is listed once if it is active, and else not at all
  cases hactive : root.isActiveAt tuple with
  | true =>
    have hmem := h.mem_activeTuples.2 hactive
    have hpos := List.length_pos_of_mem hmem
    rw [List.length_erase_of_mem hmem, Bool.toNat_true]
    omega
  | false =>
    have hnot : tuple ∉ root.activeTuples := by
      rw [h.mem_activeTuples, hactive]
      exact Bool.false_ne_true
    rw [List.erase_of_not_mem hnot, Bool.toNat_false, Nat.add_zero]

/-- **Putting a subset at a tuple** changes the number of subsets with hosts by the one that was
there and the one that is there now. -/
theorem length_activeTuples_insert (h : root.Unambiguous) (tuple : Tuple) (s : HostSubset) :
    (root.insert tuple s).activeTuples.length + (root.isActiveAt tuple).toNat =
      root.activeTuples.length + s.isActive.toNat := by
  have h' : (root.insert tuple s).Unambiguous := h.alter _ tuple
  have here : (root.insert tuple s).isActiveAt tuple = s.isActive := by
    rw [isActiveAt, get?_insert, if_pos rfl, Option.any_some]
  -- at all other tuples nothing happens
  have others : ((root.insert tuple s).activeTuples.erase tuple).Perm
      (root.activeTuples.erase tuple) := by
    rw [List.perm_ext_iff_of_nodup (h'.nodup_activeTuples.erase tuple)
      (h.nodup_activeTuples.erase tuple)]
    intro other
    rw [h'.nodup_activeTuples.mem_erase_iff, h.nodup_activeTuples.mem_erase_iff,
      h'.mem_activeTuples, h.mem_activeTuples]
    apply and_congr_right
    intro hne
    rw [isActiveAt, get?_insert, if_neg hne, isActiveAt]
  have before := h.length_erase tuple
  have after := h'.length_erase tuple
  rw [here, others.length_eq] at after
  omega

end Trie

/-- What is noted of a subset is the difference that it makes. -/
theorem ActivityCounts.record_balance (c : ActivityCounts) (before after : Bool) :
    (c.record before after).active + before.toNat = c.active + after.toNat ∧
      (c.record before after).created - (c.record before after).removed + (before.toNat : Int) =
        c.created - c.removed + after.toNat := by
  cases before <;> cases after <;> simp [ActivityCounts.record] <;> omega

namespace SubsetEngine

/-! ## Counts that agree -/

/-- The counts of an engine say how many subsets of its trie have hosts, and that this is the
difference of how often one came to have hosts and how often one lost its last. The subsets are
those of different tuples, each found at its own. -/
structure CountsEntries (e : SubsetEngine) : Prop where
  active : e.activity.active = (e.view.root.toList.filter HostSubset.isActive).length
  balance : e.activity.active = e.activity.created - e.activity.removed
  distinct : (e.view.root.toList.map (·.metadata)).Nodup
  found : ∀ tuple s, e.view.root.get? tuple = some s ↔
    s ∈ e.view.root.toList ∧ s.metadata = tuple

/-- What carries over from touch to touch. -/
structure Counted (e : SubsetEngine) : Prop where
  unambiguous : e.view.root.Unambiguous
  labelled : ∀ tuple s, e.view.root.get? tuple = some s → s.metadata = tuple
  active : e.activity.active = e.view.root.activeTuples.length
  balance : e.activity.active = e.activity.created - e.activity.removed

variable {e : SubsetEngine}

theorem Counted.countsEntries (h : e.Counted) : e.CountsEntries where
  active := by rw [h.active, Trie.length_activeTuples]
  balance := h.balance
  distinct := by
    -- every subset is labelled by the tuple at which it is held
    have own : e.view.root.toList.map (·.metadata) = e.view.root.entries.map (·.1) := by
      rw [← Trie.map_entries, List.map_map]
      apply List.map_congr_left
      intro entry hentry
      exact h.labelled _ _ (h.unambiguous.mem_entries_iff.1 hentry)
    rw [own]
    exact h.unambiguous.nodup_entries
  found := by
    intro tuple s
    rw [← Trie.map_entries, List.mem_map]
    constructor
    · intro hs
      exact ⟨⟨(tuple, s), h.unambiguous.mem_entries_iff.2 hs, rfl⟩, h.labelled tuple s hs⟩
    · rintro ⟨⟨entry, hentry, rfl⟩, rfl⟩
      have hfound := h.unambiguous.mem_entries_iff.1 hentry
      rwa [h.labelled _ _ hfound]

/-- Before the first host there is nothing to count. -/
theorem counted_standing (plan : SubsetPlan) (engine : Nat) (t : HostTable) (whole : PrioritySet)
    (w : Workshop) : (standing plan engine t whole w).Counted where
  unambiguous := Trie.unambiguous_empty
  labelled tuple s hs := by cases (Trie.get?_empty tuple).symm.trans hs
  active := rfl
  balance := rfl

/-- The subsets that are always there are not counted. -/
theorem Counted.changeStanding (h : e.Counted)
    (change : HostSubset → Workshop → HostSubset × Workshop) :
    (e.changeStanding change).Counted :=
  ⟨h.unambiguous, h.labelled, h.active, h.balance⟩

/-- A subset that is put at its tuple, and noted. -/
theorem Counted.put (h : e.Counted) (tuple : Tuple) (s : HostSubset) (label : s.metadata = tuple)
    (w : Workshop) :
    Counted { e with
      view := { e.view with root := e.view.root.insert tuple s }
      activity := e.activity.record (e.view.root.isActiveAt tuple) s.isActive
      workshop := w } := by
  obtain ⟨noted, difference⟩ :=
    e.activity.record_balance (e.view.root.isActiveAt tuple) s.isActive
  -- what is noted differs from what is counted by the one tuple only
  have counted := Trie.length_activeTuples_insert h.unambiguous tuple s
  have active := h.active
  have balance := h.balance
  refine ⟨h.unambiguous.alter _ tuple, fun other s' hs' => ?_, ?_, ?_⟩
  · rw [Trie.get?_insert] at hs'
    split at hs'
    next hother =>
      cases hs'
      exact label.trans hother.symm
    next => exact h.labelled other s' hs'
  · dsimp only
    omega
  · dsimp only
    omega

/-- **Touching a tuple** keeps the counts right: a subset that was held changes or not, and one
that is made was not there before. -/
theorem Counted.touch (h : e.Counted) (t : HostTable) (whole : PrioritySet) (priority : Nat)
    (added removed : List Host) (tuple : Tuple) (adding : Bool) :
    (e.touch t whole priority added removed tuple adding).Counted := by
  rw [SubsetEngine.touch]
  dsimp only
  cases hget : e.view.root.get? tuple with
  | some s =>
    have before : e.view.root.isActiveAt tuple = s.isActive := by
      rw [Trie.isActiveAt, hget, Option.any_some]
    have put := h.put tuple (s.update e.plan t whole priority added removed e.workshop).1
      (h.labelled tuple s hget) (s.update e.plan t whole priority added removed e.workshop).2
    rwa [before] at put
  | none =>
    have before : e.view.root.isActiveAt tuple = false := by
      rw [Trie.isActiveAt, hget, Option.any_none]
    cases adding with
    | false => exact h
    | true =>
      have put := h.put tuple (HostSubset.new e.plan t tuple whole e.workshop).1 rfl
        (HostSubset.new e.plan t tuple whole e.workshop).2
      rwa [before] at put

/-! ## The moments of a call -/

section Trail

variable (t : HostTable) (whole : PrioritySet) (priority : Nat) (added removed : List Host)

/-- The engines that a change of the trie goes through: as it is before the first tuple, and after
each of them. -/
def trail (e : SubsetEngine) : List SubsetEngine :=
  (touched e.plan.settings added removed).scanl
    (fun e (tuple, adding) => e.touch t whole priority added removed tuple adding) e

/-- The change is through when the last tuple was touched. -/
theorem getLast?_trail (e : SubsetEngine) :
    (e.trail t whole priority added removed).getLast? =
      some (e.updateTrie t whole priority added removed) :=
  List.getLast?_scanl

theorem Counted.trail (h : e.Counted) :
    ∀ m ∈ e.trail t whole priority added removed, m.Counted := by
  rw [SubsetEngine.trail]
  generalize touched e.plan.settings added removed = tuples
  induction tuples generalizing e with
  | nil =>
    intro m hm
    rw [List.scanl_nil, List.mem_singleton] at hm
    exact hm ▸ h
  | cons first rest ih =>
    rw [List.scanl_cons, List.forall_mem_cons]
    exact ⟨h, ih (h.touch t whole priority added removed first.1 first.2)⟩

theorem Counted.updateTrie (h : e.Counted) :
    (e.updateTrie t whole priority added removed).Counted :=
  h.trail t whole priority added removed _ (List.mem_of_getLast? (getLast?_trail ..))

end Trail

/-- The engines that a new one goes through, level by level. -/
def building (t : HostTable) (whole : PrioritySet) : List HostSet → SubsetEngine → List SubsetEngine
  | [], e => [e]
  | l :: rest, e =>
    e.trail t whole l.priority l.hosts [] ++
      building t whole rest (e.updateTrie t whole l.priority l.hosts [])

theorem getLast?_building (t : HostTable) (whole : PrioritySet) (levels : List HostSet)
    (e : SubsetEngine) : (building t whole levels e).getLast? =
      some (levels.foldl (fun e l => e.updateTrie t whole l.priority l.hosts []) e) := by
  induction levels generalizing e with
  | nil => rfl
  | cons l rest ih =>
    rw [SubsetEngine.building, List.getLast?_append, ih, Option.some_or, List.foldl_cons]

theorem Counted.building (h : e.Counted) (t : HostTable) (whole : PrioritySet)
    (levels : List HostSet) : ∀ m ∈ building t whole levels e, m.Counted := by
  induction levels generalizing e with
  | nil =>
    intro m hm
    exact List.mem_singleton.1 hm ▸ h
  | cons l rest ih =>
    rw [SubsetEngine.building, List.forall_mem_append]
    exact ⟨h.trail t whole l.priority l.hosts [], ih (h.updateTrie t whole l.priority l.hosts [])⟩

theorem counted_new (plan : SubsetPlan) (engine : Nat) (t : HostTable) (whole : PrioritySet)
    (w : Workshop) : (new plan engine t whole w).Counted :=
  (counted_standing plan engine t whole w).building t whole whole.levels _
    (List.mem_of_getLast? (getLast?_building t whole _ _))

/-! ## Calls of an engine -/

/-- What can be asked of an engine, with the hosts and the priority set as they are at that time. -/
inductive Call where
  | update (t : HostTable) (whole : PrioritySet) (priority : Nat) (added removed : List Host)
  | refresh (t : HostTable) (whole : PrioritySet)

namespace Call

def carryOut (e : SubsetEngine) : Call → SubsetEngine
  | .update t whole priority added removed => e.update t whole priority added removed
  | .refresh t whole => e.refresh t whole

/-- The engines that a call goes through. -/
def moments (e : SubsetEngine) : Call → List SubsetEngine
  | .update t whole priority added removed =>
    (e.changeStanding fun s w => s.update e.plan t whole priority added removed w).trail
      t whole priority added removed
  | .refresh t whole => [e.refresh t whole]

/-- The last of them is the one that the call leaves. -/
theorem getLast?_moments (e : SubsetEngine) (call : Call) :
    (call.moments e).getLast? = some (call.carryOut e) := by
  cases call with
  | update t whole priority added removed => exact getLast?_trail t whole priority added removed _
  | refresh t whole => rfl

end Call

/-- The engine after some calls. -/
def after (e : SubsetEngine) (calls : List Call) : SubsetEngine :=
  calls.foldl Call.carryOut e

/-- What is held keeps its hosts or its lack of them when it catches up. -/
theorem isActiveAt_refresh (e : SubsetEngine) (t : HostTable) (whole : PrioritySet)
    (tuple : Tuple) :
    (e.refresh t whole).view.root.isActiveAt tuple = e.view.root.isActiveAt tuple := by
  rw [Trie.isActiveAt, Trie.isActiveAt]
  rcases visited_refresh e t whole tuple with ⟨hbefore, hafter⟩ | ⟨s, w, hbefore, hafter⟩
  · rw [hbefore, hafter]
  · rw [hbefore, hafter, Option.any_some, Option.any_some, HostSubset.isActive_refresh]

/-- Catching up is not counted, and changes nothing that is. -/
theorem Counted.refresh (h : e.Counted) (t : HostTable) (whole : PrioritySet) :
    (e.refresh t whole).Counted := by
  have unambiguous : (e.refresh t whole).view.root.Unambiguous := h.unambiguous.mapAccum _ _
  refine ⟨unambiguous, fun tuple s hs => ?_, ?_, h.balance⟩
  · obtain ⟨s', w, hbefore, rfl⟩ := exists_of_held_refresh hs
    exact h.labelled tuple s' hbefore
  · have same := Trie.length_activeTuples_congr h.unambiguous unambiguous
      (isActiveAt_refresh e t whole)
    rw [same]
    exact h.active

theorem Counted.moments (h : e.Counted) (call : Call) : ∀ m ∈ call.moments e, m.Counted := by
  cases call with
  | update t whole priority added removed =>
    exact (h.changeStanding _).trail t whole priority added removed
  | refresh t whole =>
    intro m hm
    exact List.mem_singleton.1 hm ▸ h.refresh t whole

theorem Counted.carryOut (h : e.Counted) (call : Call) : (call.carryOut e).Counted :=
  h.moments call _ (List.mem_of_getLast? (call.getLast?_moments e))

theorem Counted.after (h : e.Counted) (calls : List Call) : (e.after calls).Counted :=
  List.foldlRecOn (motive := Counted) _ _ h fun _ h call _ => h.carryOut call

/-- What is held at a tuple may change or become empty, but does not go. -/
theorem isSome_carryOut {tuple : Tuple} (h : (e.view.root.get? tuple).isSome = true)
    (call : Call) : ((call.carryOut e).view.root.get? tuple).isSome = true := by
  cases call with
  | update t whole priority added removed =>
    exact isSome_updateTrie_of_isSome
      (e.changeStanding fun s w => s.update e.plan t whole priority added removed w)
      t whole priority added removed h
  | refresh t whole => exact (isSome_refresh e t whole tuple).trans h

theorem isSome_after {tuple : Tuple} (h : (e.view.root.get? tuple).isSome = true)
    (calls : List Call) : ((e.after calls).view.root.get? tuple).isSome = true :=
  List.foldlRecOn
    (motive := fun e' : SubsetEngine => (e'.view.root.get? tuple).isSome = true) _ _ h
    fun _ h call _ => isSome_carryOut h call

/-- **After any calls, and at each moment of another one**, the counts say how many subsets have
hosts. They are not changed by catching up. And where a subset is held, one for the same tuple is
held from then on, with hosts or without. -/
theorem after_countsEntries (plan : SubsetPlan) (engine : Nat) (t : HostTable)
    (whole : PrioritySet) (w : Workshop) (calls : List Call) :
    let e := (new plan engine t whole w).after calls
    (∀ m ∈ building t whole whole.levels (standing plan engine t whole w), m.CountsEntries) ∧
      e.CountsEntries ∧
      (∀ call : Call, ∀ m ∈ call.moments e, m.CountsEntries) ∧
      (∀ t whole, (e.refresh t whole).activity = e.activity) ∧
      ∀ tuple s, e.view.root.get? tuple = some s → ∀ later, ∃ s',
        (e.after later).view.root.get? tuple = some s' ∧ s'.metadata = tuple := by
  intro e
  have counted : e.Counted := (counted_new plan engine t whole w).after calls
  refine ⟨fun m hm => ?_, counted.countsEntries, fun call m hm => ?_, fun _ _ => rfl,
    fun tuple s hs later => ?_⟩
  · exact ((counted_standing plan engine t whole w).building t whole _ m hm).countsEntries
  · exact (counted.moments call m hm).countsEntries
  · have held := isSome_after (Option.isSome_iff_exists.2 ⟨s, hs⟩) later
    obtain ⟨s', hs'⟩ := Option.isSome_iff_exists.1 held
    exact ⟨s', hs', (counted.after later).labelled tuple s' hs'⟩

/-! ### Leaving and coming back -/

section Returning

/-- Hosts are grouped by stage. -/
def stagePlan : SubsetPlan where
  settings :=
    { selectors := [⟨.ofKeys ["stage"], .none⟩]
      fallback := .none
      localityWeightAware := false
      scaleLocalityWeight := false
      panicModeAny := false
      listAsAny := false }
  strategy := ⟨.roundRobin, 50⟩
  numerics := .float

def staged (id : Nat) (address stage : String) : Host :=
  { id, address, locality := default, metadata := .ofList [("stage", .text stage)] }

/-- The only host of a stage leaves and comes back, and a host that was never there leaves too. The
subset of that stage is counted again, and that of the unknown host never was. -/
example :
    let a := staged 0 "a" "prod"
    let b := staged 1 "b" "dev"
    let unknown := staged 2 "c" "test"
    let both := (PrioritySet.empty 140).updateHosts .empty 0 [a, b] []
    let one := both.updateHosts .empty 0 [] [a, unknown]
    let again := one.updateHosts .empty 0 [a, a] []
    let e := new stagePlan 0 .empty both .new
    let left : Call := .update .empty one 0 [] [a, unknown]
    let back : Call := .update .empty again 0 [a, a] []
    e.activity = ⟨2, 2, 0⟩ ∧ (e.after [left]).activity = ⟨1, 2, 1⟩ ∧
      (e.after [left, back]).activity = ⟨2, 3, 1⟩ ∧
      (e.after [left, back]).view.root.toList.length = 2 := by
  decide +kernel

end Returning

end SubsetEngine

end LoadBalancing
