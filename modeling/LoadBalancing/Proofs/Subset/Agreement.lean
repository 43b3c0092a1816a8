/-
Where listing and testing part.

A delta touches the subsets that its hosts are listed in (`Host.tuples`), and a subset is filled
with the hosts that pass its test (`Host.matchesTuple`). Where lists stand for their items, a
host is listed under each item, but it passes the test for the list as a whole as well. That is
the only difference there is, for values of any shape: a list is never one of its own items
(`Value.not_mem_items`), so no host is listed under the whole of a list that it has.
-/
import LoadBalancing.Proofs.Subset.Membership

set_option autoImplicit false

namespace LoadBalancing

namespace Value

theorem not_mem_items (items : List Value) : Value.list items ∉ items := by
  intro hmem
  have hlt := List.sizeOf_lt_of_mem hmem
  rw [Value.list.sizeOf_spec] at hlt
  omega

theorem exists_items_iff {v : Value} : v.isList = true ↔ ∃ items, v = .list items := by
  constructor
  · intro hlist
    cases v with
    | list items => exact ⟨items, rfl⟩
    | bool b => cases hlist
    | integer n => cases hlist
    | text s => cases hlist
  · rintro ⟨items, rfl⟩
    rfl

theorem serves_self (v : Value) (listAsAny : Bool) : v.serves v listAsAny = true := by
  unfold serves
  rw [decide_eq_true rfl, Bool.true_or]

end Value

namespace Host

/-- Lists stand for their items, but the tuple asks for one that the host has as a whole. -/
def HasWhole (h : Host) (listAsAny : Bool) (tuple : Tuple) : Prop :=
  listAsAny = true ∧
    ∃ pair ∈ tuple, pair.2.isList = true ∧ h.metadata.get? pair.1 = some pair.2

variable {listAsAny : Bool} {offered v : Value}

/-- Under a list itself nobody is listed, where lists stand for their items. Any other value that
serves is one of the choices. -/
theorem mem_choices_iff : v ∈ choices listAsAny offered ↔
    offered.serves v listAsAny = true ∧
      ¬ (listAsAny = true ∧ v.isList = true ∧ offered = v) := by
  by_cases plain : v.Plain listAsAny
  · rw [mem_choices_iff_serves plain, iff_self_and]
    rintro - ⟨hany, hlist, -⟩
    rw [plain hany] at hlist
    cases hlist
  · obtain ⟨rfl, hlist⟩ : listAsAny = true ∧ v.isList = true := by
      simpa [Value.Plain] using plain
    obtain ⟨wanted, rfl⟩ := Value.exists_items_iff.1 hlist
    cases offered with
    | list items =>
      rw [choices, if_pos rfl, Value.serves, Bool.true_and, Bool.or_eq_true, decide_eq_true_eq,
        List.contains_iff_mem]
      constructor
      · intro hmem
        refine ⟨.inr hmem, ?_⟩
        rintro ⟨-, -, heq⟩
        exact Value.not_mem_items items (heq ▸ hmem)
      · rintro ⟨heq | hmem, hnot⟩
        · exact absurd ⟨rfl, hlist, heq⟩ hnot
        · exact hmem
    -- no other value serves a request for a list
    | bool b => simp [choices, Value.serves]
    | integer n => simp [choices, Value.serves]
    | text s => simp [choices, Value.serves]

/-- The values that a host has for the keys. -/
def ownTuple (h : Host) (keys : List String) : Tuple :=
  keys.filterMap fun key => (h.metadata.get? key).map fun v => (key, v)

theorem mem_ownTuple {h : Host} {keys : List String} {pair : String × Value} :
    pair ∈ h.ownTuple keys ↔ pair.1 ∈ keys ∧ h.metadata.get? pair.1 = some pair.2 := by
  obtain ⟨key, v⟩ := pair
  simp only [ownTuple, List.mem_filterMap, Option.map_eq_some_iff, Prod.mk.injEq]
  constructor
  · rintro ⟨_, hkey, _, hfound, rfl, rfl⟩
    exact ⟨hkey, hfound⟩
  · rintro ⟨hkey, hfound⟩
    exact ⟨key, hkey, v, hfound, rfl, rfl⟩

theorem matchesTuple_ownTuple (h : Host) (keys : List String) :
    h.matchesTuple listAsAny (h.ownTuple keys) = true :=
  matchesTuple_iff.2 fun pair hpair =>
    ⟨pair.2, (mem_ownTuple.1 hpair).2, Value.serves_self pair.2 listAsAny⟩

theorem map_ownTuple {h : Host} {keys : List String}
    (present : ∀ key ∈ keys, (h.metadata.get? key).isSome = true) :
    (h.ownTuple keys).map (·.1) = keys := by
  induction keys with
  | nil => rfl
  | cons key rest ih =>
    obtain ⟨hkey, hrest⟩ := List.forall_mem_cons.1 present
    obtain ⟨v, hfound⟩ := Option.isSome_iff_exists.1 hkey
    rw [ownTuple, List.filterMap_cons, hfound, Option.map_some, List.map_cons]
    exact congrArg (key :: ·) (ih hrest)

/-- **Listing is testing**, but for tuples that ask for a list which the host has as a whole. So
the two agree on a set of keys unless lists stand for their items and the host has all of the
keys, one of them with a list. -/
theorem listing_iff_testing (h : Host) (listAsAny : Bool) (keys : KeySet) :
    (∀ tuple, tuple ∈ h.tuples listAsAny keys.keys ↔
      tuple.map (·.1) = keys.keys ∧ h.matchesTuple listAsAny tuple = true ∧
        ¬ h.HasWhole listAsAny tuple) ∧
      ((∀ tuple : Tuple, tuple.map (·.1) = keys.keys →
          (tuple ∈ h.tuples listAsAny keys.keys ↔ h.matchesTuple listAsAny tuple = true)) ↔
        ¬ (listAsAny = true ∧ (∀ key ∈ keys.keys, (h.metadata.get? key).isSome = true) ∧
          ∃ key ∈ keys.keys, ∃ items, h.metadata.get? key = some (.list items))) := by
  have listed (tuple : Tuple) : tuple ∈ h.tuples listAsAny keys.keys ↔
      tuple.map (·.1) = keys.keys ∧ h.matchesTuple listAsAny tuple = true ∧
        ¬ h.HasWhole listAsAny tuple := by
    rw [mem_tuples, matchesTuple_iff]
    refine and_congr_right fun _ => ⟨fun all => ⟨fun pair hpair => ?_, ?_⟩, fun all pair hpair => ?_⟩
    · obtain ⟨offered, hfound, hchoice⟩ := all pair hpair
      exact ⟨offered, hfound, (mem_choices_iff.1 hchoice).1⟩
    · rintro ⟨hany, pair, hpair, hlist, hwhole⟩
      obtain ⟨offered, hfound, hchoice⟩ := all pair hpair
      rw [hwhole] at hfound
      exact (mem_choices_iff.1 hchoice).2 ⟨hany, hlist, (Option.some.inj hfound).symm⟩
    · obtain ⟨offered, hfound, hserves⟩ := all.1 pair hpair
      refine ⟨offered, hfound, mem_choices_iff.2 ⟨hserves, ?_⟩⟩
      rintro ⟨hany, hlist, rfl⟩
      exact all.2 ⟨hany, pair, hpair, hlist, hfound⟩
  refine ⟨listed, ⟨?_, fun hnot tuple hkeys => ?_⟩⟩
  · -- what tells the two apart is the host's own tuple
    rintro agree ⟨hany, present, key, hkey, items, hfound⟩
    have hkeys := map_ownTuple present
    have hmem := (agree _ hkeys).2 (matchesTuple_ownTuple h keys.keys)
    exact ((listed _).1 hmem).2.2
      ⟨hany, (key, .list items), mem_ownTuple.2 ⟨hkey, hfound⟩, rfl, hfound⟩
  · rw [listed, and_iff_right hkeys, and_iff_left_iff_imp]
    -- a tuple that matches shows that all keys are there
    rintro hmatches ⟨hany, pair, hpair, hlist, hwhole⟩
    have named (pair : String × Value) (hpair : pair ∈ tuple) : pair.1 ∈ keys.keys :=
      hkeys ▸ List.mem_map_of_mem hpair
    refine hnot ⟨hany, fun key hkey => ?_, pair.1, named pair hpair, ?_⟩
    · rw [← hkeys] at hkey
      obtain ⟨pair, hpair, rfl⟩ := List.mem_map.1 hkey
      obtain ⟨offered, hfound, -⟩ := matchesTuple_iff.1 hmatches pair hpair
      rw [hfound]
      rfl
    · obtain ⟨items, hitems⟩ := Value.exists_items_iff.1 hlist
      exact ⟨items, hitems ▸ hwhole⟩

/-- A host that has a list passes the test for the whole of it, and is not listed under it. -/
theorem not_listed_under_own_list :
    ¬ ∀ (h : Host) (keys : KeySet) (listAsAny : Bool) (tuple : Tuple),
      tuple.map (·.1) = keys.keys →
        (tuple ∈ h.tuples listAsAny keys.keys ↔ h.matchesTuple listAsAny tuple = true) := by
  intro agree
  let tuple : Tuple := [("v", .list [.text "x"])]
  let h : Host :=
    { id := 0, address := "b", locality := ⟨"", "", ""⟩, metadata := .ofList tuple }
  have listed := (agree h (.ofKeys ["v"]) true tuple (by decide +kernel)).2 (by decide +kernel)
  exact absurd listed (by decide +kernel)

end Host

end LoadBalancing
