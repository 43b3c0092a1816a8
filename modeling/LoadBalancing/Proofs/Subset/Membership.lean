/-
The two ways to ask which subsets a host belongs to agree, where they have to.

`Host.tuples` lists tuples, and `Host.matchesTuple` tests one. A test says more than the
list in one case only: where lists stand for their items, a host that carries a list also
passes the test for the list itself, which is not among its tuples. For a tuple without
such values the two are the same (`mem_tuples_iff_matchesTuple`), and if no host carries
a list within a list there are no other tuples (`plain_of_mem_tuples`).
-/
import LoadBalancing.Proofs.SortedMap.Lookup
import LoadBalancing.Subset.Membership

set_option autoImplicit false

namespace LoadBalancing

/-! ## Values -/

namespace Value

def isList : Value → Bool
  | .list _ => true
  | _ => false

/-- Where lists stand for their items, a plain value is no list; elsewhere every value is
plain. -/
def Plain (listAsAny : Bool) (v : Value) : Prop :=
  listAsAny = true → v.isList = false

/-- No item of the value is a list. -/
def Flat (v : Value) : Prop :=
  ∀ items, v = .list items → ∀ item ∈ items, item.isList = false

instance (v : Value) : Decidable v.Flat :=
  match v with
  | .list items =>
    decidable_of_iff (∀ item ∈ items, item.isList = false)
      ⟨fun h _ heq => by cases heq; exact h, fun h => h items rfl⟩
  | .bool _ => .isTrue fun _ h => by cases h
  | .integer _ => .isTrue fun _ h => by cases h
  | .text _ => .isTrue fun _ h => by cases h

end Value

/-- All values of a tuple are plain. -/
def Tuple.Plain (listAsAny : Bool) (tuple : Tuple) : Prop :=
  ∀ pair ∈ tuple, pair.2.Plain listAsAny

/-- No value of the metadata has a list within a list. -/
def Metadata.Flat (m : Metadata) : Prop :=
  ∀ v ∈ m.values, v.Flat

instance (m : Metadata) : Decidable m.Flat :=
  inferInstanceAs (Decidable (∀ v ∈ m.values, v.Flat))

namespace Host

/-- The host carries no list within a list. -/
def Flat (h : Host) : Prop :=
  h.metadata.Flat

instance (h : Host) : Decidable h.Flat :=
  inferInstanceAs (Decidable h.metadata.Flat)

variable {listAsAny : Bool} {offered v : Value}

/-- The values under which a host is found serve each other, and no plain value else does. -/
theorem mem_choices_iff_serves (plain : v.Plain listAsAny) :
    v ∈ choices listAsAny offered ↔ offered.serves v listAsAny = true := by
  cases offered with
  | list items =>
    rw [choices, Value.serves, Bool.or_eq_true, decide_eq_true_eq]
    cases listAsAny with
    | false =>
      rw [if_neg Bool.false_ne_true, List.mem_singleton, Bool.false_and,
        or_iff_left Bool.false_ne_true]
      exact eq_comm
    | true =>
      -- a plain value is no list, so it is not the list itself that serves
      have hne : ¬ Value.list items = v := by
        rintro rfl
        cases plain rfl
      rw [if_pos rfl, Bool.true_and, List.contains_iff_mem, or_iff_right hne]
  | bool b => simp [choices, Value.serves, eq_comm]
  | integer n => simp [choices, Value.serves, eq_comm]
  | text s => simp [choices, Value.serves, eq_comm]

theorem plain_of_mem_choices (flat : offered.Flat) (h : v ∈ choices listAsAny offered) :
    v.Plain listAsAny := by
  rintro rfl
  cases offered with
  | list items =>
    -- the choices are the items, and a flat list has no lists among them
    rw [choices, if_pos rfl] at h
    exact flat items rfl v h
  | bool b => exact List.mem_singleton.1 h ▸ rfl
  | integer n => exact List.mem_singleton.1 h ▸ rfl
  | text s => exact List.mem_singleton.1 h ▸ rfl

/-! ## Tuples -/

theorem mem_tuples {h : Host} {keys : List String} {tuple : Tuple} :
    tuple ∈ h.tuples listAsAny keys ↔
      tuple.map (·.1) = keys ∧ ∀ pair ∈ tuple, ∃ offered,
        h.metadata.get? pair.1 = some offered ∧ pair.2 ∈ choices listAsAny offered := by
  induction keys generalizing tuple with
  | nil =>
    rw [tuples, List.mem_singleton, List.map_eq_nil_iff]
    constructor
    · rintro rfl
      exact ⟨rfl, fun _ h => by cases h⟩
    · exact fun h => h.1
  | cons key rest ih =>
    rw [tuples]
    cases tuple with
    | nil =>
      -- tuples are as long as the keys, so the empty one is not among them
      constructor
      · intro hmem
        split at hmem
        · cases hmem
        · simp at hmem
      · rintro ⟨hkeys, -⟩
        cases hkeys
    | cons pair others =>
      obtain ⟨k, v⟩ := pair
      rw [List.map_cons, List.cons.injEq, List.forall_mem_cons]
      constructor
      · intro hmem
        split at hmem
        next => cases hmem
        next offered hoffered =>
          simp only [List.mem_flatMap, List.mem_map] at hmem
          obtain ⟨choice, hchoice, tuple, htuple, heq⟩ := hmem
          cases heq
          obtain ⟨hkeys, hothers⟩ := ih.1 htuple
          exact ⟨⟨rfl, hkeys⟩, ⟨offered, hoffered, hchoice⟩, hothers⟩
      · rintro ⟨⟨rfl, hkeys⟩, ⟨offered, hoffered, hchoice⟩, hothers⟩
        rw [hoffered]
        exact List.mem_flatMap.2 ⟨v, hchoice, List.mem_map.2 ⟨others, ih.2 ⟨hkeys, hothers⟩, rfl⟩⟩

theorem matchesTuple_iff {h : Host} {tuple : Tuple} :
    h.matchesTuple listAsAny tuple = true ↔ ∀ pair ∈ tuple, ∃ offered,
      h.metadata.get? pair.1 = some offered ∧ offered.serves pair.2 listAsAny = true := by
  rw [matchesTuple, List.all_eq_true]
  constructor
  · intro hall pair hpair
    have hone := hall pair hpair
    dsimp only at hone
    split at hone
    next offered hoffered => exact ⟨offered, hoffered, hone⟩
    next => cases hone
  · intro hall pair hpair
    obtain ⟨offered, hoffered, hserves⟩ := hall pair hpair
    dsimp only
    rw [hoffered]
    exact hserves

/-- Every host matches the empty tuple. -/
theorem matchesTuple_nil (h : Host) : h.matchesTuple listAsAny [] = true := rfl

/-- **Listing and testing agree** on plain tuples. -/
theorem mem_tuples_iff_matchesTuple {h : Host} {tuple : Tuple} (plain : tuple.Plain listAsAny) :
    tuple ∈ h.tuples listAsAny (tuple.map (·.1)) ↔ h.matchesTuple listAsAny tuple = true := by
  rw [mem_tuples, matchesTuple_iff]
  constructor
  · rintro ⟨-, hall⟩ pair hpair
    obtain ⟨offered, hoffered, hchoice⟩ := hall pair hpair
    exact ⟨offered, hoffered, (mem_choices_iff_serves (plain pair hpair)).1 hchoice⟩
  · intro hall
    refine ⟨rfl, fun pair hpair => ?_⟩
    obtain ⟨offered, hoffered, hserves⟩ := hall pair hpair
    exact ⟨offered, hoffered, (mem_choices_iff_serves (plain pair hpair)).2 hserves⟩

/-- A host without lists in lists has plain tuples only. -/
theorem plain_of_mem_tuples {h : Host} (flat : h.Flat) {keys : List String} {tuple : Tuple}
    (hmem : tuple ∈ h.tuples listAsAny keys) : tuple.Plain listAsAny := by
  intro pair hpair
  obtain ⟨offered, hoffered, hchoice⟩ := (mem_tuples.1 hmem).2 pair hpair
  exact plain_of_mem_choices (flat offered (SortedMap.mem_values_of_get? hoffered)) hchoice

end Host

end LoadBalancing
