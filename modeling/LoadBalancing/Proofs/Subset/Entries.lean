/-
What is held in a trie, listed with its tuples.

A look-up takes the first child of a pair and sees no other. So a list of all that is held says the
same as look-ups do if and only if no pair has two children at one node, which is so of every trie
that was built by changes (`Unambiguous.alter`, `Unambiguous.mapAccum`). Then what is listed is what
is found (`Unambiguous.mem_entries_iff`), and each tuple is listed once
(`Unambiguous.nodup_entries`).
-/
import LoadBalancing.Proofs.Subset.Trie
import Mathlib.Data.List.Nodup

set_option autoImplicit false

namespace LoadBalancing

namespace Trie

variable {σ : Type}

/-! ## Entries -/

mutual

/-- All that is held, each with the tuple that leads there, in the order of `toList`. -/
def entries : Trie σ → List (Tuple × σ)
  | .node held children => held.toList.map (fun x => ([], x)) ++ entriesOfChildren children

def entriesOfChildren : List ((String × Value) × Trie σ) → List (Tuple × σ)
  | [] => []
  | (pair, c) :: rest => (entries c).map (fun e => (pair :: e.1, e.2)) ++ entriesOfChildren rest

end

mutual

/-- Without the tuples, the entries are what a visit sees. -/
theorem map_entries : ∀ t : Trie σ, t.entries.map (·.2) = t.toList
  | .node held children => by
    rw [entries, toList, List.map_append, map_entriesOfChildren children, List.map_map]
    exact congrArg (· ++ listOfChildren children) (List.map_id held.toList)

theorem map_entriesOfChildren : ∀ children : List ((String × Value) × Trie σ),
    (entriesOfChildren children).map (·.2) = listOfChildren children
  | [] => rfl
  | (pair, c) :: rest => by
    rw [entriesOfChildren, listOfChildren, List.map_append, map_entriesOfChildren rest,
      List.map_map, ← map_entries c]
    rfl

end

theorem entriesOfChildren_eq (children : List ((String × Value) × Trie σ)) :
    entriesOfChildren children =
      children.flatMap fun child => child.2.entries.map fun e => (child.1 :: e.1, e.2) := by
  induction children with
  | nil => rfl
  | cons child rest ih => rw [entriesOfChildren, ih, List.flatMap_cons]

/-- The entry at the node itself. -/
theorem nil_mem_entries {held : Option σ} {children : List ((String × Value) × Trie σ)} {x : σ} :
    ([], x) ∈ (node held children).entries ↔ held = some x := by
  rw [entries, entriesOfChildren_eq, List.mem_append, List.mem_map, List.mem_flatMap]
  constructor
  · rintro (⟨y, hy, heq⟩ | ⟨child, -, hin⟩)
    · cases heq
      exact Option.mem_toList.1 hy
    · obtain ⟨e, -, heq⟩ := List.mem_map.1 hin
      cases heq
  · rintro rfl
    exact .inl ⟨x, Option.mem_toList.2 rfl, rfl⟩

/-- The entries further on are those of the children. -/
theorem cons_mem_entries {held : Option σ} {children : List ((String × Value) × Trie σ)}
    {pair : String × Value} {rest : Tuple} {x : σ} :
    (pair :: rest, x) ∈ (node held children).entries ↔
      ∃ c, (pair, c) ∈ children ∧ (rest, x) ∈ c.entries := by
  rw [entries, entriesOfChildren_eq, List.mem_append, List.mem_map, List.mem_flatMap]
  constructor
  · rintro (⟨y, -, heq⟩ | ⟨child, hchild, hin⟩)
    · cases heq
    · obtain ⟨e, he, heq⟩ := List.mem_map.1 hin
      cases heq
      exact ⟨child.2, hchild, he⟩
  · rintro ⟨c, hc, hx⟩
    exact .inr ⟨(pair, c), hc, List.mem_map.2 ⟨(rest, x), hx, rfl⟩⟩

/-! ## Tries in which look-ups see everything -/

/-- No pair has two children, at this node or further on. -/
inductive Unambiguous : Trie σ → Prop
  | node {held : Option σ} {children : List ((String × Value) × Trie σ)}
      (distinct : (children.map (·.1)).Nodup)
      (below : ∀ child ∈ children, Unambiguous child.2) : Unambiguous (.node held children)

theorem unambiguous_empty : (empty : Trie σ).Unambiguous :=
  .node List.nodup_nil fun _ h => absurd h List.not_mem_nil

/-- Among distinct pairs, each has the child that is found. -/
theorem lookup_eq_some_iff {children : List ((String × Value) × Trie σ)}
    (distinct : (children.map (·.1)).Nodup) {pair : String × Value} {c : Trie σ} :
    children.lookup pair = some c ↔ (pair, c) ∈ children := by
  induction children with
  | nil => simp
  | cons child rest ih =>
    obtain ⟨p, d⟩ := child
    obtain ⟨hnot, hrest⟩ := List.nodup_cons.1 distinct
    rw [List.lookup_cons, List.mem_cons]
    by_cases h : pair = p
    · subst h
      have other : (pair, c) ∉ rest := fun hmem => hnot (List.mem_map.2 ⟨_, hmem, rfl⟩)
      simp [other, eq_comm]
    · rw [beq_false_of_ne h, ih hrest]
      simp [h]

/-- **What is listed is what is found.** -/
theorem Unambiguous.mem_entries_iff {t : Trie σ} (h : t.Unambiguous) {tuple : Tuple} {x : σ} :
    (tuple, x) ∈ t.entries ↔ t.get? tuple = some x := by
  induction tuple generalizing t with
  | nil =>
    cases t with
    | node held children => exact nil_mem_entries
  | cons pair rest ih =>
    cases h with
    | node distinct below =>
      rw [cons_mem_entries, get?_cons, Option.bind_eq_some_iff]
      apply exists_congr
      intro c
      rw [child?, Trie.children, lookup_eq_some_iff distinct]
      exact and_congr_right fun hc => ih (below _ hc)

/-- **Each tuple is listed once.** -/
theorem Unambiguous.nodup_entries {t : Trie σ} (h : t.Unambiguous) :
    (t.entries.map (·.1)).Nodup := by
  induction h with
  | @node held children distinct below ih =>
    have here : ((held.toList.map fun x => (([] : Tuple), x)).map (·.1)).Nodup := by
      cases held <;> simp
    have further : ((entriesOfChildren children).map (·.1)).Nodup := by
      rw [entriesOfChildren_eq, List.map_flatMap, List.nodup_flatMap]
      constructor
      · intro child hchild
        rw [List.map_map]
        have own := (ih child hchild).map (List.cons_injective (a := child.1))
        rwa [List.map_map] at own
      · -- the tuples of two children begin with different pairs
        refine (List.pairwise_map.1 distinct).imp fun {c d} hne => List.disjoint_left.2 ?_
        intro tuple hc hd
        simp only [List.map_map, List.mem_map, Function.comp_apply] at hc hd
        obtain ⟨e, -, rfl⟩ := hc
        obtain ⟨e', -, heq⟩ := hd
        exact hne (List.head_eq_of_cons_eq heq).symm
    rw [entries, List.map_append, List.nodup_append]
    refine ⟨here, further, ?_⟩
    intro tuple htuple other hother
    rw [entriesOfChildren_eq] at hother
    simp only [List.map_map, List.mem_map, List.mem_flatMap] at htuple hother
    obtain ⟨x, -, rfl⟩ := htuple
    obtain ⟨e, ⟨child, -, d, -, rfl⟩, rfl⟩ := hother
    exact (List.cons_ne_nil _ _).symm

/-! ## Changes -/

section Alter

variable {pair : String × Value} {g : Trie σ → Trie σ}
  {children : List ((String × Value) × Trie σ)}

/-- A changed child keeps its place, and one that was missing comes at the end. -/
theorem map_alterChild : (alterChild pair g children).map (·.1) =
    if pair ∈ children.map (·.1) then children.map (·.1) else children.map (·.1) ++ [pair] := by
  induction children with
  | nil => rfl
  | cons child rest ih =>
    obtain ⟨p, c⟩ := child
    rw [alterChild]
    by_cases h : p = pair
    · rw [if_pos h, if_pos (by simp [h])]
      rfl
    · rw [if_neg h, List.map_cons, ih]
      have same : pair ∈ p :: rest.map (·.1) ↔ pair ∈ rest.map (·.1) :=
        List.mem_cons.trans (or_iff_right fun heq => h heq.symm)
      simp only [List.map_cons, same]
      split <;> rfl

theorem forall_alterChild {P : Trie σ → Prop} (h : ∀ child ∈ children, P child.2)
    (hempty : P empty) (hg : ∀ t, P t → P (g t)) :
    ∀ child ∈ alterChild pair g children, P child.2 := by
  induction children with
  | nil =>
    intro child hchild
    rw [List.mem_singleton.1 hchild]
    exact hg empty hempty
  | cons child rest ih =>
    obtain ⟨p, c⟩ := child
    obtain ⟨hc, hrest⟩ := List.forall_mem_cons.1 h
    rw [alterChild]
    split
    · exact List.forall_mem_cons.2 ⟨hg c hc, hrest⟩
    · exact List.forall_mem_cons.2 ⟨hc, ih hrest⟩

end Alter

/-- The induction is on the path, for all tries at once. -/
theorem Unambiguous.alter {t : Trie σ} (h : t.Unambiguous) (f : Option σ → Option σ)
    (tuple : Tuple) : (t.alter f tuple).Unambiguous := by
  induction tuple generalizing t with
  | nil =>
    cases h with
    | node distinct below => exact .node distinct below
  | cons pair rest ih =>
    cases h with
    | @node held children distinct below =>
      refine .node ?_ (forall_alterChild below unambiguous_empty fun t ht => ih ht)
      -- a child that comes in is under a pair that no other child is under
      rw [map_alterChild]
      split
      · exact distinct
      next hnot =>
        rw [List.nodup_append]
        refine ⟨distinct, List.nodup_singleton pair, ?_⟩
        rintro p hp q hq rfl
        exact hnot (List.mem_singleton.1 hq ▸ hp)

section MapAccum

variable {τ : Type} (f : τ → σ → σ × τ)

/-- A visit leaves the children where they are, and goes to each of them. -/
theorem mapAccumChildren_induct {P : Trie σ → Prop}
    (children : List ((String × Value) × Trie σ))
    (h : ∀ child ∈ children, ∀ s, P (mapAccum f s child.2).1) (s : τ) :
    (mapAccumChildren f s children).1.map (·.1) = children.map (·.1) ∧
      ∀ child ∈ (mapAccumChildren f s children).1, P child.2 := by
  induction children generalizing s with
  | nil => exact ⟨rfl, fun _ hmem => absurd hmem List.not_mem_nil⟩
  | cons child rest ih =>
    obtain ⟨pair, c⟩ := child
    obtain ⟨hc, hrest⟩ := List.forall_mem_cons.1 h
    obtain ⟨hkeys, hall⟩ := ih hrest (mapAccum f s c).2
    rw [mapAccumChildren]
    exact ⟨congrArg (pair :: ·) hkeys, List.forall_mem_cons.2 ⟨hc s, hall⟩⟩

theorem Unambiguous.mapAccum {t : Trie σ} (h : t.Unambiguous) (s : τ) :
    (mapAccum f s t).1.Unambiguous := by
  induction h generalizing s with
  | @node held children distinct below ih =>
    have visited (s : τ) (held : Option σ) :
        (Trie.node held (mapAccumChildren f s children).1).Unambiguous := by
      obtain ⟨hkeys, hall⟩ := mapAccumChildren_induct f children ih s
      exact .node (hkeys ▸ distinct) hall
    cases held with
    | none => exact visited s none
    | some x => exact visited (f s x).2 (some (f s x).1)

end MapAccum

end Trie

end LoadBalancing
