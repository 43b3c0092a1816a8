/-
What a look-up in a sorted map finds after each operation.

A map is looked up by key and printed in key order. The order matters only to
the printing: what is found under a key depends on the last insertion under it,
wherever the entry came to stand. So every lemma here is about one key at a time,
and nothing after this file opens the list of entries, apart from the last lemma,
which ties the entries to the look-up.
-/
import LoadBalancing.SortedMap

set_option autoImplicit false

namespace LoadBalancing.SortedMap

variable {κ β : Type} [Ord κ]

@[simp] theorem get?_empty (k : κ) : (∅ : SortedMap κ β).get? k = none := rfl

/-- What is found is one of the values. -/
theorem mem_values_of_get? {m : SortedMap κ β} {k : κ} {v : β} (h : m.get? k = some v) :
    v ∈ m.values := by
  obtain ⟨e, he, rfl⟩ := Option.map_eq_some_iff.1 h
  exact List.mem_map_of_mem (List.mem_of_find?_eq_some he)

variable [Std.LawfulEqOrd κ] [DecidableEq κ]

/-- Comparing for equality, as look-ups do, is equality. -/
theorem compare_beq_eq (a b : κ) : (compare a b == .eq) = decide (a = b) := by
  by_cases h : a = b
  · subst h
    simp
  · have : compare a b ≠ .eq := fun he => h (Std.LawfulEqOrd.eq_of_compare he)
    simp [h, this]

/-- A look-up is the first entry under the key. -/
theorem get?_eq_find? (m : SortedMap κ β) (k : κ) :
    m.get? k = (m.entries.find? fun e => decide (e.1 = k)).map (·.2) := by
  simp only [get?, compare_beq_eq]

/-! ## Insertion -/

/-- The list form of `get?_insert`. The induction is on the entries, and its three
cases are those of the insertion. -/
theorem find?_insertEntry (k k' : κ) (v : β) (l : List (κ × β)) :
    ((insertEntry k v l).find? fun e => decide (e.1 = k')).map (·.2) =
      if k' = k then some v else (l.find? fun e => decide (e.1 = k')).map (·.2) := by
  induction l with
  | nil => by_cases h : k' = k <;> simp [insertEntry, h, eq_comm]
  | cons head rest ih =>
    rw [insertEntry]
    split
    next hlt => by_cases h : k = k' <;> simp [h, eq_comm]
    next heq =>
      have hk : k = head.1 := Std.LawfulEqOrd.eq_of_compare heq
      by_cases h : k = k'
      · simp [h]
      · have hhead : head.1 ≠ k' := hk ▸ h
        simp [h, hhead, Ne.symm h]
    next hgt =>
      -- the entry goes in further on, and the head is found as before
      have hk : k ≠ head.1 := by
        rintro rfl
        simp at hgt
      by_cases h : head.1 = k'
      · have hne : k' ≠ k := fun he => hk (he ▸ h.symm)
        simp [h, hne]
      · rw [List.find?_cons, List.find?_cons]
        simpa [h] using ih

/-- An insertion changes what is found under its key, and nothing else. -/
theorem get?_insert [Std.TransOrd κ] (m : SortedMap κ β) (k k' : κ) (v : β) :
    (m.insert k v).get? k' = if k' = k then some v else m.get? k' := by
  rw [get?_eq_find?, get?_eq_find?]
  exact find?_insertEntry k k' v m.entries

/-! ## Parts -/

/-- A part of the map by keys finds what the whole finds, under the keys that are left. -/
theorem get?_filterKeys (m : SortedMap κ β) (p : κ → Bool) (k : κ) :
    (m.filterKeys p).get? k = if p k then m.get? k else none := by
  rw [get?_eq_find?, get?_eq_find?, filterKeys, List.find?_filter]
  split
  next hp =>
    congr 2
    funext e
    by_cases h : e.1 = k <;> simp [h, hp]
  next hp =>
    rw [List.find?_eq_none.2, Option.map_none]
    rintro e - he
    simp only [decide_eq_true_eq] at he
    exact hp (he.2 ▸ he.1)

/-- An erasure takes away what is found under its key, and nothing else. -/
theorem get?_erase (m : SortedMap κ β) (k k' : κ) :
    (m.erase k).get? k' = if k' = k then none else m.get? k' := by
  rw [erase, get?_filterKeys]
  by_cases h : k' = k <;> simp [bne, compare_beq_eq, h]

/-- Erasing one key after the other takes away what is found under each of them. -/
theorem get?_foldl_erase (keys : List κ) (m : SortedMap κ β) (k : κ) :
    (keys.foldl erase m).get? k = if k ∈ keys then none else m.get? k := by
  induction keys generalizing m with
  | nil => simp
  | cons k' rest ih =>
    rw [List.foldl_cons, ih, get?_erase]
    by_cases h : k = k' <;> simp [h]

/-- New values are found under the old keys. -/
theorem get?_mapValues {γ : Type} (m : SortedMap κ β) (f : κ → β → γ) (k : κ) :
    (m.mapValues f).get? k = (m.get? k).map (f k) := by
  rw [get?_eq_find?, get?_eq_find?, mapValues, List.find?_map, Option.map_map, Option.map_map]
  dsimp only [Function.comp_def]
  cases hfind : m.entries.find? fun e => decide (e.1 = k) with
  | none => rfl
  | some e =>
    have hkey := List.find?_some hfind
    rw [decide_eq_true_eq] at hkey
    rw [← hkey]
    rfl

/-! ## Keys -/

/-- The entries are what is found. -/
theorem mem_entries_iff {m : SortedMap κ β} {k : κ} {v : β} :
    (k, v) ∈ m.entries ↔ m.get? k = some v := by
  rw [get?_eq_find?]
  obtain ⟨entries, hsorted⟩ := m
  dsimp only
  induction entries with
  | nil => simp
  | cons head rest ih =>
    obtain ⟨k', v'⟩ := head
    obtain ⟨hhead, hrest⟩ := List.pairwise_cons.1 hsorted
    rw [List.mem_cons, List.find?_cons]
    by_cases h : k' = k
    · subst h
      -- the other entries have larger keys
      have hnot : (k', v) ∉ rest := by
        intro hmem
        have hlt := hhead _ hmem
        simp at hlt
      simp [hnot, eq_comm]
    · simp [h, Ne.symm h, ih hrest]

theorem mem_keys_iff (m : SortedMap κ β) (k : κ) : k ∈ m.keys ↔ (m.get? k).isSome := by
  rw [get?_eq_find?, keys, Option.isSome_map, List.find?_isSome, List.mem_map]
  simp only [decide_eq_true_eq]

theorem exists_get?_of_mem_keys {m : SortedMap κ β} {k : κ} (h : k ∈ m.keys) :
    ∃ v, m.get? k = some v :=
  Option.isSome_iff_exists.1 ((mem_keys_iff m k).1 h)

/-- The keys of a map of entries are those of the entries. -/
theorem mem_keys_ofList [Std.TransOrd κ] (l : List (κ × β)) (k : κ) :
    k ∈ (ofList l).keys ↔ k ∈ l.map (·.1) := by
  have built (m : SortedMap κ β) :
      k ∈ (l.foldl (fun m e => m.insert e.1 e.2) m).keys ↔ k ∈ m.keys ∨ k ∈ l.map (·.1) := by
    induction l generalizing m with
    | nil => simp
    | cons head rest ih =>
      rw [List.foldl_cons, ih, mem_keys_iff, get?_insert, mem_keys_iff, List.map_cons,
        List.mem_cons, ← or_assoc]
      by_cases h : k = head.1 <;> simp [h]
  rw [ofList, built, mem_keys_iff, get?_empty]
  simp

omit [DecidableEq κ] [Std.LawfulEqOrd κ] in
theorem increasing_keys (m : SortedMap κ β) : m.keys.Pairwise fun a b => compare a b = .lt :=
  List.pairwise_map.2 m.increasing

omit [DecidableEq κ] in
/-- Lists in increasing order are the same if they have the same items. -/
theorem eq_of_increasing [Std.TransOrd κ] {γ : Type} {key : γ → κ} {l l' : List γ}
    (increasing : l.Pairwise fun a b => compare (key a) (key b) = .lt)
    (increasing' : l'.Pairwise fun a b => compare (key a) (key b) = .lt)
    (same : ∀ a, a ∈ l ↔ a ∈ l') : l = l' := by
  have apart {l : List γ} (h : l.Pairwise fun a b => compare (key a) (key b) = .lt) :
      l.Nodup := by
    refine h.imp fun {a b} hlt heq => ?_
    simp [heq] at hlt
  have perm := (List.perm_ext_iff_of_nodup (apart increasing) (apart increasing')).2 same
  refine perm.eq_of_pairwise (fun a b _ _ hlt hgt => ?_) increasing increasing'
  -- no key is less than another one and greater
  rw [Std.OrientedCmp.gt_iff_lt.2 hgt] at hlt
  cases hlt

/-- **A map is what is found in it**: under the same keys the same values, in the same order. -/
theorem entries_eq_of_get? [Std.TransOrd κ] {m m' : SortedMap κ β}
    (same : ∀ k, m.get? k = m'.get? k) : m.entries = m'.entries := by
  refine eq_of_increasing m.increasing m'.increasing ?_
  rintro ⟨k, v⟩
  rw [mem_entries_iff, mem_entries_iff, same]

theorem eq_of_get? [Std.TransOrd κ] {m m' : SortedMap κ β} (same : ∀ k, m.get? k = m'.get? k) :
    m = m' := by
  obtain ⟨entries, increasing⟩ := m
  obtain ⟨entries', increasing'⟩ := m'
  obtain rfl : entries = entries' := entries_eq_of_get? same
  rfl

omit [DecidableEq κ] in
/-- No key stands in a map twice. -/
theorem nodup_keys (m : SortedMap κ β) : m.keys.Nodup := by
  refine m.increasing_keys.imp fun {a b} hlt => ?_
  intro he
  simp [he] at hlt

end LoadBalancing.SortedMap
