/-
Finite maps kept as association lists in strictly increasing key order.

Metadata, request criteria and locality weights are all small maps whose order
is visible: they are described, compared and walked in key order. The order is
therefore part of the type. `insert` overwrites the value of a key that is
already there, so a map built from a list of entries keeps the last value given
for each key.
-/

set_option autoImplicit false

namespace LoadBalancing

/-- A finite map, held as its entries in strictly increasing key order. -/
structure SortedMap (κ β : Type) [Ord κ] where
  entries : List (κ × β)
  increasing : entries.Pairwise fun a b => compare a.1 b.1 = .lt
  deriving DecidableEq

namespace SortedMap

variable {κ β : Type} [Ord κ]

instance : EmptyCollection (SortedMap κ β) := ⟨⟨[], .nil⟩⟩

instance : Inhabited (SortedMap κ β) := ⟨∅⟩

/-! ## Insertion -/

/-- Puts `v` at its place by key, over an older value of the same key. -/
def insertEntry (k : κ) (v : β) : List (κ × β) → List (κ × β)
  | [] => [(k, v)]
  | (k', v') :: rest =>
    match compare k k' with
    | .lt => (k, v) :: (k', v') :: rest
    | .eq => (k, v) :: rest
    | .gt => (k', v') :: insertEntry k v rest

/-- An insertion brings in no key but its own. -/
theorem mem_insertEntry {k : κ} {v : β} {l : List (κ × β)} {e : κ × β}
    (h : e ∈ insertEntry k v l) : e = (k, v) ∨ e ∈ l := by
  induction l with
  | nil => simpa [insertEntry] using h
  | cons head rest ih =>
    simp only [insertEntry] at h
    split at h
    · simpa using h
    · rcases List.mem_cons.1 h with h | h
      · exact .inl h
      · exact .inr (List.mem_cons_of_mem _ h)
    · rcases List.mem_cons.1 h with h | h
      · exact .inr (h ▸ List.mem_cons_self)
      · rcases ih h with h | h
        · exact .inl h
        · exact .inr (List.mem_cons_of_mem _ h)

/-- The order survives an insertion: the new key stands before every larger one
and after every smaller one. -/
theorem increasing_insertEntry [Std.TransOrd κ] {k : κ} {v : β} {l : List (κ × β)}
    (h : l.Pairwise fun a b => compare a.1 b.1 = .lt) :
    (insertEntry k v l).Pairwise fun a b => compare a.1 b.1 = .lt := by
  induction l with
  | nil => simp [insertEntry]
  | cons head rest ih =>
    obtain ⟨hhead, hrest⟩ := List.pairwise_cons.1 h
    simp only [insertEntry]
    split
    next hlt =>
      refine List.pairwise_cons.2 ⟨fun e he => ?_, h⟩
      rcases List.mem_cons.1 he with rfl | he
      · exact hlt
      · exact Std.TransCmp.lt_trans hlt (hhead e he)
    next heq =>
      -- the key stays and the value is another one, so the order is as it was
      refine List.pairwise_cons.2 ⟨fun e he => ?_, hrest⟩
      exact Std.TransCmp.lt_of_eq_of_lt heq (hhead e he)
    next hgt =>
      refine List.pairwise_cons.2 ⟨fun e he => ?_, ih hrest⟩
      rcases mem_insertEntry he with rfl | he
      · exact Std.OrientedCmp.gt_iff_lt.1 hgt
      · exact hhead e he

/-- Where all keys before a place are less and all others are greater, that is the place. -/
theorem insertEntry_eq_insertIdx [Std.OrientedOrd κ] {k : κ} {v : β} {l : List (κ × β)} {i : Nat}
    (within : i ≤ l.length) (below : ∀ j (_ : j < l.length), j < i → compare l[j].1 k = .lt)
    (above : ∀ j (_ : j < l.length), i ≤ j → compare l[j].1 k = .gt) :
    insertEntry k v l = l.insertIdx i (k, v) := by
  induction l generalizing i with
  | nil =>
    rw [Nat.le_zero.1 within]
    rfl
  | cons head rest ih =>
    cases i with
    | zero =>
      have hhead : compare k head.1 = .lt :=
        Std.OrientedCmp.gt_iff_lt.1 (above 0 (Nat.zero_lt_succ _) (Nat.le_refl 0))
      simp only [insertEntry, hhead, List.insertIdx_zero]
    | succ i =>
      -- the head is one of those before the place, so the entry goes in behind it
      have hhead : compare k head.1 = .gt :=
        Std.OrientedCmp.gt_iff_lt.2 (below 0 (Nat.zero_lt_succ _) (Nat.zero_lt_succ _))
      have hrest : insertEntry k v rest = rest.insertIdx i (k, v) :=
        ih (Nat.le_of_succ_le_succ within)
          (fun j hj hlt => below (j + 1) (Nat.succ_lt_succ hj) (Nat.succ_lt_succ hlt))
          (fun j hj hle => above (j + 1) (Nat.succ_lt_succ hj) (Nat.succ_le_succ hle))
      simp only [insertEntry, hhead, hrest, List.insertIdx_succ_cons]

/-- Where all keys before an entry are less than its own, that is the entry to overwrite. -/
theorem insertEntry_eq_modify [Std.OrientedOrd κ] {l : List (κ × β)} {i : Nat}
    (within : i < l.length)
    (below : ∀ j (_ : j < l.length), j < i → compare l[j].1 l[i].1 = .lt) (v : β) :
    insertEntry l[i].1 v l = l.modify i fun e => (e.1, v) := by
  induction l generalizing i with
  | nil => cases within
  | cons head rest ih =>
    cases i with
    | zero => simp only [List.getElem_cons_zero, insertEntry, Std.ReflCmp.compare_self,
        List.modify_zero_cons]
    | succ i =>
      -- the head is less than the key, so the search goes on behind it
      have within : i < rest.length := Nat.lt_of_succ_lt_succ within
      have hhead : compare rest[i].1 head.1 = .gt :=
        Std.OrientedCmp.gt_iff_lt.2 (below 0 (Nat.zero_lt_succ _) (Nat.zero_lt_succ _))
      have hrest := ih within
        fun j hj hlt => below (j + 1) (Nat.succ_lt_succ hj) (Nat.succ_lt_succ hlt)
      simp only [List.getElem_cons_succ, insertEntry, hhead, hrest, List.modify_succ_cons]

/-- The map with `k` bound to `v`, whatever it was bound to before. -/
def insert [Std.TransOrd κ] (m : SortedMap κ β) (k : κ) (v : β) : SortedMap κ β :=
  ⟨insertEntry k v m.entries, increasing_insertEntry m.increasing⟩

/-- The map of a list of entries; the last entry of a key wins. -/
def ofList [Std.TransOrd κ] (l : List (κ × β)) : SortedMap κ β :=
  l.foldl (fun m e => m.insert e.1 e.2) ∅

/-! ## Reading -/

/-- The value bound to `k`. -/
def get? (m : SortedMap κ β) (k : κ) : Option β :=
  (m.entries.find? fun e => compare e.1 k == .eq).map (·.2)

/-- Whether there is an entry of `k`. -/
def contains (m : SortedMap κ β) (k : κ) : Bool :=
  (m.get? k).isSome

/-- All keys, in increasing order. -/
def keys (m : SortedMap κ β) : List κ :=
  m.entries.map (·.1)

/-- All values, in the order of their keys. -/
def values (m : SortedMap κ β) : List β :=
  m.entries.map (·.2)

/-- The number of entries. -/
def size (m : SortedMap κ β) : Nat :=
  m.entries.length

/-- Whether there is no entry at all. -/
def isEmpty (m : SortedMap κ β) : Bool :=
  m.entries.isEmpty

/-- The entries whose key passes `p`; a part of an increasing list is increasing. -/
def filterKeys (m : SortedMap κ β) (p : κ → Bool) : SortedMap κ β :=
  ⟨m.entries.filter fun e => p e.1, m.increasing.filter _⟩

/-- The map without the entry of `k`. -/
def erase (m : SortedMap κ β) (k : κ) : SortedMap κ β :=
  m.filterKeys fun k' => compare k' k != .eq

/-- The map with every value computed anew from its key and the old value. -/
def mapValues {γ : Type} (m : SortedMap κ β) (f : κ → β → γ) : SortedMap κ γ :=
  ⟨m.entries.map fun e => (e.1, f e.1 e.2), m.increasing.map _ fun _ _ h => h⟩

end SortedMap

end LoadBalancing
