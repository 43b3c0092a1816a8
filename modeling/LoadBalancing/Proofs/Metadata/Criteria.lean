/-
What a request asks for, whatever order it asks in.

The entries of a request go one by one into a list that is kept in order. What comes of it can be
said without the list: for each key the value of its last entry. A host is found under tuples that
are put together from its own metadata, key by key in the order of a key set. The criteria are cut
down to the same keys on their own, and the result is one of those tuples exactly if the host has
each of the values that are asked for. So no host is missed for the order in which keys were written
(`Criteria.ofEntries_lastWins`).
-/
import LoadBalancing.Proofs.SortedMap.Lookup
import LoadBalancing.Proofs.Subset.Membership
import LoadBalancing.Proofs.Text.Bytes
import Mathlib.Data.List.Induction
import Mathlib.Data.List.Nodup

set_option autoImplicit false

namespace LoadBalancing

/-! ## What is asked for -/

/-- Among some entries, the last one of this key gives it the value `v`. -/
def LastValue (entries : List (String × Value)) (key : String) (v : Value) : Prop :=
  ∃ before after, entries = before ++ (key, v) :: after ∧ ∀ e ∈ after, e.1 ≠ key

/-- One more entry is the last one of its key. -/
theorem lastValue_concat {entries : List (String × Value)} {e : String × Value} {key : String}
    {v : Value} :
    LastValue (entries ++ [e]) key v ↔ if key = e.1 then e.2 = v else LastValue entries key v := by
  constructor
  · rintro ⟨before, after, heq, hafter⟩
    rcases List.eq_nil_or_concat' after with rfl | ⟨after, last, rfl⟩
    · -- nothing comes after it, so it is the entry at the end
      obtain ⟨-, hlast⟩ := List.append_inj' heq rfl
      cases hlast
      rw [if_pos rfl]
    · rw [← List.cons_append, ← List.append_assoc] at heq
      obtain ⟨rfl, hlast⟩ := List.append_inj' heq rfl
      cases hlast
      rw [if_neg (Ne.symm (hafter e (List.mem_append_right after (List.mem_singleton_self e))))]
      exact ⟨before, after, rfl, fun o ho => hafter o (List.mem_append_left [e] ho)⟩
  · split
    next hkey =>
      rintro rfl
      exact ⟨entries, [], by rw [hkey], fun _ h => by cases h⟩
    next hkey =>
      rintro ⟨before, after, rfl, hafter⟩
      refine ⟨before, after ++ [e], List.append_assoc .., fun o ho => ?_⟩
      rcases List.mem_append.1 ho with ho | ho
      · exact hafter o ho
      · exact List.mem_singleton.1 ho ▸ Ne.symm hkey

/-- What the host has for a key: the value itself, or, where lists stand for their items, each item
of a list. -/
def Host.Has (h : Host) (listAsAny : Bool) (key : String) (v : Value) : Prop :=
  (h.metadata.get? key = some v ∧ v.Plain listAsAny) ∨
    ∃ items, h.metadata.get? key = some (.list items) ∧ listAsAny = true ∧ v ∈ items

namespace Host

variable {listAsAny : Bool}

theorem mem_choices {offered v : Value} : v ∈ choices listAsAny offered ↔
    (offered = v ∧ v.Plain listAsAny) ∨
      ∃ items, offered = .list items ∧ listAsAny = true ∧ v ∈ items := by
  cases offered with
  | list items => cases listAsAny <;> grind [choices, Value.Plain, Value.isList]
  | bool b => grind [choices, Value.Plain, Value.isList]
  | integer n => grind [choices, Value.Plain, Value.isList]
  | text s => grind [choices, Value.Plain, Value.isList]

theorem has_iff {h : Host} {key : String} {v : Value} : h.Has listAsAny key v ↔
    ∃ offered, h.metadata.get? key = some offered ∧ v ∈ choices listAsAny offered := by
  constructor
  · rintro (⟨hfound, plain⟩ | ⟨items, hfound, hitem⟩)
    · exact ⟨v, hfound, mem_choices.2 (.inl ⟨rfl, plain⟩)⟩
    · exact ⟨.list items, hfound, mem_choices.2 (.inr ⟨items, rfl, hitem⟩)⟩
  · rintro ⟨offered, hfound, hchoice⟩
    rcases mem_choices.1 hchoice with ⟨rfl, plain⟩ | ⟨items, rfl, hitem⟩
    · exact .inl ⟨hfound, plain⟩
    · exact .inr ⟨items, hfound, hitem⟩

end Host

namespace Criteria

/-! ## Entries of a request -/

theorem put_eq_insert (c : Criteria) (key : String) (v : Value) :
    c.put key v = c.insert key v := by
  rw [put, SortedMap.insert]
  congr 1
  exact putEntry_eq c.increasing key v

theorem ofEntries_eq (entries : List (String × Value)) :
    ofEntries entries = SortedMap.ofList entries := by
  simp only [ofEntries, SortedMap.ofList, put_eq_insert]

theorem get?_ofEntries {entries : List (String × Value)} {key : String} {v : Value} :
    (ofEntries entries).get? key = some v ↔ LastValue entries key v := by
  induction entries using List.reverseRecOn with
  | nil =>
    constructor
    · intro h
      cases h
    · rintro ⟨before, after, heq, -⟩
      simp at heq
  | append_singleton entries e ih =>
    rw [lastValue_concat, ofEntries, List.foldl_append, List.foldl_cons, List.foldl_nil,
      ← ofEntries, put_eq_insert, SortedMap.get?_insert]
    split
    · exact Option.some_inj
    · exact ih

theorem mem_keys_ofEntries (entries : List (String × Value)) (key : String) :
    key ∈ (ofEntries entries).keys ↔ key ∈ entries.map (·.1) := by
  rw [ofEntries_eq]
  exact SortedMap.mem_keys_ofList entries key

/-! ## The tuple that is asked for -/

theorem mem_restrict {c : Criteria} {keys : KeySet} {key : String} {v : Value} :
    (key, v) ∈ c.restrict keys ↔ key ∈ keys.keys ∧ c.get? key = some v := by
  rw [restrict, SortedMap.mem_entries_iff, SortedMap.get?_filterKeys, SortedMap.contains,
    SortedMap.mem_keys_iff]
  split
  next hkey => rw [and_iff_right hkey]
  next hkey => simp [hkey]

/-- Criteria that have all keys of a set are cut down to a tuple of just these keys. The two were
put in order apart from each other, but it is one order. -/
theorem map_restrict {c : Criteria} {keys : KeySet} (present : ∀ key ∈ keys.keys, key ∈ c.keys) :
    (c.restrict keys).map (·.1) = keys.keys := by
  refine SortedMap.eq_of_increasing (c.filterKeys keys.contains).increasing_keys
    keys.increasing_keys fun key => ?_
  constructor
  · intro hkey
    obtain ⟨⟨_, v⟩, hpair, rfl⟩ := List.mem_map.1 hkey
    exact (mem_restrict.1 hpair).1
  · intro hkey
    obtain ⟨v, hv⟩ := SortedMap.exists_get?_of_mem_keys (present key hkey)
    exact List.mem_map.2 ⟨(key, v), mem_restrict.2 ⟨hkey, hv⟩, rfl⟩

/-- A host is listed under what is asked for with some keys if it has each of the values. -/
theorem restrict_mem_tuples_iff {c : Criteria} {keys : KeySet}
    (present : ∀ key ∈ keys.keys, key ∈ c.keys) (h : Host) (listAsAny : Bool) :
    c.restrict keys ∈ h.tuples listAsAny keys.keys ↔
      ∀ key ∈ keys.keys, ∃ v, c.get? key = some v ∧ h.Has listAsAny key v := by
  rw [Host.mem_tuples, and_iff_right (map_restrict present)]
  constructor
  · intro all key hkey
    obtain ⟨v, hv⟩ := SortedMap.exists_get?_of_mem_keys (present key hkey)
    exact ⟨v, hv, Host.has_iff.2 (all (key, v) (mem_restrict.2 ⟨hkey, hv⟩))⟩
  · rintro all ⟨key, v⟩ hpair
    obtain ⟨hkey, hv⟩ := mem_restrict.1 hpair
    obtain ⟨v', hv', has⟩ := all key hkey
    cases hv.symm.trans hv'
    exact Host.has_iff.1 has

/-- What the criteria of a request are, given its entries. -/
structure LastWins (c : Criteria) (entries : List (String × Value)) : Prop where
  /-- Keys stand in the order of their bytes, -/
  increasing : c.entries.Pairwise fun a b => Text.bytes a.1 < Text.bytes b.1
  /-- each key of an entry once and no other, -/
  count_key : ∀ key, c.keys.count key = if key ∈ entries.map (·.1) then 1 else 0
  /-- and each with the value of its last entry. -/
  mem_iff : ∀ key v, (key, v) ∈ c.entries ↔ LastValue entries key v
  /-- A host is listed under what is asked for with some of the keys if and only if it has the value
  that is asked for with each of them. -/
  listed_iff : ∀ keys : KeySet, (∀ key ∈ keys.keys, key ∈ c.keys) → ∀ (h : Host) (listAsAny : Bool),
    c.restrict keys ∈ h.tuples listAsAny keys.keys ↔
      ∀ key ∈ keys.keys, ∃ v, LastValue entries key v ∧ h.Has listAsAny key v
  /-- Entries in another order come to the same, as long as the last one of each key is the same. -/
  unordered : ∀ others, (∀ key v, LastValue others key v ↔ LastValue entries key v) →
    ofEntries others = c

/-- **The last entry of each key wins**, whatever order they come in. -/
theorem ofEntries_lastWins (entries : List (String × Value)) :
    (ofEntries entries).LastWins entries where
  increasing := (ofEntries entries).increasing.imp Text.compare_eq_lt_iff.1
  count_key key := by
    rw [(ofEntries entries).nodup_keys.count]
    simp only [mem_keys_ofEntries]
  mem_iff key v := SortedMap.mem_entries_iff.trans get?_ofEntries
  listed_iff keys present h listAsAny := by
    simp only [restrict_mem_tuples_iff present, get?_ofEntries]
  unordered others same := by
    refine SortedMap.eq_of_get? fun key => Option.ext fun v => ?_
    rw [get?_ofEntries, get?_ofEntries, same]

end Criteria

end LoadBalancing
