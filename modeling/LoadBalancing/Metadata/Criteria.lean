/-
Tuples of metadata pairs, and the criteria a request carries.

A tuple names a group of hosts: a list of key and value pairs, in key order
where it comes from this library. Criteria are the request's side: the last
value given for each key, in key order, so that the order in which a request
lists its entries does not matter. They grow by one entry at a time, and the
place of each is searched by halves, which finds it because those before are in
order (`putEntry_eq`).
-/
import LoadBalancing.Metadata.Value
import LoadBalancing.SortedMap

set_option autoImplicit false

namespace LoadBalancing

/-- The metadata of a host, or of any named group of hosts. -/
abbrev Metadata := SortedMap String Value

/-- A set of metadata keys, in increasing order. -/
abbrev KeySet := SortedMap String Unit

/-- The set of the keys of a list; repeats are dropped. -/
def KeySet.ofKeys (keys : List String) : KeySet :=
  SortedMap.ofList (keys.map fun k => (k, ()))

/-- Key and value pairs that together name a group of hosts. -/
abbrev Tuple := List (String × Value)

namespace Tuple

/-- Tuples compare pair by pair, key before value; a tuple comes before its extensions. -/
def order : Tuple → Tuple → Ordering
  | [], [] => .eq
  | [], _ :: _ => .lt
  | _ :: _, [] => .gt
  | (k, v) :: as, (k', v') :: bs =>
    ((compare k k').then (compare v v')).then (order as bs)

/-- The text of a tuple, for people to read (`describe_metadata`). -/
def describe (t : Tuple) : String :=
  if t.isEmpty then "<no metadata>"
  else ", ".intercalate (t.map fun (k, v) => k ++ "=" ++ v.describe)

end Tuple

/-- What a request asks of the host that serves it (`MetadataMatchCriteria`). -/
abbrev Criteria := Metadata

namespace Criteria

/-! ## Entries of a request -/

/-- Where a key stands among entries, or where it is missing. -/
inductive Place where
  | found (i : Nat)
  | missing (i : Nat)
  deriving DecidableEq, Repr

/-- Searches a key among the entries from `low` on and below `high`. Each step compares it with the
middle one and goes on in one half. -/
def search (entries : List (String × Value)) (key : String) (low high : Nat)
    (inside : high ≤ entries.length) : Place :=
  if _more : low < high then
    let mid := (low + high) / 2
    match compare entries[mid].1 key with
    | .eq => .found mid
    | .lt => search entries key (mid + 1) high inside
    | .gt => search entries key low mid (by omega)
  else .missing low
termination_by high - low

/-- Gives a key its value: over the older one where the key is there, else as an entry of its own
at its place. -/
def putEntry (key : String) (v : Value) (entries : List (String × Value)) :
    List (String × Value) :=
  match search entries key 0 entries.length (Nat.le_refl _) with
  | .found i => entries.modify i fun e => (e.1, v)
  | .missing i => entries.insertIdx i (key, v)

/-- What a place says about the entries: the key stands there, or those before it have lesser keys
and those from there on greater ones. -/
def Place.Of (entries : List (String × Value)) (key : String) : Place → Prop
  | .found i => ∃ _ : i < entries.length, entries[i].1 = key
  | .missing i => i ≤ entries.length ∧
      (∀ j (_ : j < entries.length), j < i → compare entries[j].1 key = .lt) ∧
      ∀ j (_ : j < entries.length), i ≤ j → compare entries[j].1 key = .gt

/-- A search finds the place of its key, as long as all that it leaves out is on the right side of
the key. The order of the entries sees to that. -/
theorem place_search {entries : List (String × Value)} {key : String} {low high : Nat}
    (increasing : entries.Pairwise fun a b => compare a.1 b.1 = .lt) (ordered : low ≤ high)
    (inside : high ≤ entries.length)
    (below : ∀ j (_ : j < entries.length), j < low → compare entries[j].1 key = .lt)
    (above : ∀ j (_ : j < entries.length), high ≤ j → compare entries[j].1 key = .gt) :
    (search entries key low high inside).Of entries key := by
  have pairs := List.pairwise_iff_getElem.1 increasing
  fun_induction search entries key low high inside with
  | case1 low high inside more mid heq =>
    exact ⟨by omega, Std.LawfulEqOrd.eq_of_compare heq⟩
  | case2 low high inside more mid hlt ih =>
    -- all up to the middle are less, by the order of the entries
    refine ih (by omega) (fun j hj hbelow => ?_) above
    rcases Nat.lt_or_eq_of_le (Nat.le_of_lt_succ hbelow) with hbefore | rfl
    · exact Std.TransCmp.lt_trans (pairs j mid hj (by omega) hbefore) hlt
    · exact hlt
  | case3 low high inside more mid hgt ih =>
    -- all from the middle on are greater
    refine ih (by omega) below fun j hj habove => ?_
    rcases Nat.lt_or_eq_of_le habove with hbehind | rfl
    · exact Std.TransCmp.gt_trans (Std.OrientedCmp.gt_iff_lt.2 (pairs mid j (by omega) hj hbehind))
        hgt
    · exact hgt
  | case4 low high inside done =>
    have heq : low = high := by omega
    exact ⟨by omega, below, heq ▸ above⟩

/-- **An entry comes to stand at its place**, so the order stays. -/
theorem putEntry_eq {entries : List (String × Value)}
    (increasing : entries.Pairwise fun a b => compare a.1 b.1 = .lt) (key : String) (v : Value) :
    putEntry key v entries = SortedMap.insertEntry key v entries := by
  have hplace : (search entries key 0 entries.length (Nat.le_refl _)).Of entries key :=
    place_search increasing (Nat.zero_le _) (Nat.le_refl _)
      (fun j _ hj => absurd hj (Nat.not_lt_zero j)) (fun j hj hle => absurd hj (Nat.not_lt.2 hle))
  rw [putEntry]
  split
  next i hfound =>
    rw [hfound] at hplace
    obtain ⟨within, rfl⟩ := hplace
    refine (SortedMap.insertEntry_eq_modify within (fun j hj hlt => ?_) v).symm
    exact List.pairwise_iff_getElem.1 increasing j i hj within hlt
  next i hmissing =>
    rw [hmissing] at hplace
    exact (SortedMap.insertEntry_eq_insertIdx hplace.1 hplace.2.1 hplace.2.2).symm

/-- The criteria with one more entry. -/
def put (c : Criteria) (key : String) (v : Value) : Criteria where
  entries := putEntry key v c.entries
  increasing := by
    rw [putEntry_eq c.increasing]
    exact SortedMap.increasing_insertEntry c.increasing

/-- The criteria of a request (`MetadataMatchCriteria::new`): what its entries say, one after the
other. -/
def ofEntries (entries : List (String × Value)) : Criteria :=
  entries.foldl (fun c e => c.put e.1 e.2) ∅

/-- The pairs of the criteria whose key is in `keys`, in key order
(`MetadataMatchCriteria::filter`). -/
def restrict (c : Criteria) (keys : KeySet) : Tuple :=
  (c.filterKeys keys.contains).entries

end Criteria

end LoadBalancing
