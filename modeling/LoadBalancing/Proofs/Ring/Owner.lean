/-
Whose a request is, and what moves when a host leaves.

The look-up searches by halves, but what it finds is simple to say: the first entry at or after
the hash of the request, and the first entry of all where there is none (`Ring.owner?_eq`). So
the owners of all hashes are known from the entries in their order.

The entries of a host depend on nothing but its address and their number, and sorting them is
stable. Taking a host out therefore takes its entries out and leaves all others in their order,
also those at equal hashes (`Ring.filter_entries`). An entry that was the first one at or after a
hash then still is, unless it went.
-/
import LoadBalancing.Ring.Basic
import Mathlib.Algebra.GroupWithZero.Nat

set_option autoImplicit false

namespace LoadBalancing

/-! ## Sorting and filtering -/

section Sorting

variable {α : Type} {le : α → α → Bool}

/-- A stable sort puts the first item behind those that are less, and before all others. -/
theorem mergeSort_cons_eq (trans : ∀ a b c, le a b → le b c → le a c)
    (total : ∀ a b, le a b || le b a) (a : α) (l : List α) :
    (a :: l).mergeSort le = (l.mergeSort le).filter (fun b => !le a b) ++
      a :: (l.mergeSort le).filter (fun b => le a b) := by
  obtain ⟨before, after, hcons, hrest, hbefore⟩ := List.mergeSort_cons trans total a l
  have hsorted := List.pairwise_mergeSort trans total (a :: l)
  rw [hcons, List.pairwise_append] at hsorted
  have hafter : ∀ b ∈ after, le a b = true := (List.pairwise_cons.1 hsorted.2.1).1
  -- those before it are less, those behind it are not, so each filter keeps one side
  have hless : before.filter (fun b => le a b) = [] := by
    rw [List.filter_eq_nil_iff]
    intro b hb hle
    have hnot := hbefore b hb
    rw [hle] at hnot
    exact Bool.false_ne_true hnot
  have hmore : after.filter (fun b => !le a b) = [] := by
    rw [List.filter_eq_nil_iff]
    intro b hb hle
    rw [hafter b hb] at hle
    exact Bool.false_ne_true hle
  rw [hcons, hrest, List.filter_append, List.filter_append, hless, hmore, List.append_nil,
    List.nil_append, List.filter_eq_self.2 hbefore, List.filter_eq_self.2 hafter]

/-- **A stable sort commutes with taking items out.** -/
theorem filter_mergeSort (trans : ∀ a b c, le a b → le b c → le a c)
    (total : ∀ a b, le a b || le b a) (keep : α → Bool) (l : List α) :
    (l.mergeSort le).filter keep = (l.filter keep).mergeSort le := by
  induction l with
  | nil => rw [List.filter_nil, List.mergeSort_nil, List.filter_nil]
  | cons a l ih =>
    cases hkeep : keep a with
    | true =>
      rw [List.filter_cons_of_pos hkeep, mergeSort_cons_eq trans total, List.filter_append,
        List.filter_cons_of_pos hkeep, mergeSort_cons_eq trans total, ← ih]
      simp only [List.filter_filter, Bool.and_comm]
    | false =>
      have hdrop : ¬ keep a = true := Bool.eq_false_iff.1 hkeep
      obtain ⟨before, after, hcons, hrest, -⟩ := List.mergeSort_cons trans total a l
      rw [List.filter_cons_of_neg hdrop, ← ih, hcons, hrest, List.filter_append,
        List.filter_append, List.filter_cons_of_neg hdrop]

end Sorting

namespace Ring

/-! ## The first entry at or after a hash -/

/-- The first entry at or after `h`, going round to the first of all. -/
def firstFrom (entries : List RingEntry) (h : UInt64) : Option RingEntry :=
  (entries.find? fun e => h ≤ e.hash).or entries.head?

theorem firstFrom_eq_none_iff {entries : List RingEntry} {h : UInt64} :
    firstFrom entries h = none ↔ entries = [] := by
  rw [firstFrom, Option.or_eq_none_iff, List.head?_eq_none_iff]
  constructor
  · exact fun hnone => hnone.2
  · rintro rfl
    exact ⟨rfl, rfl⟩

/-- Whoever else leaves, a first entry that stays is still the first. -/
theorem firstFrom_filter {entries : List RingEntry} {h : UInt64} {e : RingEntry}
    {keep : RingEntry → Bool} (hfirst : firstFrom entries h = some e) (hkeep : keep e = true) :
    firstFrom (entries.filter keep) h = some e := by
  rw [firstFrom, Option.or_eq_some_iff] at hfirst
  rw [firstFrom, List.find?_filter]
  rcases hfirst with hfound | ⟨hnone, hhead⟩
  · obtain ⟨hat, before, after, rfl, hbefore⟩ := List.find?_eq_some_iff_append.1 hfound
    -- those before it are below the hash, also those of them that stay
    have hskip : before.find? (fun a => decide (keep a = true ∧ decide (h ≤ a.hash) = true)) =
        none := by
      rw [List.find?_eq_none]
      intro a ha hboth
      have hnot := hbefore a ha
      rw [(of_decide_eq_true hboth).2] at hnot
      exact Bool.false_ne_true hnot
    rw [List.find?_append, hskip, Option.none_or, List.find?_cons_of_pos, Option.some_or]
    exact decide_eq_true ⟨hkeep, hat⟩
  · obtain ⟨rest, rfl⟩ := List.head?_eq_some_iff.1 hhead
    -- all are below the hash, so the circle begins again, and it begins with this one
    have hskip : (e :: rest).find?
        (fun a => decide (keep a = true ∧ decide (h ≤ a.hash) = true)) = none := by
      rw [List.find?_eq_none] at hnone ⊢
      exact fun a ha hboth => hnone a ha (of_decide_eq_true hboth).2
    rw [hskip, Option.none_or, List.filter_cons_of_pos hkeep, List.head?_cons]

/-! ## The search -/

/-- The entries before position `i` are those below `h`. -/
def SplitAt (entries : Array RingEntry) (h : UInt64) (i : Nat) : Prop :=
  i ≤ entries.size ∧ ∀ j (_ : j < entries.size), entries[j].hash < h ↔ j < i

theorem SplitAt.le_iff {entries : Array RingEntry} {h : UInt64} {i : Nat}
    (split : SplitAt entries h i) {j : Nat} (hj : j < entries.size) :
    h ≤ entries[j].hash ↔ i ≤ j := by
  rw [← UInt64.not_lt, split.2 j hj, Nat.not_lt]

/-- Where entries are sorted, there is such a position. -/
theorem splitAt_findIdx {entries : Array RingEntry}
    (sorted : entries.toList.Pairwise fun a b => a.hash ≤ b.hash) (h : UInt64) :
    SplitAt entries h (entries.toList.findIdx fun e => h ≤ e.hash) := by
  refine ⟨List.findIdx_le_length, fun j hj => ⟨fun below => ?_, fun hlt => ?_⟩⟩
  · rw [← Nat.not_le]
    intro hle
    -- an entry at or after another one that is at or after `h` is at or after `h`
    have hfirst := of_decide_eq_true
      (List.findIdx_getElem (w := Nat.lt_of_le_of_lt hle hj))
    have hat : h ≤ entries[j].hash := by
      rcases Nat.eq_or_lt_of_le hle with heq | hlt
      · simpa only [heq, Array.getElem_toList] using hfirst
      · exact UInt64.le_trans hfirst (List.pairwise_iff_getElem.1 sorted _ j _ hj hlt)
    exact UInt64.not_lt.2 hat below
  · exact UInt64.not_le.1 (of_decide_eq_false (List.not_of_lt_findIdx hlt))

/-- The circle begins at hash zero: every entry is at or after it. -/
theorem position_zero (entries : Array RingEntry) (low high : Int) (start : 0 ≤ low)
    (inside : high ≤ entries.size) : position entries 0 low high start inside = 0 := by
  fun_induction position entries 0 low high start inside with
  | case1 | case5 => rfl
  | case2 low high start inside more mid beyond inBounds hash before found =>
    have hbefore := (Bool.and_eq_true_iff.1 found).2
    exact absurd (of_decide_eq_true hbefore) UInt64.not_lt_zero
  | case3 low high start inside more mid beyond inBounds hash before found below ih => exact ih
  | case4 low high start inside more mid beyond inBounds hash before found below ih => exact ih

/-- What the search compares with the entry before position `j`. -/
theorem SplitAt.before_lt_iff {entries : Array RingEntry} {h : UInt64} (hpos : 0 < h) {i : Nat}
    (split : SplitAt entries h i) {j : Nat} (hj : j < entries.size) :
    (if j = 0 then 0 else entries[j - 1].hash) < h ↔ j ≤ i := by
  by_cases hzero : j = 0
  · rw [if_pos hzero, hzero]
    exact ⟨fun _ => Nat.zero_le i, fun _ => hpos⟩
  · rw [if_neg hzero, split.2 (j - 1) (by omega)]
    omega

/-- **The search finds the split**, if it is within the range that is searched. -/
theorem position_eq {entries : Array RingEntry} {h : UInt64} (hpos : 0 < h) {i : Nat}
    (split : SplitAt entries h i) {low high : Int} (start : 0 ≤ low)
    (inside : high ≤ entries.size) (hlow : low ≤ i) (hhigh : i ≤ high) :
    position entries h low high start inside = if i < entries.size then i else 0 := by
  fun_induction position entries h low high start inside with
  | case1 low high start inside more mid beyond =>
    -- the middle is beyond the last entry only where nothing else is left to search
    rw [if_neg (by omega)]
  | case2 low high start inside more mid beyond inBounds hash before found =>
    obtain ⟨hat, hbefore⟩ := Bool.and_eq_true_iff.1 found
    have hge : i ≤ mid := (split.le_iff inBounds).1 (of_decide_eq_true hat)
    have hle : mid ≤ i := (split.before_lt_iff hpos inBounds).1 (of_decide_eq_true hbefore)
    rw [Nat.le_antisymm hge hle, if_pos inBounds]
  | case3 low high start inside more mid beyond inBounds hash before found below ih =>
    have hlt : mid < i := (split.2 mid inBounds).1 below
    exact ih (by omega) hhigh
  | case4 low high start inside more mid beyond inBounds hash before found below ih =>
    have hat : h ≤ hash := UInt64.not_lt.1 below
    have hbefore : ¬ before < h := fun hlt =>
      found (Bool.and_eq_true_iff.2 ⟨decide_eq_true hat, decide_eq_true hlt⟩)
    have hlt : ¬ mid ≤ i := fun hle => hbefore ((split.before_lt_iff hpos inBounds).2 hle)
    exact ih hlow (by omega)
  | case5 low high start inside more => omega

/-- **The owner of a hash**: the host of the first entry at or after it, going round. -/
theorem owner?_eq {r : Ring} (sorted : r.entries.toList.Pairwise fun a b => a.hash ≤ b.hash)
    (h : UInt64) : r.owner? h = (firstFrom r.entries.toList h).map (·.host) := by
  rw [owner?, firstFrom, List.find?_eq_getElem?_findIdx, List.head?_eq_getElem?,
    Array.getElem?_toList, Array.getElem?_toList]
  have split := splitAt_findIdx sorted h
  by_cases hpos : 0 < h
  · rw [position_eq hpos split (Int.le_refl 0) (Int.le_refl _) (by omega)
      (Int.ofNat_le.2 split.1)]
    split
    next hlt => rw [Array.getElem?_eq_getElem hlt, Option.some_or]
    next hbeyond => rw [Array.getElem?_eq_none (Nat.not_lt.1 hbeyond), Option.none_or]
  · have hzero : h = 0 := UInt64.le_zero_iff.1 (UInt64.not_lt.1 hpos)
    -- no entry is below hash zero, so the first of all is the first at or after it
    have hstart : r.entries.toList.findIdx (fun e => decide (h ≤ e.hash)) = 0 := by
      rw [← Nat.le_zero, ← Nat.not_lt]
      intro hlt
      exact hpos (UInt64.lt_of_le_of_lt UInt64.zero_le
        ((split.2 0 (Nat.lt_of_lt_of_le hlt split.1)).2 hlt))
    rw [hstart, Option.or_self, hzero, position_zero]

/-! ## The entries of the hosts -/

variable {α : Type} [Quantity α]

/-- How many entries each host is dealt. -/
def dealt (w : Shares α) (s : RingSettings) : List (Host × Nat) :=
  deal (scale w.smallest s) 0 (Quantity.ofNat 0) w.shares

/-- How many entries a host has. -/
def points (r : Ring) (host : Host) : Nat :=
  r.entries.toList.countP fun e => e.host = host

theorem map_deal (scale : α) (shares : List (Host × α)) (already : Nat) (target : α) :
    (deal scale already target shares).map (·.1) = shares.map (·.1) := by
  induction shares generalizing already target with
  | nil => rfl
  | cons share shares ih =>
    rw [deal, List.map_cons, List.map_cons, ih]

theorem entries_ofShares (w : Shares α) (s : RingSettings) :
    (ofShares w s).entries.toList =
      ((dealt w s).flatMap fun (h, n) => entriesOf s.hash.ofBytes h n).mergeSort
        fun a b => decide (a.hash ≤ b.hash) := by
  rw [ofShares]
  split
  next hempty =>
    rw [dealt, List.isEmpty_iff.1 hempty, deal, List.flatMap_nil, List.mergeSort_nil]
    rfl
  next => rfl

theorem hash_le_trans (a b c : RingEntry) (hab : decide (a.hash ≤ b.hash) = true)
    (hbc : decide (b.hash ≤ c.hash) = true) : decide (a.hash ≤ c.hash) = true :=
  decide_eq_true (UInt64.le_trans (of_decide_eq_true hab) (of_decide_eq_true hbc))

theorem hash_le_total (a b : RingEntry) :
    (decide (a.hash ≤ b.hash) || decide (b.hash ≤ a.hash)) = true := by
  rw [← Bool.decide_or, decide_eq_true_eq]
  exact UInt64.le_total ..

theorem sorted_ofShares (w : Shares α) (s : RingSettings) :
    (ofShares w s).entries.toList.Pairwise fun a b => a.hash ≤ b.hash := by
  rw [entries_ofShares]
  exact (List.pairwise_mergeSort hash_le_trans hash_le_total _).imp of_decide_eq_true

theorem host_of_mem_entriesOf {f : List UInt8 → UInt64} {h : Host} {n : Nat} {e : RingEntry}
    (he : e ∈ entriesOf f h n) : e.host = h := by
  obtain ⟨i, -, rfl⟩ := List.mem_map.1 he
  rfl

theorem countP_entriesOf (f : List UInt8 → UInt64) (h o : Host) (n : Nat) :
    (entriesOf f h n).countP (fun e => e.host = o) = if h = o then n else 0 := by
  split
  next heq =>
    rw [List.countP_eq_length.2 fun e he => decide_eq_true ((host_of_mem_entriesOf he).trans heq),
      entriesOf, List.length_map, List.length_range]
  next hne =>
    rw [List.countP_eq_zero]
    exact fun e he heq => hne ((host_of_mem_entriesOf he).symm.trans (of_decide_eq_true heq))

/-- The entries that a host is dealt in all. -/
def sumFor (o : Host) (counts : List (Host × Nat)) : Nat :=
  (counts.map fun count => if count.1 = o then count.2 else 0).sum

theorem points_ofShares (w : Shares α) (s : RingSettings) (o : Host) :
    (ofShares w s).points o = sumFor o (dealt w s) := by
  rw [points, entries_ofShares, (List.mergeSort_perm _ _).countP_eq, List.countP_flatMap]
  simp only [Function.comp_def, countP_entriesOf]
  rfl

theorem sumFor_of_not_mem {o : Host} {counts : List (Host × Nat)}
    (h : o ∉ counts.map (·.1)) : sumFor o counts = 0 := by
  rw [sumFor, List.sum_eq_zero_iff_forall_eq_nat]
  intro n hn
  obtain ⟨count, hcount, rfl⟩ := List.mem_map.1 hn
  rw [if_neg]
  rintro rfl
  exact h (List.mem_map_of_mem hcount)

theorem sumFor_of_mem {counts : List (Host × Nat)} (distinct : (counts.map (·.1)).Nodup)
    {count : Host × Nat} (h : count ∈ counts) : sumFor count.1 counts = count.2 := by
  induction counts with
  | nil => cases h
  | cons first rest ih =>
    obtain ⟨hfirst, hrest⟩ := List.nodup_cons.1 distinct
    rw [sumFor, List.map_cons, List.sum_cons, ← sumFor]
    rcases List.mem_cons.1 h with rfl | hmem
    · rw [if_pos rfl, sumFor_of_not_mem hfirst, Nat.add_zero]
    · rw [if_neg, ih hrest hmem, Nat.zero_add]
      intro heq
      exact hfirst (List.mem_map.2 ⟨count, hmem, heq.symm⟩)

/-- What the hosts are dealt can be read off the ring. -/
theorem dealt_eq {w : Shares α} {s : RingSettings} (distinct : (w.shares.map (·.1)).Nodup) :
    dealt w s = (w.shares.map (·.1)).map fun h => (h, (ofShares w s).points h) := by
  have hhosts : (dealt w s).map (·.1) = w.shares.map (·.1) := map_deal ..
  rw [← hhosts] at distinct ⊢
  rw [List.map_map]
  refine (List.map_id _).symm.trans (List.map_congr_left fun count hcount => ?_)
  rw [id, Function.comp, points_ofShares, sumFor_of_mem distinct hcount]

theorem filter_entriesOf (f : List UInt8 → UInt64) (h x : Host) (n : Nat) :
    (entriesOf f h n).filter (fun e => e.host ≠ x) = if h ≠ x then entriesOf f h n else [] := by
  split
  next hne =>
    rw [List.filter_eq_self]
    exact fun e he => decide_eq_true (host_of_mem_entriesOf he ▸ hne)
  next heq =>
    rw [List.filter_eq_nil_iff]
    exact fun e he hne => heq (host_of_mem_entriesOf he ▸ of_decide_eq_true hne)

/-- **The entries without a host** are those of all others. They depend on nothing but the order
of these and how many entries each of them has. -/
theorem filter_entries {w : Shares α} {s : RingSettings} (distinct : (w.shares.map (·.1)).Nodup)
    (x : Host) :
    (ofShares w s).entries.toList.filter (fun e => e.host ≠ x) =
      (((w.shares.map (·.1)).filter (· ≠ x)).flatMap fun h =>
        entriesOf s.hash.ofBytes h ((ofShares w s).points h)).mergeSort
          fun a b => decide (a.hash ≤ b.hash) := by
  rw [entries_ofShares, filter_mergeSort hash_le_trans hash_le_total, dealt_eq distinct]
  congr 1
  induction w.shares.map (·.1) with
  | nil => rfl
  | cons h hosts ih =>
    rw [List.map_cons, List.flatMap_cons, List.filter_append, filter_entriesOf, ih]
    rw [List.filter_cons]
    by_cases hne : h ≠ x
    · rw [if_pos hne, if_pos (decide_eq_true hne), List.flatMap_cons]
    · rw [if_neg hne, if_neg fun htrue => hne (of_decide_eq_true htrue), List.nil_append]

/-! ## A host that left -/

section Left

variable {w w' : Shares α} {s s' : RingSettings} {x : Host}

/-- The ring without a host has the entries of all others, in the same order. -/
theorem entries_eq_filter (hash : s'.hash = s.hash) (distinct : (w.shares.map (·.1)).Nodup)
    (distinct' : (w'.shares.map (·.1)).Nodup)
    (order : (w'.shares.map (·.1)).filter (· ≠ x) = (w.shares.map (·.1)).filter (· ≠ x))
    (equal : ∀ o, o ≠ x → (ofShares w' s').points o = (ofShares w s).points o)
    (gone : (ofShares w' s').points x = 0) :
    (ofShares w' s').entries.toList =
      (ofShares w s).entries.toList.filter (fun e => e.host ≠ x) := by
  -- nobody on the smaller ring is the host that left, so filtering it out does nothing
  have hgone : ∀ e ∈ (ofShares w' s').entries.toList, decide (e.host ≠ x) = true := by
    intro e he
    have hnot := List.countP_eq_zero.1 gone e he
    exact decide_eq_true fun heq => hnot (decide_eq_true heq)
  calc (ofShares w' s').entries.toList
      = (ofShares w' s').entries.toList.filter (fun e => e.host ≠ x) :=
        (List.filter_eq_self.2 hgone).symm
    _ = (((w'.shares.map (·.1)).filter (· ≠ x)).flatMap fun o =>
          entriesOf s'.hash.ofBytes o ((ofShares w' s').points o)).mergeSort
            fun a b => decide (a.hash ≤ b.hash) := filter_entries distinct' x
    _ = (((w.shares.map (·.1)).filter (· ≠ x)).flatMap fun o =>
          entriesOf s.hash.ofBytes o ((ofShares w s).points o)).mergeSort
            fun a b => decide (a.hash ≤ b.hash) := by
        rw [order, hash, List.flatMap_def, List.flatMap_def]
        -- the others have the same hashes as before, one for each of their points
        congr 2
        apply List.map_congr_left
        intro o ho
        rw [equal o (of_decide_eq_true (List.mem_filter.1 ho).2)]
    _ = (ofShares w s).entries.toList.filter (fun e => e.host ≠ x) :=
        (filter_entries distinct x).symm

/-- **Only the keys of the host that left move.** Two rings place their entries by one hash
function. All hosts but `x` come in the same order for both and have equally many entries on
both, and `x` has none on the second one, which is not empty. Then every hash belongs to `x`
on the first ring, or to one host on both. No two entries need to have different hashes, and
the first entries of all own the hashes beyond the last. -/
theorem owner?_stays (hash : s'.hash = s.hash) (distinct : (w.shares.map (·.1)).Nodup)
    (distinct' : (w'.shares.map (·.1)).Nodup)
    (order : (w'.shares.map (·.1)).filter (· ≠ x) = (w.shares.map (·.1)).filter (· ≠ x))
    (equal : ∀ o, o ≠ x → (ofShares w' s').points o = (ofShares w s).points o)
    (gone : (ofShares w' s').points x = 0) (nonempty : (ofShares w' s').isEmpty = false)
    (h : UInt64) :
    (ofShares w s).owner? h = some x ∨
      ∃ o, (ofShares w s).owner? h = some o ∧ (ofShares w' s').owner? h = some o := by
  have hentries := entries_eq_filter hash distinct distinct' order equal gone
  rw [owner?_eq (sorted_ofShares w s), owner?_eq (sorted_ofShares w' s'), hentries]
  cases hfirst : firstFrom (ofShares w s).entries.toList h with
  | none =>
    -- then there is no entry on the first ring, and none on the second one
    rw [firstFrom_eq_none_iff] at hfirst
    rw [hfirst, List.filter_nil, Array.toList_eq_nil_iff] at hentries
    rw [isEmpty, hentries] at nonempty
    cases nonempty
  | some e =>
    rw [Option.map_some]
    by_cases hx : e.host = x
    · exact .inl (congrArg some hx)
    · rw [firstFrom_filter hfirst (decide_eq_true hx)]
      exact .inr ⟨e.host, rfl, rfl⟩

end Left

/-! ### One of three hosts leaves -/

section Quarters

def pointed (id : Nat) (address : String) : Host :=
  { id, address, locality := default, metadata := ∅ }

/-- The second host has half of the whole. -/
def quarters : Shares Rat :=
  ⟨[(pointed 0 "a", 1 / 4), (pointed 1 "b", 1 / 2), (pointed 2 "c", 1 / 4)], 1 / 4⟩

/-- The other two share the whole. -/
def halves : Shares Rat :=
  ⟨[(pointed 0 "a", 1 / 2), (pointed 2 "c", 1 / 2)], 1 / 2⟩

def sized (size : Nat) : RingSettings :=
  { RingSettings.standard with minimumSize := size }

/-- The last of all hashes stays where it is if it was not with the host that left. -/
theorem owner?_stays_quarters :
    (ofShares quarters (sized 4)).owner? 0xffffffffffffffff = some (pointed 1 "b") ∨
      ∃ o, (ofShares quarters (sized 4)).owner? 0xffffffffffffffff = some o ∧
        (ofShares halves (sized 2)).owner? 0xffffffffffffffff = some o := by
  -- the others have as many entries on the smaller ring as they have on the larger one
  have hdealt : dealt quarters (sized 4) =
      [(pointed 0 "a", 1), (pointed 1 "b", 2), (pointed 2 "c", 1)] := by
    decide +kernel
  have hdealt' : dealt halves (sized 2) = [(pointed 0 "a", 1), (pointed 2 "c", 1)] := by
    decide +kernel
  refine @owner?_stays Rat _ quarters halves (sized 4) (sized 2) (pointed 1 "b") rfl
    (by decide +kernel) (by decide +kernel) (by decide +kernel) ?equal ?gone ?nonempty
    0xffffffffffffffff
  case equal =>
    intro o ho
    rw [points_ofShares, points_ofShares, hdealt, hdealt']
    simp [sumFor, Ne.symm ho]
  case gone =>
    rw [points_ofShares, hdealt']
    decide +kernel
  -- a ring on which somebody has an entry is not empty
  case nonempty =>
    have hpoints : (ofShares halves (sized 2)).points (pointed 0 "a") = 1 := by
      rw [points_ofShares, hdealt']
      decide +kernel
    rw [isEmpty, Bool.eq_false_iff, ne_eq, Array.isEmpty_iff]
    intro hnil
    rw [points, hnil] at hpoints
    cases hpoints

end Quarters

end Ring

end LoadBalancing
