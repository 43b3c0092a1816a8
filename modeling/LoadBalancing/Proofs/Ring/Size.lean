/-
How large a ring is, and how many of its entries each host has, in exact arithmetic.

Entries are dealt out by a running target. The targets rarely are whole, and what one host does
not use up of its share goes to the next ones, so no host can be looked at alone. What holds at
each point is that as many entries are on the ring as the target rounded up
(`Ring.sum_take_dealt`). The number of entries of a host is the difference of two such numbers
(`Ring.getElem_dealt`), hence within one of its share of the scale, and the last target is the
scale itself.

The scale makes the entries of the host with the smallest share a whole number, and at least one,
unless the maximum size caps it. A capped ring may be too small for its hosts. Then some of them
have no entry at all.
-/
import LoadBalancing.Proofs.Ring.Owner
import Mathlib.Algebra.Order.BigOperators.Group.List
import Mathlib.Data.Rat.Floor
import Mathlib.Tactic.Linarith

set_option autoImplicit false

namespace LoadBalancing

/-! ## Exact arithmetic -/

namespace Quantity

theorem ceil_rat (a : Rat) : ceil a = ⌈a⌉₊ := by
  have hceil : a.ceil = ⌈a⌉ := by
    symm
    rw [Int.ceil_eq_iff]
    have hlt := Rat.ceil_lt (x := a)
    exact ⟨by linarith, Rat.le_ceil⟩
  show a.ceil.toNat = ⌈a⌉₊
  rw [hceil, Int.ceil_toNat]

theorem least_rat (a b : Rat) : least a b = min a b := by
  show (if decide (b < a) = true then b else a) = min a b
  by_cases hlt : b < a
  · rw [if_pos (decide_eq_true hlt), min_eq_right (le_of_lt hlt)]
  · rw [if_neg (by simpa using hlt), min_eq_left (not_lt.1 hlt)]

end Quantity

/-- Shares of a whole: each host has some part of it, all of them together have all of it, and
the smallest part is known. -/
structure Shares.Whole (w : Shares Rat) : Prop where
  nonempty : w.shares ≠ []
  pos : ∀ share ∈ w.shares, 0 < share.2
  sum : (w.shares.map (·.2)).sum = 1
  smallest_mem : w.smallest ∈ w.shares.map (·.2)
  smallest_le : ∀ share ∈ w.shares, w.smallest ≤ share.2

namespace Ring

/-! ## Dealing -/

section Deal

variable {scale : Rat}

theorem deal_cons (target : Rat) (already : Nat) (share : Host × Rat)
    (rest : List (Host × Rat)) :
    deal scale already target (share :: rest) =
      (share.1, max already ⌈target + scale * share.2⌉₊ - already) ::
        deal scale (max already ⌈target + scale * share.2⌉₊) (target + scale * share.2) rest := by
  rw [← Quantity.ceil_rat]
  rfl

/-- **Dealing keeps up with the target**: after each host, as many entries are on the ring as the
target rounded up. -/
theorem add_sum_take_deal (hscale : 0 ≤ scale) (target : Rat) {shares : List (Host × Rat)}
    (pos : ∀ share ∈ shares, 0 < share.2) (k : Nat) :
    ⌈target⌉₊ + (((deal scale ⌈target⌉₊ target shares).take k).map (·.2)).sum =
      ⌈target + scale * ((shares.take k).map (·.2)).sum⌉₊ := by
  induction shares generalizing target k with
  | nil =>
    unfold deal
    simp
  | cons share rest ih =>
    cases k with
    | zero => simp
    | succ k =>
      have hshare := pos share List.mem_cons_self
      have hrest : ∀ other ∈ rest, 0 < other.2 :=
        fun other hother => pos other (List.mem_cons_of_mem _ hother)
      -- shares are positive, so targets never fall
      have hgrows : target ≤ target + scale * share.2 :=
        le_add_of_nonneg_right (mul_nonneg hscale (le_of_lt hshare))
      have hceil : ⌈target⌉₊ ≤ ⌈target + scale * share.2⌉₊ := Nat.ceil_mono hgrows
      have hnext := ih (target + scale * share.2) hrest k
      rw [deal_cons, max_eq_right hceil, List.take_succ_cons, List.take_succ_cons, List.map_cons,
        List.map_cons, List.sum_cons, List.sum_cons, mul_add, ← add_assoc target, ← hnext]
      omega

end Deal

/-! ## The scale -/

section Scale

variable {w : Shares Rat} {s : RingSettings}

theorem scale_rat (smallest : Rat) (s : RingSettings) :
    scale smallest s =
      min ((⌈smallest * s.minimumSize⌉₊ : Rat) / smallest) s.maximumSize := by
  rw [← Quantity.ceil_rat]
  exact Quantity.least_rat _ _

theorem smallest_pos (whole : w.Whole) : 0 < w.smallest := by
  obtain ⟨share, hshare, heq⟩ := List.mem_map.1 whole.smallest_mem
  rw [← heq]
  exact whole.pos share hshare

/-- The scale is between the sizes that are asked for. -/
theorem scale_bounds (whole : w.Whole) (bounds : s.minimumSize ≤ s.maximumSize) :
    (s.minimumSize : Rat) ≤ scale w.smallest s ∧ scale w.smallest s ≤ s.maximumSize := by
  have hsmallest := smallest_pos whole
  rw [scale_rat]
  refine ⟨le_min ?_ ?_, min_le_right _ _⟩
  · rw [le_div_iff₀ hsmallest, mul_comm]
    exact Nat.le_ceil _
  · exact_mod_cast bounds

/-- Where the maximum does not cap the scale, the host with the smallest share has an entry for
itself. -/
theorem one_le_scale_mul_smallest (whole : w.Whole) (positive : 0 < s.minimumSize)
    (uncapped : (⌈w.smallest * s.minimumSize⌉₊ : Rat) / w.smallest ≤ s.maximumSize) :
    1 ≤ scale w.smallest s * w.smallest := by
  have hsmallest := smallest_pos whole
  have hmin : (0 : Rat) < s.minimumSize := by exact_mod_cast positive
  have hceil : 0 < ⌈w.smallest * s.minimumSize⌉₊ := Nat.ceil_pos.2 (mul_pos hsmallest hmin)
  rw [scale_rat, min_eq_left uncapped, div_mul_cancel₀ _ (ne_of_gt hsmallest)]
  exact_mod_cast hceil

end Scale

/-! ## The entries of each host -/

section Entries

variable {w : Shares Rat} {s : RingSettings}

/-- After the first hosts, as many entries are dealt as their shares of the scale, rounded up. -/
theorem sum_take_dealt (pos : ∀ share ∈ w.shares, 0 < share.2)
    (hscale : 0 ≤ scale w.smallest s) (k : Nat) :
    (((dealt w s).take k).map (·.2)).sum =
      ⌈scale w.smallest s * ((w.shares.take k).map (·.2)).sum⌉₊ := by
  have hsum := add_sum_take_deal hscale 0 pos k
  rw [Nat.ceil_zero, zero_add, zero_add] at hsum
  exact hsum

theorem length_dealt (w : Shares Rat) (s : RingSettings) :
    (dealt w s).length = w.shares.length := by
  have hhosts : (dealt w s).map (·.1) = w.shares.map (·.1) := map_deal ..
  simpa using congrArg List.length hhosts

/-- The number of entries of one host. -/
theorem getElem_dealt (pos : ∀ share ∈ w.shares, 0 < share.2)
    (hscale : 0 ≤ scale w.smallest s) {i : Nat} (hi : i < (dealt w s).length) :
    ⌈scale w.smallest s * ((w.shares.take i).map (·.2)).sum⌉₊ + (dealt w s)[i].2 =
      ⌈scale w.smallest s * ((w.shares.take (i + 1)).map (·.2)).sum⌉₊ := by
  rw [← sum_take_dealt pos hscale, ← sum_take_dealt pos hscale, List.map_take, List.map_take,
    List.sum_take_succ _ i (by rwa [List.length_map]), List.getElem_map]

/-- The target of one host is its share above the one before. -/
theorem sum_take_succ_shares {i : Nat} (hi : i < w.shares.length) :
    ((w.shares.take (i + 1)).map (·.2)).sum =
      ((w.shares.take i).map (·.2)).sum + w.shares[i].2 := by
  rw [List.map_take, List.map_take, List.sum_take_succ _ i (by rwa [List.length_map]),
    List.getElem_map]

theorem sum_take_shares_nonneg (pos : ∀ share ∈ w.shares, 0 < share.2) (k : Nat) :
    0 ≤ ((w.shares.take k).map (·.2)).sum := by
  apply List.sum_nonneg
  intro part hpart
  obtain ⟨share, hshare, rfl⟩ := List.mem_map.1 hpart
  exact le_of_lt (pos share (List.mem_of_mem_take hshare))

/-- **No host is a whole entry away from its share.** -/
theorem abs_dealt_sub_lt (pos : ∀ share ∈ w.shares, 0 < share.2)
    (hscale : 0 ≤ scale w.smallest s) {i : Nat} (hi : i < (dealt w s).length)
    (hi' : i < w.shares.length) :
    |((dealt w s)[i].2 : Rat) - scale w.smallest s * w.shares[i].2| < 1 := by
  have hdealt := getElem_dealt pos hscale hi
  have hbefore := mul_nonneg hscale (sum_take_shares_nonneg pos i)
  have hafter := mul_nonneg hscale (sum_take_shares_nonneg pos (i + 1))
  rw [sum_take_succ_shares hi', mul_add] at hdealt hafter
  generalize scale w.smallest s * ((w.shares.take i).map (·.2)).sum = before at *
  generalize scale w.smallest s * w.shares[i].2 = part at *
  -- both targets are rounded up, by less than one
  have hlow := Nat.le_ceil before
  have hlow' := Nat.ceil_lt_add_one hbefore
  have hhigh := Nat.le_ceil (before + part)
  have hhigh' := Nat.ceil_lt_add_one hafter
  have hdealt' : (⌈before⌉₊ : Rat) + (dealt w s)[i].2 = ⌈before + part⌉₊ := by
    exact_mod_cast hdealt
  rw [abs_lt]
  constructor <;> linarith

theorem length_entriesOf (f : List UInt8 → UInt64) (h : Host) (n : Nat) :
    (entriesOf f h n).length = n := by
  rw [entriesOf, List.length_map, List.length_range]

theorem size_ofShares (w : Shares Rat) (s : RingSettings) :
    (ofShares w s).size = ((dealt w s).map (·.2)).sum := by
  rw [size, ← Array.length_toList, entries_ofShares, List.length_mergeSort, List.length_flatMap]
  simp only [length_entriesOf]

end Entries

/-! ## The least and the greatest number -/

theorem foldl_min_eq {size : Nat} {counts : List Nat} (nonempty : counts ≠ [])
    (hle : ∀ n ∈ counts, n ≤ size) : counts.min? = some (counts.foldl min size) := by
  obtain ⟨least, hleast⟩ := Option.isSome_iff_exists.1 (List.isSome_min?_of_ne_nil nonempty)
  have hmem := (List.min?_eq_some_iff.1 hleast).1
  rw [List.foldl_min, hleast, Option.getD_some, min_eq_right (hle least hmem)]

theorem foldl_max_eq {counts : List Nat} (nonempty : counts ≠ []) :
    counts.max? = some (counts.foldl max 0) := by
  obtain ⟨greatest, hgreatest⟩ := Option.isSome_iff_exists.1 (List.isSome_max?_of_ne_nil nonempty)
  rw [List.foldl_max, hgreatest, Option.getD_some, Nat.zero_max]

/-! ## The ring of some shares -/

/-- What a ring of some shares is, by the factor from shares to entries. -/
structure Apportions (w : Shares Rat) (s : RingSettings) (scale : Rat) (r : Ring) : Prop where
  size : r.size = ⌈scale⌉₊
  minimum : s.minimumSize ≤ r.size
  maximum : r.size ≤ s.maximumSize
  /-- Each host in turn is dealt some entries, and these are the entries of the ring. -/
  hosts : (dealt w s).map (·.1) = w.shares.map (·.1)
  entries : r.entries.toList.Perm ((dealt w s).flatMap fun (h, n) => entriesOf s.hash.ofBytes h n)
  points : (w.shares.map (·.1)).Nodup → ∀ count ∈ dealt w s, r.points count.1 = count.2
  /-- A host is dealt one more as long as fewer are on the ring than the running target. -/
  turns : ∀ i (hi : i < (dealt w s).length) (n : Nat), n < (dealt w s)[i].2 ↔
    (((((dealt w s).take i).map (·.2)).sum + n : Nat) : Rat) <
      scale * ((w.shares.take (i + 1)).map (·.2)).sum
  near : ∀ i (hi : i < (dealt w s).length) (hi' : i < w.shares.length),
    |((dealt w s)[i].2 : Rat) - scale * w.shares[i].2| < 1
  /-- Nobody is left out if the smallest share is worth an entry. -/
  everyone : 1 ≤ scale * w.smallest → ∀ count ∈ dealt w s, 1 ≤ count.2
  /-- It is worth one unless the maximum caps the scale. -/
  uncapped : (⌈w.smallest * s.minimumSize⌉₊ : Rat) / w.smallest ≤ s.maximumSize →
    1 ≤ scale * w.smallest
  least : ((dealt w s).map (·.2)).min? = some r.minPerHost
  greatest : ((dealt w s).map (·.2)).max? = some r.maxPerHost

/-- **A ring is as large as its scale, and shared out by it.** -/
theorem ofShares_apportions {w : Shares Rat} (whole : w.Whole) {s : RingSettings}
    (valid : s.problem? = none) :
    (ofShares w s).Apportions w s
      (min ((⌈w.smallest * s.minimumSize⌉₊ : Rat) / w.smallest) s.maximumSize) := by
  rw [← scale_rat]
  obtain ⟨bounds, positive⟩ : s.minimumSize ≤ s.maximumSize ∧ 0 < s.minimumSize := by
    unfold RingSettings.problem? at valid
    grind
  obtain ⟨hmin, hmax⟩ := scale_bounds whole bounds
  have hscale : 0 ≤ scale w.smallest s := le_trans (Nat.cast_nonneg _) hmin
  -- the shares add up to one, so all that is dealt is the whole scale, rounded up
  have hsize : (ofShares w s).size = ⌈scale w.smallest s⌉₊ := by
    have hall := sum_take_dealt (s := s) whole.pos hscale w.shares.length
    rw [← length_dealt w s, List.take_length, length_dealt, List.take_length, whole.sum,
      mul_one] at hall
    rw [size_ofShares, hall]
  have hcounts : (dealt w s).map (·.2) ≠ [] := by
    rw [ne_eq, List.map_eq_nil_iff, ← List.length_eq_zero_iff, length_dealt,
      List.length_eq_zero_iff]
    exact whole.nonempty
  -- somebody is there, so the ring is made of what was dealt
  have hring : ofShares w s = ofCounts s.hash.ofBytes ⌈scale w.smallest s⌉₊ (dealt w s) := by
    unfold ofShares
    rw [if_neg (by simpa using whole.nonempty), ← Quantity.ceil_rat]
    rfl
  refine
    { size := hsize
      minimum := ?minimum
      maximum := ?maximum
      hosts := map_deal ..
      entries := ?entries
      points := fun distinct count hcount => ?points
      turns := fun i hi n => ?turns
      near := fun i hi hi' => abs_dealt_sub_lt whole.pos hscale hi hi'
      everyone := fun worth count hcount => ?everyone
      uncapped := one_le_scale_mul_smallest whole positive
      least := ?least
      greatest := ?greatest }
  case minimum =>
    rw [hsize]
    exact_mod_cast le_trans hmin (Nat.le_ceil _)
  case maximum =>
    -- the maximum is an integer, so rounding up does not pass it
    rw [hsize, Nat.ceil_le]
    exact hmax
  case entries =>
    rw [entries_ofShares]
    exact List.mergeSort_perm _ _
  case points =>
    have hhosts : (dealt w s).map (·.1) = w.shares.map (·.1) := map_deal ..
    rw [points_ofShares]
    exact sumFor_of_mem (hhosts ▸ distinct) hcount
  case turns =>
    rw [← Nat.lt_ceil, ← getElem_dealt whole.pos hscale hi, ← sum_take_dealt whole.pos hscale]
    omega
  case everyone =>
    obtain ⟨i, hi, rfl⟩ := List.getElem_of_mem hcount
    have hi' : i < w.shares.length := by rwa [← length_dealt w s]
    -- the smallest share is worth one entry, and nobody is off by a whole one
    have hnear := abs_lt.1 (abs_dealt_sub_lt (s := s) whole.pos hscale hi hi')
    have hshare := mul_le_mul_of_nonneg_left
      (whole.smallest_le _ (List.getElem_mem hi')) hscale
    have hpos : (0 : Rat) < (dealt w s)[i].2 := by linarith [hnear.1]
    exact_mod_cast hpos
  case least =>
    -- the minimum begins with the size of the ring, which nobody has more than
    have hall : ∀ n ∈ (dealt w s).map (·.2), n ≤ ⌈scale w.smallest s⌉₊ := by
      intro n hn
      rw [← hsize, size_ofShares]
      exact List.single_le_sum (fun _ _ => Nat.zero_le _) n hn
    rw [foldl_min_eq hcounts hall, hring, ofCounts, List.foldl_map]
  case greatest =>
    rw [foldl_max_eq hcounts, hring, ofCounts, List.foldl_map]

/-! ### More hosts than entries -/

section Crammed

/-- Half of the whole, a quarter, and twice an eighth. -/
def halved : Shares Rat :=
  ⟨[(pointed 0 "a", 1 / 2), (pointed 1 "b", 1 / 4), (pointed 2 "c", 1 / 8), (pointed 3 "d", 1 / 8)],
    1 / 8⟩

/-- No more than three entries, where eight would be needed. -/
def cramped : RingSettings :=
  { RingSettings.standard with minimumSize := 2, maximumSize := 3 }

/-- The scale is capped, and two of the hosts have no entry. -/
theorem ofShares_apportions_halved :
    halved.Whole ∧ cramped.problem? = none ∧ (ofShares halved cramped).size = 3 ∧
      (ofShares halved cramped).points (pointed 0 "a") = 2 ∧
      (ofShares halved cramped).points (pointed 3 "d") = 0 ∧
      (ofShares halved cramped).minPerHost = 0 ∧ (ofShares halved cramped).maxPerHost = 2 := by
  have whole : halved.Whole :=
    { nonempty := by decide
      pos := by decide +kernel
      sum := by decide +kernel
      smallest_mem := by decide +kernel
      smallest_le := by decide +kernel }
  have valid : cramped.problem? = none := by decide
  have apportions := ofShares_apportions whole valid
  -- the half has two of three entries, and the first quarter the third one
  have hdealt : dealt halved cramped =
      [(pointed 0 "a", 2), (pointed 1 "b", 1), (pointed 2 "c", 0), (pointed 3 "d", 0)] := by
    decide +kernel
  have distinct : (halved.shares.map (·.1)).Nodup := by decide +kernel
  have least := apportions.least
  have greatest := apportions.greatest
  have points := apportions.points distinct
  rw [hdealt] at least greatest points
  refine ⟨whole, valid, ?size, points (pointed 0 "a", 2) (by simp),
    points (pointed 3 "d", 0) (by simp), ?least, ?greatest⟩
  case size =>
    rw [apportions.size, ← scale_rat, ← Quantity.ceil_rat]
    decide +kernel
  case least => exact (Option.some.inj least).symm
  case greatest => exact (Option.some.inj greatest).symm

end Crammed

end Ring

end LoadBalancing
