/-
The look-up on a ring, turn by turn.

`Ring.position` reads an entry only where it has shown that there is one. So it cannot tell what
would happen if the bounds of the search left the ring. Here the search is told once more and
without that care: it takes one turn after the other between two signed bounds, it divides as
signed numbers are divided, and it asks for every entry by its index, whether there is one or not.

The bounds stay within the ring, whatever the hashes are and whether they are sorted or not, and
each turn leaves at most half of the positions between them. So no index is ever asked for in
vain, and the search is over after about as many turns as the number of entries has binary
digits; what it found is the position (`Search.after_cases`). Where the entries are sorted this
is what a walk from the first entry to the last one finds.
-/
import LoadBalancing.Proofs.Ring.Owner
import Mathlib.Algebra.Ring.Int.Defs

set_option autoImplicit false

namespace LoadBalancing

namespace Ring

/-- A search between two bounds, one that is over, or one that asked for an entry that is not
there. -/
inductive Search where
  | between (low high : Int)
  | found (position : Nat)
  | astray
  deriving DecidableEq

namespace Search

variable (entries : Array RingEntry) (h : UInt64)

/-- The hash of the entry at an index, if there is one. -/
def hashAt? (i : Int) : Option UInt64 :=
  if i < 0 then none else entries[i.toNat]?.map (·.hash)

/-- The search goes on between the bounds, and goes round to the first entry if nothing is
between them. -/
def narrow (low high : Int) : Search :=
  if high < low then .found 0 else .between low high

/-- One turn. It asks for the entry in the middle and for the one before it. -/
def turn : Search → Search
  | .between low high =>
    let mid := (low + high).tdiv 2
    if mid = entries.size then .found 0
    else
      match hashAt? entries mid, if mid = 0 then some 0 else hashAt? entries (mid - 1) with
      | some hash, some before =>
        if h ≤ hash && before < h then .found mid.toNat
        else if hash < h then narrow (mid + 1) high
        else narrow low (mid - 1)
      | _, _ => .astray
  | ended => ended

/-- The search after some turns. It begins with all entries and one position beyond them. -/
def after : Nat → Search
  | 0 => .between 0 entries.size
  | n + 1 => (after n).turn entries h

/-! ## One turn -/

variable {entries h} {low high : Int}

theorem hashAt?_natCast {i : Nat} (hi : i < entries.size) :
    hashAt? entries i = some entries[i].hash := by
  rw [hashAt?, if_neg (by omega), Int.toNat_natCast, Array.getElem?_eq_getElem hi,
    Option.map_some]

/-- **What one turn does**: it finds the position, or narrows the bounds to a half in which the
position is the same. -/
theorem turn_cases (start : 0 ≤ low) (more : low ≤ high) (inside : high ≤ entries.size) :
    (between low high).turn entries h = .found (position entries h low high start inside) ∨
      ∃ low' high', (between low high).turn entries h = .between low' high' ∧ low' ≤ high' ∧
        2 * (high' + 1 - low') ≤ high + 1 - low ∧
        ∃ (start' : 0 ≤ low') (inside' : high' ≤ entries.size),
          position entries h low' high' start' inside' =
            position entries h low high start inside := by
  -- what is left on one side of the middle is nothing, or a smaller search
  have narrowed {low' high' : Int} (start' : 0 ≤ low') (inside' : high' ≤ entries.size)
      (half : 2 * (high' + 1 - low') ≤ high + 1 - low)
      (same : position entries h low' high' start' inside' =
        position entries h low high start inside) :
      narrow low' high' = .found (position entries h low high start inside) ∨
        ∃ l u, narrow low' high' = .between l u ∧ l ≤ u ∧ 2 * (u + 1 - l) ≤ high + 1 - low ∧
          ∃ (start' : 0 ≤ l) (inside' : u ≤ entries.size),
            position entries h l u start' inside' = position entries h low high start inside := by
    unfold narrow
    by_cases hnone : high' < low'
    · left
      rw [if_pos hnone, ← same, position, dif_neg (by omega)]
    · right
      rw [if_neg hnone]
      exact ⟨low', high', rfl, by omega, half, start', inside', same⟩
  obtain ⟨mid, hmid⟩ : ∃ mid : Nat, ((low + high) / 2).toNat = mid := ⟨_, rfl⟩
  have hdiv : (low + high).tdiv 2 = mid := by
    rw [Int.tdiv_eq_ediv_of_nonneg (by omega)]
    omega
  have hle : mid ≤ entries.size := by omega
  have hpos := position.eq_def entries h low high start inside
  rw [dif_pos more] at hpos
  simp only [hmid] at hpos
  unfold turn
  simp only [hdiv]
  by_cases hbeyond : mid = entries.size
  · left
    rw [dif_pos hbeyond] at hpos
    rw [if_pos (by omega), hpos]
  · have hlt : mid < entries.size := by omega
    have hbefore : (if (mid : Int) = 0 then some 0 else hashAt? entries (mid - 1)) =
        some (if mid = 0 then 0 else entries[mid - 1].hash) := by
      by_cases hzero : mid = 0
      · rw [if_pos (by omega), if_pos hzero]
      · have hpred : (mid : Int) - 1 = ((mid - 1 : Nat) : Int) := by omega
        rw [if_neg (by omega), if_neg hzero, hpred, hashAt?_natCast]
    obtain ⟨before, hbefore'⟩ : ∃ before, (if mid = 0 then 0 else entries[mid - 1].hash) = before :=
      ⟨_, rfl⟩
    rw [dif_neg hbeyond] at hpos
    rw [hbefore'] at hbefore hpos
    rw [if_neg (by omega), hashAt?_natCast hlt, hbefore, Int.toNat_natCast]
    dsimp only
    by_cases hhere : (decide (h ≤ entries[mid].hash) && decide (before < h)) = true
    · left
      rw [if_pos hhere] at hpos
      rw [if_pos hhere, hpos]
    · rw [if_neg hhere] at hpos
      rw [if_neg hhere]
      by_cases hbelow : entries[mid].hash < h
      · rw [if_pos hbelow] at hpos
        rw [if_pos hbelow]
        exact narrowed (by omega) inside (by omega) hpos.symm
      · rw [if_neg hbelow] at hpos
        rw [if_neg hbelow]
        exact narrowed start (by omega) (by omega) hpos.symm

/-! ## The whole search -/

/-- **The search after any number of turns** has found the position, or goes on between bounds
that are within the ring, and close to each other. -/
theorem after_cases (entries : Array RingEntry) (h : UInt64) (n : Nat) :
    after entries h n =
        .found (position entries h 0 entries.size (Int.le_refl 0) (Int.le_refl _)) ∨
      ∃ low high, after entries h n = .between low high ∧ low ≤ high ∧
        2 ^ n * (high + 1 - low) ≤ entries.size + 1 ∧
        ∃ (start : 0 ≤ low) (inside : high ≤ entries.size),
          position entries h low high start inside =
            position entries h 0 entries.size (Int.le_refl 0) (Int.le_refl _) := by
  induction n with
  | zero =>
    right
    refine ⟨0, entries.size, rfl, by omega, by omega, Int.le_refl 0, Int.le_refl _, rfl⟩
  | succ n ih =>
    unfold after
    rcases ih with hfound | ⟨low, high, hafter, hmore, hwidth, start, inside, hsame⟩
    · left
      rw [hfound]
      rfl
    · rw [hafter]
      rcases turn_cases start hmore inside with hfound | ⟨low', high', hturn, hmore', hhalf, rest⟩
      · left
        rw [hfound, hsame]
      · right
        obtain ⟨start', inside', hsame'⟩ := rest
        refine ⟨low', high', hturn, hmore', ?_, start', inside', hsame'.trans hsame⟩
        -- one turn halves what is left, which pays for one more power of two
        have hpow : (0 : Int) ≤ 2 ^ n := Int.pow_nonneg (by decide)
        calc (2 : Int) ^ (n + 1) * (high' + 1 - low')
            = 2 ^ n * (2 * (high' + 1 - low')) := by rw [Int.pow_succ, Int.mul_assoc]
          _ ≤ 2 ^ n * (high + 1 - low) := Int.mul_le_mul_of_nonneg_left hhalf hpow
          _ ≤ entries.size + 1 := hwidth

/-- The bounds never leave the ring, and no entry is asked for that is not there. -/
theorem after_within (entries : Array RingEntry) (h : UInt64) (n : Nat) :
    after entries h n ≠ .astray ∧ ∀ low high, after entries h n = .between low high →
      0 ≤ low ∧ low ≤ high ∧ high ≤ entries.size := by
  rcases after_cases entries h n with hfound | ⟨low, high, hafter, more, -, start, inside, -⟩
  · rw [hfound]
    exact ⟨nofun, nofun⟩
  · rw [hafter]
    refine ⟨nofun, fun low' high' heq => ?_⟩
    cases heq
    exact ⟨start, more, inside⟩

/-- The number of turns grows with the logarithm of the number of entries. -/
theorem after_eq_found {entries : Array RingEntry} {n : Nat}
    (enough : Nat.log2 (entries.size + 1) < n) (h : UInt64) :
    after entries h n =
      .found (position entries h 0 entries.size (Int.le_refl 0) (Int.le_refl _)) := by
  rcases after_cases entries h n with hfound | ⟨low, high, -, hmore, hwidth, -⟩
  · exact hfound
  · exfalso
    -- there is at least one position between the bounds, and there is room for none
    have hroom : entries.size + 1 < 2 ^ n :=
      Nat.lt_of_lt_of_le Nat.lt_log2_self (Nat.pow_le_pow_right (by decide) enough)
    have hroom' : (entries.size : Int) + 1 < 2 ^ n := by exact_mod_cast hroom
    have hone : (2 : Int) ^ n * 1 ≤ 2 ^ n * (high + 1 - low) :=
      Int.mul_le_mul_of_nonneg_left (by omega) (Int.pow_nonneg (by decide))
    omega

end Search

/-- The position is one of an entry, if there is any. -/
theorem position_lt {entries : Array RingEntry} (nonempty : 0 < entries.size) (h : UInt64)
    {low high : Int} (start : 0 ≤ low) (inside : high ≤ entries.size) :
    position entries h low high start inside < entries.size := by
  fun_induction position entries h low high start inside with
  | case1 | case5 => exact nonempty
  | case2 low high start inside more mid beyond inBounds => exact inBounds
  | case3 low high start inside more mid beyond inBounds hash before found below ih => exact ih
  | case4 low high start inside more mid beyond inBounds hash before found below ih => exact ih

/-- **The look-up finds what a walk finds**: the host of the first entry at or after the hash, in
the order of the entries, and that of the first entry of all if there is none. Nobody is found on
an empty ring only. It is a search by halves whose bounds never leave the ring, that never asks for
an entry that is not there, and that is over after a number of turns that is known beforehand. -/
theorem owner?_walk {r : Ring} (sorted : r.entries.toList.Pairwise fun a b => a.hash ≤ b.hash)
    (h : UInt64) :
    r.owner? h =
        ((r.entries.toList.find? fun e => h ≤ e.hash).or r.entries.toList.head?).map (·.host) ∧
      (r.owner? h = none ↔ r.entries = #[]) ∧
      (∀ turns, Search.after r.entries h turns ≠ .astray ∧
        ∀ low high, Search.after r.entries h turns = .between low high →
          0 ≤ low ∧ low ≤ high ∧ high ≤ r.size) ∧
      ∀ turns, Nat.log2 (r.size + 1) < turns → ∃ i, Search.after r.entries h turns = .found i ∧
        r.owner? h = r.entries[i]?.map (·.host) ∧ (0 < r.size → i < r.size) := by
  have walk := owner?_eq sorted h
  refine ⟨walk, ?_, Search.after_within r.entries h, fun turns enough => ?_⟩
  · rw [walk, Option.map_eq_none_iff, firstFrom_eq_none_iff, Array.toList_eq_nil_iff]
  · exact ⟨_, Search.after_eq_found enough h, rfl, fun nonempty => position_lt nonempty h _ _⟩

/-! ### Entries at one hash -/

section Crowded

/-- Two hosts share the first hash. -/
def crowded : Ring where
  entries := #[⟨5, pointed 0 "a"⟩, ⟨5, pointed 1 "b"⟩, ⟨9, pointed 2 "c"⟩]
  minPerHost := 1
  maxPerHost := 1

/-- The first one of them owns their hash and all before it, and all beyond the last one. -/
theorem owner?_walk_crowded :
    (crowded.entries.toList.Pairwise fun a b => a.hash ≤ b.hash) ∧
      crowded.owner? 0 = some (pointed 0 "a") ∧ crowded.owner? 5 = some (pointed 0 "a") ∧
      crowded.owner? 6 = some (pointed 2 "c") ∧
      crowded.owner? 0xffffffffffffffff = some (pointed 0 "a") := by
  have sorted : crowded.entries.toList.Pairwise fun a b => a.hash ≤ b.hash := by
    decide
  -- each look-up is the first entry at or after the hash, and beyond the last the first of all
  refine ⟨sorted, ?_, ?_, ?_, ?_⟩
  · rw [(owner?_walk sorted 0).1]
    decide
  · rw [(owner?_walk sorted 5).1]
    decide
  · rw [(owner?_walk sorted 6).1]
    decide
  · rw [(owner?_walk sorted 0xffffffffffffffff).1]
    decide

end Crowded

end Ring

end LoadBalancing
