/-
Keys that differ within one word never collide.

A hash of 64 bits cannot tell all keys apart, but nothing is lost on the way through one word of
eight bytes. Each step can be undone: a multiplication by an odd number, an exclusive or with what
is known, and an exclusive or of a word with its own top bits. So different states stay apart where
the same bytes follow (`absorbBytes_left_inj`), and different words make different states of one.
Two keys of one length that agree everywhere but in one word, be it full or the rest at the end,
come to different states at that word, and these stay apart to the end (`hash_ne_of_sameOutside`).
-/
import LoadBalancing.Hash.Murmur64A
import Mathlib.Algebra.GroupWithZero.Nat

set_option autoImplicit false

namespace LoadBalancing

/-! ## Bytes as words -/

/-- One more byte at the low end, as long as the byte at the high end stays within the word. -/
theorem toNat_littleEndian_cons (b : UInt8) {bytes : List UInt8}
    (room : (littleEndian bytes).toNat < 2 ^ 56) :
    (littleEndian (b :: bytes)).toNat = b.toNat + 256 * (littleEndian bytes).toNat := by
  have hb : b.toNat < 2 ^ 8 := b.toNat_lt
  have hshift : (littleEndian bytes).toNat <<< 8 % 2 ^ 64 = (littleEndian bytes).toNat <<< 8 := by
    rw [Nat.shiftLeft_eq]
    omega
  calc (littleEndian (b :: bytes)).toNat
      = (littleEndian bytes).toNat <<< 8 % 2 ^ 64 ||| b.toNat := by
        rw [littleEndian, List.foldr_cons, ← littleEndian, UInt64.toNat_or, UInt64.toNat_shiftLeft,
          UInt8.toNat_toUInt64]
        rfl
    _ = (littleEndian bytes).toNat <<< 8 + b.toNat := by
        rw [hshift, Nat.shiftLeft_add_eq_or_of_lt hb]
    _ = b.toNat + 256 * (littleEndian bytes).toNat := by
        rw [Nat.shiftLeft_eq]
        omega

theorem littleEndian_lt {bytes : List UInt8} (room : bytes.length ≤ 8) :
    (littleEndian bytes).toNat < 256 ^ bytes.length := by
  induction bytes with
  | nil => decide
  | cons b bytes ih =>
    have hlength : bytes.length ≤ 7 := Nat.le_of_succ_le_succ room
    have hlt := ih (Nat.le_succ_of_le hlength)
    have hroom : (littleEndian bytes).toNat < 2 ^ 56 :=
      Nat.lt_of_lt_of_le hlt (Nat.pow_le_pow_right (by decide) hlength)
    have hb := b.toNat_lt
    rw [toNat_littleEndian_cons b hroom, List.length_cons, Nat.pow_succ]
    omega

/-- Up to eight bytes are told from their word, if it is known how many they are. -/
theorem littleEndian_inj {a b : List UInt8} (length : a.length = b.length) (room : a.length ≤ 8)
    (h : littleEndian a = littleEndian b) : a = b := by
  induction a generalizing b with
  | nil => exact (List.length_eq_zero_iff.1 length.symm).symm
  | cons x a ih =>
    cases b with
    | nil => cases length
    | cons y b =>
      have hlength : a.length = b.length := Nat.succ.inj length
      have fits {bytes : List UInt8} (hbytes : bytes.length = a.length) :
          (littleEndian bytes).toNat < 2 ^ 56 := by
        have hseven : bytes.length ≤ 7 := hbytes ▸ Nat.le_of_succ_le_succ room
        exact Nat.lt_of_lt_of_le (littleEndian_lt (Nat.le_succ_of_le hseven))
          (Nat.pow_le_pow_right (by decide) hseven)
      have hnat := congrArg UInt64.toNat h
      rw [toNat_littleEndian_cons x (fits rfl), toNat_littleEndian_cons y (fits hlength.symm)]
        at hnat
      have hx := x.toNat_lt
      have hy := y.toNat_lt
      -- the first byte is the lowest of the word, and the rest are a multiple of 256
      have hfirst : x = y := UInt8.toNat_inj.1 (by omega)
      have hrest : littleEndian a = littleEndian b := UInt64.toNat_inj.1 (by omega)
      rw [hfirst, ih hlength (Nat.le_of_succ_le room) hrest]

namespace Murmur64A

variable {s t : UInt64} {a b bytes : List UInt8}

/-! ## Steps that can be undone -/

/-- Folding in the top bits once more takes them out again. -/
theorem shiftMix_shiftMix (v : UInt64) : shiftMix (shiftMix v) = v := by
  rw [← UInt64.toBitVec_inj]
  refine BitVec.eq_of_getLsbD_eq fun i hi => ?_
  -- what is folded in the second time was folded in the first time, or comes from above the word
  have habove : v.toBitVec.getLsbD (47 + (47 + i)) = false := BitVec.getLsbD_of_ge _ _ (by omega)
  simp [shiftMix, habove]

theorem shiftMix_injective : Function.Injective shiftMix :=
  Function.LeftInverse.injective shiftMix_shiftMix

/-- The multiplier is odd, so there is a word that takes it out again. -/
theorem mul_multiplier_injective : Function.Injective fun v : UInt64 => v * multiplier := by
  have hinverse : multiplier * 0x5f7a0ea7e59b19bd = 1 := by decide
  intro v w h
  have hback := congrArg (fun u : UInt64 => u * 0x5f7a0ea7e59b19bd) h
  dsimp only at hback
  rwa [UInt64.mul_assoc, UInt64.mul_assoc, hinverse, UInt64.mul_one, UInt64.mul_one] at hback

theorem mixWord_injective : Function.Injective mixWord :=
  fun _ _ h => mul_multiplier_injective (shiftMix_injective (mul_multiplier_injective h))

theorem finish_injective : Function.Injective finish :=
  fun _ _ h => shiftMix_injective (mul_multiplier_injective (shiftMix_injective h))

theorem absorb_left_inj {data : UInt64} : absorb s data = absorb t data ↔ s = t :=
  mul_multiplier_injective.eq_iff.trans (UInt64.xor_left_inj data)

theorem absorb_right_inj {data data' : UInt64} : absorb s data = absorb s data' ↔ data = data' :=
  mul_multiplier_injective.eq_iff.trans (UInt64.xor_right_inj s)

/-! ## Byte strings, word by word -/

/-- Two byte strings say the same outside of word number `i`. Words have eight bytes each; what is
left over at the end is the last one. -/
def SameOutside (i : Nat) (a b : List UInt8) : Prop :=
  ∀ j, j / 8 ≠ i → a[j]? = b[j]?

/-- The words before `i + 1` are the first word and those before `i` in what comes behind it. -/
theorem SameOutside.drop {i : Nat} (same : SameOutside (i + 1) a b) :
    SameOutside i (a.drop 8) (b.drop 8) := by
  intro j hj
  rw [List.getElem?_drop, List.getElem?_drop, same (8 + j) (by omega)]

theorem SameOutside.take_eq {i : Nat} (same : SameOutside (i + 1) a b) :
    a.take 8 = b.take 8 := by
  refine List.ext_getElem? fun j => ?_
  rw [List.getElem?_take, List.getElem?_take]
  split
  next hj => exact same j (by omega)
  next => rfl

theorem SameOutside.drop_eq (same : SameOutside 0 a b) : a.drop 8 = b.drop 8 := by
  refine List.ext_getElem? fun j => ?_
  rw [List.getElem?_drop, List.getElem?_drop, same (8 + j) (by omega)]

theorem eq_of_take_of_drop (first : a.take 8 = b.take 8) (behind : a.drop 8 = b.drop 8) :
    a = b := by
  rw [← List.take_append_drop 8 a, first, behind, List.take_append_drop]

theorem absorbBytes_of_le (s : UInt64) (full : 8 ≤ bytes.length) :
    absorbBytes s bytes =
      absorbBytes (absorb s (mixWord (littleEndian (bytes.take 8)))) (bytes.drop 8) := by
  match bytes, full with
  | _ :: _ :: _ :: _ :: _ :: _ :: _ :: _ :: _, _ => rfl

theorem absorbBytes_of_lt (s : UInt64) (short : bytes.length < 8) (nonempty : bytes ≠ []) :
    absorbBytes s bytes = absorb s (littleEndian bytes) := by
  rw [absorbBytes.eq_3 s bytes _ nonempty]
  rintro b₀ b₁ b₂ b₃ b₄ b₅ b₆ b₇ rest rfl
  simp only [List.length_cons] at short
  omega

/-- **Different states stay apart**, whatever bytes follow. The induction is that of the function,
over full words. -/
theorem absorbBytes_left_inj : absorbBytes s bytes = absorbBytes t bytes ↔ s = t := by
  fun_induction absorbBytes s bytes generalizing t with
  | case1 s b₀ b₁ b₂ b₃ b₄ b₅ b₆ b₇ rest ih =>
    rw [absorbBytes]
    exact ih.trans absorb_left_inj
  | case2 s => rw [absorbBytes]
  | case3 s tail notFull nonempty =>
    rw [absorbBytes.eq_3 t tail notFull nonempty]
    exact absorb_left_inj

/-- A rest of less than a word is told from the state that it leads to. -/
theorem eq_of_absorbBytes_eq_of_lt (length : a.length = b.length) (short : a.length < 8)
    (h : absorbBytes s a = absorbBytes s b) : a = b := by
  by_cases empty : a = []
  · rw [empty, List.length_nil] at length
    rw [empty, List.length_eq_zero_iff.1 length.symm]
  · have nonempty : b ≠ [] := by
      rintro rfl
      exact empty (List.length_eq_zero_iff.1 length)
    rw [absorbBytes_of_lt s short empty, absorbBytes_of_lt s (length ▸ short) nonempty,
      absorb_right_inj] at h
    exact littleEndian_inj length (Nat.le_of_lt short) h

/-- The first word is told from the state, if the bytes behind it are the same. -/
theorem take_eq_of_absorbBytes_eq (length : a.length = b.length) (full : 8 ≤ a.length)
    (behind : a.drop 8 = b.drop 8) (h : absorbBytes s a = absorbBytes s b) :
    a.take 8 = b.take 8 := by
  rw [absorbBytes_of_le s full, absorbBytes_of_le s (length ▸ full), behind,
    absorbBytes_left_inj, absorb_right_inj] at h
  have hlength : (a.take 8).length = 8 := List.length_take_of_le full
  have hlength' : (b.take 8).length = 8 := List.length_take_of_le (length ▸ full)
  exact littleEndian_inj (hlength.trans hlength'.symm) (Nat.le_of_eq hlength) (mixWord_injective h)

/-- **Different words make different states.** The induction is on the number of the word in which
the two strings may differ: the words before it make one state, and those behind it keep two states
apart. -/
theorem eq_of_absorbBytes_eq (length : a.length = b.length) {i : Nat} (same : SameOutside i a b)
    (h : absorbBytes s a = absorbBytes s b) : a = b := by
  induction i generalizing s a b with
  | zero =>
    rcases Nat.lt_or_ge a.length 8 with short | full
    · exact eq_of_absorbBytes_eq_of_lt length short h
    · exact eq_of_take_of_drop (take_eq_of_absorbBytes_eq length full same.drop_eq h) same.drop_eq
  | succ i ih =>
    rcases Nat.lt_or_ge a.length 8 with short | full
    · exact eq_of_absorbBytes_eq_of_lt length short h
    · rw [absorbBytes_of_le s full, absorbBytes_of_le s (length ▸ full), same.take_eq] at h
      have hlength : (a.drop 8).length = (b.drop 8).length := by
        rw [List.length_drop, List.length_drop, length]
      exact eq_of_take_of_drop same.take_eq (ih hlength same.drop h)

/-- **Nothing is lost within a word.** Two keys of one length that differ, but only within one of
their words of eight bytes or within what is left over at their end, have different hashes under
every seed. -/
theorem hash_ne_of_sameOutside (seed : UInt64) (differ : a ≠ b) (length : a.length = b.length)
    (i : Nat) (same : SameOutside i a b) : hash a seed ≠ hash b seed := by
  intro h
  have hstate := finish_injective h
  rw [length] at hstate
  exact differ (eq_of_absorbBytes_eq length same hstate)

/-- Two addresses of one full word and three more bytes, of which the first one differs. -/
theorem hash_ne_of_sameOutside_portOf :
    hash [49, 48, 46, 48, 46, 48, 46, 49, 58, 56, 48] standardSeed ≠
      hash [49, 48, 46, 48, 46, 48, 46, 49, 59, 56, 48] standardSeed := by
  refine hash_ne_of_sameOutside standardSeed (by decide) rfl 1 fun j hj => ?_
  rcases (by omega : j < 8 ∨ 16 ≤ j) with first | beyond
  · clear hj
    revert j
    decide
  · rw [List.getElem?_eq_none (Nat.le_trans (by decide) beyond),
      List.getElem?_eq_none (Nat.le_trans (by decide) beyond)]

end Murmur64A

end LoadBalancing
