/-
Texts as bytes.

A hash function sees a text as the bytes of its UTF-8 encoding, and elsewhere keys are put in
order by their bytes. Here texts are compared character by character. Both come to the same: a
text is told by its bytes (`bytes_inj`), and the lesser of two texts has the lesser bytes
(`bytes_lt_bytes`).

The second rests on how characters are encoded: as their digits in base 64, the first of which
stands on a higher ground the more of them there are. So the encodings of two characters differ
before either ends, and the lesser character has the lesser byte there (`encode_append_lt`).
-/
import Mathlib.Algebra.GroupWithZero.Nat
import Mathlib.Tactic.SplitIfs

set_option autoImplicit false

namespace LoadBalancing.Text

/-! ## Bytes of characters -/

/-- A number in bytes: its digits in base 64, the first one on top of `ground`, the `more` others
on top of 128. -/
def digits (ground : Nat) : Nat → Nat → List UInt8
  | 0, n => [UInt8.ofNat (n + ground)]
  | more + 1, n => digits ground more (n / 64) ++ [UInt8.ofNat (n % 64 + 128)]

/-- How many digits come behind the first one where a character is encoded. -/
def width (n : Nat) : Nat :=
  if n ≤ 127 then 0 else if n ≤ 2047 then 1 else if n ≤ 65535 then 2 else 3

/-- What the first digit stands on. -/
def ground : Nat → Nat
  | 0 => 0
  | 1 => 192
  | 2 => 224
  | _ => 240

/-- The first byte of a character. -/
def firstByte (n : Nat) : Nat :=
  n / 64 ^ width n + ground (width n)

theorem toNat_lt (c : Char) : c.toNat < 0x110000 := by
  rcases c.valid with hlow | hhigh
  · exact Nat.lt_trans hlow (by decide)
  · exact hhigh.2

theorem encode_eq (c : Char) :
    String.utf8EncodeChar c = digits (ground (width c.toNat)) (width c.toNat) c.toNat := by
  have hc := toNat_lt c
  unfold String.utf8EncodeChar width
  rw [← Char.toNat_val] at *
  dsimp only
  -- one case for each number of bytes; the first digit of a character is always small enough
  split_ifs
  · rfl
  · simp only [digits, ground, List.cons_append, List.nil_append]
    rw [Nat.mod_eq_of_lt (by omega : c.val.toNat / 64 < 32)]
  · simp only [digits, ground, List.cons_append, List.nil_append, Nat.div_div_eq_div_mul]
    rw [Nat.mod_eq_of_lt (by omega : c.val.toNat / 4096 < 16)]
  · simp only [digits, ground, List.cons_append, List.nil_append, Nat.div_div_eq_div_mul]
    rw [Nat.mod_eq_of_lt (by omega : c.val.toNat / 262144 < 8)]

theorem width_mono {m n : Nat} (h : m ≤ n) : width m ≤ width n := by
  unfold width
  split_ifs <;> omega

theorem firstByte_lt_256 {n : Nat} (hn : n < 0x110000) : firstByte n < 256 := by
  unfold firstByte width
  split_ifs <;> simp only [ground] <;> omega

/-- A character with more bytes begins with a greater one. -/
theorem firstByte_lt_firstByte {m n : Nat} (h : width m < width n) :
    firstByte m < firstByte n := by
  unfold firstByte width at *
  split_ifs at * <;> simp only [ground] <;> omega

theorem byte_lt {m n : Nat} (h : m < n) (hn : n < 256) : UInt8.ofNat m < UInt8.ofNat n := by
  rw [UInt8.lt_iff_toNat_lt, UInt8.toNat_ofNat_of_lt' (Nat.lt_trans h hn),
    UInt8.toNat_ofNat_of_lt' hn]
  exact h

theorem digits_eq_cons (ground more n : Nat) :
    ∃ tail, digits ground more n = UInt8.ofNat (n / 64 ^ more + ground) :: tail := by
  induction more generalizing n with
  | zero => exact ⟨[], by rw [digits, Nat.pow_zero, Nat.div_one]⟩
  | succ more ih =>
    obtain ⟨tail, htail⟩ := ih (n / 64)
    rw [digits, htail, Nat.div_div_eq_div_mul, ← Nat.pow_succ']
    exact ⟨_, rfl⟩

/-- Of two numbers with equally many digits, the lesser one has the lesser bytes. -/
theorem digits_append_lt {ground more m n : Nat} (room : n / 64 ^ more + ground < 256) (h : m < n)
    (rest rest' : List UInt8) :
    digits ground more m ++ rest < digits ground more n ++ rest' := by
  induction more generalizing m n rest rest' with
  | zero =>
    rw [Nat.pow_zero, Nat.div_one] at room
    exact List.cons_lt_cons_iff.2 (.inl (byte_lt (Nat.add_lt_add_right h ground) room))
  | succ more ih =>
    rw [digits, digits, List.append_assoc, List.append_assoc]
    rw [Nat.pow_succ', ← Nat.div_div_eq_div_mul] at room
    rcases Nat.lt_or_eq_of_le (Nat.div_le_div_right (c := 64) (Nat.le_of_lt h)) with hlt | heq
    · exact ih room hlt _ _
    · -- the digits before are the same, so it is the last one that is less
      have hlast : m % 64 + 128 < n % 64 + 128 := by omega
      rw [heq]
      exact List.append_left_lt (List.cons_lt_cons_iff.2 (.inl (byte_lt hlast (by omega))))

/-- **The lesser of two characters has the lesser bytes**, whatever follows. -/
theorem encode_append_lt {c d : Char} (h : c < d) (rest rest' : List UInt8) :
    String.utf8EncodeChar c ++ rest < String.utf8EncodeChar d ++ rest' := by
  have hlt : c.toNat < d.toNat := h
  rw [encode_eq, encode_eq]
  rcases Nat.lt_or_eq_of_le (width_mono (Nat.le_of_lt hlt)) with hwidth | hwidth
  · obtain ⟨tail, htail⟩ := digits_eq_cons (ground (width c.toNat)) (width c.toNat) c.toNat
    obtain ⟨tail', htail'⟩ := digits_eq_cons (ground (width d.toNat)) (width d.toNat) d.toNat
    rw [htail, htail']
    exact List.cons_lt_cons_iff.2
      (.inl (byte_lt (firstByte_lt_firstByte hwidth) (firstByte_lt_256 (toNat_lt d))))
  · rw [hwidth]
    exact digits_append_lt (firstByte_lt_256 (toNat_lt d)) hlt rest rest'

/-! ## Bytes of texts -/

/-- The bytes of a text. -/
def bytes (s : String) : List UInt8 :=
  s.toUTF8.toList

/-- Reading a byte array from its front comes to the list that it holds. -/
theorem toList_byteArray (a : ByteArray) : a.toList = a.data.toList := by
  have loop (i : Nat) (r : List UInt8) :
      ByteArray.toList.loop a i r = r.reverse ++ a.data.toList.drop i := by
    fun_induction ByteArray.toList.loop a i r with
    | case1 i r more ih =>
      have hnext : a.data.toList.drop i = a.get! i :: a.data.toList.drop (i + 1) := by
        simpa [ByteArray.get!, more] using List.drop_eq_getElem_cons (l := a.data.toList) more
      rw [ih, hnext, List.reverse_cons, List.append_assoc, List.singleton_append]
    | case2 i r done =>
      have hnone : a.data.toList.drop i = [] := List.drop_eq_nil_of_le (Nat.not_lt.1 done)
      rw [hnone, List.append_nil]
  rw [ByteArray.toList, loop, List.reverse_nil, List.nil_append, List.drop_zero]

theorem bytes_eq (s : String) : bytes s = s.toList.flatMap String.utf8EncodeChar := by
  rw [bytes, toList_byteArray, String.toUTF8, ← String.utf8Encode_toList, List.utf8Encode]
  simp

/-- A text is told by its bytes. -/
theorem bytes_inj {s t : String} : bytes s = bytes t ↔ s = t := by
  refine ⟨fun h => ?_, fun h => h ▸ rfl⟩
  rw [bytes, bytes, toList_byteArray, toList_byteArray] at h
  exact String.toByteArray_inj.1 (ByteArray.ext (Array.toList_inj.1 h))

theorem flatMap_encode_lt {s t : List Char} (h : s < t) :
    s.flatMap String.utf8EncodeChar < t.flatMap String.utf8EncodeChar := by
  induction s generalizing t with
  | nil =>
    cases t with
    | nil => exact absurd h (List.lt_irrefl _)
    | cons d t =>
      obtain ⟨tail, htail⟩ := digits_eq_cons (ground (width d.toNat)) (width d.toNat) d.toNat
      rw [List.flatMap_cons, encode_eq, htail]
      exact List.nil_lt_cons _ _
  | cons c s ih =>
    cases t with
    | nil => exact absurd h (List.not_lt_nil _)
    | cons d t =>
      rw [List.flatMap_cons, List.flatMap_cons]
      rcases List.cons_lt_cons_iff.1 h with hlt | ⟨rfl, hrest⟩
      · exact encode_append_lt hlt _ _
      · exact List.append_left_lt (ih hrest)

/-- **Texts are in the order of their bytes.** -/
theorem bytes_lt_bytes {s t : String} : bytes s < bytes t ↔ s < t := by
  have mono {s t : String} (h : s < t) : bytes s < bytes t := by
    rw [bytes_eq, bytes_eq]
    exact flatMap_encode_lt (String.lt_iff.1 h)
  refine ⟨fun h => ?_, mono⟩
  rcases Std.lt_trichotomy s t with hlt | rfl | hgt
  · exact hlt
  · exact absurd h (List.lt_irrefl _)
  · exact absurd h (List.lt_asymm (mono hgt))

/-- Where one text comes before another, so do its bytes. -/
theorem compare_eq_lt_iff {s t : String} : compare s t = .lt ↔ bytes s < bytes t := by
  rw [bytes_lt_bytes]
  exact compareOfLessAndEq_eq_lt

end LoadBalancing.Text
