/-
Numbers within texts.

A number is written as a run of digits, and where the run ends is seen from the text alone as long
as no digit follows. So a text with a number in it tells the number and what comes behind it
(`append_toString_append_inj`). The same holds for any beginning of a kind of its own, such as a
name that is ended by a bracket (`append_inj_of_run`). Read from its end, a text with a number there
tells the number and what stands before it (`append_toString_inj`).
-/
import Mathlib.Data.List.TakeWhile

set_option autoImplicit false

namespace LoadBalancing.Text

variable {p : Char → Bool} {run run' rest rest' : List Char}

/-- Characters of a kind, behind which comes none of that kind, are told from what comes behind. -/
theorem append_inj_of_run (hrun : ∀ c ∈ run, p c = true) (hrun' : ∀ c ∈ run', p c = true)
    (hrest : ∀ c ∈ rest.head?, p c = false) (hrest' : ∀ c ∈ rest'.head?, p c = false)
    (h : run ++ rest = run' ++ rest') : run = run' ∧ rest = rest' := by
  have none {rest : List Char} (hrest : ∀ c ∈ rest.head?, p c = false) :
      rest.takeWhile p = [] := by
    cases rest with
    | nil => rfl
    | cons c rest => exact List.takeWhile_cons_of_neg (by simp [hrest c rfl])
  have taken := congrArg (List.takeWhile p) h
  rw [List.takeWhile_append_of_pos hrun, List.takeWhile_append_of_pos hrun', none hrest,
    none hrest', List.append_nil, List.append_nil] at taken
  subst taken
  exact ⟨rfl, List.append_cancel_left h⟩

theorem toList_toString (n : Nat) : (toString n).toList = Nat.toDigits 10 n := by
  rw [Nat.toString_eq_ofList_toDigits, String.toList_ofList]

theorem isDigit_of_mem_toString {n : Nat} : ∀ c ∈ (toString n).toList, c.isDigit = true := by
  rw [toList_toString]
  exact fun c hc => Nat.isDigit_of_mem_toDigits (by decide) (by decide) hc

/-- Numbers are told by their digits. -/
theorem toList_toString_inj {n n' : Nat} : (toString n).toList = (toString n').toList ↔ n = n' := by
  refine ⟨fun h => ?_, fun h => h ▸ rfl⟩
  rw [toList_toString, toList_toString] at h
  have hread := congrArg (Nat.ofDigitChars 10 · 0) h
  rwa [Nat.ofDigitChars_ten_toDigits, Nat.ofDigitChars_ten_toDigits] at hread

/-- A number is told from what comes behind it, unless that begins with a digit. -/
theorem toString_append_inj {n n' : Nat} (hrest : ∀ c ∈ rest.head?, c.isDigit = false)
    (hrest' : ∀ c ∈ rest'.head?, c.isDigit = false)
    (h : (toString n).toList ++ rest = (toString n').toList ++ rest') :
    n = n' ∧ rest = rest' := by
  obtain ⟨hdigits, hbehind⟩ :=
    append_inj_of_run isDigit_of_mem_toString isDigit_of_mem_toString hrest hrest' h
  exact ⟨toList_toString_inj.1 hdigits, hbehind⟩

/-- A number in the middle of a text is told from what comes behind it. -/
theorem append_toString_append_inj {stem behind behind' : String} {n n' : Nat}
    (hbehind : ∀ c ∈ behind.toList.head?, c.isDigit = false)
    (hbehind' : ∀ c ∈ behind'.toList.head?, c.isDigit = false)
    (h : stem ++ (toString n ++ behind) = stem ++ (toString n' ++ behind')) :
    n = n' ∧ behind = behind' := by
  rw [String.append_right_inj, ← String.toList_inj, String.toList_append,
    String.toList_append] at h
  obtain ⟨hnumber, hrest⟩ := toString_append_inj hbehind hbehind' h
  exact ⟨hnumber, String.toList_inj.1 hrest⟩

/-- A number at the end of a text is told from what stands before it, unless that ends with a
digit. -/
theorem append_toString_inj {stem stem' : String} {n n' : Nat}
    (hstem : ∀ c ∈ stem.toList.getLast?, c.isDigit = false)
    (hstem' : ∀ c ∈ stem'.toList.getLast?, c.isDigit = false)
    (h : stem ++ toString n = stem' ++ toString n') : stem = stem' ∧ n = n' := by
  -- read backwards, the digits are a beginning
  have hback := congrArg (fun s : String => s.toList.reverse) h
  simp only [String.toList_append, List.reverse_append] at hback
  have digits (n : Nat) : ∀ c ∈ (toString n).toList.reverse, c.isDigit = true :=
    fun c hc => isDigit_of_mem_toString c (List.mem_reverse.1 hc)
  obtain ⟨hdigits, hbefore⟩ := append_inj_of_run (digits n) (digits n')
    (by rwa [List.head?_reverse]) (by rwa [List.head?_reverse]) hback
  exact ⟨String.toList_inj.1 (List.reverse_inj.1 hbefore),
    toList_toString_inj.1 (List.reverse_inj.1 hdigits)⟩

end LoadBalancing.Text
