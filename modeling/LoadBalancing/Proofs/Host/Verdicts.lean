/-
Verdicts of single checks, and the health that they add up to.

A host has two bits for each check in one word, and everything about verdicts is a matter of
single bits: a verdict is read off its own two bits, and writing it changes these two and no
others. The two masks cover the bits of all checks, so the health of a host is the worst of its
verdicts, and of those verdicts only that may be other than healthy.
-/
import LoadBalancing.Proofs.Host.Table

set_option autoImplicit false

namespace LoadBalancing

/-- The worst of some verdicts; healthy if there are none. -/
def Health.worst (verdicts : List Health) : Health :=
  if .unhealthy ∈ verdicts then .unhealthy
  else if .degraded ∈ verdicts then .degraded
  else .healthy

/-- Healthy verdicts may come or go. -/
theorem Health.worst_congr {verdicts verdicts' : List Health}
    (same : ∀ v ≠ Health.healthy, v ∈ verdicts ↔ v ∈ verdicts') :
    worst verdicts = worst verdicts' := by
  have hunhealthy := same .unhealthy (by decide)
  have hdegraded := same .degraded (by decide)
  simp only [worst, hunhealthy, hdegraded]

/-- The worst of all verdicts is the worst of those that may be other than healthy. -/
theorem Health.worst_range {n m : Nat} (hle : n ≤ m) {v v' : Nat → Health}
    (same : ∀ i < m, v' i = if i < n then v i else .healthy) :
    worst ((List.range m).map v') = worst ((List.range n).map v) := by
  refine worst_congr fun w hw => ?_
  simp only [List.mem_map, List.mem_range]
  constructor
  · rintro ⟨i, hi, rfl⟩
    rw [same i hi] at hw ⊢
    -- a verdict that is healthy is never worse than the others
    by_cases hlt : i < n
    · exact ⟨i, hlt, (if_pos hlt).symm⟩
    · rw [if_neg hlt] at hw
      exact absurd rfl hw
  · rintro ⟨i, hi, rfl⟩
    have hm : i < m := by omega
    exact ⟨i, hm, by rw [same i hm, if_pos hi]⟩

namespace Flags

variable (f : Flags) {i j k : Nat}

/-! ## Bits -/

/-- Whether a bit of the word is set. -/
def bit (k : Nat) : Bool :=
  f.word.toBitVec.getLsbD k

theorem getLsbD_one_shiftLeft (hi : i < 32) (k : Nat) :
    ((1 : UInt32) <<< i.toUInt32).toBitVec.getLsbD k = decide (k = i) := by
  have hmod : i.toUInt32.toNat % 32 = i := by
    rw [Nat.toUInt32_eq, UInt32.toNat_ofNat']
    omega
  rw [← BitVec.testBit_toNat, UInt32.toNat_toBitVec, UInt32.toNat_shiftLeft, hmod,
    UInt32.toNat_one, Nat.one_shiftLeft, Nat.testBit_mod_two_pow, Nat.testBit_two_pow]
  by_cases hk : k = i
  · simp only [hk, hi, decide_true, Bool.and_self]
  · simp only [hk, Ne.symm hk, decide_false, Bool.and_false]

theorem getLsbD_failedBit (hi : i < maxHealthChecks) (k : Nat) :
    (failedBit i).toBitVec.getLsbD k = decide (k = i) :=
  getLsbD_one_shiftLeft (by simp only [maxHealthChecks] at hi; omega) k

theorem getLsbD_degradedBit (hi : i < maxHealthChecks) (k : Nat) :
    (degradedBit i).toBitVec.getLsbD k = decide (k = maxHealthChecks + i) :=
  getLsbD_one_shiftLeft (by simp only [maxHealthChecks] at hi ⊢; omega) k

/-- A word has something in common with a mask if one of its bits is in the mask. -/
theorem and_ne_zero_iff (mask : UInt32) :
    f.word &&& mask ≠ 0 ↔ ∃ k < 32, f.bit k = true ∧ mask.toBitVec.getLsbD k = true := by
  rw [ne_eq, ← UInt32.toBitVec_inj, BitVec.eq_of_getLsbD_eq_iff]
  simp [bit]

theorem getLsbD_failedMask (hk : k < 32) :
    failedMask.toBitVec.getLsbD k = decide (k < maxHealthChecks) := by
  decide +revert

theorem getLsbD_degradedMask (hk : k < 32) :
    degradedMask.toBitVec.getLsbD k = decide (maxHealthChecks ≤ k) := by
  decide +revert

/-! ## Verdicts -/

/-- A verdict is read off the two bits of its check. -/
theorem verdict_eq (hi : i < maxHealthChecks) :
    f.verdict i =
      if f.bit i then .unhealthy
      else if f.bit (maxHealthChecks + i) then .degraded
      else .healthy := by
  have hwithin : i < 32 ∧ maxHealthChecks + i < 32 := by
    simp only [maxHealthChecks] at hi ⊢
    omega
  -- a mask of one bit meets the word where that bit is set
  have hfailed : f.word &&& failedBit i ≠ 0 ↔ f.bit i = true := by
    simp only [and_ne_zero_iff, getLsbD_failedBit hi, decide_eq_true_eq]
    constructor
    · rintro ⟨k, -, hbit, rfl⟩
      exact hbit
    · intro hbit
      exact ⟨i, hwithin.1, hbit, rfl⟩
  have hdegraded : f.word &&& degradedBit i ≠ 0 ↔ f.bit (maxHealthChecks + i) = true := by
    simp only [and_ne_zero_iff, getLsbD_degradedBit hi, decide_eq_true_eq]
    constructor
    · rintro ⟨k, -, hbit, rfl⟩
      exact hbit
    · intro hbit
      exact ⟨_, hwithin.2, hbit, rfl⟩
  simp only [verdict, hfailed, hdegraded]

/-- Writing a verdict writes the two bits of its check. -/
theorem bit_setVerdict (hi : i < maxHealthChecks) (v : Health) (hk : k < 32) :
    (f.setVerdict i v).bit k =
      if k = i then decide (v = .unhealthy)
      else if k = maxHealthChecks + i then decide (v = .degraded)
      else f.bit k := by
  have hfailed := getLsbD_failedBit hi k
  have hdegraded := getLsbD_degradedBit hi k
  have hpos : maxHealthChecks ≠ 0 := by decide
  cases v <;>
  · simp only [setVerdict, bit, UInt32.toBitVec_and, UInt32.toBitVec_or, UInt32.toBitVec_not,
      BitVec.getLsbD_and, BitVec.getLsbD_or, BitVec.getLsbD_not, hfailed, hdegraded, hk]
    by_cases hki : k = i
    · subst hki
      simp [hpos]
    · by_cases hki' : k = maxHealthChecks + i
      · simp [hki', hpos]
      · simp [hki, hki']

/-- **A verdict that is written is read**, and all others are as they were. -/
theorem verdict_setVerdict (hi : i < maxHealthChecks) (hj : j < maxHealthChecks) (v : Health) :
    (f.setVerdict i v).verdict j = if j = i then v else f.verdict j := by
  have hwithin : j < 32 ∧ maxHealthChecks + j < 32 := by
    simp only [maxHealthChecks] at hj ⊢
    omega
  -- the bits of one check are not those of another one
  have hsame : maxHealthChecks + j = maxHealthChecks + i ↔ j = i := by omega
  have hapart : ¬ maxHealthChecks + j = i := by omega
  have hapart' : ¬ j = maxHealthChecks + i := by omega
  rw [verdict_eq _ hj, verdict_eq _ hj, bit_setVerdict f hi v hwithin.1,
    bit_setVerdict f hi v hwithin.2]
  simp only [hsame, hapart, hapart', if_false]
  by_cases h : j = i
  · cases v <;> simp [h]
  · simp [h]

/-! ## Health -/

theorem verdict_eq_unhealthy_iff (hi : i < maxHealthChecks) :
    f.verdict i = .unhealthy ↔ f.bit i = true := by
  rw [verdict_eq f hi]
  by_cases hbit : f.bit i = true
  · simp [hbit]
  · by_cases hbit' : f.bit (maxHealthChecks + i) = true <;> simp [hbit, hbit']

theorem and_failedMask_ne_zero_iff :
    f.word &&& failedMask ≠ 0 ↔ ∃ i < maxHealthChecks, f.bit i = true := by
  rw [and_ne_zero_iff]
  constructor
  · rintro ⟨k, hk, hbit, hmask⟩
    rw [getLsbD_failedMask hk, decide_eq_true_eq] at hmask
    exact ⟨k, hmask, hbit⟩
  · rintro ⟨i, hi, hbit⟩
    have hk : i < 32 := Nat.lt_trans hi (by decide)
    rw [← decide_eq_true_eq (p := i < maxHealthChecks), ← getLsbD_failedMask hk] at hi
    exact ⟨i, hk, hbit, hi⟩

theorem and_degradedMask_ne_zero_iff :
    f.word &&& degradedMask ≠ 0 ↔ ∃ i < maxHealthChecks, f.bit (maxHealthChecks + i) = true := by
  rw [and_ne_zero_iff]
  simp only [maxHealthChecks]
  constructor
  · rintro ⟨k, hk, hbit, hmask⟩
    rw [getLsbD_degradedMask hk, decide_eq_true_eq] at hmask
    exact ⟨k - 16, by omega, by rwa [show 16 + (k - 16) = k from Nat.add_sub_cancel' hmask]⟩
  · rintro ⟨i, hi, hbit⟩
    have hk : 16 + i < 32 := by omega
    have hmask : maxHealthChecks ≤ 16 + i := Nat.le_add_right ..
    rw [← decide_eq_true_eq (p := maxHealthChecks ≤ 16 + i), ← getLsbD_degradedMask hk] at hmask
    exact ⟨16 + i, hk, hbit, hmask⟩

/-- **The health of a host is the worst of its verdicts.** -/
theorem health_eq_worst : f.health = .worst ((List.range maxHealthChecks).map f.verdict) := by
  have hmem (v : Health) : v ∈ (List.range maxHealthChecks).map f.verdict ↔
      ∃ i < maxHealthChecks, f.verdict i = v := by
    simp only [List.mem_map, List.mem_range]
  have hfailed : (∃ i < maxHealthChecks, f.bit i = true) ↔
      Health.unhealthy ∈ (List.range maxHealthChecks).map f.verdict := by
    rw [hmem]
    exact exists_congr fun i => and_congr_right fun hi => (verdict_eq_unhealthy_iff f hi).symm
  simp only [health, and_failedMask_ne_zero_iff, and_degradedMask_ne_zero_iff, Health.worst,
    ← hfailed]
  by_cases hany : ∃ i < maxHealthChecks, f.bit i = true
  · rw [if_pos hany, if_pos hany]
  · -- where no check failed, the other bit of each check decides
    have hdegraded : (∃ i < maxHealthChecks, f.bit (maxHealthChecks + i) = true) ↔
        Health.degraded ∈ (List.range maxHealthChecks).map f.verdict := by
      rw [hmem]
      refine exists_congr fun i => and_congr_right fun hi => ?_
      have hbit : f.bit i = false := Bool.eq_false_iff.2 fun h => hany ⟨i, hi, h⟩
      by_cases hbit' : f.bit (maxHealthChecks + i) = true <;> simp [verdict_eq f hi, hbit, hbit']
    simp only [if_neg hany, hdegraded]

end Flags

/-! ## Hosts -/

namespace HostTable

variable {t t' t'' : HostTable} {h o : Host}

theorem health_eq_worst (t : HostTable) (h : Host) :
    t.health h = .worst ((List.range maxHealthChecks).map (t.verdict h)) :=
  Flags.health_eq_worst _

theorem verdict_congr {i : Nat} (same : (t'.state h).flags = (t.state h).flags) :
    t'.verdict h i = t.verdict h i := by
  rw [verdict, verdict, same]

theorem state_modify (t : HostTable) (o h : Host) (f : HostState → HostState) :
    (t.modify o f).state h =
      if o.id = h.id ∧ h.id < t.states.size then f (t.state h) else t.state h := by
  rw [state, state, modify, Array.getD_eq_getD_getElem?, Array.getD_eq_getD_getElem?,
    Array.getElem?_modify]
  by_cases hid : o.id = h.id
  · by_cases hknown : h.id < t.states.size
    · simp [hid, hknown]
    · simp [hid, hknown]
  · simp [hid]

/-- A verdict is written for its host, and for its check alone. -/
theorem verdict_setVerdict (known : h.id < t.states.size) {i j : Nat} (hi : i < maxHealthChecks)
    (hj : j < maxHealthChecks) (v : Health) :
    (t.setVerdict o i v).2.verdict h j =
      if o.id = h.id ∧ j = i then v else t.verdict h j := by
  rw [setVerdict, verdict, state_modify]
  by_cases hid : o.id = h.id
  · rw [if_pos ⟨hid, known⟩, Flags.verdict_setVerdict _ hi hj]
    simp only [hid, true_and]
    rfl
  · rw [if_neg fun hboth => hid hboth.1, if_neg fun hboth => hid hboth.1]
    rfl

/-! ### Hosts that keep their verdicts -/

/-- A later state of a table, in which a host has the verdicts that it had. -/
structure Spares (t t' : HostTable) (h : Host) : Prop where
  size : t.states.size ≤ t'.states.size
  verdict : ∀ i < maxHealthChecks, t'.verdict h i = t.verdict h i

theorem Spares.refl (t : HostTable) (h : Host) : t.Spares t h :=
  ⟨Nat.le_refl _, fun _ _ => rfl⟩

theorem Spares.trans (before : t.Spares t' h) (after : t'.Spares t'' h) : t.Spares t'' h where
  size := Nat.le_trans before.size after.size
  verdict i hi := (after.verdict i hi).trans (before.verdict i hi)

/-- What is said about others does not matter. -/
theorem spares_setVerdict_of_ne (hne : o.id ≠ h.id) (i : Nat) (v : Health) :
    t.Spares (t.setVerdict o i v).2 h where
  size := Nat.le_of_eq (size_modify t o _).symm
  verdict j _ := by
    rw [HostTable.verdict, HostTable.verdict, setVerdict, state_modify_of_ne t hne]

/-- What is said already may be said again. -/
theorem spares_setVerdict_same (known : h.id < t.states.size) {i : Nat}
    (hi : i < maxHealthChecks) : t.Spares (t.setVerdict o i (t.verdict o i)).2 h where
  size := Nat.le_of_eq (size_modify t o _).symm
  verdict j hj := by
    rw [verdict_setVerdict known hi hj]
    by_cases hself : o.id = h.id ∧ j = i
    · rw [if_pos hself, hself.2, HostTable.verdict, HostTable.verdict, state, state, hself.1]
    · rw [if_neg hself]

/-- Weights have no part in verdicts. -/
theorem spares_setWeight (t : HostTable) (o h : Host) (weight : Nat) :
    t.Spares (t.setWeight o weight).2 h where
  size := Nat.le_of_eq (size_modify t o _).symm
  verdict i _ := by
    apply verdict_congr
    rw [setWeight, state_modify]
    split <;> rfl

theorem spares_enrollConfig (known : h.id < t.states.size) (c : HostConfig) :
    t.Spares (t.enrollConfig c).2 h where
  size := (advances_enrollConfig t c).size
  verdict _ _ := verdict_congr (congrArg _ (state_enrollConfig known c))

theorem spares_enrollAll (known : h.id < t.states.size) (configs : List HostConfig) :
    t.Spares (t.enrollAll configs).2 h := by
  induction configs generalizing t with
  | nil => exact .refl t h
  | cons c rest ih =>
    have first := spares_enrollConfig known c
    exact first.trans (ih (Nat.lt_of_lt_of_le known first.size))

end HostTable

end LoadBalancing
