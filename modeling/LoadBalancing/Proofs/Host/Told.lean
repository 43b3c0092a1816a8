/-
What a host makes of all that is said about its health.

A check says what it found, and whoever knows a host that is not checked may say how it is as a
whole. All of it is kept in one word for each host. Still no statement gets in the way of another:
each verdict is what was last said of it, no check has failed and degraded its host at once, and
the health of the host is the worst of its verdicts (`HostTable.tellAll_judges`).
-/
import LoadBalancing.Proofs.Host.Verdicts
import Mathlib.Data.List.Induction

set_option autoImplicit false

namespace LoadBalancing

/-- What is said about a host: what one of its checks found, or how it is as a whole. -/
inductive Statement where
  | verdict (check : Fin maxHealthChecks) (v : Health)
  | whole (v : Health)

namespace Statement

/-- What is said of check `i`, if anything is. How a host is as a whole is kept as what check 0
found, and nothing is left of what others did. -/
def about? (i : Nat) : Statement → Option Health
  | .verdict check v => if i = check then some v else none
  | .whole v => some (if i = 0 then v else .healthy)

end Statement

namespace Flags

variable {f : Flags} {i j : Nat}

/-- No check has both of its bits set. -/
def Exclusive (f : Flags) : Prop :=
  ∀ i < maxHealthChecks, ¬ (f.bit i = true ∧ f.bit (maxHealthChecks + i) = true)

theorem bit_clear (k : Nat) : clear.bit k = false :=
  BitVec.getLsbD_zero

theorem exclusive_clear : clear.Exclusive :=
  fun i _ both => Bool.false_ne_true ((bit_clear i).symm.trans both.1)

theorem verdict_clear (hi : i < maxHealthChecks) : clear.verdict i = .healthy := by
  rw [verdict_eq _ hi, bit_clear, bit_clear]
  rfl

/-- A verdict sets at most one of the two bits of its check, and leaves those of others. -/
theorem Exclusive.setVerdict (h : f.Exclusive) (hi : i < maxHealthChecks) (v : Health) :
    (f.setVerdict i v).Exclusive := by
  intro j hj
  have hwithin : j < 32 ∧ maxHealthChecks + j < 32 := by
    simp only [maxHealthChecks] at hj ⊢
    omega
  have hapart : ¬ maxHealthChecks + j = i ∧ ¬ j = maxHealthChecks + i := by omega
  have hsame : maxHealthChecks + j = maxHealthChecks + i ↔ j = i := by omega
  rw [bit_setVerdict f hi v hwithin.1, bit_setVerdict f hi v hwithin.2]
  simp only [hapart, hsame, if_false]
  by_cases hji : j = i
  · cases v <;> simp [hji]
  · simpa [hji] using h j hj

/-- The word after a statement. -/
def tell (f : Flags) : Statement → Flags
  | .verdict check v => f.setVerdict check v
  | .whole v => ofHealth v

theorem Exclusive.tell (h : f.Exclusive) (s : Statement) : (f.tell s).Exclusive := by
  cases s with
  | verdict check v => exact h.setVerdict check.isLt v
  | whole v => exact exclusive_clear.setVerdict (by decide) v

/-- **A statement changes what it is about**, and no other verdict. -/
theorem verdict_tell (f : Flags) (s : Statement) (hi : i < maxHealthChecks) :
    (f.tell s).verdict i = (s.about? i).getD (f.verdict i) := by
  cases s with
  | verdict check v =>
    rw [tell, verdict_setVerdict f check.isLt hi, Statement.about?]
    split <;> rfl
  | whole v =>
    rw [tell, ofHealth, verdict_setVerdict clear (by decide) hi, verdict_clear hi]
    rfl

/-- The health is that of a check that failed, else that of one that found the host degraded. -/
theorem health_eq_ite (f : Flags) : f.health =
    if ∃ i < maxHealthChecks, f.verdict i = .unhealthy then .unhealthy
    else if ∃ i < maxHealthChecks, f.verdict i = .degraded then .degraded
    else .healthy := by
  have hmem (v : Health) : v ∈ (List.range maxHealthChecks).map f.verdict ↔
      ∃ i < maxHealthChecks, f.verdict i = v := by
    simp only [List.mem_map, List.mem_range]
  simp only [health_eq_worst, Health.worst, hmem]

theorem health_ofHealth (v : Health) : (ofHealth v).health = v := by
  cases v <;> decide

end Flags

namespace HostTable

variable {t : HostTable} {h : Host}

/-- Records a statement about a host. -/
def tell (t : HostTable) (h : Host) : Statement → Bool × HostTable
  | .verdict check v => t.setVerdict h check v
  | .whole v => t.setHealth h v

/-- Records statements about hosts one after the other. -/
def tellAll (t : HostTable) (said : List (Host × Statement)) : HostTable :=
  said.foldl (fun t s => (t.tell s.1 s.2).2) t

/-- What was last said of check `i` of `h`; healthy if nothing was. -/
def lastSaid (said : List (Host × Statement)) (h : Host) (i : Nat) : Health :=
  (said.reverse.findSome? fun s => if s.1.id = h.id then s.2.about? i else none).getD .healthy

theorem size_tell (t : HostTable) (o : Host) (s : Statement) :
    (t.tell o s).2.states.size = t.states.size := by
  cases s <;> exact size_modify t o _

theorem flags_tell (known : h.id < t.states.size) (o : Host) (s : Statement) :
    ((t.tell o s).2.state h).flags =
      if o.id = h.id then (t.state h).flags.tell s else (t.state h).flags := by
  cases s with
  | verdict check v =>
    rw [tell, setVerdict, state_modify]
    by_cases hid : o.id = h.id
    · rw [if_pos ⟨hid, known⟩, if_pos hid]
      rfl
    · rw [if_neg fun both => hid both.1, if_neg hid]
  | whole v =>
    rw [tell, setHealth, state_modify]
    by_cases hid : o.id = h.id
    · rw [if_pos ⟨hid, known⟩, if_pos hid]
      rfl
    · rw [if_neg fun both => hid both.1, if_neg hid]

theorem tellAll_concat (t : HostTable) (said : List (Host × Statement)) (s : Host × Statement) :
    t.tellAll (said ++ [s]) = ((t.tellAll said).tell s.1 s.2).2 := by
  rw [tellAll, List.foldl_append]
  rfl

theorem size_tellAll (t : HostTable) (said : List (Host × Statement)) :
    (t.tellAll said).states.size = t.states.size := by
  induction said using List.reverseRecOn with
  | nil => rfl
  | append_singleton said s ih => rw [tellAll_concat, size_tell, ih]

theorem lastSaid_concat (said : List (Host × Statement)) (s : Host × Statement) (h : Host)
    (i : Nat) :
    lastSaid (said ++ [s]) h i =
      ((if s.1.id = h.id then s.2.about? i else none).getD (lastSaid said h i)) := by
  rw [lastSaid, List.reverse_append, List.findSome?_append, List.reverse_singleton,
    List.findSome?_singleton, Option.getD_or, lastSaid]

/-- A host that is new has no verdict yet. -/
theorem flags_enroll (t : HostTable) (address : String) (weight : Nat) (locality : Locality)
    (metadata : Metadata) :
    ((t.enroll address weight locality metadata).2.state
      (t.enroll address weight locality metadata).1).flags = .clear := by
  rw [state, enroll, Array.getD_eq_getD_getElem?, Array.getElem?_push_size]
  rfl

/-- What is kept of statements about a host that was new: the induction is on what was said. -/
theorem exclusive_tellAll (known : h.id < t.states.size) (new : (t.state h).flags = .clear)
    (said : List (Host × Statement)) : ((t.tellAll said).state h).flags.Exclusive := by
  induction said using List.reverseRecOn with
  | nil => exact new ▸ Flags.exclusive_clear
  | append_singleton said s ih =>
    rw [tellAll_concat, flags_tell (by rwa [size_tellAll])]
    split
    · exact ih.tell s.2
    · exact ih

theorem verdict_tellAll (known : h.id < t.states.size) (new : (t.state h).flags = .clear)
    (said : List (Host × Statement)) {i : Nat} (hi : i < maxHealthChecks) :
    (t.tellAll said).verdict h i = lastSaid said h i := by
  induction said using List.reverseRecOn with
  | nil =>
    rw [verdict, tellAll, List.foldl_nil, new]
    exact Flags.verdict_clear hi
  | append_singleton said s ih =>
    rw [lastSaid_concat, ← ih, verdict, tellAll_concat, flags_tell (by rwa [size_tellAll])]
    split
    · rw [Flags.verdict_tell _ _ hi]
      rfl
    · rfl

/-- What a host makes of what was said about it. -/
structure Judges (t : HostTable) (h : Host) (said : List (Host × Statement)) : Prop where
  /-- Each verdict is what was last said of it, -/
  verdict : ∀ i < maxHealthChecks, t.verdict h i = lastSaid said h i
  /-- and no check has both of its bits set. -/
  exclusive : (t.state h).flags.Exclusive
  /-- The health is the worst of the verdicts. -/
  health : t.health h =
    if ∃ i < maxHealthChecks, t.verdict h i = .unhealthy then .unhealthy
    else if ∃ i < maxHealthChecks, t.verdict h i = .degraded then .degraded
    else .healthy
  /-- A check that says what it found is taken at its word, and no other verdict changes. The
  answer is whether the health changed. -/
  setVerdict : ∀ i < maxHealthChecks, ∀ v,
    (t.setVerdict h i v).2.verdict h i = v ∧
      (∀ j < maxHealthChecks, j ≠ i → (t.setVerdict h i v).2.verdict h j = t.verdict h j) ∧
      ((t.setVerdict h i v).1 = true ↔ (t.setVerdict h i v).2.health h ≠ t.health h)
  /-- The health of a host that is not checked is what it is said to be, whatever was said before.
  Again the answer is whether that changed. -/
  setHealth : ∀ v, (t.setHealth h v).2.health h = v ∧
    ((t.setHealth h v).1 = true ↔ (t.setHealth h v).2.health h ≠ t.health h)

/-- **Verdicts are independent of each other, and the health of a host is the worst of them**,
whatever was said about it since it was new, and about others. -/
theorem tellAll_judges (t : HostTable) (address : String) (weight : Nat) (locality : Locality)
    (metadata : Metadata) (said : List (Host × Statement)) :
    ((t.enroll address weight locality metadata).2.tellAll said).Judges
      (t.enroll address weight locality metadata).1 said := by
  have new := flags_enroll t address weight locality metadata
  have known : (t.enroll address weight locality metadata).1.id <
      (t.enroll address weight locality metadata).2.states.size := by
    rw [enroll, Array.size_push]
    exact Nat.lt_succ_self _
  revert new known
  -- of the new host nothing more is needed than that it is in the table and as good as new
  generalize t.enroll address weight locality metadata = enrolled
  obtain ⟨h, t⟩ := enrolled
  intro new known
  have stays : h.id < (t.tellAll said).states.size := by rwa [size_tellAll]
  refine ⟨fun i hi => verdict_tellAll known new said hi, exclusive_tellAll known new said,
    Flags.health_eq_ite _, fun i hi v => ⟨?_, fun j hj hne => ?_, ?_⟩, fun v => ⟨?_, ?_⟩⟩
  · rw [verdict_setVerdict stays hi hi, if_pos ⟨rfl, rfl⟩]
  · rw [verdict_setVerdict stays hi hj, if_neg fun both => hne both.2]
  · exact decide_eq_true_iff.trans ne_comm
  · have whole := flags_tell stays h (.whole v)
    rw [if_pos rfl] at whole
    exact (congrArg Flags.health whole).trans (Flags.health_ofHealth v)
  · exact decide_eq_true_iff.trans ne_comm

end HostTable

end LoadBalancing
