/-
What the operations of the host table do to the health of hosts.

Who holds derived data about hosts, such as partitions by health, has to know which hosts
may have another health than before. So a change of the table is described by a list of hosts
that it may concern (`HostTable.Advances`). Hosts are told apart by their numbers here, since
this is how the table knows them. Numbers that are not given out yet do not matter.
-/
import LoadBalancing.Cluster.Membership

set_option autoImplicit false

namespace LoadBalancing

/-- A host is what a configuration asks for, wherever it stands. -/
structure HostConfig.MetBy (c : HostConfig) (t : HostTable) (h : Host) : Prop where
  address : h.address = c.address
  locality : h.locality = c.locality
  metadata : h.metadata = c.metadata
  weight : t.weight h = max c.weight 1

namespace HostTable

variable {t t' t'' : HostTable} {changed : List Host}

/-! ## Changes of one host -/

@[simp] theorem size_modify (t : HostTable) (h : Host) (f : HostState → HostState) :
    (t.modify h f).states.size = t.states.size :=
  Array.size_modify

theorem state_modify_of_ne (t : HostTable) {h h' : Host} (hne : h.id ≠ h'.id)
    (f : HostState → HostState) : (t.modify h f).state h' = t.state h' := by
  rw [state, state, modify, Array.getD_eq_getD_getElem?, Array.getD_eq_getD_getElem?,
    Array.getElem?_modify, if_neg hne]

/-- A change that keeps the verdicts of a host keeps all verdicts. -/
theorem health_modify (t : HostTable) (h h' : Host) {f : HostState → HostState}
    (keeps : ∀ s, (f s).flags = s.flags) : (t.modify h f).health h' = t.health h' := by
  rw [health, health, state, state, modify, Array.getD_eq_getD_getElem?,
    Array.getD_eq_getD_getElem?, Array.getElem?_modify]
  split
  · cases t.states[h'.id]? with
    | none => rfl
    | some s => exact congrArg Flags.health (keeps s)
  · rfl

/-- A change that keeps the weight of a host keeps all weights. -/
theorem weight_modify (t : HostTable) (h h' : Host) {f : HostState → HostState}
    (keeps : ∀ s, (f s).weight = s.weight) : (t.modify h f).weight h' = t.weight h' := by
  rw [weight, weight, state, state, modify, Array.getD_eq_getD_getElem?,
    Array.getD_eq_getD_getElem?, Array.getElem?_modify]
  split
  · cases t.states[h'.id]? with
    | none => rfl
    | some s => exact keeps s
  · rfl

/-- The table knows a host by its number. -/
theorem health_eq_of_id (t : HostTable) {h h' : Host} (heq : h.id = h'.id) :
    t.health h = t.health h' := by
  rw [health, health, state, state, heq]

/-! ## Which hosts may have another health -/

/-- A later state of a table, in which of the hosts there were at most some have another
health. -/
structure Advances (t t' : HostTable) (changed : List Host) : Prop where
  size : t.states.size ≤ t'.states.size
  health : ∀ h, h.id < t.states.size → (∀ o ∈ changed, o.id ≠ h.id) → t'.health h = t.health h

theorem Advances.refl (t : HostTable) (changed : List Host) : t.Advances t changed :=
  ⟨Nat.le_refl _, fun _ _ _ => rfl⟩

theorem Advances.trans (h : t.Advances t' changed) (h' : t'.Advances t'' changed) :
    t.Advances t'' changed where
  size := Nat.le_trans h.size h'.size
  health o ho hnot :=
    (h'.health o (Nat.lt_of_lt_of_le ho h.size) hnot).trans (h.health o ho hnot)

theorem Advances.mono (h : t.Advances t' changed) {more : List Host} (sub : changed ⊆ more) :
    t.Advances t' more :=
  ⟨h.size, fun o ho hnot => h.health o ho fun o' ho' => hnot o' (sub ho')⟩

/-- Hosts that were taken in later do not count. -/
theorem Advances.ofFresh (h : t.Advances t' []) (h' : t'.Advances t'' changed)
    (fresh : ∀ o ∈ changed, t.states.size ≤ o.id) : t.Advances t'' [] where
  size := Nat.le_trans h.size h'.size
  health o ho _ := by
    rw [h'.health o (Nat.lt_of_lt_of_le ho h.size), h.health o ho (by simp)]
    intro o' ho'
    have := fresh o' ho'
    omega

theorem advances_setVerdict (t : HostTable) (h : Host) (i : Nat) (v : Health) :
    t.Advances (t.setVerdict h i v).2 [h] where
  size := Nat.le_of_eq (size_modify t h _).symm
  health o _ hnot := by
    rw [HostTable.health, HostTable.health, setVerdict,
      state_modify_of_ne t (hnot h (List.mem_singleton.2 rfl))]

/-- A verdict that does not change the health of its host changes nobody's. -/
theorem advances_setVerdict_of_same (t : HostTable) (h : Host) (i : Nat) (v : Health)
    (same : (t.setVerdict h i v).1 = false) : t.Advances (t.setVerdict h i v).2 [] where
  size := (advances_setVerdict t h i v).size
  health o ho _ := by
    by_cases hid : h.id = o.id
    · rw [setVerdict, decide_eq_false_iff_not, Classical.not_not] at same
      rw [← health_eq_of_id t hid, ← health_eq_of_id _ hid]
      exact same.symm
    · exact (advances_setVerdict t h i v).health o ho (by simpa using hid)

/-- Weights have no part in health. -/
theorem advances_setWeight (t : HostTable) (h : Host) (weight : Nat) :
    t.Advances (t.setWeight h weight).2 [] where
  size := Nat.le_of_eq (size_modify t h _).symm
  health o _ _ := health_modify t h o fun _ => rfl

/-! ## Taking in hosts -/

/-- Whoever is known already stays as it is. -/
theorem state_enrollConfig {h : Host} (known : h.id < t.states.size) (c : HostConfig) :
    (t.enrollConfig c).2.state h = t.state h := by
  rw [state, state, enrollConfig, enroll, Array.getD_eq_getD_getElem?,
    Array.getD_eq_getD_getElem?, Array.getElem?_push, if_neg (Nat.ne_of_lt known)]

theorem metBy_enrollConfig (t : HostTable) (c : HostConfig) :
    c.MetBy (t.enrollConfig c).2 (t.enrollConfig c).1 where
  address := rfl
  locality := rfl
  metadata := rfl
  weight := by
    rw [HostTable.weight, state, enrollConfig, enroll, Array.getD_eq_getD_getElem?,
      Array.getElem?_push_size]
    rfl

theorem advances_enrollConfig (t : HostTable) (c : HostConfig) :
    t.Advances (t.enrollConfig c).2 [] where
  size := by
    rw [enrollConfig, enroll, Array.size_push]
    exact Nat.le_succ _
  health h known _ := by rw [HostTable.health, HostTable.health, state_enrollConfig known]

theorem advances_enrollAll (t : HostTable) (configs : List HostConfig) :
    t.Advances (t.enrollAll configs).2 [] := by
  induction configs generalizing t with
  | nil => exact .refl t []
  | cons c rest ih => exact (advances_enrollConfig t c).trans (ih _)

theorem state_enrollAll {h : Host} (known : h.id < t.states.size) (configs : List HostConfig) :
    (t.enrollAll configs).2.state h = t.state h := by
  induction configs generalizing t with
  | nil => rfl
  | cons c rest ih =>
    have later := Nat.lt_of_lt_of_le known (advances_enrollConfig t c).size
    exact (ih later).trans (state_enrollConfig known c)

theorem addresses_enrollAll (t : HostTable) (configs : List HostConfig) :
    (t.enrollAll configs).1.map (·.address) = configs.map (·.address) := by
  induction configs generalizing t with
  | nil => rfl
  | cons c rest ih =>
    rw [enrollAll, List.map_cons, List.map_cons, ih]
    rfl

/-- A host that was taken in is what its configuration says. -/
theorem exists_of_mem_enrollAll {t : HostTable} {configs : List HostConfig} {h : Host}
    (hmem : h ∈ (t.enrollAll configs).1) :
    ∃ c ∈ configs, h.address = c.address ∧ h.metadata = c.metadata := by
  induction configs generalizing t with
  | nil => cases hmem
  | cons c rest ih =>
    rcases List.mem_cons.1 hmem with rfl | hrest
    · exact ⟨c, List.mem_cons_self, rfl, rfl⟩
    · obtain ⟨d, hd, hfacts⟩ := ih hrest
      exact ⟨d, List.mem_cons_of_mem _ hd, hfacts⟩

/-- New hosts have the numbers after those that are given out, one each. -/
theorem ids_enrollAll (t : HostTable) (configs : List HostConfig) :
    (t.enrollAll configs).1.map (·.id) = List.range' t.states.size configs.length ∧
      (t.enrollAll configs).2.states.size = t.states.size + configs.length := by
  induction configs generalizing t with
  | nil => exact ⟨rfl, rfl⟩
  | cons c rest ih =>
    have hsize : (t.enrollConfig c).2.states.size = t.states.size + 1 := Array.size_push _
    obtain ⟨hids, hafter⟩ := ih (t.enrollConfig c).2
    rw [hsize] at hids hafter
    rw [enrollAll, List.length_cons]
    exact ⟨congrArg _ hids, by rw [hafter]; omega⟩

theorem nodup_enrollAll (t : HostTable) (configs : List HostConfig) :
    ((t.enrollAll configs).1.map (·.id)).Nodup := by
  rw [(ids_enrollAll t configs).1]
  exact List.nodup_range'

theorem id_of_mem_enrollAll {t : HostTable} {configs : List HostConfig} {h : Host}
    (hmem : h ∈ (t.enrollAll configs).1) :
    t.states.size ≤ h.id ∧ h.id < (t.enrollAll configs).2.states.size := by
  have hid : h.id ∈ (t.enrollAll configs).1.map (·.id) := List.mem_map_of_mem hmem
  obtain ⟨hids, hafter⟩ := ids_enrollAll t configs
  rw [hids, List.mem_range'_1] at hid
  rw [hafter]
  exact hid

end HostTable

end LoadBalancing
