/-
From the hosts that there are to a list of hosts.

An entry of the list keeps the host at its address, if it stands at the right level with the
right locality and metadata. Whoever is kept by no entry leaves, and whoever is meant by an
entry that keeps nobody comes as a new host. The parts of this are carried out level by level,
lowest first, so a host that moves is at two levels for a while, or at none. That does not show
in the end: a part touches its own level only (`LevelChange.CarriedOut`), and nothing is said
about the address of a host that is kept, at whatever level
(`MembershipChange.address_ne_of_unchanged`). So the hosts that stay at a level are those that
the list does not change (`MembershipChange.filter_isDropped_toReach`).
-/
import LoadBalancing.Proofs.Cluster.Partitions

set_option autoImplicit false

namespace LoadBalancing

/-! ## Hosts that a list does not change -/

/-- Whether a list of hosts has a host of a level as it is: at its address, at its level, with
its locality and its metadata. -/
def Host.UnchangedIn (h : Host) (p : Nat) (desired : List HostConfig) : Prop :=
  ∃ d ∈ desired, d.address = h.address ∧ d.priority = p ∧ d.locality = h.locality ∧
    d.metadata = h.metadata

instance (h : Host) (p : Nat) (desired : List HostConfig) : Decidable (h.UnchangedIn p desired) :=
  inferInstanceAs (Decidable (∃ d ∈ desired, d.address = h.address ∧ d.priority = p ∧
    d.locality = h.locality ∧ d.metadata = h.metadata))

variable {t : HostTable} {s : PrioritySet} {desired : List HostConfig} {h : Host} {p : Nat}

namespace HostConfig

theorem isKept_iff {d : HostConfig} :
    d.isKept p h = true ↔ d.priority = p ∧ d.locality = h.locality ∧ d.metadata = h.metadata := by
  rw [isKept, Bool.and_eq_true, Bool.and_eq_true, decide_eq_true_eq, decide_eq_true_eq,
    decide_eq_true_eq, and_assoc, eq_comm, @eq_comm _ h.locality, @eq_comm _ h.metadata]

/-- Where no address occurs twice, an entry of a list keeps the host that is as it says. -/
theorem kept?_eq_some_iff (distinct : s.Distinct) {d : HostConfig} :
    d.kept? s = some h ↔ h ∈ s.hostsAt d.priority ∧ d.address = h.address ∧
      d.locality = h.locality ∧ d.metadata = h.metadata := by
  constructor
  · intro kept
    rw [kept?] at kept
    cases hfind : s.find? d.address with
    | none =>
      rw [hfind] at kept
      cases kept
    | some found =>
      obtain ⟨q, o⟩ := found
      simp only [hfind] at kept
      obtain ⟨hkept, ho⟩ := Option.ite_none_right_eq_some.1 kept
      obtain rfl : o = h := Option.some.inj ho
      obtain ⟨rfl, hsame⟩ := isKept_iff.1 hkept
      obtain ⟨hmem, haddress⟩ := PrioritySet.find?_eq_some hfind
      exact ⟨hmem, haddress.symm, hsame⟩
  · rintro ⟨hh, haddress, hsame⟩
    -- the first host at the address is the only one there
    have hkept : d.isKept d.priority h = true := isKept_iff.2 ⟨rfl, hsame⟩
    rw [kept?, haddress, distinct.oneLevel.find?_address distinct.levels hh]
    simp only [hkept, if_true]

end HostConfig

/-- A host is unchanged if an entry of the list keeps it. -/
theorem Host.unchangedIn_iff (distinct : s.Distinct) (hh : h ∈ s.hostsAt p) :
    h.UnchangedIn p desired ↔ ∃ d ∈ desired, d.kept? s = some h := by
  constructor
  · rintro ⟨d, hd, haddress, rfl, hsame⟩
    exact ⟨d, hd, (HostConfig.kept?_eq_some_iff distinct).2 ⟨hh, haddress, hsame⟩⟩
  · rintro ⟨d, hd, kept⟩
    obtain ⟨hmem, haddress, hsame⟩ := (HostConfig.kept?_eq_some_iff distinct).1 kept
    have hp : d.priority = p := distinct.oneLevel _ _ h h hmem hh rfl
    exact ⟨d, hd, haddress, hp, hsame⟩

/-! ## Who comes and who leaves -/

namespace MembershipChange

theorem mem_unwanted :
    (p, h) ∈ unwanted s desired ↔ h ∈ s.hostsAt p ∧ ∀ d ∈ desired, d.address ≠ h.address := by
  have hnone : (!desired.any fun d => d.address == h.address) = true ↔
      ∀ d ∈ desired, d.address ≠ h.address := by
    simp
  rw [← hnone, unwanted, List.mem_flatMap]
  constructor
  · rintro ⟨l, hl, hmem⟩
    obtain ⟨o, ho, heq⟩ := List.mem_map.1 hmem
    cases heq
    obtain ⟨hin, hleaves⟩ := List.mem_filter.1 ho
    exact ⟨PrioritySet.hostsAt_of_level? (PrioritySet.level?_of_mem hl) ▸ hin, hleaves⟩
  · rintro ⟨hin, hleaves⟩
    obtain ⟨l, hl, hmem⟩ := PrioritySet.exists_level_of_mem_hostsAt hin
    refine ⟨l, List.mem_of_getElem? hl, List.mem_map.2 ⟨h, ?_, ?_⟩⟩
    · exact List.mem_filter.2 ⟨hmem, hleaves⟩
    · rw [s.dense p l hl]

/-- **Nothing is said about the address of a host that is kept**, neither of its own level nor of
any other. -/
theorem address_ne_of_unchanged (distinct : s.Distinct) (once : (desired.map (·.address)).Nodup)
    (hh : h ∈ s.hostsAt p) (unchanged : h.UnchangedIn p desired) {o : Nat × Host}
    (ho : o ∈ arrivals t s desired ++ departures s desired) : o.2.address ≠ h.address := by
  obtain ⟨d, hd, hkept⟩ := (Host.unchangedIn_iff distinct hh).1 unchanged
  obtain ⟨-, haddress, -⟩ := (HostConfig.kept?_eq_some_iff distinct).1 hkept
  -- the host is named once, and not as one that has to come
  have harriving {e : HostConfig} (he : e ∈ desired.filter fun d => (d.kept? s).isNone) :
      e.address ≠ h.address := by
    intro heq
    obtain ⟨hmem, hnone⟩ := List.mem_filter.1 he
    obtain rfl : e = d := List.inj_on_of_nodup_map once hmem hd (heq.trans haddress.symm)
    rw [hkept] at hnone
    cases hnone
  obtain ⟨q, o⟩ := o
  intro heq
  rcases List.mem_append.1 ho with hcomes | hleaves
  · obtain ⟨e, he, -, hoe, -⟩ := HostTable.exists_of_mem_zip_enrollAll hcomes
    exact harriving he (hoe.symm.trans heq)
  · rcases List.mem_append.1 hleaves with hunwanted | hreplaced
    · exact (mem_unwanted.1 hunwanted).2 d hd (haddress.trans heq.symm)
    · obtain ⟨e, he, hfind⟩ := List.mem_filterMap.1 hreplaced
      exact harriving he ((PrioritySet.find?_eq_some hfind).2.symm.trans heq)

/-- No part of what leads to the list speaks of it. -/
theorem address_ne_of_mem_levels (distinct : s.Distinct) (once : (desired.map (·.address)).Nodup)
    (hh : h ∈ s.hostsAt p) (unchanged : h.UnchangedIn p desired) {l : LevelChange}
    (hl : l ∈ (toReach t s desired).1.levels) {o : Host} (ho : o ∈ l.added ++ l.removed) :
    o.address ≠ h.address := by
  obtain ⟨q, -, rfl⟩ := List.mem_map.1 hl
  have hplaced : (q, o) ∈ arrivals t s desired ++ departures s desired := by
    rcases List.mem_append.1 ho with hcomes | hleaves
    · exact List.mem_append_left _ (LevelChange.mem_atLevel.1 hcomes)
    · exact List.mem_append_right _ (LevelChange.mem_atLevel.1 hleaves)
  exact address_ne_of_unchanged distinct once hh unchanged hplaced

/-- Any other host leaves. -/
theorem mem_departures_of_changed (distinct : s.Distinct) (hh : h ∈ s.hostsAt p)
    (changed : ¬ h.UnchangedIn p desired) : (p, h) ∈ departures s desired := by
  by_cases hnamed : ∃ d ∈ desired, d.address = h.address
  · obtain ⟨d, hd, haddress⟩ := hnamed
    have hfind := distinct.oneLevel.find?_address distinct.levels hh
    have hkept : d.kept? s = none := by
      rw [HostConfig.kept?, haddress, hfind]
      dsimp only
      rw [if_neg]
      intro hkept
      exact changed ⟨d, hd, haddress, HostConfig.isKept_iff.1 hkept⟩
    refine List.mem_append_right _ (List.mem_filterMap.2 ⟨d, List.mem_filter.2 ⟨hd, ?_⟩, ?_⟩)
    · rw [hkept]
      rfl
    · rw [haddress, hfind]
  · refine List.mem_append_left _ (mem_unwanted.2 ⟨hh, fun d hd haddress => ?_⟩)
    exact hnamed ⟨d, hd, haddress⟩

/-- **Who is kept.** Of the hosts of a level, those stay that the list does not change. -/
theorem filter_isDropped_toReach (t : HostTable) (distinct : s.Distinct)
    (once : (desired.map (·.address)).Nodup) (p : Nat) :
    (s.hostsAt p).filter (fun h => !HostSet.isDropped (LevelChange.atLevel p (arrivals t s desired))
        (LevelChange.atLevel p (departures s desired)) h) =
      (s.hostsAt p).filter fun h => decide (h.UnchangedIn p desired) := by
  refine List.filter_congr fun h hh => ?_
  rw [Bool.eq_iff_iff, Bool.not_eq_true', decide_eq_true_eq, Bool.eq_false_iff, ne_eq,
    HostSet.isDropped_iff]
  constructor
  · -- a host that the list changes leaves, so one that stays is as it was
    intro stays
    by_contra changed
    have hleaves := mem_departures_of_changed distinct hh changed
    exact stays (.inl ⟨h, LevelChange.mem_atLevel.2 hleaves, rfl⟩)
  · intro unchanged hdropped
    have apart {o : Host} (ho : (p, o) ∈ arrivals t s desired ++ departures s desired) :
        o.address ≠ h.address := address_ne_of_unchanged distinct once hh unchanged ho
    rcases hdropped with ⟨o, ho, heq⟩ | ⟨o, ho, heq⟩
    · exact apart (List.mem_append_right _ (LevelChange.mem_atLevel.1 ho)) heq
    · exact apart (List.mem_append_left _ (LevelChange.mem_atLevel.1 ho)) heq

end MembershipChange

end LoadBalancing
