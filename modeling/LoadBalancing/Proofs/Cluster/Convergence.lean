/-
A list of hosts is reached, and then there is nothing left to do.

What leads from the hosts of a set to a list is carried out in parts: one level after the other,
and then the weights of those who stayed. Two facts about entries of the list and hosts of the
result hold the rest together. Each entry has a host where it says that is as it says
(`exists_metBy`), because it keeps one or one comes for it; and each host is there for an entry
(`exists_meets`), because nobody else stays. As no address occurs twice, entries and hosts belong
together one to one, and every entry keeps its host when the list is compared once more.

Weights are set by number. They reach the right hosts, since the table knows each of them by a
number of its own, and those who come have numbers that were not given out before.
-/
import LoadBalancing.Proofs.Cluster.Membership
import LoadBalancing.Proofs.Host.Verdicts

set_option autoImplicit false

namespace LoadBalancing

/-! ## Weights -/

namespace HostTable

variable {t : HostTable} {h : Host}

/-- All that the table has of a host but its weight. -/
def live (t : HostTable) (h : Host) : Flags × Nat × Nat :=
  ((t.state h).flags, t.active h, t.total h)

theorem live_enrollAll (known : h.id < t.states.size) (configs : List HostConfig) :
    (t.enrollAll configs).2.live h = t.live h := by
  rw [live, live, active, active, total, total, state_enrollAll known]

theorem live_setWeight (t : HostTable) (o h : Host) (weight : Nat) :
    (t.setWeight o weight).2.live h = t.live h := by
  rw [live, live, active, active, total, total, setWeight, state_modify]
  split <;> rfl

theorem weight_setWeight (known : h.id < t.states.size) (o : Host) (weight : Nat) :
    (t.setWeight o weight).2.weight h = if o.id = h.id then max weight 1 else t.weight h := by
  rw [HostTable.weight, setWeight, state_modify]
  by_cases hid : o.id = h.id
  · rw [if_pos ⟨hid, known⟩, if_pos hid]
  · rw [if_neg fun hboth => hid hboth.1, if_neg hid]
    rfl

/-- Weights are set one after the other. -/
theorem snd_setWeights (t : HostTable) (weights : List (Host × Nat)) :
    (Cluster.setWeights t weights).2 = weights.foldl (fun t e => (t.setWeight e.1 e.2).2) t :=
  (List.foldl_hom Prod.snd fun _ _ => rfl).symm

theorem live_setWeights (t : HostTable) (h : Host) (weights : List (Host × Nat)) :
    (Cluster.setWeights t weights).2.live h = t.live h := by
  rw [snd_setWeights]
  refine List.foldlRecOn (motive := fun t' : HostTable => t'.live h = t.live h) weights _ rfl ?_
  intro t' before e _
  rw [live_setWeight, before]

/-- Where all that is said about the weight of a host is the same, that is its weight in the end,
if anything is said at all or it is its weight already. -/
theorem weight_setWeights (known : h.id < t.states.size) {weights : List (Host × Nat)} {w : Nat}
    (agree : ∀ e ∈ weights, e.1.id = h.id → max e.2 1 = w)
    (given : (∃ e ∈ weights, e.1.id = h.id) ∨ t.weight h = w) :
    (Cluster.setWeights t weights).2.weight h = w := by
  rw [snd_setWeights]
  induction weights generalizing t with
  | nil => simpa using given
  | cons e rest ih =>
    have hweight := weight_setWeight known e.1 e.2
    have size : (t.setWeight e.1 e.2).2.states.size = t.states.size := size_modify ..
    refine ih (Nat.lt_of_lt_of_eq known size.symm)
      (fun e' he' => agree e' (List.mem_cons_of_mem _ he')) ?_
    -- whoever sets it once more sets it to the same, so the first time settles it
    by_cases hid : e.1.id = h.id
    · rw [if_pos hid] at hweight
      exact .inr (hweight.trans (agree e List.mem_cons_self hid))
    · rw [if_neg hid] at hweight
      rcases given with ⟨e', he', hid'⟩ | hgiven
      · -- it is said later
        rcases List.mem_cons.1 he' with rfl | hrest
        · exact absurd hid' hid
        · exact .inl ⟨e', hrest, hid'⟩
      · exact .inr (hweight.trans hgiven)

end HostTable

/-! ## Carrying out a change -/

namespace PrioritySet

theorem carriedOut_updateHosts (t : HostTable) :
    LevelChange.CarriedOut hostsAt
      fun s change => s.updateHosts t change.priority change.added change.removed := by
  intro s change p
  rw [hostsAt_updateHosts]
  split
  next hp => rw [hp]
  next => rfl

/-- The hosts of a set as a list that asks for them. -/
def toConfigs (s : PrioritySet) (t : HostTable) : List HostConfig :=
  s.levels.flatMap fun l => l.hosts.map fun h =>
    { address := h.address
      weight := t.weight h
      priority := l.priority
      locality := h.locality
      metadata := h.metadata }

theorem mem_toConfigs {s : PrioritySet} {t : HostTable} {d : HostConfig} :
    d ∈ s.toConfigs t ↔ ∃ h ∈ s.hostsAt d.priority, h.address = d.address ∧
      h.locality = d.locality ∧ h.metadata = d.metadata ∧ t.weight h = d.weight := by
  rw [toConfigs, List.mem_flatMap]
  constructor
  · rintro ⟨l, hl, hmem⟩
    obtain ⟨h, hh, rfl⟩ := List.mem_map.1 hmem
    exact ⟨h, hostsAt_of_level? (level?_of_mem hl) ▸ hh, rfl, rfl, rfl, rfl⟩
  · rintro ⟨h, hh, haddress, hlocality, hmetadata, hweight⟩
    obtain ⟨l, hl, hmem⟩ := exists_level_of_mem_hostsAt hh
    refine ⟨l, List.mem_of_getElem? hl, List.mem_map.2 ⟨h, hmem, ?_⟩⟩
    have hpriority := s.dense _ l hl
    cases d
    simp only [HostConfig.mk.injEq]
    exact ⟨haddress, hweight, hpriority, hlocality, hmetadata⟩

theorem addresses_toConfigs (s : PrioritySet) (t : HostTable) :
    (s.toConfigs t).map (·.address) = s.hosts.map (·.address) := by
  rw [toConfigs, hosts, List.map_flatMap, List.map_flatMap]
  simp only [List.map_map]
  rfl

end PrioritySet

namespace MembershipChange

/-- The hosts after a change, carried out part by part, and the table with the new weights. -/
def carryOut (change : MembershipChange) (t : HostTable) (s : PrioritySet) :
    PrioritySet × HostTable :=
  (change.levels.foldl (fun s l => s.updateHosts t l.priority l.added l.removed) s,
    (Cluster.setWeights t change.weights).2)

/-- What becomes of a set and of its table on the way to a list of hosts. -/
def reach (t : HostTable) (s : PrioritySet) (desired : List HostConfig) :
    PrioritySet × HostTable :=
  let (change, t) := toReach t s desired
  change.carryOut t s

variable {t : HostTable} {s : PrioritySet} {desired : List HostConfig} {h : Host} {p : Nat}
  {d : HostConfig}

theorem changes_reach (t : HostTable) (s : PrioritySet) (desired : List HostConfig) :
    PrioritySet.Changes s (reach t s desired).1 (LevelChange.atLevel · (arrivals t s desired))
      (LevelChange.atLevel · (departures s desired)) :=
  (PrioritySet.carriedOut_updateHosts (toReach t s desired).2).foldl_gather _ _ s

theorem hostsAt_reach (t : HostTable) (distinct : s.Distinct)
    (once : (desired.map (·.address)).Nodup) (p : Nat) :
    (reach t s desired).1.hostsAt p =
      (s.hostsAt p).filter (fun h => decide (h.UnchangedIn p desired)) ++
        LevelChange.atLevel p (arrivals t s desired) := by
  rw [changes_reach t s desired p, filter_isDropped_toReach t distinct once p]

theorem distinct_reach (t : HostTable) (distinct : s.Distinct)
    (once : (desired.map (·.address)).Nodup) : (reach t s desired).1.Distinct :=
  (distinct_of_changes_iff (changes_reach t s desired) distinct).2
    (once.sublist (List.filter_sublist.map _))

/-- A host that stands at a level after the way to a list was kept, or came. -/
theorem mem_hostsAt_reach (t : HostTable) (distinct : s.Distinct)
    (once : (desired.map (·.address)).Nodup) :
    h ∈ (reach t s desired).1.hostsAt p ↔
      (h ∈ s.hostsAt p ∧ h.UnchangedIn p desired) ∨ (p, h) ∈ arrivals t s desired := by
  rw [hostsAt_reach t distinct once, List.mem_append, List.mem_filter, decide_eq_true_eq,
    LevelChange.mem_atLevel]

/-- Those who come have numbers that nobody had. -/
theorem id_of_mem_arrivals (hcame : (p, h) ∈ arrivals t s desired) :
    t.states.size ≤ h.id ∧ h.id < (toReach t s desired).2.states.size :=
  HostTable.id_of_mem_enrollAll (List.of_mem_zip hcame).2

theorem numbers_reach (numbers : t.Numbers s.hosts) (distinct : s.Distinct)
    (once : (desired.map (·.address)).Nodup) :
    (reach t s desired).2.Numbers (reach t s desired).1.hosts := by
  refine (numbers.enrollAll (desired.filter fun d => (d.kept? s).isNone)).mono (fun h hh => ?_)
    (HostTable.advances_setWeights _ _).size
  obtain ⟨p, hp⟩ := PrioritySet.mem_hosts.1 hh
  rcases (mem_hostsAt_reach t distinct once).1 hp with ⟨hin, -⟩ | hcame
  · exact List.mem_append_left _ (PrioritySet.mem_hosts.2 ⟨p, hin⟩)
  · exact List.mem_append_right _ (List.of_mem_zip hcame).2

/-! ## Entries and hosts -/

/-- Weights are set of hosts that are kept and have another one. -/
theorem mem_weights_toReach {e : Host × Nat} :
    e ∈ (toReach t s desired).1.weights ↔
      ∃ d ∈ desired, d.kept? s = some e.1 ∧ t.weight e.1 ≠ max d.weight 1 ∧ d.weight = e.2 := by
  rw [toReach]
  dsimp only
  rw [List.mem_filterMap]
  refine exists_congr fun d => and_congr_right fun _ => ?_
  cases d.kept? s with
  | none => simp
  | some o =>
    -- a weight of zero is taken for one, so it is compared as that
    by_cases hweight : t.weight o = max d.weight 1
    · simp only [hweight, if_true, Option.some.injEq]
      constructor
      · intro hnone
        cases hnone
      · rintro ⟨rfl, hother, -⟩
        exact absurd hweight hother
    · obtain ⟨o', w⟩ := e
      simp only [hweight, if_false, Option.some.injEq, Prod.mk.injEq]
      constructor
      · rintro ⟨rfl, hw⟩
        exact ⟨rfl, hweight, hw⟩
      · rintro ⟨rfl, -, hw⟩
        exact ⟨rfl, hw⟩

theorem mem_hosts_of_kept (distinct : s.Distinct) (hkept : d.kept? s = some h) : h ∈ s.hosts :=
  PrioritySet.mem_hosts.2 ⟨_, ((HostConfig.kept?_eq_some_iff distinct).1 hkept).1⟩

/-- A host that is kept is what its entry asks for, now also by weight. -/
theorem metBy_of_kept (numbers : t.Numbers s.hosts) (distinct : s.Distinct)
    (once : (desired.map (·.address)).Nodup) (hd : d ∈ desired) (hkept : d.kept? s = some h) :
    d.MetBy (reach t s desired).2 h := by
  obtain ⟨-, haddress, hlocality, hmetadata⟩ := (HostConfig.kept?_eq_some_iff distinct).1 hkept
  have hmem := mem_hosts_of_kept distinct hkept
  have known := numbers.known h hmem
  have later : (toReach t s desired).2.state h = t.state h := HostTable.state_enrollAll known _
  refine ⟨haddress.symm, hlocality.symm, hmetadata.symm, HostTable.weight_setWeights
    (Nat.lt_of_lt_of_le known (HostTable.advances_enrollAll t _).size) (fun e he hid => ?_) ?_⟩
  · -- what is said under its number is said of it, and by its own entry
    obtain ⟨d', hd', hkept', -, hweight⟩ := mem_weights_toReach.1 he
    obtain rfl : e.1 = h := numbers.own e.1 (mem_hosts_of_kept distinct hkept') h hmem hid
    have haddress' := ((HostConfig.kept?_eq_some_iff distinct).1 hkept').2.1
    obtain rfl : d' = d := List.inj_on_of_nodup_map once hd' hd (haddress'.trans haddress.symm)
    rw [← hweight]
  · by_cases hsame : t.weight h = max d.weight 1
    · exact .inr ((congrArg HostState.weight later).trans hsame)
    · exact .inl ⟨(h, d.weight), mem_weights_toReach.2 ⟨d, hd, hkept, hsame, rfl⟩, rfl⟩

/-- A host that came is what its entry asks for. Its weight is not set again. -/
theorem metBy_of_arrived (numbers : t.Numbers s.hosts) (distinct : s.Distinct)
    (hcame : (p, h) ∈ arrivals t s desired) :
    ∃ d ∈ desired, d.priority = p ∧ d.MetBy (reach t s desired).2 h := by
  obtain ⟨d, hd, hp, met⟩ := HostTable.metBy_of_mem_zip_enrollAll hcame
  obtain ⟨hfresh, hknown⟩ := id_of_mem_arrivals hcame
  refine ⟨d, (List.mem_filter.1 hd).1, hp, { met with weight := ?_ }⟩
  refine HostTable.weight_setWeights hknown (fun e he hid => ?_) (.inr met.weight)
  obtain ⟨d', -, hkept', -⟩ := mem_weights_toReach.1 he
  have := numbers.known e.1 (mem_hosts_of_kept distinct hkept')
  omega

/-- Every host of the result is there for an entry of the list, -/
theorem exists_meets (numbers : t.Numbers s.hosts) (distinct : s.Distinct)
    (once : (desired.map (·.address)).Nodup) (hh : h ∈ (reach t s desired).1.hostsAt p) :
    ∃ d ∈ desired, d.priority = p ∧ d.MetBy (reach t s desired).2 h := by
  rcases (mem_hostsAt_reach t distinct once).1 hh with ⟨hin, unchanged⟩ | hcame
  · obtain ⟨d, hd, hkept⟩ := (Host.unchangedIn_iff distinct hin).1 unchanged
    have hmem := ((HostConfig.kept?_eq_some_iff distinct).1 hkept).1
    exact ⟨d, hd, distinct.oneLevel _ _ h h hmem hin rfl,
      metBy_of_kept numbers distinct once hd hkept⟩
  · exact metBy_of_arrived numbers distinct hcame

/-- and every entry has one. -/
theorem exists_metBy (numbers : t.Numbers s.hosts) (distinct : s.Distinct)
    (once : (desired.map (·.address)).Nodup) (hd : d ∈ desired) :
    ∃ h ∈ (reach t s desired).1.hostsAt d.priority, d.MetBy (reach t s desired).2 h := by
  cases hkept : d.kept? s with
  | some h =>
    have hin := ((HostConfig.kept?_eq_some_iff distinct).1 hkept).1
    have unchanged := (Host.unchangedIn_iff distinct hin).2 ⟨d, hd, hkept⟩
    exact ⟨h, (mem_hostsAt_reach t distinct once).2 (.inl ⟨hin, unchanged⟩),
      metBy_of_kept numbers distinct once hd hkept⟩
  | none =>
    -- somebody comes to its address, for it and for no other entry
    have harriving : d ∈ desired.filter fun d => (d.kept? s).isNone :=
      List.mem_filter.2 ⟨hd, by rw [hkept]; rfl⟩
    have haddress := List.mem_map_of_mem (f := HostConfig.address) harriving
    rw [← HostTable.addresses_zip_enrollAll t] at haddress
    obtain ⟨⟨q, h⟩, hcame, hsame⟩ := List.mem_map.1 haddress
    obtain ⟨d', hd', rfl, met⟩ := metBy_of_arrived numbers distinct hcame
    obtain rfl : d' = d := List.inj_on_of_nodup_map once hd' hd (met.address.symm.trans hsame)
    exact ⟨h, (mem_hostsAt_reach t distinct once).2 (.inr hcame), met⟩

/-! ## Reached -/

/-- A list that every host is there for, and that keeps a host of the right weight by each entry,
is left as it is. -/
theorem toReach_of_reached (distinct : s.Distinct)
    (meets : ∀ p, ∀ h ∈ s.hostsAt p, ∃ d ∈ desired, d.priority = p ∧ d.MetBy t h)
    (met : ∀ d ∈ desired, ∃ h ∈ s.hostsAt d.priority, d.MetBy t h) :
    toReach t s desired = (⟨[], []⟩, t) := by
  have hkept (d : HostConfig) (hd : d ∈ desired) :
      ∃ h, d.kept? s = some h ∧ t.weight h = max d.weight 1 := by
    obtain ⟨h, hh, hmet⟩ := met d hd
    exact ⟨h, (HostConfig.kept?_eq_some_iff distinct).2
      ⟨hh, hmet.address.symm, hmet.locality.symm, hmet.metadata.symm⟩, hmet.weight⟩
  -- so nobody has to come, and whoever is there is somebody's host
  have nobodyComes : desired.filter (fun d => (d.kept? s).isNone) = [] := by
    rw [List.filter_eq_nil_iff]
    intro d hd hnone
    obtain ⟨h, hsome, -⟩ := hkept d hd
    rw [hsome] at hnone
    cases hnone
  have nobodyLeaves : unwanted s desired = [] := by
    rw [List.eq_nil_iff_forall_not_mem]
    rintro ⟨p, h⟩ hunwanted
    obtain ⟨hh, hapart⟩ := mem_unwanted.1 hunwanted
    obtain ⟨d, hd, -, hmet⟩ := meets p h hh
    exact hapart d hd hmet.address.symm
  have noWeight : (toReach t s desired).1.weights = [] := by
    rw [List.eq_nil_iff_forall_not_mem]
    intro e he
    obtain ⟨d, hd, hsome, hother, -⟩ := mem_weights_toReach.1 he
    obtain ⟨h, hsome', hweight⟩ := hkept d hd
    obtain rfl : h = e.1 := Option.some.inj (hsome'.symm.trans hsome)
    exact hother hweight
  rw [toReach] at noWeight ⊢
  dsimp only at noWeight ⊢
  rw [noWeight, nobodyComes, nobodyLeaves]
  rfl

/-- What it means that a change leads from the hosts of a set to a list of hosts; `s'` and `t'`
are the set and the table when it is carried out. -/
structure Converges (t : HostTable) (s : PrioritySet) (desired : List HostConfig)
    (change : MembershipChange) (s' : PrioritySet) (t' : HostTable) : Prop where
  /-- There is one host for each entry, as the entry says and where it says, and no other host. -/
  placed : (s'.toConfigs t').Perm (desired.map fun d => { d with weight := max d.weight 1 })
  /-- Those who are as the list says stay what they are and are not spoken of, nor is anybody else
  at their address. -/
  kept : ∀ p, ∀ h ∈ s.hostsAt p, h.UnchangedIn p desired → h ∈ s'.hostsAt p ∧
    t'.live h = t.live h ∧ ∀ l ∈ change.levels, ∀ o ∈ l.added ++ l.removed, o.address ≠ h.address
  /-- All others are new. -/
  fresh : ∀ p, ∀ h ∈ s'.hostsAt p, h.UnchangedIn p desired ∧ h ∈ s.hostsAt p ∨
    t.states.size ≤ h.id
  /-- The levels come in order, each once. -/
  ascending : (change.levels.map (·.priority)).Pairwise (· < ·)
  /-- Then there is nothing left to do. -/
  settled : toReach t' s' desired = (⟨[], []⟩, t')
  /-- And all this can be said again. -/
  distinct : s'.Distinct
  numbers : t'.Numbers s'.hosts

/-- **A list of hosts is reached by what leads to it**, from whatever hosts there are, and those
who are as the list says are left alone on the way. -/
theorem toReach_converges (distinct : s.Distinct) (numbers : t.Numbers s.hosts)
    (once : (desired.map (·.address)).Nodup) :
    Converges t s desired (toReach t s desired).1 (reach t s desired).1 (reach t s desired).2 where
  placed := by
    have apart := distinct_reach t distinct once
    -- neither list repeats an address, so it is enough that they have the same members
    refine (List.perm_ext_iff_of_nodup ?_ ?_).2 fun d => ?_
    · rw [PrioritySet.Distinct, ← PrioritySet.addresses_toConfigs _ (reach t s desired).2] at apart
      exact apart.of_map _
    · refine List.Nodup.of_map HostConfig.address ?_
      rwa [List.map_map]
    · rw [PrioritySet.mem_toConfigs, List.mem_map]
      constructor
      · rintro ⟨h, hh, haddress, hlocality, hmetadata, hweight⟩
        obtain ⟨d', hd', hpriority, met⟩ := exists_meets numbers distinct once hh
        refine ⟨d', hd', ?_⟩
        rw [met.address] at haddress
        rw [met.locality] at hlocality
        rw [met.metadata] at hmetadata
        rw [met.weight] at hweight
        cases d
        simp only [HostConfig.mk.injEq]
        exact ⟨haddress, hweight, hpriority, hlocality, hmetadata⟩
      · rintro ⟨d', hd', rfl⟩
        obtain ⟨h, hh, met⟩ := exists_metBy numbers distinct once hd'
        exact ⟨h, hh, met.address, met.locality, met.metadata, met.weight⟩
  kept := by
    intro p h hh unchanged
    have known := numbers.known h (PrioritySet.mem_hosts.2 ⟨p, hh⟩)
    exact ⟨(mem_hostsAt_reach t distinct once).2 (.inl ⟨hh, unchanged⟩),
      (HostTable.live_setWeights _ h _).trans (HostTable.live_enrollAll known _),
      fun l hl o ho => address_ne_of_mem_levels distinct once hh unchanged hl ho⟩
  fresh := by
    intro p h hh
    rcases (mem_hostsAt_reach t distinct once).1 hh with ⟨hin, unchanged⟩ | hcame
    · exact .inl ⟨unchanged, hin⟩
    · exact .inr (id_of_mem_arrivals hcame).1
  ascending := LevelChange.ascending_gather _ _
  settled := toReach_of_reached (distinct_reach t distinct once)
    (fun _ _ hh => exists_meets numbers distinct once hh)
    (fun _ hd => exists_metBy numbers distinct once hd)
  distinct := distinct_reach t distinct once
  numbers := numbers_reach numbers distinct once

/-! ### Moving up and down -/

section Reshuffled

/-- Hosts at two levels. -/
def crew : List HostConfig :=
  [{ address := "stays", weight := 1, priority := 0, locality := default, metadata := ∅ },
    { address := "down", weight := 1, priority := 0, locality := default, metadata := ∅ },
    { address := "anew", weight := 1, priority := 0, locality := default, metadata := ∅ },
    { address := "up", weight := 1, priority := 1, locality := default, metadata := ∅ },
    { address := "leaves", weight := 1, priority := 1, locality := default, metadata := ∅ }]

def crewSet : PrioritySet :=
  (reach .empty (.empty 140) crew).1

def crewStays : Host where
  id := 0
  address := "stays"
  locality := default
  metadata := ∅

/-- The host that will stay is unhealthy, and a request to it runs. -/
def crewTable : HostTable :=
  ((reach .empty (.empty 140) crew).2.setHealth crewStays .unhealthy).2.startRequest crewStays

/-- One host gets another weight, two change places, one is in another zone and one is new. -/
def reshuffled : List HostConfig :=
  [{ address := "new", weight := 0, priority := 3, locality := default, metadata := ∅ },
    { address := "up", weight := 1, priority := 0, locality := default, metadata := ∅ },
    { address := "anew", weight := 1, priority := 0, locality := ⟨"", "b", ""⟩, metadata := ∅ },
    { address := "stays", weight := 5, priority := 0, locality := default, metadata := ∅ },
    { address := "down", weight := 1, priority := 1, locality := default, metadata := ∅ }]

/-- Only the first host is still the same one, in all but its weight. -/
theorem toReach_converges_reshuffled :
    crewSet.Distinct ∧ crewTable.Numbers crewSet.hosts ∧
      (reshuffled.map (·.address)).Nodup ∧
      (reach crewTable crewSet reshuffled).1.hosts.map (fun h => (h.address, h.id)) =
        [("stays", 0), ("up", 6), ("anew", 7), ("down", 8), ("new", 5)] ∧
      (reach crewTable crewSet reshuffled).2.weight crewStays = 5 ∧
      (reach crewTable crewSet reshuffled).2.live crewStays = crewTable.live crewStays ∧
      toReach (reach crewTable crewSet reshuffled).2 (reach crewTable crewSet reshuffled).1
        reshuffled = (⟨[], []⟩, (reach crewTable crewSet reshuffled).2) := by
  have distinct : crewSet.Distinct := by decide +kernel
  have numbers : crewTable.Numbers crewSet.hosts := by decide +kernel
  have once : (reshuffled.map (·.address)).Nodup := by decide +kernel
  have there : crewStays ∈ crewSet.hostsAt 0 := by decide +kernel
  have unchanged : crewStays.UnchangedIn 0 reshuffled := by decide +kernel
  have converges := toReach_converges distinct numbers once
  exact ⟨distinct, numbers, once, by decide +kernel, by decide +kernel,
    (converges.kept 0 crewStays there unchanged).2.1, converges.settled⟩

end Reshuffled

end MembershipChange

end LoadBalancing
