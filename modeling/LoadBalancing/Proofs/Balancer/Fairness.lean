/-
How often each host of a rotation is given.

A rotation counts its turns, and a turn goes to the slot that is left when the number of slots is
divided out. Slots are numbered through the list: those of one place come after those of all
places before it, as many as its host weighs. So the place of a turn is known from where the slot
lies between these sums (`Rotation.place_eq_iff`), and it comes again after as many turns as there
are slots. How often a place comes up in some turns is then a matter of counting a periodic
predicate: once around, wherever it begins, it is the weight.

Places are told apart where hosts are not: a host that is listed twice has its turns at both.
-/
import LoadBalancing.Proofs.Balancer.Serves
import Mathlib.Data.Nat.Periodic

set_option autoImplicit false

namespace LoadBalancing

/-! ## Counting -/

section Counting

variable {q : Nat → Prop} [DecidablePred q]

/-- The numbers between two bounds, as far as they are below a third one. -/
theorem count_between (low high n : Nat) :
    Nat.count (fun i => low ≤ i ∧ i < high) n = min n high - min n low := by
  induction n with
  | zero => simp
  | succ n ih =>
    rw [Nat.count_succ, ih]
    split <;> omega

omit [DecidablePred q] in
theorem shift_period {period : Nat} (periodic : Function.Periodic q period) :
    (fun i => q (period + i)) = q :=
  funext fun i => by rw [Nat.add_comm, periodic]

/-- **Once around**, it does not matter where one begins. -/
theorem count_period {period : Nat} (periodic : Function.Periodic q period) (first : Nat) :
    Nat.count (fun i => q (first + i)) period = Nat.count q period := by
  -- from the start to the end of the row there are as many, whichever part is counted first
  have front := Nat.count_add q first period
  have back := Nat.count_add q period first
  simp only [shift_period periodic] at back
  rw [Nat.add_comm first period, back] at front
  omega

/-- Some times around, and then a part of it. -/
theorem count_periods {period : Nat} (periodic : Function.Periodic q period) (times rest : Nat) :
    Nat.count q (period * times + rest) = Nat.count q period * times + Nat.count q rest := by
  induction times with
  | zero => simp
  | succ times ih =>
    have hsplit : period * (times + 1) + rest = period + (period * times + rest) := by
      rw [Nat.mul_succ]
      omega
    rw [hsplit, Nat.count_add]
    simp only [shift_period periodic]
    rw [ih, Nat.mul_succ]
    omega

/-- Counting in a list of values is counting their numbers. -/
theorem count_map_range (f : Nat → Nat) (p n : Nat) :
    ((List.range n).map f).count p = Nat.count (fun i => f i = p) n := by
  rw [List.count, List.countP_map]
  rfl

end Counting

/-- The results of so many picks in a row. -/
def Pick.times {β : Type} (m : Pick β) : Nat → Pick (List β)
  | 0 => pure []
  | n + 1 => do
    let first ← m
    let rest ← m.times n
    pure (first :: rest)

/-- How many turns a list had, up to the last 64-bit number. -/
def PickState.turn (s : PickState) (list : Nat) : Nat :=
  (s.turns.getD list 0).toNat

namespace Rotation

/-- The place in the list that a turn goes to. -/
def place (r : Rotation) (turn : Nat) : Nat :=
  r.slots.findIdx fun slot => turn % r.size < slot.2

/-- The places of so many turns, from some turn on. -/
def places (r : Rotation) (first n : Nat) : List Nat :=
  (List.range n).map fun i => r.place (first + i)

/-- How many slots there are before those of a place. -/
def slotsBefore (weight : Host → Nat) (hosts : List Host) (p : Nat) : Nat :=
  ((hosts.take p).map weight).sum

variable {t : HostTable} {hosts : List Host} {list : Nat}

/-! ## Slots -/

theorem slotsBefore_succ (weight : Host → Nat) {p : Nat} (hp : p < hosts.length) :
    slotsBefore weight hosts (p + 1) = slotsBefore weight hosts p + weight hosts[p] := by
  rw [slotsBefore, List.take_succ_eq_append_getElem hp, List.map_append, List.sum_append]
  rfl

theorem slotsBefore_le (weight : Host → Nat) (hosts : List Host) (p : Nat) :
    slotsBefore weight hosts p ≤ (hosts.map weight).sum := by
  have split := congrArg (fun hosts => (hosts.map weight).sum) (List.take_append_drop p hosts)
  simp only [List.map_append, List.sum_append] at split
  rw [slotsBefore]
  omega

/-- Every slot ends where those before it and its own end. -/
theorem getElem?_slotsFrom (t : HostTable) (start : Nat) (hosts : List Host) (p : Nat) :
    (slotsFrom t start hosts)[p]? =
      hosts[p]?.map fun h => (h, start + slotsBefore t.weight hosts (p + 1)) := by
  induction hosts generalizing start p with
  | nil => rfl
  | cons h rest ih =>
    rw [slotsFrom]
    cases p with
    | zero => rfl
    | succ p =>
      rw [List.getElem?_cons_succ, List.getElem?_cons_succ, ih, slotsBefore, slotsBefore,
        List.take_succ_cons (i := p + 1), List.map_cons, List.sum_cons]
      simp only [Nat.add_assoc]

theorem length_slotsFrom (t : HostTable) (start : Nat) (hosts : List Host) :
    (slotsFrom t start hosts).length = hosts.length := by
  rw [← List.length_map (·.1), map_slotsFrom]

theorem getElem_slotsFrom {p : Nat} (hp : p < (slotsFrom t 0 hosts).length) :
    (slotsFrom t 0 hosts)[p].2 = slotsBefore t.weight hosts (p + 1) := by
  have found := getElem?_slotsFrom t 0 hosts p
  rw [List.getElem?_eq_getElem hp, List.getElem?_eq_getElem (length_slotsFrom t 0 hosts ▸ hp),
    Option.map_some, Nat.zero_add] at found
  rw [Option.some.inj found]

/-- There are as many slots as all hosts weigh. -/
theorem size_ofHosts (t : HostTable) (list : Nat) (hosts : List Host) :
    (ofHosts t list hosts).size = (hosts.map t.weight).sum := by
  rw [size, ofHosts, List.getLast?_eq_getElem?, getElem?_slotsFrom, length_slotsFrom]
  cases hlast : hosts[hosts.length - 1]? with
  | none =>
    have nobody : hosts = [] := by
      rw [List.getElem?_eq_none_iff] at hlast
      exact List.eq_nil_of_length_eq_zero (by omega)
    rw [nobody]
    rfl
  | some h =>
    obtain ⟨hlength, -⟩ := List.getElem?_eq_some_iff.1 hlast
    rw [slotsBefore, List.take_of_length_le (by omega)]
    simp

theorem slotsBefore_mono (weight : Host → Nat) (hosts : List Host) {p p' : Nat} (h : p ≤ p') :
    slotsBefore weight hosts p ≤ slotsBefore weight hosts p' := by
  have inner := slotsBefore_le weight (hosts.take p') p
  rwa [slotsBefore, List.take_take, Nat.min_eq_left h] at inner

/-- **The place of a turn** is the one that has its slot. -/
theorem place_eq_iff (turn : Nat) {p : Nat} (hp : p < hosts.length) :
    (ofHosts t list hosts).place turn = p ↔
      slotsBefore t.weight hosts p ≤ turn % (ofHosts t list hosts).size ∧
        turn % (ofHosts t list hosts).size < slotsBefore t.weight hosts p + t.weight hosts[p] := by
  have hslots : p < (slotsFrom t 0 hosts).length := by rwa [length_slotsFrom]
  rw [place]
  generalize turn % (ofHosts t list hosts).size = slot
  rw [← slotsBefore_succ t.weight hp, ofHosts, List.findIdx_eq hslots, decide_eq_true_eq,
    getElem_slotsFrom, and_comm]
  -- that all places before end at or before the slot is said by the last one of them
  refine and_congr_left fun _ => ⟨fun later => ?_, fun hle j hj => ?_⟩
  · cases p with
    | zero => exact Nat.zero_le slot
    | succ p =>
      have hlast := of_decide_eq_false (later p (Nat.lt_succ_self p))
      rwa [getElem_slotsFrom, Nat.not_lt] at hlast
  · rw [decide_eq_false_iff_not, getElem_slotsFrom, Nat.not_lt]
    exact Nat.le_trans (slotsBefore_mono t.weight hosts hj) hle

/-- The same places come again after as many turns as there are slots. -/
theorem place_add_size (r : Rotation) (turn : Nat) : r.place (turn + r.size) = r.place turn := by
  rw [place, place, Nat.add_mod_right]

/-- The host of a turn is the one at its place. -/
theorem atTurn?_eq (turn : UInt64) :
    (ofHosts t list hosts).atTurn? turn = hosts[(ofHosts t list hosts).place turn.toNat]? := by
  rw [atTurn?, List.find?_eq_getElem?_findIdx, ← List.getElem?_map]
  have named : (ofHosts t list hosts).slots.map (·.1) = hosts := map_slotsFrom t 0 hosts
  rw [named]
  rfl

theorem size_pos (hnil : hosts ≠ []) : 0 < (ofHosts t list hosts).size := by
  obtain ⟨h, hh⟩ := List.exists_mem_of_ne_nil hosts hnil
  rw [size_ofHosts]
  exact List.sum_pos_iff_exists_pos_nat.2 ⟨_, List.mem_map_of_mem hh, t.weight_pos h⟩

/-- Every turn goes to some place. -/
theorem place_lt (hnil : hosts ≠ []) (turn : Nat) :
    (ofHosts t list hosts).place turn < hosts.length := by
  have hlast : hosts.length - 1 < (slotsFrom t 0 hosts).length := by
    rw [length_slotsFrom]
    have := List.length_pos_iff.2 hnil
    omega
  have found : (ofHosts t list hosts).place turn < (slotsFrom t 0 hosts).length := by
    refine List.findIdx_lt_length_of_exists
      ⟨(slotsFrom t 0 hosts)[hosts.length - 1], List.getElem_mem hlast, decide_eq_true ?_⟩
    -- the last slot ends behind every turn
    rw [getElem_slotsFrom, slotsBefore, List.take_of_length_le (by omega), ← size_ofHosts t list]
    exact Nat.mod_lt _ (size_pos hnil)
  rwa [length_slotsFrom] at found

/-! ## Calls -/

/-- **One call** gives the host of the turn, and the next turn comes. -/
theorem next_eq (hnil : hosts ≠ []) (s : PickState) :
    (ofHosts t list hosts).next s =
      (hosts[(ofHosts t list hosts).place (s.turn list)]?,
        { s with turns := s.turns.insert list (s.turns.getD list 0 + 1) }) := by
  have hslots : ¬ (ofHosts t list hosts).slots.isEmpty = true :=
    fun hempty => slotsFrom_ne_nil t 0 hnil (List.isEmpty_iff.1 hempty)
  rw [next, if_neg hslots, PickState.turn, ← atTurn?_eq]
  rfl

theorem turn_insert (s : PickState) (list : Nat) (fits : s.turn list + 1 < 2 ^ 64) :
    PickState.turn { s with turns := s.turns.insert list (s.turns.getD list 0 + 1) } list =
      s.turn list + 1 := by
  rw [PickState.turn, Std.HashMap.getD_insert_self, UInt64.toNat_add]
  exact Nat.mod_eq_of_lt fits

theorem places_succ (r : Rotation) (first n : Nat) :
    r.places first (n + 1) = r.place first :: r.places (first + 1) n := by
  rw [places, List.range_succ_eq_map, List.map_cons, List.map_map, places]
  congr 1
  apply List.map_congr_left
  intro i _
  rw [Function.comp, Nat.succ_eq_add_one, Nat.add_assoc, Nat.add_comm 1 i]

/-- **A run of calls** goes from place to place, as long as turns can be told apart. -/
theorem times_next (hnil : hosts ≠ []) (n : Nat) (s : PickState)
    (fits : s.turn list + n ≤ 2 ^ 64) :
    ((ofHosts t list hosts).next.times n s).1 =
      ((ofHosts t list hosts).places (s.turn list) n).map fun p => hosts[p]? := by
  induction n generalizing s with
  | zero => rfl
  | succ n ih =>
    have called : ((ofHosts t list hosts).next.times (n + 1) s).1 =
        ((ofHosts t list hosts).next s).1 ::
          ((ofHosts t list hosts).next.times n ((ofHosts t list hosts).next s).2).1 := rfl
    -- the induction is on the calls to come, from whatever turn the first of them has
    rw [called, next_eq hnil, places_succ, List.map_cons]
    congr 1
    cases n with
    | zero => rfl
    | succ n =>
      -- another call follows, so this was not the last of all turns
      have next := turn_insert s list (by omega)
      rw [ih _ (by rw [next]; omega), next]

/-! ## Shares -/

/-- Up to once around, the turns of a place are the numbers of its slots. -/
theorem count_place_of_le {n p : Nat} (hp : p < hosts.length)
    (hn : n ≤ (ofHosts t list hosts).size) :
    Nat.count (fun turn => (ofHosts t list hosts).place turn = p) n =
      min n (slotsBefore t.weight hosts p + t.weight hosts[p]) -
        min n (slotsBefore t.weight hosts p) := by
  rw [← count_between]
  -- before the first round is over, a turn is its own slot
  refine List.countP_congr fun turn hturn => ?_
  have hlt := List.mem_range.1 hturn
  rw [decide_eq_true_eq, decide_eq_true_eq]
  dsimp only
  rw [place_eq_iff turn hp, Nat.mod_eq_of_lt (Nat.lt_of_lt_of_le hlt hn)]

/-- Once around, the turns of a place are its weight. -/
theorem count_place_size {p : Nat} (hp : p < hosts.length) :
    Nat.count (fun turn => (ofHosts t list hosts).place turn = p) (ofHosts t list hosts).size =
      t.weight hosts[p] := by
  have within := slotsBefore_le t.weight hosts (p + 1)
  rw [slotsBefore_succ t.weight hp, ← size_ofHosts t list] at within
  rw [count_place_of_le hp (Nat.le_refl _)]
  omega

theorem periodic_place (r : Rotation) (p : Nat) :
    Function.Periodic (fun turn => r.place turn = p) r.size := by
  intro turn
  dsimp only
  rw [place_add_size]

/-! ## Fair rotations -/

/-- What a rotation does for its hosts, by their weights. -/
structure Fair (r : Rotation) (hosts : List Host) (weight : Host → Nat) : Prop where
  /-- There is one slot for each unit of weight, and no running total is beyond. -/
  size : r.size = (hosts.map weight).sum
  within : ∀ slot ∈ r.slots, slot.2 ≤ r.size
  /-- The ends of slots ascend, so the first one behind a turn can be searched by halves. -/
  ascending : r.slots.Pairwise fun a b => a.2 < b.2
  /-- Whatever the first turn is, calls give the hosts of the places that come up, until the
  count of turns is through with all its values. -/
  calls : ∀ (n : Nat) (s : PickState), 0 < r.size → s.turn r.list + n ≤ 2 ^ 64 →
    (r.next.times n s).1 = (r.places (s.turn r.list) n).map fun p => hosts[p]?
  /-- Somebody is at every place that comes up. -/
  somebody : 0 < r.size → ∀ turn, r.place turn < hosts.length
  /-- The turns of a place follow on each other, but for whole times around. -/
  consecutive : ∀ turn p (hp : p < hosts.length), r.place turn = p ↔
    ((hosts.take p).map weight).sum ≤ turn % r.size ∧
      turn % r.size < ((hosts.take p).map weight).sum + weight hosts[p]
  /-- Once around from any turn, each place comes up as often as its host weighs. -/
  round : ∀ first p (hp : p < hosts.length), (r.places first r.size).count p = weight hosts[p]
  /-- From the first turn of all on, it comes up that often for each time around, and no more
  than that in the rest. -/
  share : ∀ n p (hp : p < hosts.length),
    weight hosts[p] * (n / r.size) ≤ (r.places 0 n).count p ∧
      (r.places 0 n).count p ≤ weight hosts[p] * (n / r.size) + weight hosts[p]
  /-- Nobody is given, and no turn taken, where nobody is listed. -/
  nobody : hosts = [] → ∀ s, r.next s = (none, s)

/-- **Turns are shared out by weight**, exactly, to the hosts of each place of the list. -/
theorem ofHosts_fair (t : HostTable) (list : Nat) (hosts : List Host) :
    (ofHosts t list hosts).Fair hosts t.weight := by
  have hnil (hpos : 0 < (ofHosts t list hosts).size) : hosts ≠ [] := by
    rintro rfl
    exact Nat.lt_irrefl 0 hpos
  refine
    { size := size_ofHosts t list hosts
      within := fun slot hslot => ?within
      ascending := ?ascending
      calls := fun n s hpos fits => times_next (hnil hpos) n s fits
      somebody := fun hpos turn => place_lt (hnil hpos) turn
      consecutive := fun turn p hp => place_eq_iff turn hp
      round := fun first p hp => ?round
      share := fun n p hp => ?share
      nobody := ?nobody }
  case within =>
    obtain ⟨p, hp, rfl⟩ := List.getElem_of_mem hslot
    rw [size_ofHosts]
    exact (getElem_slotsFrom hp).trans_le (slotsBefore_le t.weight hosts (p + 1))
  case ascending =>
    rw [List.pairwise_iff_getElem]
    intro i j hi hj hlt
    -- between the two ends lies the weight of the later place, at least
    have hplace : j < hosts.length := by rwa [← length_slotsFrom t 0 hosts]
    have hweight := t.weight_pos hosts[j]
    calc (slotsFrom t 0 hosts)[i].2
        = slotsBefore t.weight hosts (i + 1) := getElem_slotsFrom hi
      _ ≤ slotsBefore t.weight hosts j := slotsBefore_mono t.weight hosts hlt
      _ < slotsBefore t.weight hosts (j + 1) := by
        rw [slotsBefore_succ t.weight hplace]
        omega
      _ = (slotsFrom t 0 hosts)[j].2 := (getElem_slotsFrom hj).symm
  case round =>
    rw [places, count_map_range, count_period (periodic_place _ p), count_place_size hp]
  case share =>
    have around := count_periods (periodic_place (ofHosts t list hosts) p)
      (n / (ofHosts t list hosts).size) (n % (ofHosts t list hosts).size)
    rw [Nat.div_add_mod, count_place_size hp] at around
    rw [places, count_map_range]
    simp only [Nat.zero_add]
    rw [around]
    -- the rest is less than once around
    have hpos : 0 < (ofHosts t list hosts).size :=
      size_pos (List.ne_nil_of_length_pos (Nat.zero_lt_of_lt hp))
    have hrest := Nat.mod_lt n hpos
    rw [count_place_of_le hp (Nat.le_of_lt hrest)]
    omega
  case nobody =>
    rintro rfl s
    rfl

/-- The first of two hosts weighs two, so every third turn goes to the second one. -/
example :
    let hosts : List Host := [0, 1].map fun id =>
      { id, address := "a", locality := default, metadata := ∅ }
    (ofHosts ⟨#[.new 2, .new 1]⟩ 0 hosts).places 5 4 = [1, 0, 0, 1] := by
  decide

end Rotation

end LoadBalancing
