/-
A balancer never turns a request down while it has hosts.

Whatever turns were taken and whatever is drawn, a rotation, a random pick and a least
request pick all give one of the hosts they have, and nothing only if they have none. A
request is routed to hosts if there are any (`PrioritySet.routed_ne_nil`), so this
goes for whole balancers: what such a balancer was built from, it serves.

The ring is left out. It has no entries for hosts whose share rounds down to nothing.
-/
import LoadBalancing.Balancer.Strategy
import LoadBalancing.Proofs.HostSet.Levels
import LoadBalancing.Proofs.Priority.Routing

set_option autoImplicit false

namespace LoadBalancing

namespace Pick

/-! ## Picks that serve -/

/-- The pick gives one of the hosts, and nothing only if there are none; in every state of
turns and draws. -/
def Serves (m : Pick (Option Host)) (hosts : List Host) : Prop :=
  ∀ s, match (m s).1 with
    | some h => h ∈ hosts
    | none => hosts = []

variable {m : Pick (Option Host)} {hosts hosts' : List Host} {β : Type}

theorem serves_none : Serves (pure none) [] := fun _ => rfl

theorem serves_some (h : Host) : Serves (pure (some h)) [h] := fun _ => List.mem_singleton.2 rfl

/-- What is counted is given. -/
theorem serves_count (engine : Nat) (route : Route) (h : Host) :
    Serves (count engine route >>= fun _ => pure (some h)) [h] :=
  fun _ => List.mem_singleton.2 rfl

/-- What serves a part of the hosts serves all of them, if the part is empty only where there
are none. -/
theorem Serves.widen (h : m.Serves hosts) (part : ∀ host ∈ hosts, host ∈ hosts')
    (empty : hosts = [] → hosts' = []) : m.Serves hosts' := by
  intro s
  have hs := h s
  cases hm : (m s).1 with
  | some host =>
    rw [hm] at hs
    exact part host hs
  | none =>
    rw [hm] at hs
    exact empty hs

/-- Only who is in the list counts, not in which order or how often. -/
theorem Serves.congr (h : m.Serves hosts) (same : ∀ host, host ∈ hosts ↔ host ∈ hosts') :
    m.Serves hosts' := by
  refine h.widen (fun host => (same host).1) fun hnil => ?_
  rw [List.eq_nil_iff_forall_not_mem] at hnil ⊢
  intro host hhost
  exact hnil host ((same host).2 hhost)

/-- A request with a hash is routed by that hash. -/
theorem serves_given {hash : UInt64} {f : UInt64 → Pick (Option Host)}
    (h : (f hash).Serves hosts) : Serves (routingHash (some hash) >>= f) hosts :=
  h

/-- **One pick after another.** The second one comes up only if the first has no host. -/
theorem Serves.orElse {f : Option Host → Pick (Option Host)} (h : m.Serves hosts)
    (given : ∀ host, (f (some host)).Serves [host]) (otherwise : (f none).Serves hosts') :
    Serves (m >>= f) (if hosts = [] then hosts' else hosts) := by
  intro s
  have hs := h s
  show match (f (m s).1 (m s).2).1 with
    | some h => h ∈ if hosts = [] then hosts' else hosts
    | none => (if hosts = [] then hosts' else hosts) = []
  -- the second pick goes on from the state that the first one left behind
  cases hm : (m s).1 with
  | none =>
    rw [hm] at hs
    rw [if_pos hs]
    exact otherwise (m s).2
  | some host =>
    rw [hm] at hs
    have hgiven := given host (m s).2
    rw [if_neg (List.ne_nil_of_mem hs)]
    cases hf : (f (some host) (m s).2).1 with
    | some host' =>
      rw [hf] at hgiven
      rw [List.mem_singleton.1 hgiven]
      exact hs
    | none =>
      rw [hf] at hgiven
      cases hgiven

/-! ## Random picks -/

/-- A random pick from a list that is not empty gives an item of the list. -/
theorem exists_uniform {items : List β} (h : items ≠ []) (s : PickState) :
    ∃ x ∈ items, (uniform items s).1 = some x := by
  have hlength : 0 < items.length := List.length_pos_iff.2 h
  have hlt : (s.draw s.drawn).toNat % items.length < items.length := Nat.mod_lt _ hlength
  refine ⟨items[(s.draw s.drawn).toNat % items.length], List.getElem_mem hlt, ?_⟩
  rw [uniform, if_neg fun hnil => h (List.isEmpty_iff.1 hnil)]
  exact List.getElem?_eq_getElem hlt

theorem serves_uniform (hosts : List Host) : Serves (uniform hosts) hosts := by
  intro s
  by_cases hnil : hosts = []
  · subst hnil
    rfl
  · obtain ⟨h, hmem, hpick⟩ := exists_uniform hnil s
    rw [hpick]
    exact hmem

/-- All that is drawn from a list is in the list, and something is drawn. -/
theorem draws_hosts (hnil : hosts ≠ []) (count : Nat) (s : PickState) :
    (∀ h ∈ (Pick.hosts hosts count s).1, h ∈ hosts) ∧
      (0 < count → (Pick.hosts hosts count s).1 ≠ []) := by
  induction count generalizing s with
  | zero => exact ⟨fun h hh => (List.not_mem_nil hh).elim, fun h => absurd h (Nat.lt_irrefl 0)⟩
  | succ count ih =>
    -- every draw gives a host, since the list is not empty
    obtain ⟨first, hfirst, hpick⟩ := exists_uniform hnil s
    have hrest := (ih (uniform hosts s).2).1
    have hdrawn : (Pick.hosts hosts (count + 1) s).1 =
        first :: (Pick.hosts hosts count (uniform hosts s).2).1 := by
      show (uniform hosts s).1.toList ++ (Pick.hosts hosts count (uniform hosts s).2).1 = _
      rw [hpick, Option.toList_some, List.singleton_append]
    rw [hdrawn]
    refine ⟨fun h hh => ?_, fun _ => List.cons_ne_nil _ _⟩
    rcases List.mem_cons.1 hh with rfl | hin
    · exact hfirst
    · exact hrest h hin

/-! ## Least requests -/

theorem foldl_least_mem (key : β → Nat) (best : β) (rest : List β) :
    rest.foldl (fun best y => if key y < key best then y else best) best ∈ best :: rest := by
  induction rest generalizing best with
  | nil => exact List.mem_cons_self
  | cons y rest ih =>
    rw [List.foldl_cons]
    split
    · exact List.mem_cons_of_mem _ (ih y)
    · rcases List.mem_cons.1 (ih best) with heq | hrest
      · rw [heq]
        exact List.mem_cons_self
      · exact List.mem_cons_of_mem _ (List.mem_cons_of_mem _ hrest)

theorem exists_firstLeast (key : β → Nat) {items : List β} (h : items ≠ []) :
    ∃ x ∈ items, firstLeast key items = some x := by
  cases items with
  | nil => exact absurd rfl h
  | cons x rest => exact ⟨_, foldl_least_mem key x rest, rfl⟩

/-- The least busy of at least one random host. -/
theorem serves_leastRequest (t : HostTable) (hosts : List Host) {choices : Nat}
    (hchoices : 0 < choices) : Serves (leastRequest t hosts choices) hosts := by
  -- only from two hosts on is anything drawn
  rcases hosts with _ | ⟨first, _ | ⟨second, rest⟩⟩
  · exact serves_none
  · exact serves_some first
  · intro s
    have hnil : first :: second :: rest ≠ [] := List.cons_ne_nil _ _
    obtain ⟨hmem, hsome⟩ := draws_hosts hnil choices s
    obtain ⟨h, hh, hleast⟩ := exists_firstLeast t.active (hsome hchoices)
    have hpick : (leastRequest t (first :: second :: rest) choices s).1 = some h := hleast
    rw [hpick]
    exact hmem h hh

end Pick

/-! ## Rotations -/

namespace Rotation

variable {t : HostTable} {hosts : List Host}

theorem map_slotsFrom (t : HostTable) (start : Nat) (hosts : List Host) :
    (slotsFrom t start hosts).map (·.1) = hosts := by
  induction hosts generalizing start with
  | nil => rfl
  | cons h rest ih => rw [slotsFrom, List.map_cons, ih]

theorem slotsFrom_ne_nil (t : HostTable) (start : Nat) (hnil : hosts ≠ []) :
    slotsFrom t start hosts ≠ [] := by
  intro hempty
  have hmap := map_slotsFrom t start hosts
  rw [hempty, List.map_nil] at hmap
  exact hnil hmap.symm

/-- Every host weighs something, so every slot ends after the start. -/
theorem start_lt_of_mem_slotsFrom {start : Nat} {slot : Host × Nat}
    (h : slot ∈ slotsFrom t start hosts) : start < slot.2 := by
  induction hosts generalizing start with
  | nil => cases h
  | cons first rest ih =>
    have hweight := t.weight_pos first
    rcases List.mem_cons.1 h with rfl | hrest
    · show start < start + t.weight first
      omega
    · have := ih hrest
      omega

/-- Every turn is somebody's. -/
theorem exists_atTurn? (t : HostTable) (list : Nat) (hnil : hosts ≠ []) (turn : UInt64) :
    ∃ h ∈ hosts, (ofHosts t list hosts).atTurn? turn = some h := by
  have hslots := slotsFrom_ne_nil t 0 hnil
  have hlast := List.getLast_mem hslots
  have hsize : (ofHosts t list hosts).size = ((slotsFrom t 0 hosts).getLast hslots).2 := by
    rw [size, ofHosts, List.getLast?_eq_some_getLast hslots, Option.map_some, Option.getD_some]
  have hpos : 0 < (ofHosts t list hosts).size := by
    rw [hsize]
    exact start_lt_of_mem_slotsFrom hlast
  have hlt : turn.toNat % (ofHosts t list hosts).size < (ofHosts t list hosts).size :=
    Nat.mod_lt _ hpos
  -- the last slot ends behind every turn, if no other one does
  have hfound : ((slotsFrom t 0 hosts).find? fun slot =>
      decide (turn.toNat % (ofHosts t list hosts).size < slot.2)).isSome = true := by
    rw [List.find?_isSome]
    refine ⟨_, hlast, ?_⟩
    rw [decide_eq_true_eq, ← hsize]
    exact hlt
  obtain ⟨slot, hslot⟩ := Option.isSome_iff_exists.1 hfound
  refine ⟨slot.1, ?_, ?_⟩
  · rw [← map_slotsFrom t 0 hosts]
    exact List.mem_map_of_mem (List.mem_of_find?_eq_some hslot)
  · show Option.map _ _ = _
    rw [show (ofHosts t list hosts).slots.find? _ = some slot from hslot, Option.map_some]

theorem serves_next (t : HostTable) (list : Nat) (hosts : List Host) :
    (ofHosts t list hosts).next.Serves hosts := by
  intro s
  by_cases hnil : hosts = []
  · subst hnil
    rfl
  · obtain ⟨h, hmem, hturn⟩ := exists_atTurn? t list hnil (s.turns.getD list 0)
    have hslots : ¬ (ofHosts t list hosts).slots.isEmpty = true :=
      fun hempty => slotsFrom_ne_nil t 0 hnil (List.isEmpty_iff.1 hempty)
    have hpick : ((ofHosts t list hosts).next s).1 = some h := by
      rw [next, if_neg hslots]
      exact hturn
    rw [hpick]
    exact hmem

end Rotation

/-! ## Balancers -/

namespace PrioritySet

variable {s : PrioritySet}

/-- A host that any partition of any level has is a host of the set. -/
theorem mem_hosts_of_mem_partition (sound : s.Sound) {l : HostSet} (hl : l ∈ s.levels)
    {p : Partition} {h : Host} (hh : h ∈ l.partition p) : h ∈ s.hosts :=
  List.mem_flatMap.2 ⟨l, hl, (Everywhere.of_mem sound hl).mem_hosts hh⟩

theorem mem_hosts_of_mem_routed (sound : s.Sound) {inPanic : HostSet → Bool} {hash : UInt64}
    {h : Host} (hh : h ∈ s.routed inPanic hash) : h ∈ s.hosts := by
  obtain ⟨l, hl, hmem⟩ := mem_routed hh
  exact mem_hosts_of_mem_partition sound (List.mem_of_getElem? hl) hmem

/-- **No host is lost.** A request is routed to nobody only if there is nobody. -/
theorem hosts_eq_nil_of_routed {inPanic : HostSet → Bool} {hash : UInt64}
    (h : s.routed inPanic hash = []) : s.hosts = [] := by
  cases hempty : s.isEmpty with
  | true => exact isEmpty_iff.1 hempty
  | false => exact absurd h (routed_ne_nil hempty)

end PrioritySet

namespace Balancer

/-- **Routing, then picking.** A request asks the piece of the hosts that it is routed to, and
no piece only if that is nobody. -/
theorem pick?_build_cases {β : Type} (s : PrioritySet) (inPanic : HostSet → Bool)
    (piece : Nat → HostSet → Partition → β) (hash : UInt64) :
    ((PriorityTable.build s inPanic piece).pick? hash = none ∧ s.routed inPanic hash = []) ∨
      ∃ k l p, (PriorityTable.build s inPanic piece).pick? hash = some (piece k l p) ∧
        s.routed inPanic hash = l.partition p := by
  obtain ⟨k, hpick⟩ := PriorityTable.exists_pick?_build inPanic piece hash
  rw [hpick, PrioritySet.routed]
  cases s.level? ((PriorityState.compute s inPanic).choose hash).1 with
  | none => exact .inl ⟨rfl, rfl⟩
  | some l => exact .inr ⟨k, l, _, rfl, rfl⟩

/-- **A balancer serves those to whom a request is routed**, unless it picks by rings. The live
part of the hosts may be any, when it is built and also when it is asked. -/
theorem serves_routed (s : PrioritySet) {strategy : Strategy}
    (noRing : ∀ settings, strategy.policy ≠ .ringHash settings) (n : Numerics) (t t' : HostTable)
    (w : Workshop) (hash : UInt64) :
    ((strategy.build n t s w).1.choose t' (some hash)).Serves
      (s.routed (n.inPanic strategy.panicThreshold) hash) := by
  obtain ⟨policy, threshold⟩ := strategy
  apply Pick.serves_given
  cases policy with
  | roundRobin =>
    dsimp only [Strategy.build, build]
    rcases pick?_build_cases s (n.inPanic threshold)
        (fun k l p => Rotation.ofHosts t (w.nextList + k) (l.partition p)) hash with
      ⟨hpick, hrouted⟩ | ⟨k, l, p, hpick, hrouted⟩
    · rw [hpick, hrouted]
      exact Pick.serves_none
    · rw [hpick, hrouted]
      exact Rotation.serves_next t (w.nextList + k) (l.partition p)
  | leastRequest choices =>
    dsimp only [Strategy.build, build]
    rcases pick?_build_cases s (n.inPanic threshold) (fun _ l p => l.partition p) hash with
      ⟨hpick, hrouted⟩ | ⟨k, l, p, hpick, hrouted⟩
    · rw [hpick, hrouted]
      exact Pick.serves_none
    · rw [hpick, hrouted]
      -- at least one host is drawn, also where the settings would have none drawn
      have hchoices : 0 < max choices 1 := by omega
      exact Pick.serves_leastRequest t' (l.partition p) hchoices
  | random =>
    dsimp only [Strategy.build, build]
    rcases pick?_build_cases s (n.inPanic threshold) (fun _ l p => l.partition p) hash with
      ⟨hpick, hrouted⟩ | ⟨k, l, p, hpick, hrouted⟩
    · rw [hpick, hrouted]
      exact Pick.serves_none
    · rw [hpick, hrouted]
      exact Pick.serves_uniform (l.partition p)
  | ringHash settings => exact absurd rfl (noRing settings)

/-- A request without a hash is a request with the hash that is drawn for it. -/
theorem choose_eq_choose_some (b : Balancer) (t : HostTable) (hash : Option UInt64)
    (state : PickState) :
    b.choose t hash state =
      b.choose t (some (Pick.routingHash hash state).1) (Pick.routingHash hash state).2 :=
  rfl

/-- **A balancer serves the hosts it was built from**, unless it picks by rings. -/
theorem serves_choose {s : PrioritySet} (sound : s.Sound) {strategy : Strategy}
    (noRing : ∀ settings, strategy.policy ≠ .ringHash settings) (n : Numerics) (t t' : HostTable)
    (w : Workshop) (hash : Option UInt64) :
    ((strategy.build n t s w).1.choose t' hash).Serves s.hosts := by
  intro state
  -- the hash that routes the request may be drawn, so it may be any
  rw [choose_eq_choose_some]
  exact (serves_routed s noRing n t t' w (Pick.routingHash hash state).1).widen
    (fun h => PrioritySet.mem_hosts_of_mem_routed sound) PrioritySet.hosts_eq_nil_of_routed
    (Pick.routingHash hash state).2

end Balancer

end LoadBalancing
