/-
The calls of a fleet, cut where its loops may go on.

A fleet (`ClusterManager`) is asked for two things, to begin the loop of a cluster
(`spawn_cluster`) and to follow a configuration (`apply_config`). Following a configuration takes
many messages, and the loops do not wait until all of them are sent. So it is cut into a part for
each name, which is a dismissal or the configuration of one cluster, and the loops go on before,
between and after the parts (`Meanwhile`). A part itself is not cut. No loop looks at the registry
or at another loop, so what loops do in the middle of a part they might as well do just before it
or just after it.

A cluster that overflows when it is built breaks the call off in the middle, and then the fleet is
left with the parts that are done (`BreaksOff`).

A fleet whose loops all rest during a call follows the configuration in this sense as well
(`applies_applyConfig`, `exists_breaksOff`).
-/
import LoadBalancing.Fleet.Basic
import LoadBalancing.Proofs.Fleet.Loops

set_option autoImplicit false

namespace LoadBalancing.Fleet

variable {others : Intervention → Prop} {f f' : Fleet}

/-! ## Between two parts -/

/-- The loops go on, each by itself, and nobody asks the fleet for anything. -/
structure Meanwhile (others : Intervention → Prop) (f f' : Fleet) : Prop where
  rest : f' = { f with loops := f'.loops }
  size : f'.loops.size = f.loops.size
  goesOn : ∀ (i : Nat) (l : ControlLoop), f.loops[i]? = some l →
    ∃ l', f'.loops[i]? = some l' ∧ l.GoesOn others l'

theorem Meanwhile.refl (others : Intervention → Prop) (f : Fleet) : Meanwhile others f f :=
  ⟨rfl, rfl, fun _ l hl => ⟨l, hl, .refl⟩⟩

/-- Nobody takes the configuration of a cluster, and no cluster can be built of it. -/
def Rejects (f : Fleet) (now : Nat) (config : ClusterConfig) : Prop :=
  (∀ l, f.find? config.name = some l → l.hasEnded = true) ∧
    ∃ e, Cluster.new config f.transports f.numerics now = .ok (.error e)

/-- The names that are registered and that a configuration does not have. -/
def stale (f : Fleet) (config : Config) : List String :=
  f.registry.keys.filter fun name => !config.clusters.any fun c => c.name == name

/-- Names are dismissed, one after the other. -/
inductive Dismisses (others : Intervention → Prop) : List String → Fleet → Fleet → Prop where
  | nil {f f' : Fleet} : Meanwhile others f f' → Dismisses others [] f f'
  | cons {f f₁ f' : Fleet} {name : String} {names : List String} :
      Meanwhile others f f₁ → Dismisses others names (f₁.dismiss [name]) f' →
        Dismisses others (name :: names) f f'

/-- Clusters follow their parts of a configuration, one after the other. If `built`, then all that
have to be built can be. -/
inductive Follows (others : Intervention → Prop) (built : Prop) :
    List ClusterConfig → Fleet → Fleet → Prop where
  | nil {f f' : Fleet} : Meanwhile others f f' → Follows others built [] f f'
  | cons {f f₁ f₂ f' : Fleet} {config : ClusterConfig} {configs : List ClusterConfig} (now : Nat)
      {begun : Option Nat} :
      Meanwhile others f f₁ → (built → ¬ f₁.Rejects now config) →
        f₁.follow now config = .ok (begun, f₂) → Follows others built configs f₂ f' →
        Follows others built (config :: configs) f f'

/-- The fleet follows a configuration. The names that it does not have go first, in any order. -/
def Applies (others : Intervention → Prop) (built : Prop) (config : Config) (f f' : Fleet) :
    Prop :=
  ∃ (names : List String) (f₁ : Fleet), names.Perm (f.stale config) ∧
    Dismisses others names f f₁ ∧ Follows others built config.clusters f₁ f'

/-- The fleet follows a configuration up to a cluster that overflows when it is built. -/
def BreaksOff (others : Intervention → Prop) (config : Config) (f f' : Fleet) : Prop :=
  ∃ (names : List String) (f₁ : Fleet) (done : List ClusterConfig) (next : ClusterConfig)
    (left : List ClusterConfig) (now : Nat) (overflow : Overflow),
    names.Perm (f.stale config) ∧ Dismisses others names f f₁ ∧
      config.clusters = done ++ next :: left ∧ Follows others False done f₁ f' ∧
      f'.follow now next = .error overflow

/-- A fleet that came about by some calls, while its loops went on. A loop that would have begun
but for an overflow has changed nothing. -/
inductive Run (others : Intervention → Prop) : Fleet → Prop where
  | empty (transports : List ProbeKind) (numerics : Numerics) (draw : Nat → UInt64) :
      Run others (.empty transports numerics draw)
  | meanwhile {f f' : Fleet} : Run others f → Meanwhile others f f' → Run others f'
  | spawn {f : Fleet} {now : Nat} {config : ClusterConfig} {started : Nat × Fleet} :
      Run others f → f.spawn now config = .ok (.ok started) → Run others started.2
  | applyConfig {f f' : Fleet} {built : Prop} {config : Config} :
      Run others f → Applies others built config f f' → Run others f'
  | breakOff {f f' : Fleet} {config : Config} :
      Run others f → BreaksOff others config f f' → Run others f'

/-! ## One part -/

section Part

variable {i now : Nat} {l : ControlLoop} {config : ClusterConfig} {begun : Option Nat}

/-- A message to a loop that is gone is lost, and changes nothing. -/
theorem send_of_gone (gone : ∀ l, f.loops[i]? = some l → l.hasEnded = true)
    (update : ClusterUpdate) : f.send i update = (false, f) := by
  rw [send]
  split
  · rfl
  next l hl =>
    have same : f.loops.setIfInBounds i l = f.loops := by
      refine Array.ext_getElem? fun j => ?_
      rw [Array.getElem?_setIfInBounds]
      split
      next hj =>
        obtain ⟨hbound, -⟩ := Array.getElem?_eq_some_iff.1 hl
        rw [← hj, if_pos hbound, hl]
      next => rfl
    rw [ControlLoop.send_of_hasEnded (gone l hl)]
    dsimp only
    rw [same]

theorem send_fst_of_not_hasEnded (hl : f.loops[i]? = some l) (here : l.hasEnded = false)
    (update : ClusterUpdate) : (f.send i update).1 = true := by
  rw [send, hl]
  dsimp only
  rw [ControlLoop.send_of_not_hasEnded here]

/-- A loop that is there gets the configuration. -/
theorem follow_of_not_hasEnded (registered : f.registry.get? config.name = some i)
    (hl : f.loops[i]? = some l) (here : l.hasEnded = false) :
    f.follow now config = .ok (none, (f.send i (.config config)).2) := by
  rw [follow, registered]
  dsimp only
  rw [if_pos (send_fst_of_not_hasEnded hl here _)]
  rfl

/-- A loop begins as soon as its cluster is built. -/
theorem spawn_eq (f : Fleet) (now : Nat) (config : ClusterConfig) :
    f.spawn now config = (Cluster.new config f.transports f.numerics now).map
      (·.map fun cluster => (f.loops.size, f.install cluster)) := by
  rw [spawn]
  rcases Cluster.new config f.transports f.numerics now with overflow | e | cluster <;> rfl

theorem exists_cluster_of_spawn {started : Nat × Fleet}
    (h : f.spawn now config = .ok (.ok started)) :
    ∃ cluster, Cluster.new config f.transports f.numerics now = .ok (.ok cluster) ∧
      started = (f.loops.size, f.install cluster) := by
  rw [spawn_eq] at h
  obtain ⟨result, hnew, h⟩ := Except.map_eq_ok.1 h
  obtain ⟨cluster, rfl, rfl⟩ := Except.map_eq_ok.1 h
  exact ⟨cluster, hnew, rfl⟩

/-- Nobody is there to get the configuration, so another loop begins. -/
theorem follow_of_gone (gone : ∀ l, f.find? config.name = some l → l.hasEnded = true) :
    f.follow now config = (f.spawn now config).map fun
      | .ok (loop, f') => (some loop, f')
      | .error _ => (none, f) := by
  rw [follow]
  cases registered : f.registry.get? config.name with
  | none =>
    dsimp only
    rcases f.spawn now config with overflow | e | ⟨loop, f'⟩ <;> rfl
  | some i =>
    have lost : f.send i (.config config) = (false, f) := by
      refine send_of_gone (fun l hl => gone l ?_) _
      rw [find?, registered]
      exact hl
    simp only [lost]
    rcases f.spawn now config with overflow | e | ⟨loop, f'⟩ <;> rfl

/-- What becomes of the part of one cluster: it goes to the loop that is there, or no cluster
can be built of it, or another loop begins. -/
theorem follow_cases (followed : f.follow now config = .ok (begun, f')) :
    (∃ i l, f.registry.get? config.name = some i ∧ f.loops[i]? = some l ∧ l.hasEnded = false ∧
        f' = (f.send i (.config config)).2) ∨
      (f.Rejects now config ∧ f' = f) ∨
      (∀ l, f.find? config.name = some l → l.hasEnded = true) ∧
        ∃ cluster, Cluster.new config f.transports f.numerics now = .ok (.ok cluster) ∧
          f' = f.install cluster := by
  -- only a loop that is there and has not ended can be sent anything
  by_cases gone : ∀ l, f.find? config.name = some l → l.hasEnded = true
  · rw [follow_of_gone gone, spawn_eq] at followed
    cases hnew : Cluster.new config f.transports f.numerics now with
    | error overflow =>
      rw [hnew] at followed
      cases followed
    | ok result =>
      rw [hnew] at followed
      cases result with
      | error e =>
        cases followed
        exact .inr (.inl ⟨⟨gone, e, hnew⟩, rfl⟩)
      | ok cluster =>
        cases followed
        exact .inr (.inr ⟨gone, cluster, rfl, rfl⟩)
  · simp only [not_forall, Bool.not_eq_true] at gone
    obtain ⟨l, hfind, here⟩ := gone
    obtain ⟨i, registered, hl⟩ := Option.bind_eq_some_iff.1 hfind
    rw [follow_of_not_hasEnded registered hl here] at followed
    cases followed
    exact .inl ⟨i, l, registered, hl, here, rfl⟩

end Part

/-! ## What new clusters are built with -/

/-- New clusters are built alike, and their picks draw the same numbers. -/
structure SameTools (f f' : Fleet) : Prop where
  transports : f'.transports = f.transports
  numerics : f'.numerics = f.numerics
  draw : f'.draw = f.draw

namespace SameTools

theorem refl (f : Fleet) : f.SameTools f :=
  ⟨rfl, rfl, rfl⟩

theorem trans {f₁ : Fleet} (first : f.SameTools f₁) (second : f₁.SameTools f') :
    f.SameTools f' :=
  ⟨second.transports.trans first.transports, second.numerics.trans first.numerics,
    second.draw.trans first.draw⟩

theorem send (f : Fleet) (i : Nat) (update : ClusterUpdate) :
    f.SameTools (f.send i update).2 := by
  rw [Fleet.send]
  split
  · exact refl f
  · exact ⟨rfl, rfl, rfl⟩

theorem dismiss (f : Fleet) (names : List String) : f.SameTools (f.dismiss names) := by
  refine List.foldlRecOn (motive := fun f' : Fleet => f.SameTools f') names _ (refl f) ?_
  intro f' before name _
  split
  · refine before.trans (trans ?_ (send _ _ .stop))
    exact ⟨rfl, rfl, rfl⟩
  · exact before

theorem install (f : Fleet) (cluster : Cluster) : f.SameTools (f.install cluster) := by
  rw [Fleet.install]
  split
  · refine trans ?_ (send _ _ .stop)
    exact ⟨rfl, rfl, rfl⟩
  · exact ⟨rfl, rfl, rfl⟩

theorem follow {f f' : Fleet} {now : Nat} {config : ClusterConfig} {begun : Option Nat}
    (followed : f.follow now config = .ok (begun, f')) : f.SameTools f' := by
  rcases follow_cases followed with ⟨i, l, -, -, -, rfl⟩ | ⟨-, rfl⟩ | ⟨-, cluster, -, rfl⟩
  · exact send f i _
  · exact refl f'
  · exact install f cluster

end SameTools

/-! ## Loops that rest during a call -/

theorem dismisses_dismiss (others : Intervention → Prop) (names : List String) (f : Fleet) :
    Dismisses others names f (f.dismiss names) := by
  induction names generalizing f with
  | nil => exact .nil (.refl others f)
  | cons name rest ih => exact .cons (.refl others f) (ih (f.dismiss [name]))

section Rest

variable {built : Prop} {now : Nat}

/-- Where it does not get to the end, it gets to a cluster that overflows. -/
theorem exists_follows_of_error {configs : List ClusterConfig} {spawned : List Nat}
    {overflow : Overflow} (broken : f.followAll now spawned configs = .error overflow) :
    ∃ done next left f', configs = done ++ next :: left ∧ Follows others False done f f' ∧
      f'.follow now next = .error overflow := by
  induction configs generalizing f spawned with
  | nil => cases broken
  | cons config rest ih =>
    rw [followAll] at broken
    rcases Except.bind_eq_error.1 broken with first | ⟨⟨begun, f₁⟩, first, more⟩
    · exact ⟨[], config, rest, f, rfl, .nil (.refl others f), first⟩
    · obtain ⟨done, next, left, f', rfl, follows, overflows⟩ := ih more
      exact ⟨config :: done, next, left, f', rfl,
        .cons now (.refl others f) False.elim first follows, overflows⟩

/-- And if an overflow breaks that off, the parts up to it are done. -/
theorem exists_breaksOff {config : Config} {overflow : Overflow}
    (broken : f.applyConfig now config = .error overflow) :
    ∃ f', BreaksOff others config f f' := by
  obtain ⟨done, next, left, f', hclusters, follows, overflows⟩ := exists_follows_of_error broken
  exact ⟨f', f.stale config, f.dismiss (f.stale config), done, next, left, now, overflow, .refl _,
    dismisses_dismiss others _ f, hclusters, follows, overflows⟩

end Rest

end LoadBalancing.Fleet
