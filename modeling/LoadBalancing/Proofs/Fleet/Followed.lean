/-
What a configuration brings to each of its clusters.

A part of a call that is about one name leaves the loops of all other names alone (`Spares`). So
what becomes of a cluster during a whole call is settled by the one part about it: either the loop
that is in charge gets the configuration, behind all messages that it still has, or nobody was
left to take it, and a new loop is in charge (`Updated`, `Begun`).
-/
import LoadBalancing.Proofs.Fleet.Manned

set_option autoImplicit false

namespace LoadBalancing.Fleet

variable {others : Intervention → Prop} {f f₁ f' : Fleet} {name : String} {now : Nat}
  {config : ClusterConfig}

/-! ## Other names -/

/-- The name leads where it did, and the loops of that name just go on. -/
structure Spares (others : Intervention → Prop) (name : String) (f f' : Fleet) : Prop where
  tools : f.SameTools f'
  registry : f'.registry.get? name = f.registry.get? name
  size : f.loops.size ≤ f'.loops.size
  goesOn : ∀ (i : Nat) (l : ControlLoop), f.loops[i]? = some l → l.cluster.name = name →
    ∃ l', f'.loops[i]? = some l' ∧ l.GoesOn others l'

theorem Meanwhile.spares (meanwhile : Meanwhile others f f') (name : String) :
    Spares others name f f' where
  tools := by
    rw [meanwhile.rest]
    exact ⟨rfl, rfl, rfl⟩
  registry := by rw [meanwhile.rest]
  size := Nat.le_of_eq meanwhile.size.symm
  goesOn i l hl _ := meanwhile.goesOn i l hl

namespace Spares

theorem refl (f : Fleet) : Spares others name f f :=
  (Meanwhile.refl others f).spares name

theorem trans (first : Spares others name f f₁) (second : Spares others name f₁ f') :
    Spares others name f f' where
  tools := first.tools.trans second.tools
  registry := second.registry.trans first.registry
  size := Nat.le_trans first.size second.size
  goesOn i l hl hname := by
    obtain ⟨l₁, hl₁, goesOn⟩ := first.goesOn i l hl hname
    obtain ⟨l', hl', goesOn'⟩ := second.goesOn i l₁ hl₁ (goesOn.precedes.name.trans hname)
    exact ⟨l', hl', goesOn.trans goesOn'⟩

end Spares

namespace Manned

variable (manned : f.Manned others)

include manned

theorem spares_dismiss {other : String} (hne : name ≠ other) :
    Spares others name f (f.dismiss [other]) where
  tools := .dismiss f [other]
  registry := by rw [get?_dismiss, if_neg hne]
  size := Nat.le_of_eq (by rw [loops_dismiss, size_tell])
  goesOn i l hl hname := by
    refine ⟨l, ?_, .refl⟩
    rw [loops_dismiss, manned.getElem?_tell_of_ne hl (hname ▸ hne)]

theorem spares_install {cluster : Cluster} (hne : name ≠ cluster.name) :
    Spares others name f (f.install cluster) where
  tools := .install f cluster
  registry := by rw [get?_install, if_neg hne]
  size := by
    have size := size_install f cluster
    omega
  goesOn i l hl hname := by
    have hbound := (Array.getElem?_eq_some_iff.1 hl).1
    refine ⟨l, ?_, .refl⟩
    rw [manned.getElem?_install, if_neg (by omega), manned.getElem?_tell_of_ne hl (hname ▸ hne)]

theorem spares_tell {other : String} (hne : name ≠ other) (update : ClusterUpdate) :
    Spares others name f (f.tell other update) where
  tools := ⟨rfl, rfl, rfl⟩
  registry := rfl
  size := Nat.le_of_eq (size_tell f other update).symm
  goesOn _ l hl hname :=
    ⟨l, manned.getElem?_tell_of_ne hl (hname ▸ hne) update, .refl⟩

/-- The part of one cluster is not about any other. -/
theorem spares_follow (hne : name ≠ config.name) {begun : Option Nat}
    (followed : f.follow now config = .ok (begun, f')) : Spares others name f f' := by
  rcases follow_cases followed with
    ⟨i, l, registered, -, -, rfl⟩ | ⟨-, rfl⟩ | ⟨-, cluster, hnew, rfl⟩
  · rw [send_eq_tell registered]
    exact manned.spares_tell hne _
  · exact .refl f'
  · refine manned.spares_install ?_
    rw [Cluster.name_new hnew]
    exact hne

end Manned

theorem Dismisses.spares {names : List String} (dismisses : Dismisses others names f f')
    (manned : f.Manned others) (hname : name ∉ names) : Spares others name f f' := by
  induction dismisses with
  | nil meanwhile => exact meanwhile.spares name
  | cons meanwhile _ ih =>
    rw [List.mem_cons, not_or] at hname
    have manned₁ := manned.meanwhile meanwhile
    have dismissed := manned₁.spares_dismiss hname.1
    exact ((meanwhile.spares name).trans dismissed).trans (ih (manned₁.dismiss _) hname.2)

theorem Follows.spares {built : Prop} {configs : List ClusterConfig}
    (follows : Follows others built configs f f') (manned : f.Manned others)
    (hname : name ∉ configs.map (·.name)) : Spares others name f f' := by
  induction follows with
  | nil meanwhile => exact meanwhile.spares name
  | cons now meanwhile _ followed _ ih =>
    rw [List.map_cons, List.mem_cons, not_or] at hname
    have manned₁ := manned.meanwhile meanwhile
    have first := (meanwhile.spares name).trans (manned₁.spares_follow hname.1 followed)
    exact first.trans (ih (manned₁.follow followed) hname.2)

/-! ## One cluster of a configuration -/

/-- The loop that is in charge gets the configuration, behind all messages that it still has, and
stays in charge. -/
def Updated (others : Intervention → Prop) (config : ClusterConfig) (f f' : Fleet) : Prop :=
  ∃ (i : Nat) (l l₁ l' : ControlLoop),
    f.registry.get? config.name = some i ∧ f.loops[i]? = some l ∧
      l.GoesOn others l₁ ∧ l₁.hasEnded = false ∧
      ControlLoop.GoesOn others { l₁ with queue := l₁.queue ++ [.config config] } l' ∧
      f'.loops[i]? = some l' ∧ f'.registry.get? config.name = some i

/-- Whatever loop was in charge has ended by itself, and a new one is in charge, which began with
the configuration. -/
def Begun (others : Intervention → Prop) (config : ClusterConfig) (f f' : Fleet) : Prop :=
  (∀ (i : Nat) (l : ControlLoop), f.registry.get? config.name = some i → f.loops[i]? = some l →
      ∃ l', f'.loops[i]? = some l' ∧ l.GoesOn others l' ∧ l'.hasEnded = true) ∧
    ∃ (i now : Nat) (cluster : Cluster) (l' : ControlLoop),
      f.loops.size ≤ i ∧ Cluster.new config f.transports f.numerics now = .ok (.ok cluster) ∧
        ControlLoop.GoesOn others (.start cluster f.draw) l' ∧
        f'.loops[i]? = some l' ∧ f'.registry.get? config.name = some i

/-- In the part about it a cluster gets its configuration one way or the other. -/
theorem Manned.updated_or_begun (manned : f.Manned others) (accepted : ¬ f.Rejects now config)
    {begun : Option Nat} (followed : f.follow now config = .ok (begun, f')) :
    Updated others config f f' ∨ Begun others config f f' := by
  rcases follow_cases followed with
    ⟨i, l, registered, hl, here, rfl⟩ | ⟨rejects, -⟩ | ⟨gone, cluster, hnew, rfl⟩
  · rw [send_eq_tell registered]
    refine .inl ⟨i, l, l, _, registered, hl, .refl, here, .refl, ?_, registered⟩
    rw [getElem?_tell, hl, Option.map_some, if_pos registered,
      ControlLoop.send_of_not_hasEnded here]
  · exact absurd rejects accepted
  · have hname := Cluster.name_new hnew
    have ended (i : Nat) (l : ControlLoop) (registered : f.registry.get? config.name = some i)
        (hl : f.loops[i]? = some l) : l.hasEnded = true :=
      gone l (Option.bind_eq_some_iff.2 ⟨i, registered, hl⟩)
    refine .inr ⟨fun i l registered hl => ⟨l, ?_, .refl, ended i l registered hl⟩,
      f.loops.size, now, cluster, _, Nat.le_refl _, hnew, .refl, ?_, ?_⟩
    · -- whoever has ended does not hear that he is told to stop
      have hbound := (Array.getElem?_eq_some_iff.1 hl).1
      rw [manned.getElem?_install, if_neg (by omega), getElem?_tell, hl, Option.map_some,
        ControlLoop.send_of_hasEnded (ended i l registered hl), ite_self]
    · rw [manned.getElem?_install, if_pos rfl]
    · rw [get?_install, if_pos hname.symm]

section Between

variable {f₂ : Fleet}

theorem Updated.between (updated : Updated others config f₁ f₂) (manned : f.Manned others)
    (manned₂ : f₂.Manned others) (before : Spares others config.name f f₁)
    (after : Spares others config.name f₂ f') : Updated others config f f' := by
  obtain ⟨i, l₁, l₂, l₃, registered, hl₁, goesOn, here, goesOn', hl₃, registered'⟩ := updated
  -- the loop in charge has the name, so it is not what the rest of the call is about
  rw [before.registry] at registered
  obtain ⟨l, hl, hname⟩ := manned.registered _ i registered
  obtain ⟨l₁', hl₁', first⟩ := before.goesOn i l hl hname
  rw [hl₁] at hl₁'
  cases hl₁'
  obtain ⟨l', hl', last⟩ := after.goesOn i l₃ hl₃ (manned₂.name_eq registered' hl₃)
  exact ⟨i, l, l₂, l', registered, hl, first.trans goesOn, here, goesOn'.trans last, hl',
    after.registry.trans registered'⟩

theorem Begun.between (begun : Begun others config f₁ f₂) (manned : f.Manned others)
    (manned₂ : f₂.Manned others) (before : Spares others config.name f f₁)
    (after : Spares others config.name f₂ f') : Begun others config f f' := by
  obtain ⟨gone, i, now, cluster, l₂, hsize, hnew, goesOn, hl₂, registered⟩ := begun
  refine ⟨fun j l hj hl => ?_, ?_⟩
  · -- whoever was in charge had ended when the part came, and is not back after it
    have hname := manned.name_eq hj hl
    obtain ⟨l₁, hl₁, first⟩ := before.goesOn j l hl hname
    obtain ⟨l₂, hl₂, goesOn, ended⟩ := gone j l₁ (before.registry.trans hj) hl₁
    have hname₂ := (first.trans goesOn).precedes.name.trans hname
    obtain ⟨l', hl', last⟩ := after.goesOn j l₂ hl₂ hname₂
    exact ⟨l', hl', (first.trans goesOn).trans last, last.precedes.ended ended⟩
  · obtain ⟨l', hl', last⟩ := after.goesOn i l₂ hl₂ (manned₂.name_eq registered hl₂)
    rw [before.tools.transports, before.tools.numerics] at hnew
    rw [before.tools.draw] at goesOn
    exact ⟨i, now, cluster, l', Nat.le_trans before.size hsize, hnew, goesOn.trans last, hl',
      after.registry.trans registered⟩

/-- What becomes of a cluster in one part of a call becomes of it in the call. -/
theorem updated_or_begun_between
    (part : Updated others config f₁ f₂ ∨ Begun others config f₁ f₂) (manned : f.Manned others)
    (manned₂ : f₂.Manned others) (before : Spares others config.name f f₁)
    (after : Spares others config.name f₂ f') :
    Updated others config f f' ∨ Begun others config f f' := by
  rcases part with updated | begun
  · exact .inl (updated.between manned manned₂ before after)
  · exact .inr (begun.between manned manned₂ before after)

end Between

/-- Every cluster of a configuration gets its part. -/
theorem Follows.updated_or_begun {built : Prop} {configs : List ClusterConfig}
    (follows : Follows others built configs f f') (hbuilt : built) (manned : f.Manned others)
    (distinct : (configs.map (·.name)).Nodup) (hmem : config ∈ configs) :
    Updated others config f f' ∨ Begun others config f f' := by
  -- the parts of all other clusters spare this one, those before it and those behind it
  induction follows with
  | nil meanwhile => simp at hmem
  | @cons f f₁ f₂ f' first rest now begun meanwhile accepted followed follows ih =>
    rw [List.map_cons, List.nodup_cons] at distinct
    have manned₁ := manned.meanwhile meanwhile
    have manned₂ := manned₁.follow followed
    rcases List.mem_cons.1 hmem with rfl | hrest
    · have before := meanwhile.spares config.name
      have after := follows.spares manned₂ distinct.1
      have part := manned₁.updated_or_begun (accepted hbuilt) followed
      exact updated_or_begun_between part manned manned₂ before after
    · have hne : config.name ≠ first.name := by
        intro heq
        exact distinct.1 (heq ▸ List.mem_map_of_mem hrest)
      have before := (meanwhile.spares config.name).trans (manned₁.spares_follow hne followed)
      have part := ih manned₂ distinct.2 hrest
      exact updated_or_begun_between part manned (follows.manned manned₂) before (.refl f')

/-! ## A whole configuration -/

theorem mem_stale {config : Config} :
    name ∈ f.stale config ↔
      name ∈ f.registry.keys ∧ name ∉ config.clusters.map (·.name) := by
  simp [stale]

/-- Every cluster of a configuration gets its part of the call. -/
theorem Applies.updated_or_begun {built : Prop} {config : Config}
    (applies : Applies others built config f f') (hbuilt : built) (manned : f.Manned others)
    (distinct : (config.clusters.map (·.name)).Nodup) {c : ClusterConfig}
    (hmem : c ∈ config.clusters) : Updated others c f f' ∨ Begun others c f f' := by
  obtain ⟨names, f₁, hperm, dismisses, follows⟩ := applies
  have manned₁ := dismisses.manned manned
  have hname : c.name ∉ names := by
    rw [hperm.mem_iff, mem_stale]
    exact fun h => h.2 (List.mem_map_of_mem hmem)
  have before := dismisses.spares manned hname
  have part := follows.updated_or_begun hbuilt manned₁ distinct hmem
  exact updated_or_begun_between part manned (follows.manned manned₁) before (.refl f')

section Handover

/-- A cluster of one host. -/
def loneConfig (name : String) : ClusterConfig :=
  { ClusterConfig.standard with
    name
    hosts := [{ address := "a", weight := 1, priority := 0, locality := default, metadata := ∅ }] }

def loneConfigs (names : List String) : Config :=
  { Config.standard with clusters := names.map loneConfig }

/-- Two clusters. -/
def opened : List Nat × Fleet :=
  ((empty [] .float fun _ => 0).applyConfig 0 (loneConfigs ["x", "y"])).toOption.get
    (by decide +kernel)

/-- Their loops did what there was to do. -/
def twoLoops : Fleet :=
  { opened.2 with loops := opened.2.loops.map fun l => (l.work 0 fun _ => (0, 0)).1 }

/-- One of the clusters begins anew. Its first loop has not heard of it yet. -/
def handover : Nat × Fleet :=
  ((twoLoops.spawn 1 (loneConfig "x")).toOption.bind Except.toOption).get (by decide +kernel)

/-- The other one goes, and a third one comes. -/
def followed : List Nat × Fleet :=
  (handover.2.applyConfig 2 (loneConfigs ["x", "z"])).toOption.get (by decide +kernel)

end Handover

end LoadBalancing.Fleet
