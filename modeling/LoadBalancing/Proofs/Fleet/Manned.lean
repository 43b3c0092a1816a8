/-
Who is in charge of a name.

A loop that began is in charge of its name until another one takes over or the name is dismissed.
Either way it is told to stop first, so at any time between two calls whoever has not ended is
registered or has that message in his queue (`Manned`). That a message to one name does not reach
the loop of another one is part of it: no loop ever has another name than the one it is, or was,
registered under.
-/
import LoadBalancing.Proofs.Fleet.Calls
import LoadBalancing.Proofs.SortedMap.Lookup

set_option autoImplicit false

namespace LoadBalancing.Fleet

variable {others : Intervention → Prop} {f f₁ f' : Fleet} {name : String} {i now : Nat}
  {l : ControlLoop} {cluster : Cluster} {config : ClusterConfig}

/-! ## Messages by name -/

/-- Sends a message to the loop that is registered under a name, if there is any. -/
def tell (f : Fleet) (name : String) (update : ClusterUpdate) : Fleet :=
  { f with
    loops := f.loops.mapIdx fun i l =>
      if f.registry.get? name = some i then (l.send update).2 else l }

theorem size_tell (f : Fleet) (name : String) (update : ClusterUpdate) :
    (f.tell name update).loops.size = f.loops.size :=
  Array.size_mapIdx

theorem getElem?_tell (f : Fleet) (name : String) (update : ClusterUpdate) (i : Nat) :
    (f.tell name update).loops[i]? =
      f.loops[i]?.map fun l =>
        if f.registry.get? name = some i then (l.send update).2 else l :=
  Array.getElem?_mapIdx

theorem getElem?_send (f : Fleet) (i : Nat) (update : ClusterUpdate) (j : Nat) :
    (f.send i update).2.loops[j]? =
      f.loops[j]?.map fun l => if i = j then (l.send update).2 else l := by
  rw [send]
  by_cases hj : i = j
  · subst hj
    cases hl : f.loops[i]? with
    | none => simp [hl]
    | some l =>
      have hbound := (Array.getElem?_eq_some_iff.1 hl).1
      simp [hbound]
  · cases hl : f.loops[i]? with
    | none => simp [hj]
    | some l => simp [hj]

theorem size_send (f : Fleet) (i : Nat) (update : ClusterUpdate) :
    (f.send i update).2.loops.size = f.loops.size := by
  rw [send]
  split
  · rfl
  · exact Array.size_setIfInBounds

/-- Sending by name is sending by number, to the number that is registered. -/
theorem send_eq_tell (registered : f.registry.get? name = some i) (update : ClusterUpdate) :
    (f.send i update).2 = f.tell name update := by
  have loops : (f.send i update).2.loops = (f.tell name update).loops := by
    refine Array.ext_getElem? fun j => ?_
    rw [getElem?_send, getElem?_tell, registered]
    simp only [Option.some.injEq]
  have rest : (f.send i update).2 = { f with loops := (f.send i update).2.loops } := by
    rw [send]
    split <;> rfl
  rw [rest, loops]
  rfl

theorem loops_tell_of_none (h : f.registry.get? name = none) (update : ClusterUpdate) :
    (f.tell name update).loops = f.loops := by
  refine Array.ext_getElem? fun i => ?_
  rw [getElem?_tell, h]
  simp

/-- Who is dismissed is told to stop. -/
theorem loops_dismiss (f : Fleet) (name : String) :
    (f.dismiss [name]).loops = (f.tell name .stop).loops := by
  rw [dismiss, List.foldl_cons, List.foldl_nil]
  split
  next i registered =>
    rw [← send_eq_tell registered]
    refine Array.ext_getElem? fun j => ?_
    rw [getElem?_send, getElem?_send]
  next hnone => rw [loops_tell_of_none hnone]

/-- Who is dismissed is not registered any more. -/
theorem get?_dismiss (f : Fleet) (name other : String) :
    (f.dismiss [name]).registry.get? other =
      if other = name then none else f.registry.get? other := by
  rw [dismiss, List.foldl_cons, List.foldl_nil]
  split
  next i registered =>
    rw [← SortedMap.get?_erase, send]
    split <;> rfl
  next hnone =>
    split
    next heq => rw [heq, hnone]
    next => rfl

theorem size_install (f : Fleet) (cluster : Cluster) :
    (f.install cluster).loops.size = f.loops.size + 1 := by
  rw [install]
  split
  · rw [size_send, Array.size_push]
  · rw [Array.size_push]

theorem get?_install (f : Fleet) (cluster : Cluster) (name : String) :
    (f.install cluster).registry.get? name =
      if name = cluster.name then some f.loops.size else f.registry.get? name := by
  rw [← SortedMap.get?_insert, install]
  split
  · rw [send]
    split <;> rfl
  · rfl

/-! ## One loop in charge of a name -/

/-- Every name leads to a loop of that name, and any other loop has ended or is told to stop.
Where nobody else ends loops, those that are registered have no reason to end. -/
structure Manned (others : Intervention → Prop) (f : Fleet) : Prop where
  registered : ∀ name i, f.registry.get? name = some i →
    ∃ l, f.loops[i]? = some l ∧ l.cluster.name = name
  replaced : ∀ (i : Nat) (l : ControlLoop), f.loops[i]? = some l →
    f.registry.get? l.cluster.name = some i ∨ l.Leaving
  undisturbed : Intervention.Peaceful others → ∀ (name : String) (i : Nat) (l : ControlLoop),
    f.registry.get? name = some i → f.loops[i]? = some l → l.Undisturbed

theorem manned_empty (transports : List ProbeKind) (numerics : Numerics) (draw : Nat → UInt64) :
    (empty transports numerics draw).Manned others where
  registered name i h := by simp [empty] at h
  replaced i l h := by simp [empty] at h
  undisturbed _ name i l h := by simp [empty] at h

namespace Manned

variable (manned : f.Manned others)

include manned

theorem name_eq (h : f.registry.get? name = some i) (hl : f.loops[i]? = some l) :
    l.cluster.name = name := by
  obtain ⟨l', hl', hname⟩ := manned.registered name i h
  rw [hl] at hl'
  cases hl'
  exact hname

/-- Where the loops of a fleet only go on, or hear something that is no reason to end. -/
theorem later (registry : f'.registry = f.registry) (size : f'.loops.size = f.loops.size)
    (precedes : ∀ (i : Nat) (l : ControlLoop), f.loops[i]? = some l →
      ∃ l', f'.loops[i]? = some l' ∧ l.Precedes l' ∧
        (Intervention.Peaceful others → l.Undisturbed → l'.Undisturbed)) :
    f'.Manned others := by
  -- every loop was there before
  have before (i : Nat) (l' : ControlLoop) (hl' : f'.loops[i]? = some l') :
      ∃ l, f.loops[i]? = some l ∧ l.Precedes l' ∧
        (Intervention.Peaceful others → l.Undisturbed → l'.Undisturbed) := by
    have hbound : i < f.loops.size := size ▸ (Array.getElem?_eq_some_iff.1 hl').1
    obtain ⟨l, hl⟩ : ∃ l, f.loops[i]? = some l := ⟨_, Array.getElem?_eq_getElem hbound⟩
    obtain ⟨l'', hl'', hprecedes⟩ := precedes i l hl
    rw [hl'] at hl''
    cases hl''
    exact ⟨l, hl, hprecedes⟩
  constructor
  · intro name i h
    rw [registry] at h
    obtain ⟨l, hl, hname⟩ := manned.registered name i h
    obtain ⟨l', hl', hprecedes, -⟩ := precedes i l hl
    exact ⟨l', hl', hprecedes.name.trans hname⟩
  · intro i l' hl'
    obtain ⟨l, hl, hprecedes, -⟩ := before i l' hl'
    rw [registry, hprecedes.name]
    exact (manned.replaced i l hl).imp_right hprecedes.leaving
  · intro peaceful name i l' h hl'
    rw [registry] at h
    obtain ⟨l, hl, -, hundisturbed⟩ := before i l' hl'
    exact hundisturbed peaceful (manned.undisturbed peaceful name i l h hl)

theorem meanwhile (meanwhile : Meanwhile others f f') : f'.Manned others := by
  refine manned.later (by rw [meanwhile.rest]) meanwhile.size fun i l hl => ?_
  obtain ⟨l', hl', goesOn⟩ := meanwhile.goesOn i l hl
  exact ⟨l', hl', goesOn.precedes, fun peaceful undisturbed => undisturbed.goesOn peaceful goesOn⟩

/-- A message is no reason to end unless it says so. -/
theorem tell (name : String) {update : ClusterUpdate} (hother : update ≠ .stop) :
    (f.tell name update).Manned others := by
  refine manned.later rfl (size_tell f name update) fun i l hl => ?_
  rw [getElem?_tell, hl, Option.map_some]
  refine ⟨_, rfl, ?_⟩
  split
  · exact ⟨l.precedes_send update, fun _ undisturbed => undisturbed.send hother⟩
  · exact ⟨.refl l, fun _ undisturbed => undisturbed⟩

/-- A message to one name does not reach the loops of another one. -/
theorem getElem?_tell_of_ne (hl : f.loops[i]? = some l) (hne : l.cluster.name ≠ name)
    (update : ClusterUpdate) : (f.tell name update).loops[i]? = some l := by
  rw [getElem?_tell, hl, Option.map_some, if_neg]
  exact fun h => hne (manned.name_eq h hl)

/-- So whoever is registered under another name is as he was. -/
theorem exists_tell_of_ne {other : String} (h : f.registry.get? other = some i)
    (hne : other ≠ name) (update : ClusterUpdate) :
    ∃ l, f.loops[i]? = some l ∧ l.cluster.name = other ∧
      (f.tell name update).loops[i]? = some l := by
  obtain ⟨l, hl, hname⟩ := manned.registered other i h
  exact ⟨l, hl, hname, manned.getElem?_tell_of_ne hl (hname ▸ hne) update⟩

/-- Once the loop under a name is told to stop, the name can be given away. -/
theorem replaced_tell_stop (hl : (f.tell name .stop).loops[i]? = some l) :
    (l.cluster.name ≠ name ∧ f.registry.get? l.cluster.name = some i) ∨ l.Leaving := by
  rw [getElem?_tell] at hl
  obtain ⟨l', hl', heq⟩ := Option.map_eq_some_iff.1 hl
  by_cases h : f.registry.get? name = some i
  · rw [if_pos h] at heq
    rw [← heq]
    exact .inr l'.leaving_send_stop
  · rw [if_neg h] at heq
    rw [← heq]
    refine (manned.replaced i l' hl').imp_left fun registered => ⟨fun hname => h ?_, registered⟩
    rw [← hname]
    exact registered

/-- A dismissal leaves the other names as they are. -/
theorem dismiss (name : String) : (f.dismiss [name]).Manned others := by
  -- whoever is still registered has another name
  have still (other : String) (i : Nat)
      (h : (f.dismiss [name]).registry.get? other = some i) :
      f.registry.get? other = some i ∧ other ≠ name := by
    rw [get?_dismiss] at h
    split at h
    · cases h
    next hne => exact ⟨h, hne⟩
  constructor
  · intro other i h
    obtain ⟨registered, hne⟩ := still other i h
    obtain ⟨l, -, hname, hl⟩ := manned.exists_tell_of_ne registered hne .stop
    exact ⟨l, by rw [loops_dismiss, hl], hname⟩
  · intro i l hl
    rw [loops_dismiss] at hl
    refine (manned.replaced_tell_stop hl).imp_left fun h => ?_
    rw [get?_dismiss, if_neg h.1]
    exact h.2
  · intro peaceful other i l h hl
    obtain ⟨registered, hne⟩ := still other i h
    obtain ⟨l', hl', -, htold⟩ := manned.exists_tell_of_ne registered hne .stop
    rw [loops_dismiss, htold] at hl
    cases hl
    exact manned.undisturbed peaceful other i l registered hl'

/-- The new loop comes last, and the one that had the name is told to stop. -/
theorem getElem?_install (cluster : Cluster) (i : Nat) :
    (f.install cluster).loops[i]? =
      if i = f.loops.size then some (.start cluster f.draw)
      else (f.tell cluster.name .stop).loops[i]? := by
  rw [install]
  cases registered : f.registry.get? cluster.name with
  | none =>
    dsimp only
    rw [loops_tell_of_none registered, Array.getElem?_push]
  | some previous =>
    obtain ⟨l, hl, -⟩ := manned.registered cluster.name previous registered
    have hbound := (Array.getElem?_eq_some_iff.1 hl).1
    dsimp only
    rw [getElem?_send, getElem?_tell, Array.getElem?_push, registered]
    -- the loop that had the name was there before, so it is not the new one
    by_cases hi : i = f.loops.size
    · have hne : previous ≠ f.loops.size := by omega
      simp [hi, hne]
    · simp [hi]

/-- A new loop takes over its name, and leaves the other names as they are. -/
theorem install (cluster : Cluster) : (f.install cluster).Manned others := by
  -- the registered loop is the new one, or one of another name
  have still (name : String) (i : Nat) (h : (f.install cluster).registry.get? name = some i) :
      (name = cluster.name ∧ (f.install cluster).loops[i]? = some (.start cluster f.draw)) ∨
        ∃ l, f.registry.get? name = some i ∧ f.loops[i]? = some l ∧ l.cluster.name = name ∧
          (f.install cluster).loops[i]? = some l := by
    rw [get?_install] at h
    rw [manned.getElem?_install]
    split at h
    next heq =>
      cases h
      exact .inl ⟨heq, if_pos rfl⟩
    next hne =>
      obtain ⟨l, hl, hname, htold⟩ := manned.exists_tell_of_ne h hne .stop
      have hbound := (Array.getElem?_eq_some_iff.1 hl).1
      exact .inr ⟨l, h, hl, hname, by rw [if_neg (by omega), htold]⟩
  constructor
  · intro name i h
    rcases still name i h with ⟨heq, hl⟩ | ⟨l, -, -, hname, hl⟩
    · exact ⟨_, hl, heq.symm⟩
    · exact ⟨l, hl, hname⟩
  · intro i l hl
    rw [manned.getElem?_install] at hl
    rw [get?_install]
    split at hl
    next hi =>
      cases hl
      rw [hi]
      exact .inl (if_pos rfl)
    next =>
      refine (manned.replaced_tell_stop hl).imp_left fun h => ?_
      rw [if_neg h.1]
      exact h.2
  · intro peaceful name i l h hl
    rcases still name i h with ⟨-, hnew⟩ | ⟨l', registered, hl', -, hsame⟩
    · rw [hnew] at hl
      cases hl
      exact ControlLoop.undisturbed_start cluster f.draw
    · rw [hsame] at hl
      cases hl
      exact manned.undisturbed peaceful name i l registered hl'

theorem follow {begun : Option Nat} (followed : f.follow now config = .ok (begun, f')) :
    f'.Manned others := by
  rcases follow_cases followed with
    ⟨i, l, registered, -, -, rfl⟩ | ⟨-, rfl⟩ | ⟨-, cluster, -, rfl⟩
  · rw [send_eq_tell registered]
    exact manned.tell config.name (by simp)
  · exact manned
  · exact manned.install cluster

end Manned

/-! ### Calls -/

theorem Dismisses.manned {names : List String} (dismisses : Dismisses others names f f')
    (manned : f.Manned others) : f'.Manned others := by
  induction dismisses with
  | nil meanwhile => exact manned.meanwhile meanwhile
  | cons meanwhile _ ih => exact ih ((manned.meanwhile meanwhile).dismiss _)

theorem Follows.manned {built : Prop} {configs : List ClusterConfig}
    (follows : Follows others built configs f f') (manned : f.Manned others) :
    f'.Manned others := by
  induction follows with
  | nil meanwhile => exact manned.meanwhile meanwhile
  | cons now meanwhile _ followed _ ih => exact ih ((manned.meanwhile meanwhile).follow followed)

/-- **Any run** leaves one loop in charge of a name. -/
theorem Run.manned (run : f.Run others) : f.Manned others := by
  induction run with
  | empty transports numerics draw => exact manned_empty transports numerics draw
  | meanwhile _ meanwhile ih => exact ih.meanwhile meanwhile
  | spawn _ spawned ih =>
    obtain ⟨cluster, -, rfl⟩ := exists_cluster_of_spawn spawned
    exact ih.install cluster
  | applyConfig _ applies ih =>
    obtain ⟨names, f₁, -, dismisses, follows⟩ := applies
    exact follows.manned (dismisses.manned ih)
  | breakOff _ breaksOff ih =>
    obtain ⟨names, f₁, done, next, left, now, overflow, -, dismisses, -, follows, -⟩ := breaksOff
    exact follows.manned (dismisses.manned ih)

end LoadBalancing.Fleet
