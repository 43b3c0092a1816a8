/-
How a control loop goes on while nobody of the fleet looks.

Between two messages of its fleet a loop (`Cluster::run`) does one thing after the other. It takes
the oldest message, fires what is due of its health checks, hears of an answer, or goes. Others
get at it as well: requests pick hosts from its cluster, and whoever holds a handle may send
messages, announce the shutdown of the program, or abort the loop. And its own work may overflow,
which ends it. Which of these interventions there are is left open, and no intervention at all is
one of the cases.

Whatever happens, a loop keeps its name, what has ended stays ended, and a message to stop is
still in the queue as long as the loop is there (`Precedes`). Where nothing happens that would end
it, a loop without such a message runs on (`Undisturbed`).
-/
import LoadBalancing.Fleet.ControlLoop
import LoadBalancing.Proofs.Cluster.Coherent
import Mathlib.Logic.Relation

set_option autoImplicit false

namespace LoadBalancing

/-! ## The name of a cluster -/

namespace Cluster

variable (c : Cluster) (now : Nat)

/-- A membership change is about hosts. -/
theorem name_applyChange (change : MembershipChange) :
    (c.applyChange now change).name = c.name := by
  obtain ⟨hosts, set, balancing, checker, heq⟩ := exists_applyChange_eq now c change
  rw [heq]

/-- So is a list of hosts. -/
theorem name_reach (desired : List HostConfig) : (c.reach now desired).name = c.name :=
  name_applyChange (c.withArrivals desired) now _

/-- A note of verdicts publishes at most. -/
theorem name_noteTransitions (changed : List Transition) :
    (c.noteTransitions changed).name = c.name := by
  rw [noteTransitions]
  split <;> rfl

/-- Whatever its checker hears, a cluster has its name. -/
theorem Heard.name {c c' : Cluster} (heard : c.Heard c') : c'.name = c.name := by
  cases heard with
  | nothing => rfl
  | reported => exact name_noteTransitions _ _

/-- Another checker is none of another cluster. -/
theorem name_adoptChecker (checker : Option (Option Checker)) :
    (c.adoptChecker now checker).name = c.name := by
  rcases checker with _ | _ | checker <;> rfl

/-- A configuration with another name does not give it to the cluster that takes it. -/
theorem Configured.name {c c' : Cluster} {config : ClusterConfig}
    {result : Except ConfigError Unit} (configured : c.Configured now config result c') :
    c'.name = c.name := by
  cases configured with
  | turnedDown => rfl
  | @taken checker _ _ _ adopted _ =>
    obtain ⟨set, -, rfl⟩ := (adoptWeights?_eq_some _).1 adopted
    exact (name_reach _ now config.hosts).trans (name_adoptChecker c now checker)

/-- No message gives a cluster another name. -/
theorem name_handle {c' : Cluster} {message : ClusterUpdate}
    (h : c.handle now message = .ok c') : c'.name = c.name := by
  cases message with
  | membership priority added removed =>
    cases h
    exact name_applyChange _ now _
  | hosts desired =>
    cases h
    rw [setHosts]
    dsimp only
    split
    · rfl
    · exact name_reach c now desired
  | config config =>
    obtain ⟨result, configured⟩ := configured_of_perform h
    exact configured.name
  | stop =>
    cases h
    rfl

variable {c now}

/-- A new cluster has the name of its configuration. -/
theorem name_new {config : ClusterConfig} {transports : List ProbeKind} {numerics : Numerics}
    (h : Cluster.new config transports numerics now = .ok (.ok c)) : c.name = config.name := by
  rw [Cluster.new] at h
  split at h
  · cases h
  · split at h
    · cases h
    · cases h
      exact name_reach _ now config.hosts

end Cluster

/-! ## Interventions -/

/-- What may happen to a loop that is not of its fleet's doing. -/
inductive Intervention where
  /-- Somebody who holds a handle sends a message. -/
  | message (update : ClusterUpdate)
  /-- The shutdown of the program is announced. -/
  | shutdown
  | abort
  /-- The work of the loop overflows. -/
  | overflow

namespace Intervention

/-- Whether a loop ends of it. -/
def Ends : Intervention → Prop
  | message update => update = .stop
  | shutdown => True
  | abort => True
  | overflow => True

/-- Nobody but the fleet ends a loop. -/
def Peaceful (others : Intervention → Prop) : Prop :=
  ∀ i, others i → ¬ i.Ends

end Intervention

namespace ControlLoop

variable {others : Intervention → Prop} {l l' l'' : ControlLoop}

/-! ## What stays -/

/-- The loop has ended, or is about to. -/
def Leaving (l : ControlLoop) : Prop :=
  l.hasEnded = true ∨ .stop ∈ l.queue

/-- What is the same for a loop ever after: its name, that it has ended, and that it leaves. -/
structure Precedes (l l' : ControlLoop) : Prop where
  name : l'.cluster.name = l.cluster.name
  ended : l.hasEnded = true → l'.hasEnded = true
  leaving : l.Leaving → l'.Leaving

/-- Nothing happened. -/
theorem Precedes.refl (l : ControlLoop) : l.Precedes l :=
  ⟨rfl, id, id⟩

/-- One thing happened after the other. -/
theorem Precedes.trans (first : l.Precedes l') (second : l'.Precedes l'') : l.Precedes l'' where
  name := second.name.trans first.name
  ended h := second.ended (first.ended h)
  leaving h := second.leaving (first.leaving h)

/-- What a loop does with its cluster ends nothing and takes no message. -/
theorem precedes_of_same (name : l'.cluster.name = l.cluster.name) (status : l'.status = l.status)
    (queue : l'.queue = l.queue) : l.Precedes l' := by
  have ended : l'.hasEnded = l.hasEnded := by rw [hasEnded, hasEnded, status]
  refine ⟨name, fun h => ended ▸ h, fun h => ?_⟩
  rw [Leaving, ended, queue]
  exact h

/-- A loop that has ended has kept all that is asked of it but its name. -/
theorem precedes_of_hasEnded (name : l'.cluster.name = l.cluster.name)
    (ended : l'.hasEnded = true) : l.Precedes l' :=
  ⟨name, fun _ => ended, fun _ => .inl ended⟩

/-- A finished loop has ended. -/
theorem hasEnded_finish (l : ControlLoop) : l.finish.hasEnded = true := rfl

/-- Finishing is an end. -/
theorem precedes_finish (l : ControlLoop) : l.Precedes l.finish :=
  precedes_of_hasEnded rfl l.hasEnded_finish

/-- A message to a loop that has ended is lost. -/
theorem send_of_hasEnded (h : l.hasEnded = true) (update : ClusterUpdate) :
    l.send update = (false, l) :=
  if_pos h

/-- Any other loop finds it behind all its messages, one that is closing as well. -/
theorem send_of_not_hasEnded (h : l.hasEnded = false) (update : ClusterUpdate) :
    l.send update = (true, { l with queue := l.queue ++ [update] }) := by
  rw [send, h]
  rfl

/-- A message more is no message less. -/
theorem precedes_send (l : ControlLoop) (update : ClusterUpdate) :
    l.Precedes (l.send update).2 := by
  cases h : l.hasEnded with
  | true =>
    rw [send_of_hasEnded h]
    exact .refl l
  | false =>
    rw [send_of_not_hasEnded h]
    refine ⟨rfl, id, fun leaving => ?_⟩
    rcases leaving with ended | stop
    · exact .inl ended
    · exact .inr (List.mem_append_left _ stop)

/-- Whoever is told to stop leaves, unless he is gone. -/
theorem leaving_send_stop (l : ControlLoop) : (l.send .stop).2.Leaving := by
  cases h : l.hasEnded with
  | true =>
    rw [send_of_hasEnded h]
    exact .inl h
  | false =>
    rw [send_of_not_hasEnded h]
    exact .inr (List.mem_append_right _ (List.mem_singleton_self _))

/-- An overflow is an end, and takes no name away. -/
theorem precedes_crash (l : ControlLoop) (overflow : Overflow) :
    l.Precedes (l.crash overflow) :=
  precedes_of_hasEnded rfl rfl

/-- Who takes messages is there. -/
theorem not_hasEnded_of_isWorking (working : l.isWorking = true) : l.hasEnded = false := by
  rw [isWorking, Bool.or_eq_true, decide_eq_true_eq, decide_eq_true_eq] at working
  rcases working with running | aborted
  · rw [hasEnded, running]
    rfl
  · rw [hasEnded, aborted]
    rfl

/-- A loop that closes has its messages still, one to stop among them if there is one. -/
theorem precedes_close (here : l.hasEnded = false) : l.Precedes l.close := by
  refine ⟨rfl, fun ended => ?_, fun leaving => ?_⟩
  · rw [here] at ended
    cases ended
  · rcases leaving with ended | stop
    · rw [here] at ended
      cases ended
    · exact .inr stop

/-- A message to stop is not taken from the queue before the loop ends, and any other one may be. -/
theorem precedes_takeUpdate (working : l.isWorking = true) (now : Nat) :
    l.Precedes (l.takeUpdate now) := by
  rw [takeUpdate]
  split
  · exact .refl l
  · exact precedes_close (not_hasEnded_of_isWorking working)
  next update rest hother hqueue =>
    split
    next overflow _ => exact l.precedes_crash overflow
    next cluster handled =>
      -- one message fewer, so what matters is which one it was
      refine ⟨l.cluster.name_handle now handled, id, fun leaving => ?_⟩
      rcases leaving with ended | stop
      · exact .inl ended
      · -- what was taken is no message to stop
        rw [hqueue] at stop
        rcases List.mem_cons.1 stop with rfl | hrest
        · exact absurd rfl hother
        · exact .inr hrest

/-- Due timers leave the queue as it is. -/
theorem precedes_fireDue (l : ControlLoop) (now : Nat) (jitter : Jitter) :
    l.Precedes (l.fireDue now jitter).1 := by
  rw [fireDue]
  split
  next overflow _ => exact l.precedes_crash overflow
  next fired => exact precedes_of_same (Cluster.heard_fireDue fired).name rfl rfl

/-- So do answers. -/
theorem precedes_deliver (l : ControlLoop) (now : Nat) (jitter : Jitter) (asker : Nat)
    (key : SessionKey) (probe : Nat) (result : Except ProbeError ProbeAnswer) :
    l.Precedes (l.deliver now jitter asker key probe result) := by
  rw [deliver]
  split
  · exact .refl l
  · split
    next overflow _ => exact l.precedes_crash overflow
    next delivered => exact precedes_of_same (Cluster.heard_deliver delivered).name rfl rfl

/-- A loop that is aborted is there until it takes notice. -/
theorem precedes_abort (l : ControlLoop) : l.Precedes l.abort := by
  rw [abort]
  split
  next running =>
    have here : l.hasEnded = false := not_hasEnded_of_isWorking (by rw [isWorking, running]; rfl)
    refine ⟨rfl, fun ended => ?_, fun leaving => leaving.elim (fun ended => ?_) .inr⟩ <;>
    · rw [here] at ended
      cases ended
  next => exact .refl l

/-! ## Steps -/

/-- One thing that a loop does. -/
inductive Act : ControlLoop → ControlLoop → Prop where
  | take {l : ControlLoop} (now : Nat) (working : l.isWorking = true) : Act l (l.takeUpdate now)
  | fire {l : ControlLoop} (now : Nat) (jitter : Jitter) (working : l.isWorking = true) :
      Act l (l.fireDue now jitter).1
  | answer {l : ControlLoop} (now : Nat) (jitter : Jitter) (asker : Nat) (key : SessionKey)
      (probe : Nat) (result : Except ProbeError ProbeAnswer) (here : l.hasEnded = false) :
      Act l (l.deliver now jitter asker key probe result)
  /-- It takes notice of the shutdown of the program. -/
  | close {l : ControlLoop} (working : l.isWorking = true) (announced : l.shutdown = true) :
      Act l l.close
  | finish {l : ControlLoop} (leaving : l.status = .closing ∨ l.status = .aborted) : Act l l.finish

/-- One thing that happens to a loop, no message of its fleet. -/
inductive Step (others : Intervention → Prop) : ControlLoop → ControlLoop → Prop where
  | act {l l' : ControlLoop} (act : Act l l')
      (overflowing : l'.status = .crashed → others .overflow) : Step others l l'
  /-- Requests pick hosts, and come and go. -/
  | serve {l : ControlLoop} (hosts : HostTable) (picks : PickState) :
      Step others l { l with cluster := { l.cluster with hosts }, picks }
  | hear {l : ControlLoop} {update : ClusterUpdate} (sent : others (.message update)) :
      Step others l (l.send update).2
  | warn {l : ControlLoop} (announced : others .shutdown) :
      Step others l { l with shutdown := true }
  | abort {l : ControlLoop} (told : others .abort) : Step others l l.abort

/-- Any number of steps. -/
def GoesOn (others : Intervention → Prop) : ControlLoop → ControlLoop → Prop :=
  Relation.ReflTransGen (Step others)

/-- Some steps, and then some more. -/
theorem GoesOn.trans (first : l.GoesOn others l') (second : l'.GoesOn others l'') :
    l.GoesOn others l'' :=
  Relation.ReflTransGen.trans first second

/-- Whatever a loop does, it keeps its name, and a message to stop or its end. -/
theorem Act.precedes (act : Act l l') : l.Precedes l' := by
  cases act with
  | take now working => exact precedes_takeUpdate working now
  | fire now jitter working => exact l.precedes_fireDue now jitter
  | answer now jitter asker key probe result here =>
    exact l.precedes_deliver now jitter asker key probe result
  | close working announced => exact precedes_close (not_hasEnded_of_isWorking working)
  | finish leaving => exact l.precedes_finish

/-- Nor can anybody else take these from it. -/
theorem Step.precedes (step : Step others l l') : l.Precedes l' := by
  cases step with
  | act act overflowing => exact act.precedes
  | serve hosts picks => exact precedes_of_same rfl rfl rfl
  | hear sent => exact l.precedes_send _
  | warn announced => exact precedes_of_same rfl rfl rfl
  | abort told => exact l.precedes_abort

/-- **Any number of steps** leaves them. -/
theorem GoesOn.precedes (goesOn : l.GoesOn others l') : l.Precedes l' := by
  induction goesOn with
  | refl => exact .refl l
  | tail _ step ih => exact ih.trans step.precedes

/-! ## Loops that nobody ends -/

/-- A loop that has no reason to end. -/
structure Undisturbed (l : ControlLoop) : Prop where
  running : l.status = .running
  unwarned : l.shutdown = false
  untold : .stop ∉ l.queue

/-- A new loop has no reason to end. -/
theorem undisturbed_start (cluster : Cluster) (draw : Nat → UInt64) :
    (start cluster draw).Undisturbed :=
  ⟨rfl, rfl, List.not_mem_nil⟩

/-- And without a reason no loop has ended. -/
theorem Undisturbed.not_hasEnded (undisturbed : l.Undisturbed) : l.hasEnded = false := by
  rw [hasEnded, undisturbed.running]
  rfl

/-- A message that is none to stop gives no reason. -/
theorem Undisturbed.send (undisturbed : l.Undisturbed) {update : ClusterUpdate}
    (hother : update ≠ .stop) : (l.send update).2.Undisturbed := by
  rw [send_of_not_hasEnded undisturbed.not_hasEnded]
  refine ⟨undisturbed.running, undisturbed.unwarned, fun stop => ?_⟩
  rcases List.mem_append.1 stop with before | new
  · exact undisturbed.untold before
  · exact hother (List.mem_singleton.1 new).symm

/-- A loop that has no reason to end does not end of what it does, unless that overflows. -/
theorem Undisturbed.act (undisturbed : l.Undisturbed) (act : Act l l')
    (fitting : l'.status ≠ .crashed) : l'.Undisturbed := by
  cases act with
  | take now working =>
    -- the three ways to take a message, of which two would give the loop a reason to end
    rw [takeUpdate] at fitting ⊢
    split
    · exact undisturbed
    next rest hqueue =>
      -- the oldest message is none to stop
      refine absurd ?_ undisturbed.untold
      rw [hqueue]
      exact List.mem_cons_self
    next update rest hother hqueue =>
      split
      next overflow overflows =>
        rw [hqueue] at fitting
        simp only [overflows] at fitting
        exact absurd rfl fitting
      next cluster handled =>
        exact ⟨undisturbed.running, undisturbed.unwarned, fun stop =>
          undisturbed.untold (hqueue ▸ List.mem_cons_of_mem _ stop)⟩
  | fire now jitter working =>
    -- it either overflows, which is excluded, or changes the cluster alone
    rw [fireDue] at fitting ⊢
    split
    next overflow overflows =>
      simp only [overflows] at fitting
      exact absurd rfl fitting
    next => exact ⟨undisturbed.running, undisturbed.unwarned, undisturbed.untold⟩
  | answer now jitter asker key probe result here =>
    rw [deliver, here] at fitting ⊢
    split
    · exact undisturbed
    · split
      next overflow overflows =>
        simp only [overflows] at fitting
        exact absurd rfl fitting
      next => exact ⟨undisturbed.running, undisturbed.unwarned, undisturbed.untold⟩
  | close working announced =>
    rw [undisturbed.unwarned] at announced
    cases announced
  | finish leaving =>
    rw [undisturbed.running] at leaving
    exact absurd leaving (by decide)

/-- Where nobody but the fleet ends loops, no step gives a reason. -/
theorem Undisturbed.step (undisturbed : l.Undisturbed) (peaceful : Intervention.Peaceful others)
    (step : Step others l l') : l'.Undisturbed := by
  cases step with
  | act act overflowing =>
    exact undisturbed.act act fun crashed => peaceful _ (overflowing crashed) trivial
  | serve hosts picks => exact ⟨undisturbed.running, undisturbed.unwarned, undisturbed.untold⟩
  | hear sent => exact undisturbed.send fun heq => peaceful _ sent heq
  | warn announced => exact absurd trivial (peaceful _ announced)
  | abort told => exact absurd trivial (peaceful _ told)

/-- **Nor do any number of steps.** -/
theorem Undisturbed.goesOn (undisturbed : l.Undisturbed)
    (peaceful : Intervention.Peaceful others) (goesOn : l.GoesOn others l') : l'.Undisturbed := by
  induction goesOn with
  | refl => exact undisturbed
  | tail _ step ih => exact ih.step peaceful step

/-! ## The work of a loop -/

end ControlLoop

end LoadBalancing
