/-
Every change of health that probes bring about is reported.

A checker writes verdicts into the host table, and who derives anything from the health of
hosts is told by transitions. A transition says whether the health of its host changed with the
verdict. Where none of them says so, nobody has another health than before
(`HostTable.Reported`), so whoever ignores such transitions misses nothing. What is not
reported is the verdict that the session of a host begins with. It concerns the host that
comes, and nobody else.
-/
import LoadBalancing.Proofs.Check.Operations
import LoadBalancing.Proofs.Host.Table

set_option autoImplicit false

namespace LoadBalancing

/-! ## Reports -/

/-- From one state of the table to a later one, the transitions report all changes of health. -/
structure HostTable.Reported (t t' : HostTable) (transitions : List Transition) : Prop where
  size : t.states.size ≤ t'.states.size
  quiet : transitions.any (·.aggregateChanged) = false → t.Advances t' []

namespace HostTable

variable {t t' t'' : HostTable}

theorem Reported.refl (t : HostTable) : t.Reported t [] :=
  ⟨Nat.le_refl _, fun _ => .refl t []⟩

theorem Reported.append {first others : List Transition} (h : t.Reported t' first)
    (h' : t'.Reported t'' others) : t.Reported t'' (first ++ others) where
  size := Nat.le_trans h.size h'.size
  quiet hquiet := by
    rw [List.any_append, Bool.or_eq_false_iff] at hquiet
    exact (h.quiet hquiet.1).trans (h'.quiet hquiet.2)

end HostTable

/-- The outcome of a probe reports what it changes. -/
theorem Session.reported_complete (s : Session) (settings : CheckSettings) (t : HostTable)
    (probe : Nat) (outcome : ProbeOutcome) :
    t.Reported (s.complete settings t probe outcome).2.2
      (s.complete settings t probe outcome).1.toList := by
  rw [complete]
  split
  · exact .refl t
  · dsimp only
    split
    · exact .refl t
    next next _ =>
      refine ⟨(HostTable.advances_setVerdict t _ _ next).size, fun hquiet => ?_⟩
      simp only [Option.toList_some, List.any_cons, List.any_nil, Bool.or_false] at hquiet
      exact HostTable.advances_setVerdict_of_same t _ _ next hquiet

namespace Checker

variable (c : Checker) (t : HostTable) (now : Nat) (jitter : Jitter)

/-! ## Probes -/

section Probes

variable {c t now jitter} {key : SessionKey} {probe : Nat}
  {after : Checker × HostTable × Option Transition}

theorem reported_finish {outcome : ProbeOutcome}
    (h : c.finish t now jitter key probe outcome = .ok after) :
    t.Reported after.2.1 after.2.2.toList := by
  rcases finish_cases c t now jitter h with rfl | ⟨live, settings, delay, -, rfl⟩
  · exact .refl t
  · exact live.session.reported_complete settings t probe outcome

theorem reported_deliver {result : Except ProbeError ProbeAnswer}
    (h : c.deliver t now jitter key probe result = .ok after) :
    t.Reported after.2.1 after.2.2.toList := by
  rw [deliver] at h
  split at h
  · exact reported_finish h
  · cases h
    exact .refl t

theorem reported_giveUp (h : c.giveUp t now jitter key probe = .ok after) :
    t.Reported after.2.1 after.2.2.toList := by
  rw [giveUp] at h
  split at h
  · exact reported_finish h
  · cases h
    exact .refl t

theorem reported_fire {timer : Timer} {fired : Fired}
    (h : c.fire t now jitter timer = .ok fired) :
    t.Reported fired.hosts fired.transitions := by
  rcases fire_cases c t now jitter h with ⟨epoch, -, rfl⟩ | ⟨probe, after, -, hafter, rfl⟩
  · exact .refl t
  · exact reported_giveUp hafter

/-- **All that is due** reports all that it changes, one timer after the other. -/
theorem reported_fireDue {fired : Fired} (h : c.fireDue t now jitter = .ok fired) :
    t.Reported fired.hosts fired.transitions := by
  refine fireDue_induct (P := fun _ t fired => t.Reported fired.hosts fired.transitions)
    c t now jitter ?_ ?_ h
  · intro _ t
    exact .refl t
  · intro c t timer rest first others _ _ hfire ih
    exact (reported_fire hfire).append ih

end Probes

/-! ## Hosts that come -/

/-- Beginning the sessions of some hosts concerns these hosts only. -/
theorem advances_startHosts (hosts : List Host)
    (initial : HostTable → Host → Nat → CheckSettings → Health) :
    t.Advances (hosts.foldl (fun (c, t) host => startHost initial now c t host) (c, t)).2
      hosts := by
  refine List.foldlRecOn (motive := fun s : Checker × HostTable => t.Advances s.2 hosts) hosts _
    (.refl t hosts) ?_
  rintro ⟨c', t'⟩ ih host hhost
  -- all sessions of a host write verdicts about it
  refine List.foldlRecOn (motive := fun s : Checker × HostTable => t.Advances s.2 hosts)
    c'.checks.zipIdx _ ih ?_
  rintro ⟨c'', t''⟩ ih' ⟨settings, index⟩ _
  refine ih'.trans ((HostTable.advances_setVerdict t'' host index _).mono ?_)
  exact List.cons_subset.2 ⟨hhost, List.nil_subset _⟩

theorem advances_add (hosts : List Host) : t.Advances (c.add t now hosts).2 hosts :=
  c.advances_startHosts t now hosts _

theorem advances_adopt (hosts : List Host) : t.Advances (c.adopt t now hosts).2 hosts :=
  c.advances_startHosts t now hosts _

end Checker

end LoadBalancing
