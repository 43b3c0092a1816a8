/-
A checker at work, one step after the other, in any order.

The owner of a checker tells it about hosts, about time and about answers, and the
order of all this is not in the checker's hands. An answer may come at once, after
the probe was given up, after its host was removed, or never. A `Watch` is a checker
together with what it works on, and `Step` is one thing that may happen to it. The
relation allows more than a program does: any timer may go off next, at any time,
and an answer may come in more than once. So what holds of every reachable watch
holds for whatever order the clock and the network give.
-/
import LoadBalancing.Proofs.Check.Operations
import LoadBalancing.Proofs.Outcome

set_option autoImplicit false

namespace LoadBalancing

namespace Checker

/-- A checker that was told nothing yet. -/
def fresh (checks : List CheckSettings) : Checker :=
  { checks, sessions := ∅, agenda := [], lastNumber := 0, stats := .zero }

/-- Settings are read for every configured check. -/
theorem length_readChecks {configs : List CheckConfig} {index : Nat} {checks : List CheckSettings}
    (h : readChecks index configs = .ok checks) : checks.length = configs.length := by
  induction configs generalizing index checks with
  | nil =>
    cases h
    rfl
  | cons config rest ih =>
    rw [readChecks] at h
    obtain ⟨settings, -, h⟩ := Except.bind_eq_ok.1 h
    obtain ⟨others, hothers, h⟩ := Except.bind_eq_ok.1 h
    cases h
    rw [List.length_cons, List.length_cons, ih hothers]

/-- Every checker that can be built is fresh at first, and has all configured checks, of which
there are no more than a host has verdicts. -/
theorem eq_fresh_of_new {configs : List CheckConfig} {transports : List ProbeKind} {c : Checker}
    (h : Checker.new configs transports = .ok c) :
    c = fresh c.checks ∧ c.checks.length = configs.length ∧
      c.checks.length ≤ maxHealthChecks := by
  rw [Checker.new] at h
  obtain ⟨checks, hread, h⟩ := Except.bind_eq_ok.1 h
  dsimp only at h
  split at h
  · cases h
  next hfew =>
    split at h
    · cases h
    · cases h
      exact ⟨rfl, length_readChecks hread, Nat.le_of_not_lt hfew⟩

end Checker

/-- A checker at work. -/
structure Watch where
  checker : Checker
  hosts : HostTable
  /-- All probes that were ever sent. The answer to any of them may still come in. -/
  sent : List ProbeRequest

namespace Watch

/-- A timer goes off: it leaves the agenda, and what it asks for is done. -/
def fire (w : Watch) (now : Nat) (jitter : Jitter) (timer : Timer) : Except Overflow Watch :=
  let agenda := w.checker.agenda.erase timer
  ({ w.checker with agenda }.fire w.hosts now jitter timer).map fun fired : Checker.Fired =>
    ⟨fired.checker, fired.hosts, w.sent ++ fired.probes⟩

/-- The answer to a probe comes in. -/
def deliver (w : Watch) (now : Nat) (jitter : Jitter) (request : ProbeRequest)
    (result : Except ProbeError ProbeAnswer) : Except Overflow Watch :=
  (w.checker.deliver w.hosts now jitter request.key request.probe result).map fun after =>
    ⟨after.1, after.2.1, w.sent⟩

/-- One thing that may happen. What an overflow breaks off leads nowhere: the checker is gone. -/
inductive Step : Watch → Watch → Prop where
  | add (w : Watch) (now : Nat) (hosts : List Host) :
      Step w ⟨(w.checker.add w.hosts now hosts).1, (w.checker.add w.hosts now hosts).2, w.sent⟩
  | adopt (w : Watch) (now : Nat) (hosts : List Host) :
      Step w ⟨(w.checker.adopt w.hosts now hosts).1, (w.checker.adopt w.hosts now hosts).2, w.sent⟩
  | remove (w : Watch) (hosts : List Host) :
      Step w { w with checker := w.checker.remove hosts }
  | shutdown (w : Watch) : Step w { w with checker := w.checker.shutdown }
  | fire {w w' : Watch} (now : Nat) (jitter : Jitter) (timer : Timer) :
      timer ∈ w.checker.agenda → w.fire now jitter timer = .ok w' → Step w w'
  | deliver {w w' : Watch} (now : Nat) (jitter : Jitter) (request : ProbeRequest)
      (result : Except ProbeError ProbeAnswer) :
      request ∈ w.sent → w.deliver now jitter request result = .ok w' → Step w w'
  /-- Requests come and go, and others change the health of hosts. -/
  | outside (w : Watch) (hosts : HostTable) : Step w { w with hosts }

/-- What a fresh checker comes to by any steps. -/
inductive Reachable : Watch → Prop where
  | start (checks : List CheckSettings) (hosts : HostTable) :
      Reachable ⟨.fresh checks, hosts, []⟩
  | step {w w' : Watch} : Reachable w → Step w w' → Reachable w'

/-- Doing all that is due is a row of such steps. -/
theorem Reachable.fireDue {checker : Checker} {hosts : HostTable} {sent : List ProbeRequest}
    {now : Nat} {jitter : Jitter} {fired : Checker.Fired} (r : Reachable ⟨checker, hosts, sent⟩)
    (h : checker.fireDue hosts now jitter = .ok fired) :
    Reachable ⟨fired.checker, fired.hosts, sent ++ fired.probes⟩ := by
  -- the probes that were sent before may be any
  refine Checker.fireDue_induct
    (P := fun checker hosts fired => ∀ sent, Reachable ⟨checker, hosts, sent⟩ →
      Reachable ⟨fired.checker, fired.hosts, sent ++ fired.probes⟩)
    checker hosts now jitter ?_ ?_ h sent r
  · intro checker hosts sent r
    simpa using r
  · intro checker hosts timer rest first others hagenda _ hfire ih sent r
    have goesOff : (⟨checker, hosts, sent⟩ : Watch).fire now jitter timer =
        .ok ⟨first.checker, first.hosts, sent ++ first.probes⟩ := by
      rw [Watch.fire]
      dsimp only
      rw [hagenda, List.erase_cons_head, hfire]
      rfl
    have step := Step.fire now jitter timer (by simp [hagenda]) goesOff
    rw [Checker.Fired.followedBy, ← List.append_assoc]
    exact ih _ (r.step step)

end Watch

end LoadBalancing
