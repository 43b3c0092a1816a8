/-
What a TCP probe makes of a stream, however the stream comes in.

After every read the probe looks at all that it has buffered. So all that counts is what it has
buffered when it ends (`Ended`): the first bytes of the stream, which pass if they match; and if
they do not, then they are either the whole stream or more than it was ready to wait for. How much
that is depends on where the last read ended, but the limit lies within it. A stream that matches
within the limit passes in any case, and one that never matches never passes; only a match that
comes later may be seen or not.
-/
import LoadBalancing.Proofs.Check.Matching

set_option autoImplicit false

namespace LoadBalancing

namespace TcpProbe

/-! ## Reads -/

/-- The pieces in which a stream may come in. No read brings nothing before the peer has closed,
and none brings more than there is room for. -/
structure ReadAs (stream : List UInt8) (reads : List (List UInt8)) : Prop where
  flatten : reads.flatten = stream
  nonempty : ∀ piece ∈ reads, piece ≠ []
  length_le : ∀ piece ∈ reads, piece.length ≤ maxRead

/-- How a probe ends, with its outcome and what it has buffered. -/
structure Ended (segments : List (List UInt8)) (stream : List UInt8)
    (outcome : Except ProbeError ProbeAnswer) (buffered : List UInt8) : Prop where
  isPrefix : buffered <+: stream
  outcome : outcome =
    if matchesAll segments buffered then .ok .healthy else .error .unexpectedResponse
  /-- It does not give up before the stream has ended or the limit is passed. -/
  patient : matchesAll segments buffered = false →
    buffered = stream ∨ maxResponse < buffered.length
  length_le : buffered.length ≤ maxResponse + maxRead

variable {segments reads : List (List UInt8)} {buffer stream : List UInt8}

/-- **Reading on.** The induction is on the reads to come. What carries it is that the buffer does
not match yet and is within the limit, as it is whenever the probe reads on. -/
theorem ended_receive (unmatched : matchesAll segments buffer = false)
    (short : buffer.length ≤ maxResponse) (pieces : ∀ piece ∈ reads, piece.length ≤ maxRead) :
    Ended segments (buffer ++ reads.flatten) (receive segments buffer reads).1
      (receive segments buffer reads).2 := by
  induction reads generalizing buffer with
  | nil =>
    rw [receive, List.flatten_nil, List.append_nil]
    refine ⟨List.prefix_refl buffer, ?_, fun _ => .inl rfl, ?_⟩
    · rw [unmatched]
      rfl
    · exact Nat.le_trans short (Nat.le_add_right maxResponse maxRead)
  | cons piece rest ih =>
    obtain ⟨hpiece, hrest⟩ := List.forall_mem_cons.1 pieces
    have length : (buffer ++ piece).length ≤ maxResponse + maxRead := by
      rw [List.length_append]
      exact Nat.add_le_add short hpiece
    have isPrefix : buffer ++ piece <+: buffer ++ (piece :: rest).flatten := by
      rw [List.flatten_cons, ← List.append_assoc]
      exact List.prefix_append (buffer ++ piece) rest.flatten
    rw [receive]
    by_cases hmatch : matchesAll segments (buffer ++ piece) = true
    · rw [if_pos hmatch]
      refine ⟨isPrefix, (if_pos hmatch).symm, fun hnot => ?_, length⟩
      rw [hmatch] at hnot
      cases hnot
    · rw [if_neg hmatch]
      by_cases hlong : maxResponse < (buffer ++ piece).length
      · rw [if_pos hlong]
        exact ⟨isPrefix, (if_neg hmatch).symm, fun _ => .inr hlong, length⟩
      · -- no match and still within the limit: the next read brings more
        rw [if_neg hlong, List.flatten_cons, ← List.append_assoc]
        exact ih (Bool.eq_false_iff.2 hmatch) (Nat.le_of_not_lt hlong) hrest

/-! ## Outcomes -/

section Outcomes

variable {outcome : Except ProbeError ProbeAnswer} {buffered : List UInt8}

/-- What matches within the limit is waited for. -/
theorem Ended.healthy (h : Ended segments stream outcome buffered)
    (within : matchesAll segments (stream.take maxResponse) = true) : outcome = .ok .healthy := by
  have found : matchesAll segments buffered = true := by
    by_contra hnot
    have least : stream.take maxResponse <+: buffered := by
      rcases h.patient (Bool.eq_false_iff.2 hnot) with hall | hlong
      · rw [hall]
        exact List.take_prefix maxResponse stream
      · -- both are beginnings of the stream, and the buffer is the longer one
        refine List.prefix_of_prefix_length_le (List.take_prefix maxResponse stream) h.isPrefix ?_
        exact Nat.le_trans (List.length_take_le maxResponse stream) (Nat.le_of_lt hlong)
    exact hnot (matchesAll_of_isInfix within least.isInfix)
  rw [h.outcome, if_pos found]

/-- What does not match at all does not pass. -/
theorem Ended.unexpected (h : Ended segments stream outcome buffered)
    (never : matchesAll segments stream = false) : outcome = .error .unexpectedResponse := by
  have missed : ¬ matchesAll segments buffered = true := by
    intro hmatch
    rw [matchesAll_of_isInfix hmatch h.isPrefix.isInfix] at never
    cases never
  rw [h.outcome, if_neg missed]

end Outcomes

theorem matchesAll_iff_inOrder (nonempty : ∀ segment ∈ segments, segment ≠ []) :
    matchesAll segments buffer = true ↔ InOrder segments buffer := by
  rw [matchesAll_eq_true_iff, wanted_eq_self nonempty]

/-- As long as nothing has come, something is missing. -/
theorem matchesAll_nil (expects : segments ≠ [])
    (nonempty : ∀ segment ∈ segments, segment ≠ []) : matchesAll segments [] = false := by
  rw [Bool.eq_false_iff, ne_eq, matchesAll_iff_inOrder nonempty]
  intro h
  obtain ⟨segment, rest, rfl⟩ := List.exists_cons_of_ne_nil expects
  obtain ⟨before, behind, hbytes, -⟩ := inOrder_cons_iff.1 h
  have hsegment := (List.append_eq_nil_iff.1 (List.append_eq_nil_iff.1 hbytes.symm).1).2
  exact nonempty segment List.mem_cons_self hsegment

/-- **Where a stream is cut does not matter** as far as the limit goes: if the segments are in
order within the first 64 KiB the probe passes, and if they never are it does not. What it has
buffered in the end is a beginning of the stream that is longer than the limit by one read at most;
it passes if and only if the segments are in order there. -/
theorem run_readAs (send : Option (List UInt8)) (expects : segments ≠ [])
    (nonempty : ∀ segment ∈ segments, segment ≠ []) (reading : ReadAs stream reads) :
    let outcome := run (.tcp send segments) (.answers reads)
    let buffered := (receive segments [] reads).2
    (InOrder segments (stream.take 65536) → outcome = .ok .healthy) ∧
      (¬ InOrder segments stream → outcome = .error .unexpectedResponse) ∧
      (buffered <+: stream ∧ buffered.length ≤ 65536 + 4096) ∧
      (InOrder segments buffered ∧ outcome = .ok .healthy ∨
        ¬ InOrder segments buffered ∧ outcome = .error .unexpectedResponse) := by
  intro outcome buffered
  have ended : Ended segments stream outcome buffered := by
    have started : outcome = (receive segments [] reads).1 :=
      if_neg (mt List.isEmpty_iff.1 expects)
    have received := ended_receive (matchesAll_nil expects nonempty) (Nat.zero_le maxResponse)
      reading.length_le
    rwa [List.nil_append, reading.flatten, ← started] at received
  refine ⟨fun within => ?_, fun never => ?_, ⟨ended.isPrefix, ended.length_le⟩, ?_⟩
  · exact ended.healthy ((matchesAll_iff_inOrder nonempty).2 within)
  · rw [← matchesAll_iff_inOrder nonempty, Bool.not_eq_true] at never
    exact ended.unexpected never
  · -- whether the probe passes is decided by what is buffered in the end
    rw [← matchesAll_iff_inOrder nonempty, ended.outcome]
    by_cases hmatch : matchesAll segments buffered = true
    · exact .inl ⟨hmatch, if_pos hmatch⟩
    · exact .inr ⟨hmatch, if_neg hmatch⟩

/-! ### An answer in two reads -/

section Pong

/-- The answer `+PONG` with the end of its line, cut within the word. -/
def pongReads : List (List UInt8) := [[43, 80, 79], [78, 71, 13, 10]]

/-- The word itself, and the end of the line behind it. -/
def pongSegments : List (List UInt8) := [[80, 79, 78, 71], [13, 10]]

/-- The word is found across the cut. Without its last byte it would not be. -/
theorem run_readAs_pong :
    run (.tcp none pongSegments) (.answers pongReads) = .ok .healthy ∧
      run (.tcp none pongSegments) (.answers [[43, 80, 79], [78, 13, 10]]) =
        .error .unexpectedResponse := by
  have expects : pongSegments ≠ [] := List.cons_ne_nil _ _
  have nonempty : ∀ segment ∈ pongSegments, segment ≠ [] := by decide
  have whole : ReadAs [43, 80, 79, 78, 71, 13, 10] pongReads := ⟨rfl, by decide, by decide⟩
  have cutShort : ReadAs [43, 80, 79, 78, 13, 10] [[43, 80, 79], [78, 13, 10]] :=
    ⟨rfl, by decide, by decide⟩
  have there : InOrder pongSegments ([43, 80, 79, 78, 71, 13, 10].take 65536) :=
    ⟨[43], [[], []], rfl, rfl⟩
  have missing : ¬ InOrder pongSegments [43, 80, 79, 78, 13, 10] := by
    rw [← matchesAll_iff_inOrder nonempty]
    decide
  exact ⟨(run_readAs none expects nonempty whole).1 there,
    (run_readAs none expects nonempty cutShort).2.1 missing⟩

end Pong

end TcpProbe

end LoadBalancing
