/-
Which bytes hold the segments that a probe expects.

Segments are in order if some bytes come first, and then each segment with some bytes behind it
(`InOrder`). Equally they have places, none of which begins before the segment in front has ended
(`inOrder_iff_exists_places`). The matcher takes each segment where it occurs first and never comes
back to it. Nothing is lost by that: wherever else the segment is taken, what follows its first
occurrence ends with what follows that other one (`exists_afterFirst`), and segments that are in
order in some bytes are so with any bytes around them (`InOrder.of_isInfix`). So it finds the
segments if and only if they are there (`matchesAll_eq_true_iff`).
-/
import LoadBalancing.Check.TcpProbe
import Mathlib.Data.List.Infix

set_option autoImplicit false

namespace LoadBalancing

namespace TcpProbe

/-! ## Segments in order -/

/-- The bytes hold the segments in order and without overlap: there is a first gap, and one gap
behind each segment. Gaps may be empty. -/
def InOrder (segments : List (List UInt8)) (bytes : List UInt8) : Prop :=
  ∃ (first : List UInt8) (gaps : List (List UInt8)), gaps.length = segments.length ∧
    bytes = first ++ (List.zipWith (· ++ ·) segments gaps).flatten

variable {segment bytes before behind : List UInt8} {segments : List (List UInt8)}

theorem inOrder_nil (bytes : List UInt8) : InOrder [] bytes :=
  ⟨bytes, [], rfl, (List.append_nil bytes).symm⟩

theorem inOrder_cons_iff : InOrder (segment :: segments) bytes ↔
    ∃ before behind, bytes = before ++ segment ++ behind ∧ InOrder segments behind := by
  constructor
  · rintro ⟨first, gaps, hlength, rfl⟩
    cases gaps with
    | nil => cases hlength
    | cons gap gaps =>
      rw [List.length_cons, List.length_cons, Nat.add_right_cancel_iff] at hlength
      refine ⟨first, gap ++ (List.zipWith (· ++ ·) segments gaps).flatten, ?_,
        gap, gaps, hlength, rfl⟩
      simp only [List.zipWith_cons_cons, List.flatten_cons, List.append_assoc]
  · rintro ⟨before, behind, rfl, first, gaps, hlength, rfl⟩
    refine ⟨before, first :: gaps, congrArg (· + 1) hlength, ?_⟩
    simp only [List.zipWith_cons_cons, List.flatten_cons, List.append_assoc]

/-- Bytes may come in front of those that hold the segments, and behind them. -/
theorem InOrder.of_isInfix {longer : List UInt8} (h : InOrder segments bytes)
    (isInfix : bytes <:+: longer) : InOrder segments longer := by
  induction segments generalizing bytes longer with
  | nil => exact inOrder_nil longer
  | cons segment rest ih =>
    obtain ⟨before, behind, rfl, hrest⟩ := inOrder_cons_iff.1 h
    obtain ⟨front, back, rfl⟩ := isInfix
    -- what comes in front goes into the first gap, and the rest has all that comes behind
    have further : InOrder rest (behind ++ back) :=
      ih hrest (List.prefix_append behind back).isInfix
    refine inOrder_cons_iff.2 ⟨front ++ before, behind ++ back, ?_, further⟩
    simp only [List.append_assoc]

/-! ## Places of segments -/

/-- Each segment is found at its place, and each ends before any later one begins. -/
structure StandAt (segments : List (List UInt8)) (bytes : List UInt8) (places : List Nat) :
    Prop where
  length : places.length = segments.length
  found : ∀ x ∈ places.zip segments, x.2 <+: bytes.drop x.1
  apart : (places.zip segments).Pairwise fun x y => x.1 + x.2.length ≤ y.1

/-- Behind a segment, places are counted from its end. -/
theorem StandAt.cons {places : List Nat} (h : StandAt segments behind places)
    (before segment : List UInt8) :
    StandAt (segment :: segments) (before ++ segment ++ behind)
      (before.length :: places.map (· + (before ++ segment).length)) where
  length := by rw [List.length_cons, List.length_map, h.length, List.length_cons]
  found := by
    rw [List.zip_cons_cons, List.zip_map_left, List.forall_mem_cons]
    refine ⟨?_, fun x hx => ?_⟩
    · rw [List.append_assoc, List.drop_left]
      exact List.prefix_append segment behind
    · obtain ⟨y, hy, rfl⟩ := List.mem_map.1 hx
      -- to drop all up to a place is to drop the front first, and then up to where the place was
      have here := h.found y hy
      rw [Prod.map_fst, Prod.map_snd, Nat.add_comm, ← List.drop_drop, List.drop_left]
      exact here
  apart := by
    rw [List.zip_cons_cons, List.zip_map_left, List.pairwise_cons, List.pairwise_map]
    refine ⟨fun x hx => ?_, h.apart.imp fun {x y} hxy => ?_⟩
    · obtain ⟨y, -, rfl⟩ := List.mem_map.1 hx
      simp only [Prod.map_fst, List.length_append]
      omega
    · simp only [Prod.map_fst, Prod.map_snd, id_eq]
      omega

/-- The first segment in its place leaves the places of the others behind it. -/
theorem StandAt.tail {place : Nat} {places : List Nat}
    (h : StandAt (segment :: segments) bytes (place :: places)) :
    bytes = bytes.take place ++ segment ++ bytes.drop (place + segment.length) ∧
      StandAt segments (bytes.drop (place + segment.length))
        (places.map (· - (place + segment.length))) := by
  obtain ⟨length, found, apart⟩ := h
  rw [List.zip_cons_cons, List.forall_mem_cons] at found
  rw [List.zip_cons_cons, List.pairwise_cons] at apart
  -- what is said of all places is said of the first, and of the others
  obtain ⟨here, found⟩ := found
  obtain ⟨after, apart⟩ := apart
  constructor
  · obtain ⟨behind, hbehind⟩ := here
    have rest : bytes.drop (place + segment.length) = behind := by
      rw [← List.drop_drop, ← hbehind, List.drop_left]
    rw [rest, List.append_assoc, hbehind, List.take_append_drop]
  · refine ⟨by simpa using length, ?_, ?_⟩
    · rw [List.zip_map_left]
      intro x hx
      obtain ⟨y, hy, rfl⟩ := List.mem_map.1 hx
      have hle : place + segment.length ≤ y.1 := after y hy
      have same : place + segment.length + (y.1 - (place + segment.length)) = y.1 := by omega
      rw [Prod.map_fst, Prod.map_snd, List.drop_drop, same]
      exact found y hy
    · -- all others lie behind the first one, so moving them back by as much keeps their distances
      rw [List.zip_map_left, List.pairwise_map]
      refine apart.imp_of_mem fun {x y} hx hy hxy => ?_
      have hx : place + segment.length ≤ x.1 := after x hx
      have hy : place + segment.length ≤ y.1 := after y hy
      simp only [Prod.map_fst, Prod.map_snd, id_eq]
      omega

/-- **To be in order is to have places** that do not overlap. -/
theorem inOrder_iff_exists_places :
    InOrder segments bytes ↔ ∃ places, StandAt segments bytes places := by
  constructor
  · intro h
    induction segments generalizing bytes with
    | nil => exact ⟨[], rfl, by simp, by simp⟩
    | cons segment rest ih =>
      obtain ⟨before, behind, rfl, hrest⟩ := inOrder_cons_iff.1 h
      obtain ⟨places, hplaces⟩ := ih hrest
      exact ⟨_, hplaces.cons before segment⟩
  · rintro ⟨places, h⟩
    induction segments generalizing bytes places with
    | nil => exact inOrder_nil bytes
    | cons segment rest ih =>
      cases places with
      | nil => cases h.length
      | cons place places =>
        obtain ⟨hbytes, hrest⟩ := h.tail
        exact inOrder_cons_iff.2 ⟨_, _, hbytes, ih _ hrest⟩

/-! ## The first occurrence -/

theorem exists_before_of_afterFirst (h : afterFirst segment bytes = some behind) :
    ∃ before, bytes = before ++ segment ++ behind := by
  induction bytes with
  | nil =>
    rw [afterFirst] at h
    split at h
    next hempty =>
      cases h
      exact ⟨[], by rw [List.isEmpty_iff.1 hempty]; rfl⟩
    next => cases h
  | cons b rest ih =>
    rw [afterFirst] at h
    split at h
    next hhere =>
      cases h
      exact ⟨[], (List.prefix_iff_eq_append.1 (List.isPrefixOf_iff_prefix.1 hhere)).symm⟩
    next =>
      -- it was found further on, so one more byte is in front of it
      obtain ⟨before, hrest⟩ := ih h
      exact ⟨b :: before, congrArg (b :: ·) hrest⟩

/-- **The first occurrence leaves the most**: a segment that occurs anywhere is found, and what
follows its first occurrence ends with what follows the other one. -/
theorem exists_afterFirst (before segment behind : List UInt8) :
    ∃ most, afterFirst segment (before ++ segment ++ behind) = some most ∧ behind <:+ most := by
  induction before with
  | nil =>
    rw [List.nil_append]
    cases hbytes : segment ++ behind with
    | nil =>
      obtain ⟨rfl, rfl⟩ := List.append_eq_nil_iff.1 hbytes
      exact ⟨[], rfl, List.suffix_refl []⟩
    | cons b rest =>
      have here : segment.isPrefixOf (b :: rest) = true := by
        rw [List.isPrefixOf_iff_prefix, ← hbytes]
        exact List.prefix_append segment behind
      refine ⟨behind, ?_, List.suffix_refl behind⟩
      rw [afterFirst, if_pos here, ← hbytes, List.drop_left]
  | cons b before ih =>
    rw [List.cons_append, List.cons_append, afterFirst]
    by_cases hearlier : segment.isPrefixOf (b :: (before ++ segment ++ behind)) = true
    · rw [if_pos hearlier]
      refine ⟨_, rfl, ?_⟩
      -- both ends are ends of the same bytes, and the one in question is not the longer one
      have whole : behind <:+ b :: (before ++ segment ++ behind) :=
        List.suffix_append (b :: (before ++ segment)) behind
      refine List.suffix_of_suffix_length_le whole (List.drop_suffix _ _) ?_
      simp only [List.length_drop, List.length_cons, List.length_append]
      omega
    · rw [if_neg hearlier]
      exact ih

/-! ## The matcher -/

/-- The segments that are looked for. One that is empty would be found anywhere. -/
def wanted (segments : List (List UInt8)) : List (List UInt8) :=
  segments.filter fun segment => !segment.isEmpty

/-- **The matcher finds the segments if and only if they are there.** The induction is on the
segments: going on behind the first occurrence is going on behind every occurrence. -/
theorem matchesAll_eq_true_iff (segments : List (List UInt8)) (buffer : List UInt8) :
    matchesAll segments buffer = true ↔ InOrder (wanted segments) buffer := by
  induction segments generalizing buffer with
  | nil => exact iff_of_true rfl (inOrder_nil buffer)
  | cons segment rest ih =>
    rw [matchesAll]
    by_cases hempty : segment.isEmpty = true
    · have skipped : wanted (segment :: rest) = wanted rest :=
        List.filter_cons_of_neg (by simp [hempty])
      rw [if_pos hempty, skipped, ih]
    · have looked : wanted (segment :: rest) = segment :: wanted rest :=
        List.filter_cons_of_pos (by simp [hempty])
      rw [if_neg hempty, looked, inOrder_cons_iff]
      constructor
      · intro h
        split at h
        next behind hfirst =>
          obtain ⟨before, hbuffer⟩ := exists_before_of_afterFirst hfirst
          exact ⟨before, behind, hbuffer, (ih behind).1 h⟩
        next => cases h
      · rintro ⟨before, behind, rfl, hrest⟩
        -- wherever the others were found, more is left behind the first occurrence
        obtain ⟨most, hfirst, hsuffix⟩ := exists_afterFirst before segment behind
        rw [hfirst]
        exact (ih most).2 (hrest.of_isInfix hsuffix.isInfix)

/-- What matches goes on to match, whatever comes around it. -/
theorem matchesAll_of_isInfix {buffer longer : List UInt8}
    (h : matchesAll segments buffer = true) (isInfix : buffer <:+: longer) :
    matchesAll segments longer = true :=
  (matchesAll_eq_true_iff segments longer).2
    (((matchesAll_eq_true_iff segments buffer).1 h).of_isInfix isInfix)

/-- Where no segment is empty, all are looked for. -/
theorem wanted_eq_self (nonempty : ∀ segment ∈ segments, segment ≠ []) :
    wanted segments = segments := by
  rw [wanted, List.filter_eq_self]
  intro segment hsegment
  rw [Bool.not_eq_true', List.isEmpty_eq_false_iff]
  exact nonempty segment hsegment

/-- **A buffer matches if and only if it can be split** into gaps with the segments that are not
empty in between, in order; so it does if and only if these have places that do not overlap. And
more bytes never undo a match. -/
theorem matchesAll_splits (segments : List (List UInt8)) (buffer : List UInt8) :
    (matchesAll segments buffer = true ↔
      ∃ (first : List UInt8) (gaps : List (List UInt8)), gaps.length = (wanted segments).length ∧
        buffer = first ++ (List.zipWith (· ++ ·) (wanted segments) gaps).flatten) ∧
    (matchesAll segments buffer = true ↔ ∃ places, StandAt (wanted segments) buffer places) ∧
    ∀ more, matchesAll segments buffer = true → matchesAll segments (buffer ++ more) = true := by
  refine ⟨matchesAll_eq_true_iff segments buffer, ?_, fun more h => ?_⟩
  · rw [matchesAll_eq_true_iff, inOrder_iff_exists_places]
  · exact matchesAll_of_isInfix h (List.prefix_append buffer more).isInfix

/-- The second segment needs a byte of its own. -/
example : matchesAll [[1, 1], [], [1]] [1, 1] = false ∧
    matchesAll [[1, 1], [], [1]] [0, 1, 1, 1] = true := by
  decide

end TcpProbe

end LoadBalancing
