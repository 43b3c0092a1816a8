/-
The places of a configuration at which something can be wrong, and how entries name them.

An entry of validation has two texts, the path of a field and a message. Paths name parts by their
numbers, but all selectors of a cluster share one path with its fallback, and only the message tells
which of them is meant. Both texts together name one place and no other (`Finding.Names.unique`),
since numbers and brackets end where they seem to end.
-/
import LoadBalancing.Config.Error
import LoadBalancing.Proofs.Text.Numbers

set_option autoImplicit false

namespace LoadBalancing

/-! ## Paths -/

namespace ClusterPart

/-- The path of a part as far as the bracket of its number. -/
def stem : ClusterPart → String
  | .name => "name"
  | .ring => "ring_hash"
  | .choices => "least_request.choice_count"
  | .panicThreshold => "common.healthy_panic_threshold"
  | .overprovisioning => "common.overprovisioning_factor"
  | .subset => "subset"
  | .checks | .check _ => "health_checks"
  | .hostAddress _ | .hostWeight _ => "hosts"
  | .localityWeight _ => "locality_weights"

/-- The number of a part, if it is one of several. -/
def index? : ClusterPart → Option Nat
  | .check i | .hostAddress i | .hostWeight i | .localityWeight i => some i
  | _ => none

/-- The path of a part behind its number. -/
def ending : ClusterPart → String
  | .check _ | .localityWeight _ => "]"
  | .hostAddress _ => "].address"
  | .hostWeight _ => "].weight"
  | _ => ""

/-- The path of a part from the bracket of its number on. -/
def indexed (p : ClusterPart) : String :=
  match p.index? with
  | none => ""
  | some i => "[" ++ (toString i ++ p.ending)

/-- The part with a given stem, number and ending. -/
def ofShape (stem : String) (index? : Option Nat) (ending : String) : Option ClusterPart :=
  if stem = "name" then some .name
  else if stem = "ring_hash" then some .ring
  else if stem = "least_request.choice_count" then some .choices
  else if stem = "common.healthy_panic_threshold" then some .panicThreshold
  else if stem = "common.overprovisioning_factor" then some .overprovisioning
  else if stem = "subset" then some .subset
  else if stem = "health_checks" then some (index?.elim .checks .check)
  else if stem = "locality_weights" then index?.map .localityWeight
  else if ending = "].address" then index?.map .hostAddress
  else index?.map .hostWeight

theorem ofShape_self (p : ClusterPart) : ofShape p.stem p.index? p.ending = some p := by
  cases p <;> rfl

theorem path_eq (p : ClusterPart) : p.path = p.stem ++ p.indexed := by
  have joined (stem ending : String) (i : Nat) :
      stem ++ "[" ++ toString i ++ ending = stem ++ ("[" ++ (toString i ++ ending)) := by
    rw [String.append_assoc, String.append_assoc]
  cases p with
  | check i => exact joined "health_checks" "]" i
  | hostAddress i => exact joined "hosts" "].address" i
  | hostWeight i => exact joined "hosts" "].weight" i
  | localityWeight i => exact joined "locality_weights" "]" i
  | _ => rfl

/-- No stem has a bracket, so that a path is cut at the first one. -/
theorem ne_bracket_of_mem_stem (p : ClusterPart) : ∀ c ∈ p.stem.toList, (c != '[') = true := by
  have all : p.stem.toList.all (· != '[') = true := by
    cases p <;> simp only [stem] <;> decide
  exact List.all_eq_true.1 all

theorem bracket_of_head_indexed (p : ClusterPart) :
    ∀ c ∈ p.indexed.toList.head?, (c != '[') = false := by
  rw [indexed]
  cases p.index? with
  | none => exact fun c hc => by cases hc
  | some i =>
    rw [String.toList_append]
    intro c hc
    obtain rfl : '[' = c := Option.some.inj hc
    rfl

theorem isDigit_of_head_ending (p : ClusterPart) :
    ∀ c ∈ p.ending.toList.head?, c.isDigit = false := by
  have all : p.ending.toList.head?.all (!·.isDigit) = true := by
    cases p <;> simp only [ending] <;> decide
  intro c hc
  rw [Option.mem_def.1 hc, Option.all_some, Bool.not_eq_true'] at all
  exact all

theorem ending_of_index? {p : ClusterPart} (h : p.index? = none) : p.ending = "" := by
  cases p <;> first | rfl | cases h

theorem indexed_injective {p q : ClusterPart} (h : p.indexed = q.indexed) :
    p.index? = q.index? ∧ p.ending = q.ending := by
  have bracketed (i : Nat) (ending : String) : "[" ++ (toString i ++ ending) ≠ "" := by
    rw [Ne, ← String.toList_inj, String.toList_append]
    exact List.cons_ne_nil _ _
  rw [indexed, indexed] at h
  cases hp : p.index? with
  | none =>
    cases hq : q.index? with
    | none => exact ⟨rfl, by rw [ending_of_index? hp, ending_of_index? hq]⟩
    | some j =>
      rw [hp, hq] at h
      exact absurd h.symm (bracketed j q.ending)
  | some i =>
    cases hq : q.index? with
    | none =>
      rw [hp, hq] at h
      exact absurd h (bracketed i p.ending)
    | some j =>
      rw [hp, hq] at h
      -- no ending begins with a digit, so the number ends where its digits do
      obtain ⟨rfl, hending⟩ := Text.append_toString_append_inj (isDigit_of_head_ending p)
        (isDigit_of_head_ending q) h
      exact ⟨rfl, hending⟩

/-- Paths tell the parts of a cluster apart. -/
theorem path_injective {p q : ClusterPart} (h : p.path = q.path) : p = q := by
  rw [path_eq, path_eq, ← String.toList_inj, String.toList_append, String.toList_append] at h
  obtain ⟨hstem, hindexed⟩ := Text.append_inj_of_run (ne_bracket_of_mem_stem p)
    (ne_bracket_of_mem_stem q) (bracket_of_head_indexed p) (bracket_of_head_indexed q) h
  rw [String.toList_inj] at hstem hindexed
  obtain ⟨hindex, hending⟩ := indexed_injective hindexed
  have hp := ofShape_self p
  rw [hstem, hindex, hending, ofShape_self, Option.some.injEq] at hp
  exact hp.symm

/-- The path of a part of cluster number `i`. -/
def pathIn (i : Nat) (p : ClusterPart) : String :=
  "clusters[" ++ toString i ++ "]." ++ p.path

/-- **Paths tell parts apart**, also those of different clusters. -/
theorem pathIn_injective {i i' : Nat} {p p' : ClusterPart} (h : p.pathIn i = p'.pathIn i') :
    i = i' ∧ p = p' := by
  have cut (i : Nat) (p : ClusterPart) :
      p.pathIn i = "clusters[" ++ (toString i ++ ("]." ++ p.path)) := by
    rw [pathIn, String.append_assoc, String.append_assoc]
  have closed (path : String) : ∀ c ∈ ("]." ++ path).toList.head?, c.isDigit = false := by
    rw [String.toList_append]
    intro c hc
    obtain rfl : ']' = c := Option.some.inj hc
    rfl
  rw [cut, cut] at h
  obtain ⟨rfl, hpath⟩ := Text.append_toString_append_inj (closed _) (closed _) h
  exact ⟨rfl, path_injective ((String.append_right_inj _).1 hpath)⟩

end ClusterPart

/-! ## Places -/

/-- A place of a cluster's configuration that one rule of validation is about. The selectors of the
subsets are places of their own, and so is what the subsets fall back to. -/
inductive Place where
  | name
  | ring
  | choices
  | panicThreshold
  | overprovisioning
  | selector (index : Nat)
  | subsetFallback
  | checks
  | check (index : Nat)
  | hostAddress (index : Nat)
  | hostWeight (index : Nat)
  | localityWeight (index : Nat)

namespace Place

/-- The part of the configuration that the place is in. -/
def part : Place → ClusterPart
  | .name => .name
  | .ring => .ring
  | .choices => .choices
  | .panicThreshold => .panicThreshold
  | .overprovisioning => .overprovisioning
  | .selector _ | .subsetFallback => .subset
  | .checks => .checks
  | .check i => .check i
  | .hostAddress i => .hostAddress i
  | .hostWeight i => .hostWeight i
  | .localityWeight i => .localityWeight i

/-- The only place in a part, if there are not several. -/
def ofPart? : ClusterPart → Option Place
  | .name => some .name
  | .ring => some .ring
  | .choices => some .choices
  | .panicThreshold => some .panicThreshold
  | .overprovisioning => some .overprovisioning
  | .subset => none
  | .checks => some .checks
  | .check i => some (.check i)
  | .hostAddress i => some (.hostAddress i)
  | .hostWeight i => some (.hostWeight i)
  | .localityWeight i => some (.localityWeight i)

/-- What a message about the place begins with, where the part is not enough to tell it. -/
def opening : Place → String
  | .selector i => "subset selector " ++ (toString i ++ ": ")
  | .subsetFallback => "subset fallback: "
  | _ => ""

theorem opening_selector (i : Nat) :
    (selector i).opening = "subset selector " ++ (toString i ++ ": ") :=
  rfl

theorem ofPart?_part {place : Place} (h : place.part ≠ .subset) :
    ofPart? place.part = some place := by
  cases place with
  | selector i => exact absurd rfl h
  | subsetFallback => exact absurd rfl h
  | _ => rfl

theorem exists_ofPart? {part : ClusterPart} (h : part ≠ .subset) :
    ∃ place, ofPart? part = some place := by
  cases part <;> first | exact ⟨_, rfl⟩ | exact absurd rfl h

theorem part_of_ofPart? {part : ClusterPart} {place : Place} (h : ofPart? part = some place) :
    place.part = part ∧ place.opening = "" := by
  cases part <;> cases h <;> exact ⟨rfl, rfl⟩

theorem of_part_eq_subset {place : Place} (h : place.part = .subset) :
    (∃ i, place = .selector i) ∨ place = .subsetFallback := by
  cases place with
  | selector i => exact .inl ⟨i, rfl⟩
  | subsetFallback => exact .inr rfl
  | _ => cases h

/-- The number of a selector is told from the rest of a message about it. -/
theorem selector_opening_injective {i i' : Nat} {rest rest' : String}
    (h : (selector i).opening ++ rest = (selector i').opening ++ rest') : i = i' := by
  have cut (i : Nat) (rest : String) : (selector i).opening ++ rest =
      "subset selector " ++ (toString i ++ (": " ++ rest)) := by
    rw [opening_selector, String.append_assoc, String.append_assoc]
  have closed (rest : String) : ∀ c ∈ (": " ++ rest).toList.head?, c.isDigit = false := by
    rw [String.toList_append]
    intro c hc
    obtain rfl : ':' = c := Option.some.inj hc
    rfl
  rw [cut, cut] at h
  exact (Text.append_toString_append_inj (closed rest) (closed rest') h).1

/-- No message is about a selector and about the fallback. -/
theorem selector_opening_ne (i : Nat) (rest rest' : String) :
    (selector i).opening ++ rest ≠ subsetFallback.opening ++ rest' := by
  intro h
  have left : ((selector i).opening ++ rest).toList =
      "subset selector ".toList ++ ((toString i ++ ": ").toList ++ rest.toList) := by
    rw [opening_selector, String.append_assoc, String.toList_append, String.toList_append]
  have right : (subsetFallback.opening ++ rest').toList =
      "subset fallback: ".toList ++ rest'.toList := String.toList_append
  have beginning : "subset s".toList = "subset f".toList :=
    congrArg (List.take 8) (left.symm.trans ((congrArg String.toList h).trans right))
  exact absurd beginning (by decide)

/-- Within a part, messages about different places begin differently. -/
theorem opening_injective {place place' : Place} (samePart : place.part = place'.part)
    {rest rest' : String} (h : place.opening ++ rest = place'.opening ++ rest') :
    place = place' := by
  by_cases hsubset : place.part = .subset
  · rcases of_part_eq_subset hsubset with ⟨i, rfl⟩ | rfl
    · rcases of_part_eq_subset (samePart ▸ hsubset) with ⟨i', rfl⟩ | rfl
      · rw [selector_opening_injective h]
      · exact absurd h (selector_opening_ne i rest rest')
    · rcases of_part_eq_subset (samePart ▸ hsubset) with ⟨i', rfl⟩ | rfl
      · exact absurd h.symm (selector_opening_ne i' rest' rest)
      · rfl
  · have hplace := ofPart?_part hsubset
    rw [samePart, ofPart?_part (samePart ▸ hsubset), Option.some.injEq] at hplace
    exact hplace.symm

end Place

/-- An entry names a place of a cluster: its path is that of the place, and its message begins as
one about the place. -/
def Finding.Names (f : Finding) (i : Nat) (place : Place) : Prop :=
  f.field = place.part.pathIn i ∧ ∃ rest, f.message = place.opening ++ rest

/-- A finding about cluster number `j` names a place if it is one about the place. -/
theorem Finding.names_iff {f : Finding} {i j : Nat} {place : Place} (hf : f.cluster = some j) :
    f.Names i place ↔
      j = i ∧ f.part = place.part ∧ ∃ rest, f.cause.message = place.opening ++ rest := by
  have hfield : f.field = f.part.pathIn j := by rw [Finding.field, hf]; rfl
  rw [Finding.Names, hfield, Finding.message]
  constructor
  · rintro ⟨hpath, hmessage⟩
    obtain ⟨rfl, hpart⟩ := ClusterPart.pathIn_injective hpath
    exact ⟨rfl, hpart, hmessage⟩
  · rintro ⟨rfl, hpart, hmessage⟩
    exact ⟨hpart ▸ rfl, hmessage⟩

/-- **No entry names two places.** -/
theorem Finding.Names.unique {f : Finding} {i i' : Nat} {place place' : Place}
    (h : f.Names i place) (h' : f.Names i' place') : i = i' ∧ place = place' := by
  obtain ⟨hfield, rest, hmessage⟩ := h
  obtain ⟨hfield', rest', hmessage'⟩ := h'
  obtain ⟨rfl, samePart⟩ := ClusterPart.pathIn_injective (hfield.symm.trans hfield')
  exact ⟨rfl, Place.opening_injective samePart (hmessage.symm.trans hmessage')⟩

end LoadBalancing
