/-
Tries over metadata tuples (`SubsetEntry`).

Each step of a path is a pair of a key and a value, so that the node at the end of
a tuple's path belongs to that tuple alone. Nodes on the way to others hold nothing.
Seen from outside a trie is a map from tuples: what was put at a tuple is found
there and nowhere else.
-/
import LoadBalancing.Metadata.Criteria

set_option autoImplicit false

namespace LoadBalancing

/-- A node with what it holds and the nodes one pair further (`SubsetEntry`). -/
inductive Trie (σ : Type) where
  | node (held : Option σ) (children : List ((String × Value) × Trie σ))

namespace Trie

variable {σ : Type}

/-- A node that holds nothing, with none further on. -/
def empty : Trie σ := .node none []

instance : Inhabited (Trie σ) := ⟨empty⟩

/-- What the node itself holds. -/
def held : Trie σ → Option σ
  | .node held _ => held

/-- The nodes one pair further, each with its pair. -/
def children : Trie σ → List ((String × Value) × Trie σ)
  | .node _ children => children

/-- The node one pair further. -/
def child? (t : Trie σ) (pair : String × Value) : Option (Trie σ) :=
  t.children.lookup pair

/-- The node of a tuple, if the path leads there (`SubsetEntry::find`). -/
def find? (t : Trie σ) : Tuple → Option (Trie σ)
  | [] => some t
  | pair :: rest => (t.child? pair).bind fun c => c.find? rest

/-- What is held at a tuple. -/
def get? (t : Trie σ) (tuple : Tuple) : Option σ :=
  (t.find? tuple).bind held

/-- Changes the child at `pair`, which is added where it is missing. -/
def alterChild (pair : String × Value) (f : Trie σ → Trie σ) :
    List ((String × Value) × Trie σ) → List ((String × Value) × Trie σ)
  | [] => [(pair, f empty)]
  | (p, c) :: rest => if p = pair then (p, f c) :: rest else (p, c) :: alterChild pair f rest

/-- Changes what is held at a tuple. The path to it is created where it is missing. -/
def alter (f : Option σ → Option σ) : Tuple → Trie σ → Trie σ
  | [], .node held children => .node (f held) children
  | pair :: rest, .node held children => .node held (alterChild pair (alter f rest) children)

/-- Changes the first child at `pair`, if there is one and it can be changed. -/
def modifyChild? (pair : String × Value) (f : Trie σ → Option (Trie σ)) :
    List ((String × Value) × Trie σ) → Option (List ((String × Value) × Trie σ))
  | [] => none
  | (p, c) :: rest =>
    if p = pair then (f c).map fun c => (p, c) :: rest
    else (modifyChild? pair f rest).map ((p, c) :: ·)

/-- Changes the node of a tuple, if the path leads there (`find_mut`). -/
def modify? (f : Trie σ → Trie σ) : Tuple → Trie σ → Option (Trie σ)
  | [], t => some (f t)
  | pair :: rest, .node held children =>
    (modifyChild? pair (modify? f rest) children).map (.node held)

/-- Creates the path of a tuple and changes nothing else (`find_or_create`). -/
def create (t : Trie σ) (tuple : Tuple) : Trie σ :=
  t.alter id tuple

/-- Puts `s` at a tuple (`set_subset`). -/
def insert (t : Trie σ) (tuple : Tuple) (s : σ) : Trie σ :=
  t.alter (fun _ => some s) tuple

/-! ## Visits -/

mutual

/-- All that is held, a node before those further on its paths (`for_each_subset`). -/
def toList : Trie σ → List σ
  | .node held children => held.toList ++ listOfChildren children

/-- All that is held at some nodes and further on. -/
def listOfChildren : List ((String × Value) × Trie σ) → List σ
  | [] => []
  | (_, c) :: rest => toList c ++ listOfChildren rest

end

mutual

/-- Replaces all that is held, in the order of `toList`, carrying a state along
(`for_each_subset_mut`). -/
def mapAccum {τ : Type} (f : τ → σ → σ × τ) : τ → Trie σ → Trie σ × τ
  | s, .node held children =>
    match held with
    | none =>
      let (children, s) := mapAccumChildren f s children
      (.node none children, s)
    | some x =>
      let (x, s) := f s x
      let (children, s) := mapAccumChildren f s children
      (.node (some x) children, s)

/-- The same for some nodes, one after the other. -/
def mapAccumChildren {τ : Type} (f : τ → σ → σ × τ) :
    τ → List ((String × Value) × Trie σ) → List ((String × Value) × Trie σ) × τ
  | s, [] => ([], s)
  | s, (pair, c) :: rest =>
    let (c, s) := mapAccum f s c
    let (rest, s) := mapAccumChildren f s rest
    ((pair, c) :: rest, s)

end

end Trie

end LoadBalancing
