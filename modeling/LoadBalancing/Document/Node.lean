/-
Documents: what a configuration text says, whatever format it is written in.

A document is a tree of plain values, lists and tables. The readers keep tables
as they are written, repeated keys included, because whether a repeat is an error
depends on what the table is read as. A part that is well formed but has no value,
such as a number too large for any type, is kept too: it does no harm where nobody
looks at it.
-/

set_option autoImplicit false

namespace LoadBalancing.Document

/-- One value of a document. -/
inductive Node where
  | null
  | bool (b : Bool)
  | integer (n : Int)
  | float (x : Float)
  | text (s : String)
  | list (items : List Node)
  /-- A table in the order it is written. -/
  | table (entries : List (String × Node))
  /-- Well-formed text that has no value. -/
  | unreadable

namespace Node

instance : Inhabited Node := ⟨null⟩

/-! ## Making nodes -/

/-- A natural number as a value. -/
def nat (n : Nat) : Node :=
  .integer n

/-- A list of texts. -/
def texts (l : List String) : Node :=
  .list (l.map .text)

/-- `null` stands for what is missing. -/
def optional {α : Type} (f : α → Node) : Option α → Node
  | some a => f a
  | none => .null

/-! ## Readability -/

mutual

/-- Whether the node and all its parts have a value. -/
def isReadable : Node → Bool
  | .list items => allReadable items
  | .table entries => allEntriesReadable entries
  | .unreadable => false
  | _ => true

def allReadable : List Node → Bool
  | [] => true
  | n :: rest => isReadable n && allReadable rest

def allEntriesReadable : List (String × Node) → Bool
  | [] => true
  | (_, n) :: rest => isReadable n && allEntriesReadable rest

end

end Node

end LoadBalancing.Document
