/-
Tables of TOML texts, as they come together.

A table can be written in pieces: by its own header, by headers of tables inside
it, and by keys with points. The rules say which pieces may be put together. A
table that only came up on the way to another one may be given a header of its own
later, once. A table made by a key with points cannot get a header, and a table
with a header cannot be extended by such keys from elsewhere. A value, inline
tables included, is complete as it is written.
-/
import LoadBalancing.Document.Node

set_option autoImplicit false

namespace LoadBalancing.Document.Toml

/-- What a key of a table under construction stands for. -/
inductive Item where
  | value (n : Node)
  /-- A table. It is implicit as long as it came up only on the way to another one,
  and dotted if it was made by a key with points. -/
  | table (isImplicit isDotted : Bool) (entries : List (String × Item))
  /-- A list of tables, each with a header; the last one comes first. -/
  | tables (items : List (List (String × Item)))

/-- A table that is being added to. -/
structure Section where
  isImplicit : Bool
  isDotted : Bool
  entries : List (String × Item)

namespace Section

/-- A table with a header, or the whole document. -/
def new : Section := ⟨false, false, []⟩

/-- The item under a key. -/
def get? (s : Section) (key : String) : Option Item :=
  (s.entries.find? fun e => e.1 == key).map (·.2)

/-- Puts an item under a new key, or in place of the one that is there. -/
def set (s : Section) (key : String) (item : Item) : Section :=
  if s.entries.any fun e => e.1 == key then
    { s with entries := s.entries.map fun e => if e.1 == key then (key, item) else e }
  else { s with entries := s.entries ++ [(key, item)] }

/-- The table without a key. -/
def erase (s : Section) (key : String) : Section :=
  { s with entries := s.entries.filter fun e => e.1 != key }

/-- Walks down a path and changes the table at its end. Missing tables come up on the
way; a list of tables stands for its last one. Keys with points do not enter tables
that have a header. -/
def descend (dotted : Bool) (change : Section → Option Section) :
    List String → Section → Option Section
  | [], s => change s
  | key :: path, s =>
    match s.get? key with
    | none => do
      let t ← descend dotted change path ⟨true, dotted, []⟩
      pure (s.set key (.table t.isImplicit t.isDotted t.entries))
    | some (.table isImplicit isDotted entries) =>
      if dotted && !isImplicit then none
      else do
        let t ← descend dotted change path ⟨isImplicit, isDotted, entries⟩
        pure (s.set key (.table t.isImplicit t.isDotted t.entries))
    | some (.tables (last :: before)) => do
      let t ← descend dotted change path ⟨false, false, last⟩
      pure (s.set key (.tables (t.entries :: before)))
    | some (.tables []) => none
    | some (.value _) => none

/-- Adds a key and its value. The last part must be new, and a path must end in a
table that was made by keys with points. -/
def addPair (s : Section) (path : List String) (key : String) (value : Node) : Option Section :=
  s.descend true (fun t =>
    if t.isDotted = path.isEmpty then none
    else if (t.get? key).isSome then none
    else some (t.set key (.value value))) path

/-- Adds all pairs in order, each with its full key. -/
def addPairs (s : Section) (pairs : List (List String × Node)) : Option Section :=
  pairs.foldl (fun s (key, value) => do
    (← s).addPair key.dropLast (← key.getLast?) value) (some s)

/-- Adds a table with a header and its pairs. The table may have come up before
without a header of its own. -/
def addTable (s : Section) (key : List String) (pairs : List (List String × Node)) :
    Option Section := do
  let last ← key.getLast?
  s.descend false (fun parent => do
    let entries ← match parent.get? last with
      | none => some []
      | some (.table true false entries) => some entries
      | some _ => none
    let t ← addPairs ⟨false, false, entries⟩ pairs
    pure ((parent.erase last).set last (.table t.isImplicit t.isDotted t.entries))) key.dropLast

/-- Adds one more table to a list of tables. -/
def addToList (s : Section) (key : List String) (pairs : List (List String × Node)) :
    Option Section := do
  let last ← key.getLast?
  let t ← addPairs new pairs
  s.descend false (fun parent =>
    match parent.get? last with
    | none => some (parent.set last (.tables [t.entries]))
    | some (.tables items) => some (parent.set last (.tables (t.entries :: items)))
    | some _ => none) key.dropLast

end Section

namespace Item

mutual

/-- The finished value. -/
def toNode : Item → Node
  | .value n => n
  | .table _ _ entries => .table (toEntries entries)
  | .tables items => .list (toTables items [])

/-- The entries of a table, finished one by one. -/
def toEntries : List (String × Item) → List (String × Node)
  | [] => []
  | (key, item) :: rest => (key, toNode item) :: toEntries rest

/-- The tables of a list in the order they are written. -/
def toTables : List (List (String × Item)) → List Node → List Node
  | [], acc => acc
  | entries :: rest, acc => toTables rest (.table (toEntries entries) :: acc)

end

end Item

namespace Section

/-- The finished table. -/
def toNode (s : Section) : Node :=
  .table (Item.toEntries s.entries)

end Section

end LoadBalancing.Document.Toml
