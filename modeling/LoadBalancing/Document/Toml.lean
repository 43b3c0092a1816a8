/-
TOML texts read as documents.

A text is a list of lines: keys with their values, headers of tables, comments.
Values may run over several lines inside brackets and triple quotes. The lines
after a header belong to its table; the tables are put together as the headers
say. A text may begin with a byte order mark.
-/
import LoadBalancing.Document.Toml.Number
import LoadBalancing.Document.Toml.Section

set_option autoImplicit false

namespace LoadBalancing.Document.Toml

/-! ## Values -/

/-- Expects `word` and gives `node` for it. -/
def word? (word : String) (node : Node) (cs : List Char) : Option (Node × List Char) :=
  if word.toList.isPrefixOf cs then some (node, cs.drop word.length) else none

mutual

/-- A value at the head of `cs`. `fuel` bounds the steps and `depth` is how many more
levels may open. -/
def value? (fuel depth : Nat) (cs : List Char) : Option (Node × List Char) :=
  match fuel with
  | 0 => none
  | fuel + 1 =>
    match cs with
    | '"' :: _ | '\'' :: _ => (string? cs).map fun (s, rest) => (.text s, rest)
    | '[' :: rest =>
      match depth with
      | 0 => none
      | depth + 1 => items? fuel depth [] rest
    | '\x7b' :: rest =>
      match depth with
      | 0 => none
      | depth + 1 =>
        match skipSpace rest with
        | '\x7d' :: rest => some (.table [], rest)
        | _ => pairs? fuel depth [] rest
    | 't' :: _ => word? "true" (.bool true) cs
    | 'f' :: _ => word? "false" (.bool false) cs
    | 'i' :: _ | 'n' :: _ => special? cs
    | _ => number? cs

/-- The items of a list up to its closing bracket; `acc` holds those before, last
first. A comma may follow the last item. -/
def items? (fuel depth : Nat) (acc : List Node) (cs : List Char) : Option (Node × List Char) :=
  match fuel with
  | 0 => none
  | fuel + 1 =>
    match skipLines cs.length cs with
    | ']' :: rest => some (.list acc.reverse, rest)
    | cs => do
      let (item, rest) ← value? fuel depth cs
      match skipLines rest.length rest with
      | ',' :: rest => items? fuel depth (item :: acc) rest
      | ']' :: rest => pure (.list (item :: acc).reverse, rest)
      | _ => none

/-- The pairs of an inline table up to its closing brace. -/
def pairs? (fuel depth : Nat) (acc : List (List String × Node)) (cs : List Char) :
    Option (Node × List Char) :=
  match fuel with
  | 0 => none
  | fuel + 1 => do
    let (key, rest) ← key? (nestingLimit - 1) cs
    let rest ← expect? '=' rest
    let (value, rest) ← value? fuel depth (skipSpace rest)
    let acc := (key, value) :: acc
    match skipSpace rest with
    | ',' :: rest => pairs? fuel depth acc rest
    | '\x7d' :: rest =>
      let t ← Section.new.addPairs acc.reverse
      pure (t.toNode, rest)
    | _ => none

end

/-! ## Lines -/

/-- A line of a text, as far as it says something. -/
inductive Line where
  | pair (key : List String) (value : Node)
  | header (key : List String)
  | listHeader (key : List String)

/-- A line that begins with a key or a bracket, with all that belongs to its value. -/
def line? (cs : List Char) : Option (Line × List Char) :=
  match cs with
  | '[' :: '[' :: rest => do
    let (key, rest) ← key? (nestingLimit - 1) rest
    let rest ← expect? ']' rest
    let rest ← expect? ']' rest
    pure (.listHeader key, ← lineEnd? rest)
  | '[' :: rest => do
    let (key, rest) ← key? (nestingLimit - 1) rest
    let rest ← expect? ']' rest
    pure (.header key, ← lineEnd? rest)
  | cs => do
    let (key, rest) ← key? (nestingLimit - 1) cs
    let rest ← expect? '=' rest
    let (value, rest) ← value? (2 * cs.length + 2) (nestingLimit - 1) (skipSpace rest)
    pure (.pair key value, ← lineEnd? rest)

/-- All lines of a text; lines that are blank or hold only a comment are left out. One
unit of fuel goes with each line. -/
def lines? (fuel : Nat) (acc : List Line) (cs : List Char) : Option (List Line) :=
  match fuel with
  | 0 => none
  | fuel + 1 =>
    match skipSpace cs with
    | [] => some acc.reverse
    | rest =>
      match rest.head?, lineEnd? rest with
      | some '#', some rest | some '\n', some rest | some '\r', some rest => lines? fuel acc rest
      | some '#', none | some '\n', none | some '\r', none => none
      | _, _ => do
        let (line, rest) ← line? rest
        lines? fuel (line :: acc) rest

/-! ## Tables -/

/-- The pairs at the head of a list of lines, before the next header. -/
def leadingPairs : List Line → List (List String × Node)
  | .pair key value :: rest => (key, value) :: leadingPairs rest
  | _ => []

/-- Adds the tables of all headers, each with the pairs that follow it. -/
def addSections (s : Section) : List Line → Option Section
  | [] => some s
  | .pair _ _ :: rest => addSections s rest
  | .header key :: rest => do addSections (← s.addTable key (leadingPairs rest)) rest
  | .listHeader key :: rest => do addSections (← s.addToList key (leadingPairs rest)) rest

/-- The document that a text writes. -/
def read? (text : String) : Option Node := do
  let cs := match text.toList with
    | '\ufeff' :: rest => rest
    | cs => cs
  let lines ← lines? (cs.length + 1) [] cs
  let top ← Section.new.addPairs (leadingPairs lines)
  let all ← addSections top lines
  pure all.toNode

end LoadBalancing.Document.Toml
