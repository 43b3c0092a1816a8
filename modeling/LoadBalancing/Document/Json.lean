/-
JSON texts read as documents.

A text is one value with white space around it. Texts in quotes may not hold
control characters. A `\u` escape that names half of a pair without its other half
is well formed but stands for no character, so the text, or the table whose key it
is, is unreadable. Values may nest 127 levels deep.
-/
import LoadBalancing.Document.JsonNumber

set_option autoImplicit false

namespace LoadBalancing.Document.Json

/-- How deep lists and tables may nest. -/
def maxDepth : Nat := 127

def isSpace (c : Char) : Bool :=
  c = ' ' || c = '\t' || c = '\n' || c = '\r'

def skipSpace (cs : List Char) : List Char :=
  cs.dropWhile isSpace

/-! ## Numbers -/

/-- A number, and what follows it. There is at least one integer digit and no
needless zero in front; a point and an exponent mark are followed by digits. -/
def number? (cs : List Char) : Option (Node × List Char) := do
  let (negative, cs) := match cs with
    | '-' :: rest => (true, rest)
    | _ => (false, cs)
  let integer := cs.takeWhile Char.isDigit
  let cs := cs.dropWhile Char.isDigit
  guard (!integer.isEmpty && (integer.length = 1 || integer.head? ≠ some '0'))
  let (fraction, cs) ← match cs with
    | '.' :: rest =>
      let digits := rest.takeWhile Char.isDigit
      if digits.isEmpty then none else some (some digits, rest.dropWhile Char.isDigit)
    | _ => some (none, cs)
  let (exponent, cs) ←
    if cs.head? = some 'e' || cs.head? = some 'E' then
      let (negative, rest) := match cs.tail with
        | '+' :: rest => (false, rest)
        | '-' :: rest => (true, rest)
        | rest => (false, rest)
      let digits := rest.takeWhile Char.isDigit
      if digits.isEmpty then none
      else some (some (negative, digits), rest.dropWhile Char.isDigit)
    else some (none, cs)
  pure (JsonNumber.toNode { negative, integer, fraction, exponent }, cs)

/-! ## Texts -/

def hexDigit? (c : Char) : Option Nat :=
  if '0' ≤ c && c ≤ '9' then some (c.toNat - '0'.toNat)
  else if 'a' ≤ c && c ≤ 'f' then some (c.toNat - 'a'.toNat + 10)
  else if 'A' ≤ c && c ≤ 'F' then some (c.toNat - 'A'.toNat + 10)
  else none

/-- The number of four hexadecimal digits. -/
def unit? (a b c d : Char) : Option Nat := do
  pure ((((← hexDigit? a) * 16 + (← hexDigit? b)) * 16 + (← hexDigit? c)) * 16 + (← hexDigit? d))

/-- What stands between quotes, piece by piece. -/
inductive Piece where
  /-- A character as it is, or by its short escape. -/
  | char (c : Char)
  /-- A 16-bit unit by its number. -/
  | unit (n : Nat)

/-- The character of a short escape. -/
def shortEscape? : Char → Option Char
  | '"' => some '"'
  | '\\' => some '\\'
  | '/' => some '/'
  | 'b' => some '\x08'
  | 'f' => some '\x0c'
  | 'n' => some '\n'
  | 'r' => some '\r'
  | 't' => some '\t'
  | _ => none

/-- The pieces up to the closing quote, and what follows it; `acc` holds those before,
last first. -/
def pieces? (acc : List Piece) : List Char → Option (List Piece × List Char)
  | '"' :: rest => some (acc.reverse, rest)
  | '\\' :: 'u' :: a :: b :: c :: d :: rest => do
    let n ← unit? a b c d
    pieces? (.unit n :: acc) rest
  | '\\' :: c :: rest => do
    let c ← shortEscape? c
    pieces? (.char c :: acc) rest
  | c :: rest => if c.toNat < 0x20 || c = '\\' then none else pieces? (.char c :: acc) rest
  | [] => none

def isHighHalf (n : Nat) : Bool :=
  0xd800 ≤ n && n < 0xdc00

def isLowHalf (n : Nat) : Bool :=
  0xdc00 ≤ n && n < 0xe000

/-- The characters of pieces: two halves make one; none if a half stands alone. -/
def join? : List Piece → Option (List Char)
  | [] => some []
  | .char c :: rest => (join? rest).map (c :: ·)
  | .unit n :: rest =>
    if isHighHalf n then
      match rest with
      | .unit m :: rest =>
        if isLowHalf m then
          (join? rest).map (Char.ofNat (0x10000 + (n - 0xd800) * 0x400 + (m - 0xdc00)) :: ·)
        else none
      | _ => none
    else if isLowHalf n then none
    else (join? rest).map (Char.ofNat n :: ·)

/-- A text whose opening quote is read already: none within if it is unreadable. -/
def text? (cs : List Char) : Option (Option String × List Char) := do
  let (pieces, rest) ← pieces? [] cs
  pure ((join? pieces).map String.ofList, rest)

/-! ## Values -/

/-- Expects `word` and gives `node` for it. -/
def word? (word : String) (node : Node) (cs : List Char) : Option (Node × List Char) :=
  if word.toList.isPrefixOf cs then some (node, cs.drop word.length) else none

mutual

/-- A value at the head of `cs`. `fuel` bounds the steps and `depth` is how many more
levels may open. -/
def value? (fuel depth : Nat) (cs : List Char) : Option (Node × List Char) :=
  match fuel with
  | 0 => none
  | fuel + 1 =>
    match cs with
    | 'n' :: _ => word? "null" .null cs
    | 't' :: _ => word? "true" (.bool true) cs
    | 'f' :: _ => word? "false" (.bool false) cs
    | '"' :: rest => do
      let (s, rest) ← text? rest
      pure (s.elim .unreadable .text, rest)
    | '[' :: rest =>
      match depth with
      | 0 => none
      | depth + 1 =>
        match skipSpace rest with
        | ']' :: rest => some (.list [], rest)
        | rest => items? fuel depth [] rest
    | '\x7b' :: rest =>
      match depth with
      | 0 => none
      | depth + 1 =>
        match skipSpace rest with
        | '\x7d' :: rest => some (.table [], rest)
        | rest => entries? fuel depth true [] rest
    | _ => number? cs

/-- The items of a list up to its closing bracket; `acc` holds those before, last first. -/
def items? (fuel depth : Nat) (acc : List Node) (cs : List Char) : Option (Node × List Char) :=
  match fuel with
  | 0 => none
  | fuel + 1 => do
    let (item, rest) ← value? fuel depth (skipSpace cs)
    match skipSpace rest with
    | ',' :: rest => items? fuel depth (item :: acc) rest
    | ']' :: rest => pure (.list (item :: acc).reverse, rest)
    | _ => none

/-- The entries of a table up to its closing brace. -/
def entries? (fuel depth : Nat) (readable : Bool) (acc : List (String × Node)) (cs : List Char) :
    Option (Node × List Char) :=
  match fuel with
  | 0 => none
  | fuel + 1 =>
    match skipSpace cs with
    | '"' :: rest => do
      let (key, rest) ← text? rest
      match skipSpace rest with
      | ':' :: rest =>
        let (value, rest) ← value? fuel depth (skipSpace rest)
        let readable := readable && key.isSome
        let acc := (key.getD "", value) :: acc
        match skipSpace rest with
        | ',' :: rest => entries? fuel depth readable acc rest
        | '\x7d' :: rest =>
          pure (if readable then .table acc.reverse else .unreadable, rest)
        | _ => none
      | _ => none
    | _ => none

end

/-- The document that a text writes. Every step of the reader takes at least one
character or stops, or passes once from a list to its item, so twice the length is
fuel enough. -/
def read? (text : String) : Option Node := do
  let cs := text.toList
  let (node, rest) ← value? (2 * cs.length + 2) maxDepth (skipSpace cs)
  if (skipSpace rest).isEmpty then pure node else none

end LoadBalancing.Document.Json
