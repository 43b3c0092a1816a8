/-
The small parts of TOML texts: white space, comments, strings and keys.

Every reader takes the characters from its own beginning on and returns what it
read together with the rest. Strings between triple quotes may run over several
lines; a line break right after the opening quotes is not part of them, a
backslash at the end of a line swallows all white space up to the next character,
and up to two quotes may stand directly before the closing ones.
-/
set_option autoImplicit false

namespace LoadBalancing.Document.Toml

/-! ## White space, line ends, comments -/

/-- The rest after the character `c`. -/
def expect? (c : Char) : List Char → Option (List Char)
  | d :: rest => if c = d then some rest else none
  | [] => none

/-- White space within a line: a space or a tab. -/
def isSpace (c : Char) : Bool :=
  c = ' ' || c = '\t'

/-- The rest after white space. -/
def skipSpace (cs : List Char) : List Char :=
  cs.dropWhile isSpace

/-- A line break: a line feed, with or without a carriage return before it. -/
def newline? : List Char → Option (List Char)
  | '\n' :: rest => some rest
  | '\r' :: '\n' :: rest => some rest
  | _ => none

/-- Characters that may stand in comments and, quotes and backslashes apart, in strings. -/
def isTextChar (c : Char) : Bool :=
  c = '\t' || (0x20 ≤ c.toNat && c.toNat ≠ 0x7f)

/-- The rest after a comment, if there is one. -/
def skipComment : List Char → List Char
  | '#' :: rest => rest.dropWhile isTextChar
  | cs => cs

/-- The rest after the end of a line: white space, perhaps a comment, and a line
break or the end of the text. -/
def lineEnd? (cs : List Char) : Option (List Char) :=
  match skipComment (skipSpace cs) with
  | [] => some []
  | rest => newline? rest

/-- The rest after white space, line breaks and comments that end in a line break.
One unit of fuel goes with each line. -/
def skipLines (fuel : Nat) (cs : List Char) : List Char :=
  match fuel with
  | 0 => cs
  | fuel + 1 =>
    let rest := skipSpace cs
    match newline? (skipComment rest) with
    | some rest => skipLines fuel rest
    | none => rest

/-! ## Strings -/

def hexDigit? (c : Char) : Option Nat :=
  if '0' ≤ c && c ≤ '9' then some (c.toNat - '0'.toNat)
  else if 'a' ≤ c && c ≤ 'f' then some (c.toNat - 'a'.toNat + 10)
  else if 'A' ≤ c && c ≤ 'F' then some (c.toNat - 'A'.toNat + 10)
  else none

/-- The number that digits write in a base. -/
def ofDigits? (base : Nat) (digits : List Char) : Option Nat :=
  digits.foldl (fun n c => do
    let n ← n
    let d ← hexDigit? c
    if d < base then some (n * base + d) else none) (some 0)

/-- The character of a code point; surrogates are none. -/
def scalar? (digits : List Char) : Option Char := do
  let n ← ofDigits? 16 digits
  if n < 0xd800 || (0xdfff < n && n ≤ 0x10ffff) then some (Char.ofNat n) else none

/-- The character of a short escape. -/
def shortEscape? : Char → Option Char
  | 'b' => some '\x08'
  | 'f' => some '\x0c'
  | 'n' => some '\n'
  | 'r' => some '\r'
  | 't' => some '\t'
  | '"' => some '"'
  | '\\' => some '\\'
  | _ => none

/-- A string on one line, after its opening quote; `acc` holds what was read, last first. -/
def basic? (acc : List Char) : List Char → Option (String × List Char)
  | '"' :: rest => some (String.ofList acc.reverse, rest)
  | '\\' :: 'u' :: a :: b :: c :: d :: rest => do
    basic? ((← scalar? [a, b, c, d]) :: acc) rest
  | '\\' :: 'U' :: a :: b :: c :: d :: e :: f :: g :: h :: rest => do
    basic? ((← scalar? [a, b, c, d, e, f, g, h]) :: acc) rest
  | '\\' :: c :: rest => do
    basic? ((← shortEscape? c) :: acc) rest
  | c :: rest => if isTextChar c && c ≠ '\\' then basic? (c :: acc) rest else none
  | [] => none

/-- Whether a backslash before `cs` stands at the end of a line. -/
def breaksLine (cs : List Char) : Bool :=
  (newline? (skipSpace cs)).isSome

/-- A string of several lines, after its opening quotes. With `trimming` the white
space that a backslash swallows is still being read. -/
def multiBasic? (trimming : Bool) (acc : List Char) : List Char → Option (String × List Char)
  | '\r' :: '\n' :: rest => multiBasic? trimming (if trimming then acc else '\n' :: acc) rest
  | '\n' :: rest => multiBasic? trimming (if trimming then acc else '\n' :: acc) rest
  | '"' :: '"' :: '"' :: '"' :: '"' :: rest =>
    -- up to two quotes before the closing three belong to the string
    some (String.ofList ('"' :: '"' :: acc).reverse, rest)
  | '"' :: '"' :: '"' :: '"' :: rest => some (String.ofList ('"' :: acc).reverse, rest)
  | '"' :: '"' :: '"' :: rest => some (String.ofList acc.reverse, rest)
  | '\\' :: 'u' :: a :: b :: c :: d :: rest => do
    multiBasic? false ((← scalar? [a, b, c, d]) :: acc) rest
  | '\\' :: 'U' :: a :: b :: c :: d :: e :: f :: g :: h :: rest => do
    multiBasic? false ((← scalar? [a, b, c, d, e, f, g, h]) :: acc) rest
  | '\\' :: c :: rest =>
    if breaksLine (c :: rest) then multiBasic? true acc (c :: rest)
    else do multiBasic? false ((← shortEscape? c) :: acc) rest
  | c :: rest =>
    if trimming && isSpace c then multiBasic? true acc rest
    else if isTextChar c && c ≠ '\\' then multiBasic? false (c :: acc) rest
    else none
  | [] => none

/-- A literal string on one line, after its opening apostrophe. -/
def literal? (acc : List Char) : List Char → Option (String × List Char)
  | '\'' :: rest => some (String.ofList acc.reverse, rest)
  | c :: rest => if isTextChar c then literal? (c :: acc) rest else none
  | [] => none

/-- A literal string of several lines, after its opening apostrophes. -/
def multiLiteral? (acc : List Char) : List Char → Option (String × List Char)
  | '\r' :: '\n' :: rest => multiLiteral? ('\n' :: acc) rest
  | '\n' :: rest => multiLiteral? ('\n' :: acc) rest
  | '\'' :: '\'' :: '\'' :: '\'' :: '\'' :: rest =>
    some (String.ofList ('\'' :: '\'' :: acc).reverse, rest)
  | '\'' :: '\'' :: '\'' :: '\'' :: rest => some (String.ofList ('\'' :: acc).reverse, rest)
  | '\'' :: '\'' :: '\'' :: rest => some (String.ofList acc.reverse, rest)
  | c :: rest => if isTextChar c then multiLiteral? (c :: acc) rest else none
  | [] => none

/-- Without the line break at the head, if there is one. -/
def dropNewline (cs : List Char) : List Char :=
  (newline? cs).getD cs

/-- A string of any of the four kinds. -/
def string? : List Char → Option (String × List Char)
  | '"' :: '"' :: '"' :: rest => multiBasic? false [] (dropNewline rest)
  | '"' :: rest => basic? [] rest
  | '\'' :: '\'' :: '\'' :: rest => multiLiteral? [] (dropNewline rest)
  | '\'' :: rest => literal? [] rest
  | _ => none

/-! ## Keys -/

/-- Characters of keys that need no quotes. -/
def isBareKeyChar (c : Char) : Bool :=
  c.isAlphanum || c = '_' || c = '-'

/-- One part of a key: bare, or a string on one line. -/
def keyPart? : List Char → Option (String × List Char)
  | '"' :: rest => basic? [] rest
  | '\'' :: rest => literal? [] rest
  | cs =>
    let key := cs.takeWhile isBareKeyChar
    if key.isEmpty then none else some (String.ofList key, cs.dropWhile isBareKeyChar)

/-- How many parts a key may have, and how deep values may nest, plus one. -/
def nestingLimit : Nat := 80

/-- A key of parts between points, with white space around each part. `fuel` bounds
the number of parts. -/
def key? (fuel : Nat) (cs : List Char) : Option (List String × List Char) :=
  match fuel with
  | 0 => none
  | fuel + 1 => do
    let (part, rest) ← keyPart? (skipSpace cs)
    match skipSpace rest with
    | '.' :: rest =>
      let (parts, rest) ← key? fuel rest
      pure (part :: parts, rest)
    | rest => pure ([part], rest)

end LoadBalancing.Document.Toml
