/-
Numbers in TOML texts.

Digits may also begin a date or a time, so those are tried first; then numbers with
a fraction or an exponent, infinity and not-a-number; then integers, which may be
written in four bases and have 64 signed bits. Single underscores may stand between
two digits.
-/
import LoadBalancing.Document.Toml.Moment

set_option autoImplicit false

namespace LoadBalancing.Document.Toml

/-! ## Digits -/

/-- Digits of one kind, single underscores allowed between two of them; without the
underscores. -/
def digits? (isDigit : Char → Bool) : List Char → Option (List Char × List Char)
  | '_' :: _ => none
  | c :: rest =>
    if isDigit c then
      match rest with
      | '_' :: rest' => (digits? isDigit rest').map fun (ds, after) => (c :: ds, after)
      | d :: rest' =>
        if isDigit d then (digits? isDigit (d :: rest')).map fun (ds, after) => (c :: ds, after)
        else some ([c], rest)
      | [] => some ([c], [])
    else none
  | [] => none

/-- Whether a minus sign is at the head, and what is left without any sign. -/
def sign (cs : List Char) : Bool × List Char :=
  match cs with
  | '-' :: rest => (true, rest)
  | '+' :: rest => (false, rest)
  | _ => (false, cs)

/-- A decimal integer without its sign: a lone zero, or digits that do not begin with one. -/
def whole? : List Char → Option (List Char × List Char)
  | '0' :: rest => some (['0'], rest)
  | cs => digits? Char.isDigit cs

/-! ## Numbers -/

/-- The integer `n` of 64 signed bits. -/
def integer64? (n : Int) : Option Node :=
  if -0x8000000000000000 ≤ n && n < 0x8000000000000000 then some (.integer n) else none

/-- The double nearest to `significand * 10 ^ exponent`, infinity beyond the largest.
The number of digits tells at once which exponents lead far out of range. -/
def nearest (significand : Nat) (exponent : Int) : Float :=
  let count := (toString significand).length
  if significand = 0 then 0
  else if 310 < exponent + count then 1 / 0
  else if exponent + count < -330 then 0
  else
    match exponent with
    | .ofNat e => Float.ofScientific significand false e
    | .negSucc e => Float.ofScientific significand true (e + 1)

/-- A decimal number with a fraction, an exponent or both. Only a negative one may
be infinite. -/
def float? (cs : List Char) : Option (Node × List Char) := do
  let (negative, cs) := sign cs
  let (integer, cs) ← whole? cs
  let (fraction, cs) ← match cs with
    | '.' :: rest => digits? Char.isDigit rest
    | _ => some ([], cs)
  let (exponent, after) ←
    if cs.head? = some 'e' || cs.head? = some 'E' then
      let (negative, cs) := sign cs.tail
      (digits? Char.isDigit cs).bind fun (ds, after) =>
        (ofDigits? 10 ds).map fun e => ((if negative then -(e : Int) else e), after)
    else if fraction.isEmpty then none
    else some (0, cs)
  let significand ← ofDigits? 10 (integer ++ fraction)
  let x := nearest significand (exponent - fraction.length)
  if x.isInf && !negative then none
  else pure (.float (if negative then -x else x), after)

/-- Infinity or not-a-number, with or without a sign. -/
def special? (cs : List Char) : Option (Node × List Char) :=
  let (negative, cs) := sign cs
  match cs with
  | 'i' :: 'n' :: 'f' :: rest => some (.float (if negative then -1 / 0 else 1 / 0), rest)
  | 'n' :: 'a' :: 'n' :: rest =>
    some (.float (.ofBits (if negative then 0xfff8000000000000 else 0x7ff8000000000000)), rest)
  | _ => none

/-- A number in the base that its mark names. -/
def based? (base : Nat) (isDigit : Char → Bool) (cs : List Char) : Option (Node × List Char) := do
  let (digits, rest) ← digits? isDigit cs
  pure (← integer64? (← ofDigits? base digits), rest)

/-- Digits of base sixteen, in either case. -/
def isHexDigit (c : Char) : Bool :=
  (hexDigit? c).isSome

/-- An integer in any of the four bases. -/
def integer? : List Char → Option (Node × List Char)
  | '0' :: 'x' :: rest => based? 16 isHexDigit rest
  | '0' :: 'o' :: rest => based? 8 (fun c => '0' ≤ c && c ≤ '7') rest
  | '0' :: 'b' :: rest => based? 2 (fun c => c = '0' || c = '1') rest
  | cs => do
    let (negative, cs) := sign cs
    let (digits, rest) ← whole? cs
    let n ← ofDigits? 10 digits
    pure (← integer64? (if negative then -(n : Int) else n), rest)

/-- A date, a time, or a number of any kind. -/
def number? (cs : List Char) : Option (Node × List Char) :=
  match moment? cs with
  | some (moment, rest) => some (moment.toNode, rest)
  | none => (float? cs <|> special? cs) <|> integer? cs

end LoadBalancing.Document.Toml
