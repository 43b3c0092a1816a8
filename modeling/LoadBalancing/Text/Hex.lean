/-
Bytes written in hexadecimal.

ASCII white space may stand anywhere between the digits. What is left must be an
even number of digits, two for each byte, and there must be some. Problems name
the text as it was given, but count positions in bytes and without white space.
-/
import LoadBalancing.Text.Quoted

set_option autoImplicit false

namespace LoadBalancing.Text

/-- Why a text is no list of bytes in hexadecimal. -/
inductive HexProblem where
  | empty
  | oddLength (text : String)
  | badDigit (byte : UInt8) (position : Nat) (text : String)
  deriving DecidableEq, Repr

namespace HexProblem

/-- The problem in words. A byte that is no digit is shown as the character of its number. -/
def message : HexProblem → String
  | .empty => "empty hex payload"
  | .oddLength text => "Odd number of digits in " ++ quote text
  | .badDigit byte position text =>
    "Invalid character " ++ quoteChar (Char.ofNat byte.toNat) ++ " at position "
      ++ toString position ++ " in " ++ quote text

end HexProblem

/-- The white space that may stand between hexadecimal digits. -/
def isAsciiSpace (c : Char) : Bool :=
  c = ' ' || c = '\t' || c = '\n' || c = '\x0c' || c = '\r'

/-- The value of a hexadecimal digit, given as its ASCII byte. -/
def hexValue? (b : UInt8) : Option UInt8 :=
  if 48 ≤ b && b ≤ 57 then some (b - 48)
  else if 97 ≤ b && b ≤ 102 then some (b - 87)
  else if 65 ≤ b && b ≤ 70 then some (b - 55)
  else none

/-- Reads digits in pairs; `position` is the place of the first one. -/
def pairs (text : String) (position : Nat) : List UInt8 → Except HexProblem (List UInt8)
  | high :: low :: rest =>
    match hexValue? high, hexValue? low with
    | some h, some l => (pairs text (position + 2) rest).map ((h * 16 + l) :: ·)
    | none, _ => .error (.badDigit high position text)
    | some _, none => .error (.badDigit low (position + 1) text)
  | [_] => .error (.oddLength text)
  | [] => .ok []

/-- The bytes that a text writes in hexadecimal (`decode_hex`). -/
def decodeHex (text : String) : Except HexProblem (List UInt8) :=
  let digits := (String.ofList (text.toList.filter fun c => !isAsciiSpace c)).toUTF8.toList
  if digits.isEmpty then .error .empty
  else if digits.length % 2 = 1 then .error (.oddLength text)
  else pairs text 0 digits

/-- Bytes in lower-case hexadecimal, two digits each. -/
def encodeHex (bytes : List UInt8) : String :=
  String.ofList (bytes.flatMap fun b =>
    [Nat.digitChar (b.toNat / 16), Nat.digitChar (b.toNat % 16)])

end LoadBalancing.Text
