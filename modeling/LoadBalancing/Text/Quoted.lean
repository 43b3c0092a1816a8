/-
Texts quoted for people to read in messages.

A quoted text stands between quotes. Inside, a quote, a backslash, the usual
control characters and NUL have short escapes; any other character that does not
show as itself is written by its number; all the rest stand as they are. A single
character is quoted the same way between apostrophes, where the apostrophe is
escaped and the double quote is not.
-/
import LoadBalancing.Text.Printable

set_option autoImplicit false

namespace LoadBalancing.Text

/-- A code point in lower-case hexadecimal digits. -/
def hexDigits (n : Nat) : String :=
  String.ofList (Nat.toDigits 16 n)

/-- A character as it is written between marks of kind `mark`. -/
def escape (mark : Char) (c : Char) : String :=
  if c = '\x00' then "\\0"
  else if c = '\t' then "\\t"
  else if c = '\n' then "\\n"
  else if c = '\r' then "\\r"
  else if c = '\\' then "\\\\"
  else if c = mark then "\\" ++ c.toString
  else if isPrintable c then c.toString
  else "\\u\x7b" ++ hexDigits c.toNat ++ "\x7d"

/-- A text between double quotes. -/
def quote (s : String) : String :=
  "\"" ++ String.join (s.toList.map (escape '"')) ++ "\""

/-- A character between apostrophes. -/
def quoteChar (c : Char) : String :=
  "'" ++ escape '\'' c ++ "'"

end LoadBalancing.Text
