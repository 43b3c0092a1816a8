/-
Blank texts: those that hold nothing but white space.

White space is the Unicode property of that name, 25 characters in all.
-/

set_option autoImplicit false

namespace LoadBalancing.Text

/-- The characters of white space, as closed ranges. -/
def whiteSpace : List (Nat × Nat) :=
  [(0x9, 0xd), (0x20, 0x20), (0x85, 0x85), (0xa0, 0xa0), (0x1680, 0x1680), (0x2000, 0x200a),
    (0x2028, 0x2029), (0x202f, 0x202f), (0x205f, 0x205f), (0x3000, 0x3000)]

def isWhiteSpace (c : Char) : Bool :=
  whiteSpace.any fun (low, high) => low ≤ c.toNat && c.toNat ≤ high

/-- Whether a text says nothing. -/
def isBlank (s : String) : Bool :=
  s.toList.all isWhiteSpace

end LoadBalancing.Text
