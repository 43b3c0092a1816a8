/-
Paths of files.

Slashes divide a path into segments. An empty segment and a single point stay where
they are and two points lead upward; any other segment is a name. The name at the end
decides what kind of file it is, by its extension. A directory without others in it
can hold a file at a path only if the path does not go down on its way and says the
name last.
-/

set_option autoImplicit false

namespace LoadBalancing.Document.Path

/-- What the slashes of a path divide. -/
def segments (path : String) : List String :=
  path.splitOn "/"

/-- Whether a segment leads nowhere. -/
def staysInPlace (segment : String) : Bool :=
  segment = "" || segment = "."

/-- Whether a segment leads to the directory above. -/
def leadsUp (segment : String) : Bool :=
  segment = ".."

/-- The name at the end of a path, without regard to segments that lead nowhere. A path
that ends by leading upward says no name. -/
def name? (path : String) : Option String := do
  let last ← ((segments path).filter fun s => !staysInPlace s).getLast?
  if leadsUp last then none else some last

/-- The last part of a name: after its last point, unless that is the first character. -/
def extensionOfName? (name : String) : Option String :=
  let tail := name.toList.reverse.takeWhile (· ≠ '.')
  if tail.length + 1 < name.length then some (String.ofList tail.reverse) else none

/-- The extension of the name at the end of a path. -/
def extension? (path : String) : Option String := do
  extensionOfName? (← name? path)

/-- The bytes of the longest name that a file can have. -/
def longestName : Nat := 255

/-- Whether a segment can be the name of a file. -/
def namesFile (segment : String) : Bool :=
  !staysInPlace segment && !leadsUp segment && segment.utf8ByteSize ≤ longestName
    && !segment.toList.contains '\x00'

/-- Whether a directory without others in it can hold a file at a path from there. -/
def canHoldFile (path : String) : Bool :=
  match (segments path).reverse with
  | [] => false
  | last :: before => namesFile last && before.all fun s => staysInPlace s || leadsUp s

end LoadBalancing.Document.Path
