import ApiAtlas.Fault
import ApiAtlas.Text.Blank
import ApiAtlas.Text.LetterCase
import ApiAtlas.Text.Parts

/-!
# Names of operations

The methods that operations may have, the name of a client's function for an
operation, and the name of an operation that states none.
-/

namespace ApiAtlas.Naming

/-- The methods that an operation may have. -/
def methods : List String :=
  ["GET", "POST", "PUT", "PATCH", "DELETE", "HEAD", "OPTIONS", "TRACE"]

/-- The method that a text names, letter case left aside. -/
def method (text : String) : Except Fault String :=
  let capital := Text.toCapital text
  if capital ∈ methods then .ok capital
  else .error (.unsupportedMethod text)

/-- Whether a character is a small basic letter. -/
def isSmallLetter (c : Char) : Bool := 'a' ≤ c && c ≤ 'z'

/-- A text in which an underscore and the small letter after it are one capital. -/
def camelCharacters : List Char → List Char
  | [] => []
  | [c] => [c]
  | c :: d :: rest =>
    if c = '_' ∧ isSmallLetter d then d.toUpper :: camelCharacters rest
    else c :: camelCharacters (d :: rest)

/-- The name of a client's function. -/
def camel (name : String) : String :=
  String.ofList (camelCharacters name.toList)

/-- A path without slashes at its ends and without braces, joined by underscores. -/
def pathWords (path : List Char) : List Char :=
  let inner := Text.trimBy (· == '/') path
  let joined := inner.map fun c => if c = '/' then '_' else c
  joined.filter fun c => c ≠ '\x7b' && c ≠ '\x7d'

/-- The name of an operation that states none. -/
def derivedId (method path : String) : String :=
  let words := String.ofList (pathWords path.toList)
  (if words = "" then "root" else words) ++ "_" ++ Text.toSmall method

end ApiAtlas.Naming
