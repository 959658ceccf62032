/-!
# Parts of texts

Cutting a text at a mark, finding one text inside another and replacing every
occurrence of a text.  `splitAt` never loses a character: its parts joined by
the mark are the text again.
-/

namespace ApiAtlas.Text

/-- The parts of a text between the occurrences of a mark; there is at least one. -/
def splitAt (mark : Char) : List Char → List (List Char)
  | [] => [[]]
  | c :: rest =>
    if c = mark then [] :: splitAt mark rest
    else
      match splitAt mark rest with
      | part :: parts => (c :: part) :: parts
      | [] => [[c]]

/-- The parts of a text, as texts. -/
def parts (mark : Char) (text : String) : List String :=
  (splitAt mark text.toList).map String.ofList

/-- A text cut at the first mark: what is before it, and behind it if it occurs. -/
def cutAt (mark : Char) (text : String) : String × Option String :=
  let before := String.ofList (text.toList.takeWhile (· ≠ mark))
  match text.toList.dropWhile (· ≠ mark) with
  | _ :: behind => (before, some (String.ofList behind))
  | [] => (before, none)

/-- Whether a text occurs inside another. -/
def occursIn (part : List Char) : List Char → Bool
  | [] => part.isEmpty
  | c :: rest => part.isPrefixOf (c :: rest) || occursIn part rest

/--
A text with every occurrence of a non-empty `old` replaced, from the left and
without looking at replacements again.  `skipped` characters belong to an
occurrence that has been replaced.
-/
def replaceFrom (old new : List Char) : Nat → List Char → List Char
  | _, [] => []
  | skipped + 1, _ :: rest => replaceFrom old new skipped rest
  | 0, c :: rest =>
    if old.isPrefixOf (c :: rest) then
      new ++ replaceFrom old new (old.length - 1) rest
    else c :: replaceFrom old new 0 rest

/-- A text with every occurrence of a non-empty text replaced by another. -/
def replaceAll (old new text : String) : String :=
  String.ofList (replaceFrom old.toList new.toList 0 text.toList)

/-- Whether a text ends in another, a single line end after it left aside. -/
def endsLine (test : List Char → Bool) (characters : List Char) : Bool :=
  test characters ||
    (characters.getLast? == some '\n' && test characters.dropLast)

end ApiAtlas.Text
