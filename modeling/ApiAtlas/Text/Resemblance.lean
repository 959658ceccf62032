/-!
# Resemblance of texts

How much two texts have in common: the longest run that stands in both, and
the runs in common before and after it.  Of several longest runs the first one
counts.  Names that resemble a mistaken one are offered in its place.
-/

namespace ApiAtlas.Text

/-- The number of characters that two texts share at their starts. -/
def sharedStart : List Char → List Char → Nat
  | a :: as, b :: bs => if a = b then sharedStart as bs + 1 else 0
  | _, _ => 0

/-- A run of characters that stands in two texts. -/
structure SharedRun where
  /-- Where it starts in the one text. -/
  first : Nat
  /-- Where it starts in the other. -/
  second : Nat
  length : Nat

/-- The longer of two runs, and the earlier one of equals. -/
def SharedRun.longer (run other : SharedRun) : SharedRun :=
  if run.length < other.length then other else run

/-- The longest run that stands in two texts. -/
def longestShared (one other : List Char) : SharedRun :=
  (List.range one.length).foldl
    (fun found first =>
      (List.range other.length).foldl
        (fun found second =>
          found.longer
            ⟨first, second,
              sharedStart (one.drop first) (other.drop second)⟩)
        found)
    ⟨0, 0, 0⟩

/-- The number of characters in runs in common, within a number of rounds. -/
def sharedWithin : Nat → List Char → List Char → Nat
  | 0, _, _ => 0
  | rounds + 1, one, other =>
    let run := longestShared one other
    if run.length = 0 then 0
    else
      sharedWithin rounds (one.take run.first) (other.take run.second) +
        run.length +
        sharedWithin rounds (one.drop (run.first + run.length))
          (other.drop (run.second + run.length))

/-- The number of characters in runs in common. -/
def sharedCount (one other : List Char) : Nat :=
  sharedWithin one.length one other

/-- Whether three fifths of the characters of two texts are in common. -/
def resembles (one other : String) : Bool :=
  let total := one.length + other.length
  3 * total ≤ 5 * (2 * sharedCount one.toList other.toList)

/-- Whether a first name resembles a text no less than a second one does. -/
def resemblesMore (text first second : String) : Bool :=
  let shared (name : String) := sharedCount name.toList text.toList
  let weight := shared first * (second.length + text.length)
  let otherWeight := shared second * (first.length + text.length)
  if weight = otherWeight then second ≤ first else otherWeight ≤ weight

/-- The three names that resemble a text most, in order of the alphabet. -/
def resembling (names : List String) (text : String) : List String :=
  let found :=
    (names.filter fun name => resembles name text).mergeSort
      (resemblesMore text)
  (found.take 3).mergeSort (fun one other => one ≤ other)

end ApiAtlas.Text
