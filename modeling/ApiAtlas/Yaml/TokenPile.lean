import ApiAtlas.Yaml.Token

/-!
# Piles of tokens

The tokens of a text as far as it has been cut.  Most tokens are put behind
the others; a token that marks a key is put in front of tokens that are there
already.  The pile knows its count, so that the place of the next token can be
remembered without going through the others.
-/

namespace ApiAtlas.Yaml

/-- Tokens in the order of their places. -/
structure TokenPile where
  /-- The tokens, the last one first. -/
  latest : List Token
  count : Nat
  count_eq : count = latest.length

namespace TokenPile

/-- No tokens. -/
def empty : TokenPile := ⟨[], 0, rfl⟩

/-- The tokens, the first one first. -/
def toList (pile : TokenPile) : List Token := pile.latest.reverse

/-- The tokens in front of a place. -/
def before (place : Nat) (pile : TokenPile) : List Token :=
  (pile.latest.drop (pile.count - place)).reverse

/-- Puts a token behind the others. -/
def push (token : Token) (pile : TokenPile) : TokenPile where
  latest := token :: pile.latest
  count := pile.count + 1
  count_eq := by simp [pile.count_eq]

/-- Puts a token at a place, in front of those that are there. -/
def insertAt (place : Nat) (token : Token) (pile : TokenPile) :
    TokenPile where
  latest :=
    pile.latest.take (pile.count - place) ++
      token :: pile.latest.drop (pile.count - place)
  count := pile.count + 1
  count_eq := by
    have := pile.count_eq
    simp only [List.length_append, List.length_take, List.length_cons,
      List.length_drop]
    omega

@[simp]
theorem toList_push (token : Token) (pile : TokenPile) :
    (pile.push token).toList = pile.toList ++ [token] := by
  simp [push, toList]

theorem before_eq_take (place : Nat) (pile : TokenPile) :
    pile.before place = pile.toList.take place := by
  rw [before, toList, pile.count_eq, List.reverse_drop]
  by_cases inside : place ≤ pile.latest.length
  · congr 1
    omega
  · rw [List.take_of_length_le (by simp; omega),
      List.take_of_length_le (by simp; omega)]

end TokenPile

end ApiAtlas.Yaml
