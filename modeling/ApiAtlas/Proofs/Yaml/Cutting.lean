import ApiAtlas.Proofs.Outcome
import ApiAtlas.Proofs.Yaml.Word

/-!
# Trees cut into tokens

How a text that writes a tree is cut into tokens.  Every step either refuses
the text or takes the next token of the tree; what carries the run is that a
state stays in a gap in front of what is left.  Only the mark of a key may be
missing, where the colon is not found in time, and then the document is refused
later.
-/

namespace ApiAtlas.Yaml

open Json (Gap Label Pieces Word Written WrittenItems WrittenMembers)

/-! ## Possible keys -/

section Key

variable {state : Cutting}

/-- Giving up a key leaves no key, or the text is refused. -/
theorem dropKey_cases (key : Option PossibleKey) :
    Cutting.dropKey key = .error .malformed ∨
      Cutting.dropKey key = .ok none := by
  cases key with
  | none => exact Or.inr rfl
  | some key =>
    rw [Cutting.dropKey]
    split
    · exact Or.inl rfl
    · exact Or.inr rfl

/-- A key that is given up is left out, or the text is refused. -/
theorem dropKey_if_cases (isStale : Bool) (key : Option PossibleKey) :
    (if isStale then Cutting.dropKey key else .ok key) = .error .malformed ∨
      ∃ left,
        (if isStale then Cutting.dropKey key else .ok key) = .ok left ∧
          (left = none ∨ left = key) := by
  cases isStale with
  | false => exact Or.inr ⟨key, rfl, Or.inr rfl⟩
  | true =>
    rcases dropKey_cases key with refused | dropped
    · exact Or.inl refused
    · exact Or.inr ⟨none, dropped, Or.inl rfl⟩

/-- What is left of the possible keys when some of them have been given up. -/
structure Fewer (keys left : List (Option PossibleKey)) : Prop where
  length : left.length = keys.length
  head : ∀ key, left.head?.join = some key → keys.head?.join = some key

theorem dropStale_cases (state : Cutting) :
    state.dropStale = .error .malformed ∨
      ∃ keys, state.dropStale = .ok { state with keys } ∧
        Fewer state.keys keys := by
  have each (key : Option PossibleKey) :=
    dropKey_if_cases (key.any (Cutting.isStale state.cursor)) key
  rw [Cutting.dropStale]
  cases found :
      state.keys.mapM fun key =>
        if key.any (Cutting.isStale state.cursor) then Cutting.dropKey key
        else .ok key with
  | error rejection =>
    rcases mapM_eq_error_iff.1 found with ⟨_, key, -, failed, -⟩
    rcases each key with refused | ⟨left, passed, -⟩
    · cases refused.symm.trans failed
      exact Or.inl rfl
    · cases passed.symm.trans failed
  | ok keys =>
    refine Or.inr ⟨keys, rfl, ?_⟩
    have related := mapM_eq_ok_iff.1 found
    clear found
    rcases state with ⟨cursor, tokens, indents, before, keyAllowed⟩
    dsimp only at related ⊢
    refine ⟨related.length_eq.symm, ?_⟩
    cases related with
    | nil =>
      rintro key ⟨⟩
    | @cons first left others rest passed behind =>
      rcases each first with refused | ⟨other, same, none | kept⟩
      · cases refused.symm.trans passed
      · cases same.symm.trans passed
        rw [none]
        rintro key ⟨⟩
      · cases same.symm.trans passed
        rw [kept]
        exact fun key same => same

theorem dropCurrent_cases (state : Cutting) :
    state.dropCurrent = .error .malformed ∨
      ∃ keys, state.dropCurrent = .ok { state with keys } ∧
        keys.length = state.keys.length := by
  rcases state with ⟨cursor, tokens, indents, - | ⟨key, outer⟩, keyAllowed⟩
  · exact Or.inr ⟨[], rfl, rfl⟩
  · rcases dropKey_cases key with refused | dropped
    · refine Or.inl ?_
      simp only [Cutting.dropCurrent, refused]
      rfl
    · refine Or.inr ⟨none :: outer, ?_, rfl⟩
      simp only [Cutting.dropCurrent, dropped]
      rfl

/-- Where a key may start, the next token is remembered as the innermost key. -/
theorem rememberKey_cases (levels : state.keys ≠ []) :
    state.rememberKey = .error .malformed ∨
      ∃ keys, state.rememberKey = .ok { state with keys } ∧
        keys.length = state.keys.length ∧
        (state.keyAllowed = true →
          ∃ key, keys.head?.join = some key ∧
            key.position = state.tokens.count) := by
  rcases state with ⟨cursor, tokens, indents, keys, - | -⟩
  · exact Or.inr ⟨keys, rfl, rfl, fun none => by cases none⟩
  · have positive := List.length_pos_iff.2 levels
    simp only [Cutting.rememberKey, Bool.not_true, Bool.false_eq_true,
      if_false]
    rcases dropCurrent_cases ⟨cursor, tokens, indents, keys, true⟩ with
      refused | ⟨left, dropped, length⟩
    · exact Or.inl (by rw [refused]; rfl)
    · rw [dropped]
      refine Or.inr ⟨_, rfl, ?_, fun _ => ⟨_, rfl, ?_⟩⟩
      · rw [List.length_cons, List.length_tail]
        dsimp only at positive length ⊢
        omega
      · rfl

end Key

/-! ## Runs -/

/-- Whether the tokens of a text break off where it is not well-formed. -/
structure Tokens.IsRefused (cut : Tokens) : Prop where
  rejection : cut.rejection = some .malformed
  noEnd : Token.textEnd ∉ cut.tokens

/--
Whether the tokens from a state on are those from another state on with some
property, unless they break off.
-/
def Leads (state : Cutting) (post : Cutting → Prop) : Prop :=
  ∀ fuel,
    (tokensFrom fuel state).IsRefused ∨
      ∃ left next, post next ∧ tokensFrom fuel state = tokensFrom left next

theorem Leads.trans
    {state : Cutting} {between post : Cutting → Prop}
    (first : Leads state between)
    (second : ∀ next, between next → Leads next post) : Leads state post := by
  intro fuel
  rcases first fuel with refused | ⟨left, next, holds, same⟩
  · exact Or.inl refused
  · rw [same]
    exact second next holds left

theorem Leads.mono
    {state : Cutting} {between post : Cutting → Prop}
    (first : Leads state between)
    (implies : ∀ next, between next → post next) : Leads state post :=
  fun fuel =>
    (first fuel).imp_right fun ⟨left, next, holds, same⟩ =>
      ⟨left, next, implies next holds, same⟩

/--
A state in a gap in front of what is left of a text, with some tokens and some
levels of brackets, in which no block is open.
-/
structure Cutting.At
    (tail : List Char) (taken : List Token) (depth : Nat)
    (state : Cutting) : Prop where
  place : AtGap tail state.cursor
  tokens : state.tokens.toList = taken
  noEnd : Token.textEnd ∉ taken
  noBlock : state.indents = []
  depth : state.keys.length = depth

section Run

variable {tail : List Char} {taken : List Token} {depth : Nat}
variable {state near : Cutting}

/-- A state in front of the next token, which another state has come to. -/
structure Cutting.Near
    (tail : List Char) (taken : List Token) (depth : Nat)
    (state near : Cutting) : Prop where
  here : near.At tail taken depth
  rest : near.cursor.rest = tail
  fewer : Fewer state.keys near.keys
  keyAllowed : state.keyAllowed = true → near.keyAllowed = true

/-- On the way to the next token a state stays in the gap. -/
theorem approach_gap
    (stops : Stops tail) (fuel : Nat) (place : AtGap tail state.cursor) :
    ∃ cursor keyAllowed,
      state.approach fuel = { state with cursor, keyAllowed } ∧
        AtGap tail cursor ∧
        (state.keyAllowed = true → keyAllowed = true) := by
  induction fuel generalizing state with
  | zero => exact ⟨state.cursor, state.keyAllowed, rfl, place, id⟩
  | succ fuel ih =>
    have behind := place.skipSpaces stops
    rw [Cutting.approach, behind.skipComment stops]
    split
    · next isBreak =>
      have next := behind.step stops (isPassed_of_isBreak isBreak)
      let moved : Cutting :=
        { state with
          cursor := state.cursor.skipSpaces.step
          keyAllowed := state.keyAllowed || !state.inFlow }
      have there : AtGap tail moved.cursor := next
      rcases ih there with ⟨cursor, keyAllowed, same, place, allowed⟩
      refine ⟨cursor, keyAllowed, same, place, fun before => allowed ?_⟩
      exact Bool.or_eq_true_iff.2 (Or.inl before)
    · exact ⟨_, state.keyAllowed, rfl, behind, id⟩

/-- Stopping here refuses the text. -/
theorem Cutting.At.stop_isRefused (here : state.At tail taken depth) :
    (state.stop .malformed).IsRefused := by
  refine ⟨rfl, fun inside => here.noEnd ?_⟩
  rw [Cutting.stop, Cutting.settled, TokenPile.before_eq_take] at inside
  rw [← here.tokens]
  exact List.mem_of_mem_take inside

/-- What the tokens are while there is fuel. -/
theorem tokensFrom_succ (fuel : Nat) (state : Cutting) :
    tokensFrom (fuel + 1) state =
      match state.proceed (fuel + 1) with
      | .ok (.inl next) => tokensFrom fuel next
      | .ok (.inr tokens) => tokens
      | .error rejection => state.stop rejection :=
  (rfl)

/-- No mark of three characters stands where another character does. -/
theorem atMark_of_ne
    {cursor : Cursor} {mark : Char} (other : cursor.current ≠ mark) :
    cursor.atMark mark = false := by
  rw [Cursor.atMark]
  cases form : cursor.rest with
  | nil => rfl
  | cons c behind =>
    rw [Cursor.current_of_rest form] at other
    have noFront : (mark == c) = false := by
      simpa using Ne.symm other
    rw [List.isPrefixOf_cons_cons, noFront]
    rfl

/-- A character of a gap starts no token. -/
theorem take_gap (gap : Json.isGap near.cursor.current = true) :
    near.take = .error .malformed := by
  have noMark (mark : Char) (noGap : Json.isGap mark = false) :
      near.cursor.atMark mark = false := by
    refine atMark_of_ne fun same => ?_
    rw [same, noGap] at gap
    cases gap
  have noDash := noMark '-' rfl
  have noPoint := noMark '.' rfl
  have blank : ∀ c, Json.isGap c = true → isBlankOrEnd c = true := by
    intro c gap
    simp only [Json.isGap, Bool.or_eq_true, beq_iff_eq] at gap
    rcases gap with ((rfl | rfl) | rfl) | rfl <;> rfl
  have blankHere := blank _ gap
  simp only [Json.isGap, Bool.or_eq_true, beq_iff_eq] at gap
  rcases gap with ((same | same) | same) | same <;> rw [same] at blankHere <;>
    simp [Cutting.take, Cutting.atPlain, same, blankHere, noDash, noPoint]

theorem leaveBlocks_of_noBlock (noBlock : near.indents = []) :
    near.leaveBlocks = near := by
  rw [Cutting.leaveBlocks, noBlock]
  split <;> rfl

/-- A step refuses a text or takes what is behind the gap. -/
theorem proceed_cases
    (stops : Stops tail) (here : state.At tail taken depth) (fuel : Nat) :
    state.proceed fuel = .error .malformed ∨
      ∃ near, Cutting.Near tail taken depth state near ∧
        state.proceed fuel =
          if near.cursor.current = endMark then near.finish.map .inr
          else near.take.map .inl := by
  rcases approach_gap stops fuel here.place with
    ⟨cursor, keyAllowed, same, place, allowed⟩
  rw [Cutting.proceed, same]
  rcases dropStale_cases { state with cursor, keyAllowed } with
    refused | ⟨keys, dropped, fewer⟩
  · rw [refused]
    exact Or.inl rfl
  · let near : Cutting := ⟨cursor, state.tokens, state.indents, keys, keyAllowed⟩
    have leave : near.leaveBlocks = near := leaveBlocks_of_noBlock here.noBlock
    have whole :
        (do
          let near := (← { state with cursor, keyAllowed }.dropStale).leaveBlocks
          if near.cursor.current = endMark then near.finish.map .inr
          else near.take.map .inl : Except Rejection (Cutting ⊕ Tokens)) =
        if near.cursor.current = endMark then near.finish.map .inr
        else near.take.map .inl := by
      rw [dropped]
      simp only [bind, Except.bind]
      rw [leave]
    rw [whole]
    rcases place.current with gap | rest
    · have noEnd : near.cursor.current ≠ endMark := by
        intro ended
        rw [ended] at gap
        cases gap
      rw [if_neg noEnd, take_gap gap]
      exact Or.inl rfl
    · have there : near.At tail taken depth :=
        ⟨place, here.tokens, here.noEnd, here.noBlock,
          fewer.length.trans here.depth⟩
      exact Or.inr ⟨near, ⟨there, rest, fewer, allowed⟩, rfl⟩

/-- A step leads to where the next token has been taken. -/
theorem Leads.of_take
    {c : Char} {behind : List Char} {post : Cutting → Prop}
    (some : c ≠ endMark) (stops : Stops (c :: behind))
    (here : state.At (c :: behind) taken depth)
    (take :
      ∀ near, Cutting.Near (c :: behind) taken depth state near →
        near.take = .error .malformed ∨
          ∃ next, near.take = .ok next ∧ post next) :
    Leads state post := by
  intro fuel
  cases fuel with
  | zero => exact Or.inl here.stop_isRefused
  | succ fuel =>
    rw [tokensFrom_succ]
    rcases proceed_cases stops here (fuel + 1) with
      refused | ⟨near, isNear, step⟩
    · rw [refused]
      exact Or.inl here.stop_isRefused
    · rw [step, Cursor.current_of_rest isNear.rest, if_neg some]
      rcases take near isNear with refused | ⟨next, taken, holds⟩
      · rw [refused]
        exact Or.inl here.stop_isRefused
      · rw [taken]
        exact Or.inr ⟨fuel, next, holds, rfl⟩

end Run

/-! ## Tokens one by one -/

theorem TokenPile.count_eq_length (pile : TokenPile) :
    pile.count = pile.toList.length := by
  rw [pile.count_eq, TokenPile.toList, List.length_reverse]

/-- A token stands at the place where it has been put. -/
theorem TokenPile.toList_insertAt
    (place : Nat) (token : Token) (pile : TokenPile) :
    (pile.insertAt place token).toList =
      pile.toList.take place ++ token :: pile.toList.drop place := by
  have before := pile.before_eq_take place
  have behind :
      (pile.latest.take (pile.count - place)).reverse =
        pile.toList.drop place := by
    rw [List.reverse_take, TokenPile.toList, pile.count_eq]
    by_cases inside : place ≤ pile.latest.length
    · congr 1
      omega
    · rw [List.drop_of_length_le (by simp; omega),
        List.drop_of_length_le (by simp; omega)]
  rw [TokenPile.before] at before
  rw [← before, ← behind]
  simp [TokenPile.insertAt, TokenPile.toList]

section Take

variable {tail : List Char} {taken : List Token} {depth : Nat}
variable {state near : Cutting} {gap : Gap}

theorem noEnd_append
    {more : List Token} (noEnd : Token.textEnd ∉ taken)
    (others : Token.textEnd ∉ more) : Token.textEnd ∉ taken ++ more := by
  rw [List.mem_append, not_or]
  exact ⟨noEnd, others⟩

/-- A state with one more token. -/
theorem Cutting.At.push
    {front : List Char} {level : Nat} {next : Cutting} {token : Token}
    (here : near.At front taken level) (other : token ≠ .textEnd)
    (place : AtGap tail next.cursor)
    (tokens : next.tokens = near.tokens.push token)
    (blocks : next.indents = near.indents)
    (levels : next.keys.length = depth) :
    next.At tail (taken ++ [token]) depth where
  place := place
  tokens := by rw [tokens, TokenPile.toList_push, here.tokens]
  noEnd := noEnd_append here.noEnd (by simpa using Ne.symm other)
  noBlock := blocks.trans here.noBlock
  depth := levels

theorem Cutting.At.levels
    (here : near.At tail taken depth) (inside : 1 ≤ depth) :
    near.keys ≠ [] := by
  rw [← List.length_pos_iff, here.depth]
  exact inside

/-- The gap behind a character that has been passed. -/
theorem AtGap.step_of_rest
    {cursor : Cursor} {c : Char}
    (rest : cursor.rest = c :: (gap.characters ++ tail)) :
    AtGap tail cursor.step :=
  ⟨gap, by rw [Cursor.rest_step, rest]; rfl⟩

/-- The opening brackets and their tokens. -/
def openings : List (Char × Token) :=
  [('[', .flowSequenceStart), ('\x7b', .flowMappingStart)]

/-- The closing brackets and their tokens. -/
def closings : List (Char × Token) :=
  [(']', .flowSequenceEnd), ('\x7d', .flowMappingEnd)]

/-- An opening bracket adds a level, on which a key may start. -/
theorem leads_opening
    {c : Char} {token : Token} (opens : (c, token) ∈ openings)
    (here : state.At (c :: (gap.characters ++ tail)) taken depth)
    (inside : 1 ≤ depth) :
    Leads state fun next =>
      next.At tail (taken ++ [token]) (depth + 1) ∧
        next.keyAllowed = true := by
  have each :
      ∀ pair ∈ openings,
        pair.1 ≠ endMark ∧ isPassed pair.1 = false ∧
          pair.2 ≠ .textEnd := by
    decide
  rcases each _ opens with ⟨some, stops, other⟩
  have dispatch {near : Cutting} (current : near.cursor.current = c) :
      near.take = near.takeOpening token := by
    simp only [openings, List.mem_cons, Prod.mk.injEq, List.not_mem_nil,
      or_false] at opens
    rcases opens with ⟨rfl, rfl⟩ | ⟨rfl, rfl⟩ <;>
      simp [Cutting.take, current, atMark_of_ne]
  refine Leads.of_take some stops here fun near isNear => ?_
  rw [dispatch (Cursor.current_of_rest isNear.rest), Cutting.takeOpening]
  rcases rememberKey_cases (isNear.here.levels inside) with
    refused | ⟨keys, remembered, length, -⟩
  · exact Or.inl (by rw [refused]; rfl)
  · have place := AtGap.step_of_rest isNear.rest
    rw [remembered]
    refine Or.inr ⟨_, rfl, isNear.here.push other place rfl rfl ?_, rfl⟩
    rw [List.length_cons, length, isNear.here.depth]

/-- A closing bracket takes a level away. -/
theorem leads_closing
    {c : Char} {token : Token} (closes : (c, token) ∈ closings)
    (here : state.At (c :: (gap.characters ++ tail)) taken (depth + 1))
    (inside : 1 ≤ depth) :
    Leads state fun next => next.At tail (taken ++ [token]) depth := by
  have each :
      ∀ pair ∈ closings,
        pair.1 ≠ endMark ∧ isPassed pair.1 = false ∧
          pair.2 ≠ .textEnd := by
    decide
  rcases each _ closes with ⟨some, stops, other⟩
  have dispatch {near : Cutting} (current : near.cursor.current = c) :
      near.take = near.takeClosing token := by
    simp only [closings, List.mem_cons, Prod.mk.injEq, List.not_mem_nil,
      or_false] at closes
    rcases closes with ⟨rfl, rfl⟩ | ⟨rfl, rfl⟩ <;>
      simp [Cutting.take, current, atMark_of_ne]
  refine Leads.of_take some stops here fun near isNear => ?_
  rw [dispatch (Cursor.current_of_rest isNear.rest), Cutting.takeClosing]
  rcases dropCurrent_cases near with refused | ⟨keys, dropped, length⟩
  · exact Or.inl (by rw [refused]; rfl)
  · have place := AtGap.step_of_rest isNear.rest
    have levels : keys.length = depth + 1 := length.trans isNear.here.depth
    have inFlow : ({ near with keys } : Cutting).inFlow = true := by
      rw [Cutting.inFlow, decide_eq_true_eq]
      dsimp only
      omega
    rw [dropped]
    simp only [bind, Except.bind, inFlow, if_true]
    refine Or.inr ⟨_, rfl, isNear.here.push other place rfl rfl ?_⟩
    rw [List.length_tail, levels]
    rfl

/-- Behind a comma a key may start. -/
theorem leads_comma
    (here : state.At (',' :: (gap.characters ++ tail)) taken depth) :
    Leads state fun next =>
      next.At tail (taken ++ [.flowEntry]) depth ∧
        next.keyAllowed = true := by
  have dispatch {near : Cutting} (current : near.cursor.current = ',') :
      near.take = near.takeFlowEntry := by
    simp [Cutting.take, current, atMark_of_ne]
  have stops : Stops (',' :: (gap.characters ++ tail)) := rfl
  refine Leads.of_take (by decide) stops here fun near isNear => ?_
  rw [dispatch (Cursor.current_of_rest isNear.rest), Cutting.takeFlowEntry]
  rcases dropCurrent_cases near with refused | ⟨keys, dropped, length⟩
  · exact Or.inl (by rw [refused]; rfl)
  · have place := AtGap.step_of_rest isNear.rest
    rw [dropped]
    exact
      Or.inr
        ⟨_, rfl,
          isNear.here.push (by decide) place rfl rfl
            (length.trans isNear.here.depth), rfl⟩

/-- A text in quotes is one token, which may be a key where one may start. -/
theorem leads_text
    {pieces : Pieces} (steady : pieces.IsSteady)
    (here : state.At (pieces.quoted ++ (gap.characters ++ tail)) taken depth)
    (inside : 1 ≤ depth) :
    Leads state fun next =>
      next.At tail (taken ++ [.scalar pieces.text false]) depth ∧
        (state.keyAllowed = true →
          ∃ key, next.keys.head?.join = some key ∧
            key.position = taken.length) := by
  have dispatch {near : Cutting} (current : near.cursor.current = '"') :
      near.take = near.takeQuoted true := by
    simp [Cutting.take, current, atMark_of_ne]
  have stops : Stops (pieces.quoted ++ (gap.characters ++ tail)) := rfl
  refine Leads.of_take (c := '"') (by decide) stops here fun near isNear => ?_
  rw [dispatch (Cursor.current_of_rest isNear.rest), Cutting.takeQuoted]
  rcases rememberKey_cases (isNear.here.levels inside) with
    refused | ⟨keys, remembered, length, key⟩
  · exact Or.inl (by rw [refused]; rfl)
  · rw [remembered]
    rcases readQuoted_pieces steady isNear.rest with
      refused | ⟨behind, read, rest⟩
    · refine Or.inl ?_
      simp only [bind, Except.bind, refused]
    · simp only [bind, Except.bind, read]
      refine
        Or.inr
          ⟨_, rfl,
            isNear.here.push Token.noConfusion ⟨gap, rest⟩ rfl rfl
              (length.trans isNear.here.depth), fun allowed => ?_⟩
      rcases key (isNear.keyAllowed allowed) with ⟨key, head, position⟩
      refine ⟨key, head, ?_⟩
      rw [position, TokenPile.count_eq_length, isNear.here.tokens]

/-- Inside of brackets the levels are two or more. -/
theorem Cutting.At.inFlow
    (here : near.At tail taken depth) (inside : 2 ≤ depth) :
    near.inFlow = true := by
  rw [Cutting.inFlow, decide_eq_true_eq, here.depth]
  exact inside

/-- A key that is remembered is marked in front of its token. -/
theorem Cutting.At.confirm
    {scalar : Token} {head : List Char} {key : PossibleKey}
    (here : near.At head (taken ++ [scalar]) depth) (inside : 2 ≤ depth)
    (place : AtGap tail near.cursor.step)
    (position : key.position = taken.length) :
    ((near.confirmKey key).addIndicator .value).At tail
      (taken ++ [.key, scalar, .value]) depth := by
  have noEnd := List.mem_append.not.1 here.noEnd
  rw [not_or] at noEnd
  have levels : near.keys.tail.length + 1 = depth := by
    rw [List.length_tail, here.depth]
    omega
  have confirmed :
      near.confirmKey key =
        { near.addAt key.position .key with
          keys := none :: near.keys.tail, keyAllowed := false } := by
    refine if_pos ?_
    rw [Cutting.inFlow, decide_eq_true_eq, List.length_cons, levels]
    exact inside
  rw [confirmed]
  refine ⟨place, ?_, ?_, here.noBlock, levels⟩
  · simp [Cutting.addIndicator, Cutting.add, Cutting.addAt, position,
      TokenPile.toList_insertAt, here.tokens]
  · exact noEnd_append noEnd.1 (by simpa using noEnd.2)

/-- A colon without a key in front of it is taken alone. -/
theorem Cutting.At.takeValue_cases
    {head : List Char} (here : near.At head taken depth) (inside : 2 ≤ depth)
    (place : AtGap tail near.cursor.step)
    (noKey : near.keys.head?.join = none) :
    near.takeValue = .error .malformed ∨
      ∃ next, near.takeValue = .ok next ∧
        next.At tail (taken ++ [.value]) depth := by
  have stays : near.openBlockHere .blockMappingStart = .ok near :=
    if_pos (here.inFlow inside)
  rw [Cutting.takeValue, noKey]
  rcases dropCurrent_cases near with refused | ⟨keys, dropped, length⟩
  · refine Or.inl ?_
    simp only [bind, Except.bind, stays, refused]
  · simp only [bind, Except.bind, stays, dropped]
    exact
      Or.inr
        ⟨_, rfl,
          here.push (by decide) place rfl rfl (length.trans here.depth)⟩

/-- A colon marks the token in front of it as a key, if it is found in time. -/
theorem leads_colon
    {scalar : Token}
    (here : state.At (':' :: (gap.characters ++ tail)) (taken ++ [scalar]) depth)
    (inside : 2 ≤ depth)
    (position :
      ∀ key, state.keys.head?.join = some key →
        key.position = taken.length) :
    Leads state fun next =>
      ∃ mark, (mark = [] ∨ mark = [Token.key]) ∧
        next.At tail (taken ++ (mark ++ [scalar, .value])) depth := by
  have stops : Stops (':' :: (gap.characters ++ tail)) := rfl
  refine Leads.of_take (by decide) stops here fun near isNear => ?_
  have inFlow := isNear.here.inFlow inside
  have place := AtGap.step_of_rest isNear.rest
  have dispatch : near.take = near.takeValue := by
    have current := Cursor.current_of_rest isNear.rest
    simp [Cutting.take, Cutting.atIndicator, current, atMark_of_ne, inFlow]
  rw [dispatch]
  cases head : near.keys.head?.join with
  | some key =>
    have before := position key (isNear.fewer.head key head)
    rw [Cutting.takeValue, head]
    exact
      Or.inr
        ⟨_, rfl, [.key], Or.inr rfl, isNear.here.confirm inside place before⟩
  | none =>
    rcases isNear.here.takeValue_cases inside place head with
      refused | ⟨next, value, there⟩
    · exact Or.inl refused
    · refine Or.inr ⟨next, value, [], Or.inl rfl, ?_⟩
      rw [List.append_assoc] at there
      exact there

/-- The characters that begin a word that is shared, but for the sign. -/
def wordStarters : List Char := "0123456789ntf".toList

/-- A word that is shared begins with one of these, or with a sign and a digit. -/
theorem exists_starter {word : Word} (isShared : word.isShared = true) :
    ∃ c more, word.characters = c :: more ∧
      (c ∈ wordStarters ∨
        c = '-' ∧ ∃ d others, more = d :: others ∧ d ∈ wordStarters) := by
  cases word with
  | null => exact ⟨'n', _, rfl, Or.inl (by decide)⟩
  | bool value =>
    cases value
    · exact ⟨'f', _, rfl, Or.inl (by decide)⟩
    · exact ⟨'t', _, rfl, Or.inl (by decide)⟩
  | notANumber => cases isShared
  | infinity isNegative => cases isShared
  | number numeral =>
    have starts : ∀ c ∈ wordCharacters, c.isDigit = true → c ∈ wordStarters :=
      List.all_iff_forall_prop.1 (by decide)
    rcases numeral.exists_digit [] with ⟨c, others, form, digit⟩
    have isStarter := starts c (mem_wordCharacters_of_isDigit digit) digit
    rw [List.append_nil] at form
    rw [Word.characters, Json.Numeral.characters, form]
    cases numeral.isNegative
    · exact ⟨c, others, rfl, Or.inl isStarter⟩
    · exact ⟨'-', c :: others, rfl, Or.inr ⟨rfl, c, others, rfl, isStarter⟩⟩

theorem wordStarters_spec :
    ∀ c ∈ wordStarters,
      c ∉ Cutting.nonStarters ∧ c ≠ '.' ∧ isBlankOrEnd c = false :=
  List.all_iff_forall_prop.1 (by decide)

/-- A character that starts no other token starts a plain scalar. -/
theorem take_plain
    {c : Char} (isStarter : c ∈ wordStarters)
    (current : near.cursor.current = c) : near.take = near.takePlain := by
  rcases wordStarters_spec c isStarter with ⟨other, noPoint, noBlank⟩
  have differs (d : Char) (inside : d ∈ Cutting.nonStarters) : c ≠ d := by
    rintro rfl
    exact other inside
  have noDash : near.cursor.atMark '-' = false :=
    atMark_of_ne (current ▸ differs _ (by decide))
  have noDots : near.cursor.atMark '.' = false :=
    atMark_of_ne (current ▸ noPoint)
  have isPlain : near.atPlain = true := by
    rw [Cutting.atPlain, current]
    simp [noBlank, other]
  simp [Cutting.take, current, isPlain, noDash, noDots,
    differs '%' (by decide), differs '[' (by decide),
    differs '\x7b' (by decide), differs ']' (by decide),
    differs '\x7d' (by decide), differs ',' (by decide),
    differs '-' (by decide), differs '?' (by decide), differs ':' (by decide),
    differs '*' (by decide), differs '&' (by decide), differs '!' (by decide),
    differs '|' (by decide), differs '>' (by decide),
    differs '\'' (by decide), differs '"' (by decide)]

/-- A dash in front of another character than a blank starts a plain scalar. -/
theorem take_minus
    {d : Char} {others : List Char} (isStarter : d ∈ wordStarters)
    (rest : near.cursor.rest = '-' :: d :: others) :
    near.take = near.takePlain := by
  rcases wordStarters_spec d isStarter with ⟨other, noPoint, noBlank⟩
  have current := Cursor.current_of_rest rest
  have next : near.cursor.peek 1 = d := by
    rw [Cursor.peek, rest]
    rfl
  have noDash : near.cursor.atMark '-' = false := by
    have differs : ('-' == d) = false := by
      rw [beq_eq_false_iff_ne]
      rintro rfl
      exact other (by decide)
    rw [Cursor.atMark, rest, List.isPrefixOf_cons_cons,
      List.isPrefixOf_cons_cons, differs]
    simp
  simp [Cutting.take, Cutting.atPlain, current, next, noBlank, noDash,
    atMark_of_ne]

/-- A word that is shared begins no gap and no end. -/
theorem start_of_word
    {word : Word} (isShared : word.isShared = true) :
    ∃ c more, word.characters = c :: more ∧ c ≠ endMark ∧
      isPassed c = false := by
  have start :
      ∀ c ∈ '-' :: wordStarters, c ≠ endMark ∧ isPassed c = false :=
    List.all_iff_forall_prop.1 (by decide)
  rcases exists_starter isShared with ⟨c, more, form, starts | ⟨rfl, -⟩⟩
  · exact ⟨c, more, form, start c (List.mem_cons_of_mem _ starts)⟩
  · exact ⟨'-', more, form, start _ List.mem_cons_self⟩

/-- What begins with a word that is shared is taken as a plain scalar. -/
theorem take_word
    {word : Word} (isShared : word.isShared = true) {behind : List Char}
    (rest : near.cursor.rest = word.characters ++ behind) :
    near.take = near.takePlain := by
  rcases exists_starter isShared with ⟨c, more, form, starts⟩
  rw [form] at rest
  rcases starts with starts | ⟨rfl, d, others, rfl, starts⟩
  · exact take_plain starts (Cursor.current_of_rest rest)
  · exact take_minus starts rest

/-- A word inside of brackets is one token. -/
theorem leads_word
    {word : Word} (isShared : word.isShared = true)
    {d : Char} {behind : List Char} (indicator : isFlowIndicator d = true)
    (here :
      state.At (word.characters ++ (gap.characters ++ d :: behind)) taken depth)
    (inside : 2 ≤ depth) :
    Leads state fun next =>
      next.At (d :: behind)
        (taken ++ [.scalar (String.ofList word.characters) true]) depth := by
  rcases start_of_word isShared with ⟨c, more, form, some, stops⟩
  rw [form] at here
  refine Leads.of_take some stops here fun near isNear => ?_
  have written :
      near.cursor.rest =
        word.characters ++ (gap.characters ++ d :: behind) := by
    rw [form]
    exact isNear.rest
  have levels : near.keys ≠ [] := isNear.here.levels (Nat.le_of_succ_le inside)
  rw [take_word isShared written, Cutting.takePlain]
  rcases rememberKey_cases levels with refused | ⟨keys, remembered, length, -⟩
  · exact Or.inl (by rw [refused]; rfl)
  · have depth := length.trans isNear.here.depth
    have inFlow : ({ near with keys } : Cutting).inFlow = true := by
      rw [Cutting.inFlow, decide_eq_true_eq, depth]
      exact inside
    have read :=
      readPlain_word (mem_wordCharacters_of_word isShared) indicator gap
        written ({ near with keys } : Cutting).least
    rw [remembered]
    simp only [bind, Except.bind, inFlow]
    refine Or.inr ⟨_, rfl, isNear.here.push Token.noConfusion read.2 ?_ rfl depth⟩
    rw [← read.1]
    rfl

end Take

end ApiAtlas.Yaml
