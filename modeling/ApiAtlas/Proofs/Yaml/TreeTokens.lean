import ApiAtlas.Proofs.Json.Written
import ApiAtlas.Proofs.Yaml.Cutting

/-!
# Trees and their tokens

A tree whose words and texts mean the same in both notations is cut into the
tokens of its parts, or the text is refused.  The tokens of a tree are a
relation and no function, for the mark of a key is missing where its colon is
not found in time.
-/

namespace ApiAtlas

namespace Json

/-! ## Trees in both notations -/

/-- Whether a text means the same in both notations. -/
structure Pieces.IsShared (pieces : Pieces) : Prop where
  steady : pieces.IsSteady
  /-- No piece stands for half a character. -/
  whole : ∀ piece ∈ pieces, piece.isHalf = false

mutual

/-- Whether all words and texts of a tree mean the same in both notations. -/
def Written.IsShared : Written → Prop
  | .word word => word.isShared = true
  | .text pieces => pieces.IsShared
  | .noItems _ => True
  | .list _ items => items.IsShared
  | .noMembers _ => True
  | .object _ members => members.IsShared

/-- Whether all words and texts of items mean the same in both notations. -/
def WrittenItems.IsShared : WrittenItems → Prop
  | .last item _ => item.IsShared
  | .next item _ _ rest => item.IsShared ∧ rest.IsShared

/-- Whether all words and texts of members mean the same in both notations. -/
def WrittenMembers.IsShared : WrittenMembers → Prop
  | .last label value _ => label.name.IsShared ∧ value.IsShared
  | .next label value _ _ rest =>
    label.name.IsShared ∧ value.IsShared ∧ rest.IsShared

end

end Json

namespace Yaml

open Json (Gap Label Pieces Word Written WrittenItems WrittenMembers)

/-! ## Tokens of trees -/

/-- What stands in front of a key: its mark, unless that is missing. -/
def IsMark (mark : List Token) : Prop := mark = [] ∨ mark = [.key]

mutual

/-- The tokens of a tree. -/
inductive IsCut : Written → List Token → Prop
  | word (word : Word) :
      IsCut (.word word) [.scalar (String.ofList word.characters) true]
  | text (pieces : Pieces) : IsCut (.text pieces) [.scalar pieces.text false]
  | noItems (inside : Gap) :
      IsCut (.noItems inside) [.flowSequenceStart, .flowSequenceEnd]
  | list (inside : Gap) {items : WrittenItems} {tokens : List Token}
      (cut : IsCutItems items tokens) :
      IsCut (.list inside items) (.flowSequenceStart :: tokens)
  | noMembers (inside : Gap) :
      IsCut (.noMembers inside) [.flowMappingStart, .flowMappingEnd]
  | object (inside : Gap) {members : WrittenMembers} {tokens : List Token}
      (cut : IsCutMembers members tokens) :
      IsCut (.object inside members) (.flowMappingStart :: tokens)

/-- The tokens of items, with the closing bracket. -/
inductive IsCutItems : WrittenItems → List Token → Prop
  | last (behind : Gap) {item : Written} {tokens : List Token}
      (cut : IsCut item tokens) :
      IsCutItems (.last item behind) (tokens ++ [.flowSequenceEnd])
  | next (behind afterComma : Gap) {item : Written} {rest : WrittenItems}
      {tokens others : List Token} (cut : IsCut item tokens)
      (cutRest : IsCutItems rest others) :
      IsCutItems (.next item behind afterComma rest)
        (tokens ++ .flowEntry :: others)

/-- The tokens of members, with the closing brace. -/
inductive IsCutMembers : WrittenMembers → List Token → Prop
  | last (label : Label) (behind : Gap) {value : Written}
      {mark tokens : List Token} (isMark : IsMark mark)
      (cut : IsCut value tokens) :
      IsCutMembers (.last label value behind)
        (mark ++ .scalar label.name.text false :: .value ::
          (tokens ++ [.flowMappingEnd]))
  | next (label : Label) (behind afterComma : Gap) {value : Written}
      {rest : WrittenMembers} {mark tokens others : List Token}
      (isMark : IsMark mark) (cut : IsCut value tokens)
      (cutRest : IsCutMembers rest others) :
      IsCutMembers (.next label value behind afterComma rest)
        (mark ++ .scalar label.name.text false :: .value ::
          (tokens ++ .flowEntry :: others))

end

theorem sequence_opens : ('[', Token.flowSequenceStart) ∈ openings := by
  decide

theorem mapping_opens : ('\x7b', Token.flowMappingStart) ∈ openings := by
  decide

theorem sequence_closes : (']', Token.flowSequenceEnd) ∈ closings := by
  decide

theorem mapping_closes : ('\x7d', Token.flowMappingEnd) ∈ closings := by
  decide

section Cut

variable {tail : List Char} {taken : List Token} {depth : Nat}
variable {state : Cutting}

/-- The name of a member is cut up to the value behind its colon. -/
theorem leads_label
    {label : Label} (steady : label.name.IsSteady)
    (here : state.At (label.characters ++ tail) taken depth)
    (inside : 2 ≤ depth) (keyAllowed : state.keyAllowed = true) :
    Leads state fun next =>
      ∃ mark, IsMark mark ∧
        next.At tail
          (taken ++ (mark ++ [.scalar label.name.text false, .value]))
          depth := by
  rw [Label.characters_append] at here
  refine
    (leads_text steady here (Nat.le_of_succ_le inside)).trans
      fun next ⟨there, found⟩ => ?_
  rcases found keyAllowed with ⟨key, head, position⟩
  refine leads_colon there inside fun other same => ?_
  cases head.symm.trans same
  exact position

mutual

/-- A value inside of brackets is cut into its tokens. -/
theorem leads_written
    {d : Char} {behind : List Char} {gap : Gap} {taken : List Token}
    {depth : Nat} {state : Cutting} (indicator : isFlowIndicator d = true)
    (inside : 2 ≤ depth) :
    (written : Written) → written.IsShared →
      state.At (written.characters ++ (gap.characters ++ d :: behind)) taken
          depth →
        Leads state fun next =>
          ∃ tokens, IsCut written tokens ∧
            next.At (d :: behind) (taken ++ tokens) depth
  | .word word, isShared, here =>
    (leads_word isShared indicator here inside).mono
      fun next there => ⟨_, .word word, there⟩
  | .text pieces, isShared, here =>
    (leads_text isShared.steady here (Nat.le_of_succ_le inside)).mono
      fun next there => ⟨_, .text pieces, there.1⟩
  | .noItems within, _, here => by
    rw [Written.noItems_append] at here
    refine
      (leads_opening sequence_opens here (Nat.le_of_succ_le inside)).trans
        fun next there => ?_
    refine
      (leads_closing sequence_closes there.1 (Nat.le_of_succ_le inside)).mono
        fun next there => ⟨_, .noItems within, ?_⟩
    rwa [List.append_assoc] at there
  | .list within items, isShared, here => by
    rw [Written.list_append] at here
    refine
      (leads_opening sequence_opens here (Nat.le_of_succ_le inside)).trans
        fun next there => ?_
    refine
      (leads_items (Nat.le_of_succ_le inside) items isShared there.1).mono
        fun next ⟨tokens, cut, there⟩ => ⟨_, .list within cut, ?_⟩
    rwa [List.append_assoc] at there
  | .noMembers within, _, here => by
    rw [Written.noMembers_append] at here
    refine
      (leads_opening mapping_opens here (Nat.le_of_succ_le inside)).trans
        fun next there => ?_
    refine
      (leads_closing mapping_closes there.1 (Nat.le_of_succ_le inside)).mono
        fun next there => ⟨_, .noMembers within, ?_⟩
    rwa [List.append_assoc] at there
  | .object within members, isShared, here => by
    rw [Written.object_append] at here
    refine
      (leads_opening mapping_opens here (Nat.le_of_succ_le inside)).trans
        fun next there => ?_
    refine
      (leads_members (Nat.le_of_succ_le inside) there.2 members isShared
          there.1).mono
        fun next ⟨tokens, cut, there⟩ => ⟨_, .object within cut, ?_⟩
    rwa [List.append_assoc] at there

/-- The items of a list are cut into their tokens. -/
theorem leads_items
    {gap : Gap} {tail : List Char} {taken : List Token} {depth : Nat}
    {state : Cutting} (inside : 1 ≤ depth) :
    (items : WrittenItems) → items.IsShared →
      state.At (items.characters ++ (gap.characters ++ tail)) taken
          (depth + 1) →
        Leads state fun next =>
          ∃ tokens, IsCutItems items tokens ∧
            next.At tail (taken ++ tokens) depth
  | .last item behind, isShared, here => by
    rw [WrittenItems.last_append] at here
    refine
      (leads_written (by decide) (Nat.succ_le_succ inside) item isShared
          here).trans
        fun next ⟨tokens, cut, there⟩ => ?_
    refine
      (leads_closing sequence_closes there inside).mono
        fun next there => ⟨_, .last behind cut, ?_⟩
    rwa [List.append_assoc] at there
  | .next item behind afterComma rest, isShared, here => by
    rw [WrittenItems.next_append] at here
    refine
      (leads_written (by decide) (Nat.succ_le_succ inside) item isShared.1
          here).trans
        fun next ⟨tokens, cut, there⟩ => ?_
    refine (leads_comma there).trans fun next ⟨there, _⟩ => ?_
    refine
      (leads_items inside rest isShared.2 there).mono
        fun next ⟨others, cutRest, there⟩ =>
          ⟨_, .next behind afterComma cut cutRest, ?_⟩
    rwa [List.append_assoc, List.append_assoc] at there

/-- The members of an object are cut into their tokens. -/
theorem leads_members
    {gap : Gap} {tail : List Char} {taken : List Token} {depth : Nat}
    {state : Cutting} (inside : 1 ≤ depth) (keyAllowed : state.keyAllowed = true) :
    (members : WrittenMembers) → members.IsShared →
      state.At (members.characters ++ (gap.characters ++ tail)) taken
          (depth + 1) →
        Leads state fun next =>
          ∃ tokens, IsCutMembers members tokens ∧
            next.At tail (taken ++ tokens) depth
  | .last label value behind, isShared, here => by
    rw [WrittenMembers.last_append] at here
    refine
      (leads_label isShared.1.steady here (Nat.succ_le_succ inside)
          keyAllowed).trans
        fun next ⟨mark, isMark, there⟩ => ?_
    refine
      (leads_written (by decide) (Nat.succ_le_succ inside) value isShared.2
          there).trans
        fun next ⟨tokens, cut, there⟩ => ?_
    refine
      (leads_closing mapping_closes there inside).mono
        fun next there => ⟨_, .last label behind isMark cut, ?_⟩
    simpa using there
  | .next label value behind afterComma rest, isShared, here => by
    rw [WrittenMembers.next_append] at here
    refine
      (leads_label isShared.1.steady here (Nat.succ_le_succ inside)
          keyAllowed).trans
        fun next ⟨mark, isMark, there⟩ => ?_
    refine
      (leads_written (by decide) (Nat.succ_le_succ inside) value isShared.2.1
          there).trans
        fun next ⟨tokens, cut, there⟩ => ?_
    refine (leads_comma there).trans fun next ⟨there, allowed⟩ => ?_
    refine
      (leads_members inside allowed rest isShared.2.2 there).mono
        fun next ⟨others, cutRest, there⟩ =>
          ⟨_, .next label behind afterComma isMark cut cutRest, ?_⟩
    simpa using there

end

theorem leaveAll_of_noBlock (noBlock : state.indents = []) :
    state.leaveAll = state := by
  rcases state with ⟨cursor, tokens, indents, keys, keyAllowed⟩
  cases noBlock
  rw [Cutting.leaveAll]
  split <;> rfl

/-- Behind the last bracket the tokens end. -/
theorem tokensFrom_end
    (here : state.At [] taken 1) (fuel : Nat) :
    (tokensFrom fuel state).IsRefused ∨
      tokensFrom fuel state = ⟨taken ++ [.textEnd], none⟩ := by
  cases fuel with
  | zero => exact Or.inl here.stop_isRefused
  | succ fuel =>
    rw [tokensFrom_succ]
    have stops : Stops [] := rfl
    rcases proceed_cases stops here (fuel + 1) with
      refused | ⟨near, isNear, step⟩
    · rw [refused]
      exact Or.inl here.stop_isRefused
    · have ended : near.cursor.current = endMark := by
        rw [Cursor.current, isNear.rest]
        rfl
      rw [step, if_pos ended, Cutting.finish,
        leaveAll_of_noBlock isNear.here.noBlock]
      rcases dropCurrent_cases near with refused | ⟨keys, dropped, -⟩
      · rw [refused]
        exact Or.inl here.stop_isRefused
      · rw [dropped, ← isNear.here.tokens, ← TokenPile.toList_push]
        exact Or.inr rfl

/-- No mark of byte order is in front of a gap and what is behind it. -/
theorem tokensOf_eq_tokensFrom
    {c : Char} {behind text : List Char} (noMark : c ≠ orderMark)
    (place : AtGap (c :: behind) (Cursor.start text)) :
    tokensOf text = tokensFrom (text.length + 1) (Cutting.start text) := by
  have start : dropOrderMark (Cursor.start text) = Cursor.start text := by
    refine if_neg fun mark => ?_
    rcases place.current with gap | rest
    · rw [mark] at gap
      cases gap
    · exact noMark ((Cursor.current_of_rest rest).symm.trans mark)
  exact
    congrArg
      (fun cursor =>
        tokensFrom (text.length + 1) { Cutting.start text with cursor })
      start

/-- A text that writes an object is cut into the tokens of the object. -/
theorem tokensOf_object
    {inside : Gap} {members : WrittenMembers} {text : List Char}
    (isShared : members.IsShared)
    (writes : (Written.object inside members).Writes text) :
    (tokensOf text).IsRefused ∨
      ∃ tokens, IsCut (.object inside members) tokens ∧
        tokensOf text = ⟨tokens ++ [.textEnd], none⟩ := by
  rcases writes with ⟨before, behind, whole⟩
  have form :
      text =
        before.characters ++
          '\x7b' ::
            (inside.characters ++
              (members.characters ++ (behind.characters ++ []))) := by
    rw [whole, Written.object_append, List.append_nil]
  have here :
      (Cutting.start text).At
        ('\x7b' ::
          (inside.characters ++
            (members.characters ++ (behind.characters ++ []))))
        [] 1 :=
    ⟨⟨before, form⟩, rfl, List.not_mem_nil, rfl, rfl⟩
  have leads :
      Leads (Cutting.start text) fun next =>
        ∃ tokens, IsCut (.object inside members) tokens ∧
          next.At [] tokens 1 := by
    refine
      (leads_opening mapping_opens here (Nat.le_refl 1)).trans
        fun next there => ?_
    exact
      (leads_members (Nat.le_refl 1) there.2 members isShared there.1).mono
        fun next ⟨tokens, cut, there⟩ => ⟨_, .object inside cut, there⟩
  rw [tokensOf_eq_tokensFrom (by decide) here.place]
  rcases leads (text.length + 1) with
    refused | ⟨left, next, ⟨tokens, cut, there⟩, same⟩
  · exact Or.inl refused
  · rw [same]
    rcases tokensFrom_end there left with refused | ended
    · exact Or.inl refused
    · exact Or.inr ⟨tokens, cut, ended⟩

end Cut

end Yaml

end ApiAtlas
