import ApiAtlas.Proofs.Yaml.TreeTokens
import ApiAtlas.Yaml.Composition

/-!
# Nodes of trees

How the tokens of a tree are composed to nodes.  A token list that breaks off
is refused whatever it holds, for a document is complete only where the mark
for the end of the text has been seen.  The tokens of a tree give the node of
the tree, or the text is refused, for want of fuel or of the mark of a key.
-/

namespace ApiAtlas

/-! ## Nodes -/

namespace Json

open Yaml (Node resolve)

mutual

/-- The node of a tree. -/
def Written.node : Written → Node
  | .word word =>
    .scalar (resolve (String.ofList word.characters))
      (String.ofList word.characters)
  | .text pieces => .scalar .text pieces.text
  | .noItems _ => .sequence .sequence []
  | .list _ items => .sequence .sequence items.nodes
  | .noMembers _ => .mapping .mapping []
  | .object _ members => .mapping .mapping members.pairs

/-- The nodes of the items of a list. -/
def WrittenItems.nodes : WrittenItems → List Node
  | .last item _ => [item.node]
  | .next item _ _ rest => item.node :: rest.nodes

/-- The nodes of the members of an object. -/
def WrittenMembers.pairs : WrittenMembers → List (Node × Node)
  | .last label value _ => [(.scalar .text label.name.text, value.node)]
  | .next label value _ _ rest =>
    (.scalar .text label.name.text, value.node) :: rest.pairs

end

end Json

namespace Yaml

open Compose
open Json (Written WrittenItems WrittenMembers)

/-! ## Steps -/

section Sequence

variable {σ ε α β : Type}

/-- What a sequence gives when its first step succeeds. -/
theorem bind_of_ok
    {step : StateT σ (Except ε) α} {next : α → StateT σ (Except ε) β}
    {state between : σ} {value : α}
    (success : step state = .ok (value, between)) :
    (step >>= next) state = next value between := by
  simp only [Bind.bind, StateT.bind, success, Except.bind]

theorem bind_of_error
    {step : StateT σ (Except ε) α} {next : α → StateT σ (Except ε) β}
    {state : σ} {failed : ε} (failure : step state = .error failed) :
    (step >>= next) state = .error failed := by
  simp only [Bind.bind, StateT.bind, failure, Except.bind]

theorem run'_of_ok
    {step : StateT σ (Except ε) α} {state last : σ} {value : α}
    (success : step state = .ok (value, last)) :
    StateT.run' step state = .ok value := by
  rw [StateT.run', success]
  rfl

theorem run'_of_error
    {step : StateT σ (Except ε) α} {state : σ} {failed : ε}
    (failure : step state = .error failed) :
    StateT.run' step state = .error failed := by
  rw [StateT.run', failure]
  rfl

end Sequence

section Step

variable {token : Token} {rest : List Token}
variable {rejection : Option Rejection} {anchors : List String}
variable {handles : List (String × String)}

theorem next_cons :
    next ⟨token :: rest, rejection, anchors, handles⟩ =
      .ok (token, ⟨token :: rest, rejection, anchors, handles⟩) :=
  rfl

/-- A token that is the next one is passed over. -/
theorem passIf_same :
    passIf token ⟨token :: rest, rejection, anchors, handles⟩ =
      .ok (true, ⟨rest, rejection, anchors, handles⟩) := by
  rw [passIf, bind_of_ok next_cons, if_pos rfl]
  rfl

/-- A token that is not the next one is not passed over. -/
theorem passIf_other {other : Token} (differs : token ≠ other) :
    passIf other ⟨token :: rest, rejection, anchors, handles⟩ =
      .ok (false, ⟨token :: rest, rejection, anchors, handles⟩) := by
  rw [passIf, bind_of_ok next_cons, if_neg differs]
  rfl

end Step

/-! ## Tokens that break off -/

section BreakOff

variable {α β : Type}

/--
Whether a step leaves it known that a text is refused: it refuses the text
itself, or it goes on with some of the tokens.
-/
def KeepsRefusal (step : Compose α) : Prop :=
  ∀ state, state.rejection = some .malformed →
    step state = .error .malformed ∨
      ∃ value next, step state = .ok (value, next) ∧
        next.rejection = some .malformed ∧ next.tokens <:+ state.tokens

theorem KeepsRefusal.pure (value : α) :
    KeepsRefusal (Pure.pure value : Compose α) :=
  fun state refused =>
    Or.inr ⟨value, state, rfl, refused, List.suffix_refl _⟩

theorem KeepsRefusal.bind
    {step : Compose α} {next : α → Compose β} (first : KeepsRefusal step)
    (second : ∀ value, KeepsRefusal (next value)) :
    KeepsRefusal (step >>= next) := by
  intro state refused
  rcases first state refused with failed | ⟨value, between, same, kept, suffix⟩
  · exact Or.inl (bind_of_error failed)
  · rw [bind_of_ok same]
    exact
      (second value between kept).imp_right
        fun ⟨last, behind, same, kept, further⟩ =>
          ⟨last, behind, same, kept, further.trans suffix⟩

theorem keepsRefusal_refuse : KeepsRefusal (refuse : Compose α) :=
  fun _ _ => Or.inl rfl

theorem keepsRefusal_next : KeepsRefusal next := by
  rintro ⟨- | ⟨token, rest⟩, rejection, anchors, handles⟩ refused
  · cases refused
    exact Or.inl rfl
  · exact Or.inr ⟨token, _, rfl, refused, List.suffix_refl _⟩

theorem keepsRefusal_pass : KeepsRefusal pass :=
  fun state refused =>
    Or.inr ⟨(), _, rfl, refused, List.tail_suffix state.tokens⟩

theorem keepsRefusal_passIf (token : Token) : KeepsRefusal (passIf token) := by
  refine keepsRefusal_next.bind fun found => ?_
  split
  · exact keepsRefusal_pass.bind fun _ => .pure true
  · exact .pure false

theorem keepsRefusal_expect (token : Token) :
    KeepsRefusal (Compose.expect token) := by
  refine (keepsRefusal_passIf token).bind fun found => ?_
  split
  · exact keepsRefusal_refuse
  · exact .pure ()

theorem keepsRefusal_anchor? : KeepsRefusal anchor? := by
  refine keepsRefusal_next.bind fun token => ?_
  split
  · exact keepsRefusal_pass.bind fun _ => .pure _
  · exact .pure none

theorem keepsRefusal_tag? : KeepsRefusal tag? := by
  refine keepsRefusal_next.bind fun token => ?_
  split
  · exact keepsRefusal_pass.bind fun _ => .pure _
  · exact .pure none

theorem keepsRefusal_properties : KeepsRefusal properties := by
  refine keepsRefusal_anchor?.bind fun anchor => ?_
  split
  · exact keepsRefusal_tag?.bind fun _ => .pure _
  · refine keepsRefusal_tag?.bind fun tag => ?_
    split
    · exact keepsRefusal_anchor?.bind fun _ => .pure _
    · exact .pure _

theorem keepsRefusal_get : KeepsRefusal (get : Compose Composing) :=
  fun state refused =>
    Or.inr ⟨state, state, rfl, refused, List.suffix_refl _⟩

theorem keepsRefusal_fullName (tag : WrittenTag) :
    KeepsRefusal (fullName tag) := by
  cases tag with
  | verbatim name => exact (KeepsRefusal.pure _).bind fun _ => .pure _
  | shorthand handle suffix =>
    refine keepsRefusal_get.bind fun state => ?_
    split
    · exact (KeepsRefusal.pure _).bind fun _ => .pure _
    · exact keepsRefusal_refuse.bind fun _ => .pure _

theorem keepsRefusal_stated (tag : Option WrittenTag) :
    KeepsRefusal (stated tag) := by
  rw [stated.eq_def]
  split
  · exact (keepsRefusal_fullName _).bind fun _ => .pure _
  · exact .pure _

theorem keepsRefusal_noteAnchor (anchor : Option String) :
    KeepsRefusal (noteAnchor anchor) := by
  cases anchor with
  | none => exact .pure ()
  | some name =>
    intro state refused
    have run :
        noteAnchor (some name) state =
          (if state.anchors.contains name then refuse
            else set { state with anchors := name :: state.anchors } :
            Compose Unit) state :=
      rfl
    rw [run]
    split
    · exact Or.inl rfl
    · exact Or.inr ⟨(), _, rfl, refused, List.suffix_refl _⟩

theorem keepsRefusal_aliased (name : String) : KeepsRefusal (aliased name) := by
  refine keepsRefusal_get.bind fun state => ?_
  split
  · exact .pure _
  · exact keepsRefusal_refuse

variable {grammar : Grammar}

theorem keepsRefusal_optional
    (stops : List Token) {node : Compose Node} (keeps : KeepsRefusal node) :
    KeepsRefusal (optional stops node) := by
  refine keepsRefusal_next.bind fun token => ?_
  split
  · exact .pure _
  · exact keeps

section Grammar

variable (keeps : ∀ inBlock bare, KeepsRefusal (grammar inBlock bare))

include keeps

theorem keepsRefusal_blockEntries (stops : List Token) (fuel : Nat) :
    KeepsRefusal (blockEntries grammar stops fuel) := by
  induction fuel with
  | zero => exact keepsRefusal_refuse
  | succ fuel ih =>
    refine (keepsRefusal_passIf _).bind fun found => ?_
    split
    · refine (keepsRefusal_optional stops (keeps _ _)).bind fun item => ?_
      exact ih.bind fun _ => .pure _
    · exact .pure _

theorem keepsRefusal_blockPairs (fuel : Nat) :
    KeepsRefusal (blockPairs grammar fuel) := by
  induction fuel with
  | zero => exact keepsRefusal_refuse
  | succ fuel ih =>
    refine (keepsRefusal_passIf _).bind fun found => ?_
    split
    · refine (keepsRefusal_optional _ (keeps _ _)).bind fun key => ?_
      refine KeepsRefusal.bind ?_ fun value => ih.bind fun _ => .pure _
      refine (keepsRefusal_passIf _).bind fun found => ?_
      split
      · exact keepsRefusal_optional _ (keeps _ _)
      · exact .pure _
    · exact .pure _

theorem keepsRefusal_flowPair (close : Token) :
    KeepsRefusal (flowPair grammar close) := by
  refine (keepsRefusal_optional _ (keeps _ _)).bind fun key => ?_
  refine KeepsRefusal.bind ?_ fun value => .pure _
  refine (keepsRefusal_passIf _).bind fun found => ?_
  split
  · exact keepsRefusal_optional _ (keeps _ _)
  · exact .pure _

omit keeps in
theorem keepsRefusal_separate (isFirst : Bool) :
    KeepsRefusal (separate isFirst) := by
  rw [separate]
  split
  · exact keepsRefusal_expect _
  · exact .pure ()

theorem keepsRefusal_flowItems (isFirst : Bool) (fuel : Nat) :
    KeepsRefusal (flowItems grammar isFirst fuel) := by
  induction fuel generalizing isFirst with
  | zero => exact keepsRefusal_refuse
  | succ fuel ih =>
    refine (keepsRefusal_passIf _).bind fun found => ?_
    split
    · exact .pure _
    · refine (keepsRefusal_separate isFirst).bind fun _ => ?_
      refine (keepsRefusal_passIf _).bind fun found => ?_
      split
      · exact .pure _
      · refine KeepsRefusal.bind ?_ fun item => (ih false).bind fun _ => .pure _
        refine (keepsRefusal_passIf _).bind fun found => ?_
        split
        · exact (keepsRefusal_flowPair keeps _).bind fun _ => .pure _
        · exact keeps _ _

theorem keepsRefusal_flowPairs (isFirst : Bool) (fuel : Nat) :
    KeepsRefusal (flowPairs grammar isFirst fuel) := by
  induction fuel generalizing isFirst with
  | zero => exact keepsRefusal_refuse
  | succ fuel ih =>
    refine (keepsRefusal_passIf _).bind fun found => ?_
    split
    · exact .pure _
    · refine (keepsRefusal_separate isFirst).bind fun _ => ?_
      refine (keepsRefusal_passIf _).bind fun found => ?_
      split
      · exact .pure _
      · refine KeepsRefusal.bind ?_ fun pair => (ih false).bind fun _ => .pure _
        refine (keepsRefusal_passIf _).bind fun found => ?_
        split
        · exact keepsRefusal_flowPair keeps _
        · exact (keeps _ _).bind fun _ => .pure _

theorem keepsRefusal_content
    (fuel : Nat) (inBlock bareSequence : Bool) (stated : Stated)
    (hasProperties : Bool) :
    KeepsRefusal
      (content grammar fuel inBlock bareSequence stated hasProperties) := by
  refine keepsRefusal_next.bind fun token => ?_
  split
  · exact keepsRefusal_pass.bind fun _ => .pure _
  · refine keepsRefusal_pass.bind fun _ => ?_
    exact (keepsRefusal_flowItems keeps true fuel).bind fun _ => .pure _
  · refine keepsRefusal_pass.bind fun _ => ?_
    exact (keepsRefusal_flowPairs keeps true fuel).bind fun _ => .pure _
  · split
    · exact (keepsRefusal_blockEntries keeps _ fuel).bind fun _ => .pure _
    · split
      · refine keepsRefusal_pass.bind fun _ => ?_
        refine (keepsRefusal_blockEntries keeps _ fuel).bind fun items => ?_
        exact (keepsRefusal_expect _).bind fun _ => .pure _
      · split
        · refine keepsRefusal_pass.bind fun _ => ?_
          refine (keepsRefusal_blockPairs keeps fuel).bind fun pairs => ?_
          exact (keepsRefusal_expect _).bind fun _ => .pure _
        · split
          · exact .pure _
          · exact keepsRefusal_refuse

end Grammar

theorem keepsRefusal_node (fuel : Nat) (inBlock bareSequence : Bool) :
    KeepsRefusal (node fuel inBlock bareSequence) := by
  induction fuel generalizing inBlock bareSequence with
  | zero => exact keepsRefusal_refuse
  | succ fuel ih =>
    refine keepsRefusal_next.bind fun token => ?_
    split
    · exact keepsRefusal_pass.bind fun _ => keepsRefusal_aliased _
    · refine keepsRefusal_properties.bind fun found => ?_
      refine (keepsRefusal_stated _).bind fun stated => ?_
      refine keepsRefusal_next.bind fun _ => ?_
      refine (keepsRefusal_noteAnchor _).bind fun _ => ?_
      exact (keepsRefusal_content ih _ _ _ _ _).bind fun _ => .pure _

theorem keepsRefusal_directives
    (hasVersion : Bool) (declared : List (String × String)) (fuel : Nat) :
    KeepsRefusal (directives hasVersion declared fuel) := by
  induction fuel generalizing hasVersion declared with
  | zero => exact keepsRefusal_refuse
  | succ fuel ih =>
    refine keepsRefusal_next.bind fun token => ?_
    split
    · refine keepsRefusal_pass.bind fun _ => ?_
      split
      · split
        · exact keepsRefusal_refuse
        · exact ih _ _
      · split
        · exact keepsRefusal_refuse
        · exact ih _ _
      · exact ih _ _
    · exact .pure _

theorem keepsRefusal_markedRoot (fuel : Nat) :
    KeepsRefusal (markedRoot fuel) := by
  refine (keepsRefusal_directives _ _ _).bind fun declared => ?_
  refine KeepsRefusal.bind ?_ fun _ => ?_
  · exact fun state refused =>
      Or.inr ⟨(), _, rfl, refused, List.suffix_refl _⟩
  · refine (keepsRefusal_expect _).bind fun _ => ?_
    refine keepsRefusal_next.bind fun token => ?_
    split <;> first | exact .pure _ | exact keepsRefusal_node _ _ _

theorem keepsRefusal_finish (fuel : Nat) : KeepsRefusal (finish fuel) := by
  induction fuel with
  | zero => exact keepsRefusal_refuse
  | succ fuel ih =>
    refine (keepsRefusal_passIf _).bind fun found => ?_
    split
    · exact ih
    · refine keepsRefusal_next.bind fun token => ?_
      split
      · exact .pure ()
      · exact (keepsRefusal_directives _ _ _).bind fun _ => keepsRefusal_refuse

/-- What is behind a document ends with the mark for the end of the text. -/
theorem textEnd_mem_of_finish
    {fuel : Nat} {state last : Composing}
    (success : finish fuel state = .ok ((), last)) :
    Token.textEnd ∈ state.tokens := by
  induction fuel generalizing state with
  | zero => cases success
  | succ fuel ih =>
    rcases state with ⟨- | ⟨token, rest⟩, rejection, anchors, handles⟩
    · cases success
    · rw [finish] at success
      by_cases another : token = .documentEnd
      · subst another
        rw [bind_of_ok passIf_same, if_pos rfl] at success
        exact List.mem_cons_of_mem _ (ih success)
      · rw [bind_of_ok (passIf_other another), if_neg Bool.false_ne_true,
          bind_of_ok next_cons] at success
        split at success
        · next ended =>
          rw [ended]
          exact List.mem_cons_self
        · cases declared :
            directives false [] fuel
              ⟨token :: rest, rejection, anchors, handles⟩ with
          | error rejection =>
            rw [bind_of_error declared] at success
            cases success
          | ok found =>
            rw [bind_of_ok declared] at success
            cases success

/-- A root is complete only where the mark for the end has been seen. -/
theorem refused_of_finish
    {step : Compose Node} (keeps : KeepsRefusal step) (fuel : Nat)
    {state : Composing} (refused : state.rejection = some .malformed)
    (noEnd : Token.textEnd ∉ state.tokens) :
    (do
      let root ← step
      finish fuel
      return some root : Compose (Option Node)) state =
      .error .malformed := by
  rcases keeps state refused with failed | ⟨root, between, same, kept, suffix⟩
  · exact bind_of_error failed
  · rw [bind_of_ok same]
    rcases keepsRefusal_finish fuel between kept with
      failed | ⟨_, last, ended, -, -⟩
    · exact bind_of_error failed
    · exact (noEnd (suffix.subset (textEnd_mem_of_finish ended))).elim

/-- Tokens that break off give no node. -/
theorem root?_of_refused
    (fuel : Nat) {state : Composing} (refused : state.rejection = some .malformed)
    (noEnd : Token.textEnd ∉ state.tokens) :
    root? fuel state = .error .malformed := by
  rcases state with ⟨- | ⟨token, rest⟩, rejection, anchors, handles⟩
  · cases refused
    rfl
  · rw [root?, bind_of_ok next_cons]
    split
    · exact (noEnd List.mem_cons_self).elim
    · exact
        refused_of_finish (keepsRefusal_markedRoot fuel) fuel refused noEnd
    · exact
        refused_of_finish (keepsRefusal_markedRoot fuel) fuel refused noEnd
    · exact
        refused_of_finish (keepsRefusal_node fuel true false) fuel refused noEnd

end BreakOff

/-! ## Tokens of trees -/

section Take

variable {α β : Type} {base : Composing} {tokens rest : List Token}

/-- Whether a step takes some tokens and gives a value, or refuses the text. -/
def Takes (base : Composing) (step : Compose α) (tokens : List Token)
    (value : α) (rest : List Token) : Prop :=
  step { base with tokens } = .error .malformed ∨
    step { base with tokens } = .ok (value, { base with tokens := rest })

theorem Takes.pure (value : α) :
    Takes base (Pure.pure value : Compose α) tokens value tokens :=
  Or.inr rfl

theorem Takes.bind
    {step : Compose α} {next : α → Compose β} {between : List Token} {first : α}
    {last : β} (before : Takes base step tokens first between)
    (behind : Takes base (next first) between last rest) :
    Takes base (step >>= next) tokens last rest := by
  rcases before with refused | same
  · exact Or.inl (bind_of_error refused)
  · rw [Takes, bind_of_ok same]
    exact behind

theorem takes_refuse {value : α} :
    Takes base (refuse : Compose α) tokens value rest :=
  Or.inl rfl

variable {token : Token}

theorem takes_next : Takes base next (token :: rest) token (token :: rest) :=
  Or.inr rfl

theorem takes_pass : Takes base pass (token :: rest) () rest :=
  Or.inr rfl

theorem takes_passIf_same :
    Takes base (passIf token) (token :: rest) true rest :=
  Or.inr passIf_same

theorem takes_passIf_other {other : Token} (differs : token ≠ other) :
    Takes base (passIf other) (token :: rest) false (token :: rest) :=
  Or.inr (passIf_other differs)

/-- Whether a token begins a node that has no properties. -/
def startsContent : Token → Bool
  | .scalar _ _ | .flowSequenceStart | .flowMappingStart => true
  | _ => false

theorem IsCut.exists_head
    {written : Written} (cut : IsCut written tokens) :
    ∃ token more, tokens = token :: more ∧ startsContent token = true := by
  cases cut <;> exact ⟨_, _, rfl, rfl⟩

/-- A node without properties is its content. -/
theorem takes_node
    {fuel : Nat} {inBlock bareSequence : Bool} {node : Node}
    (starts : startsContent token = true)
    (content :
      Takes base
        (content (Compose.node fuel) fuel inBlock bareSequence ⟨false, none⟩
          false)
        (token :: tokens) node rest) :
    Takes base (Compose.node (fuel + 1) inBlock bareSequence)
      (token :: tokens) node rest := by
  have noAnchor : Takes base anchor? (token :: tokens) none (token :: tokens) := by
    refine takes_next.bind ?_
    split
    · cases starts
    · exact .pure none
  have noTag : Takes base tag? (token :: tokens) none (token :: tokens) := by
    refine takes_next.bind ?_
    split
    · cases starts
    · exact .pure none
  have noProperties :
      Takes base properties (token :: tokens) ⟨none, none⟩ (token :: tokens) :=
    noAnchor.bind (noTag.bind (.pure _))
  rw [Compose.node]
  refine takes_next.bind ?_
  split
  · cases starts
  · refine noProperties.bind ?_
    refine Takes.bind (.pure _) ?_
    refine takes_next.bind ?_
    refine Takes.bind (.pure _) ?_
    exact content.bind (.pure _)

/-- What stands in front of an entry: a comma, unless it is the first one. -/
def lead (isFirst : Bool) : List Token := if isFirst then [] else [.flowEntry]

theorem takes_separate (isFirst : Bool) :
    Takes base (separate isFirst) (lead isFirst ++ tokens) () tokens := by
  cases isFirst with
  | true => exact .pure ()
  | false => exact takes_passIf_same.bind (.pure ())

/-- Neither a comma nor what begins an entry closes the brackets. -/
theorem takes_passIf_lead
    {close : Token} (noComma : Token.flowEntry ≠ close)
    (differs : token ≠ close) (isFirst : Bool) :
    Takes base (passIf close) (lead isFirst ++ token :: tokens) false
      (lead isFirst ++ token :: tokens) := by
  cases isFirst with
  | true => exact takes_passIf_other differs
  | false => exact takes_passIf_other noComma

/-- A scalar is a node, resolved if it is plain. -/
theorem takes_scalar
    (fuel : Nat) (inBlock bareSequence : Bool) (text : String)
    (isPlain : Bool) :
    Takes base (Compose.node fuel inBlock bareSequence)
      (.scalar text isPlain :: tokens) (scalarNode ⟨false, none⟩ isPlain text)
      tokens := by
  cases fuel with
  | zero => exact takes_refuse
  | succ fuel =>
    refine takes_node rfl (takes_next.bind ?_)
    exact takes_pass.bind (.pure _)

theorem takes_optional
    {stops : List Token} {step : Compose Node} {node : Node}
    (differs : stops.contains token = false)
    (content : Takes base step (token :: tokens) node rest) :
    Takes base (optional stops step) (token :: tokens) node rest := by
  refine takes_next.bind ?_
  rw [differs, if_neg Bool.false_ne_true]
  exact content

section Entry

variable {fuel count : Nat} {isFirst : Bool} {between : List Token}

/-- An item is taken in front of the others. -/
theorem takes_item
    {item : Node} {items : List Node} (starts : startsContent token = true)
    (here :
      Takes base (Compose.node fuel false false) (token :: tokens) item between)
    (behind :
      Takes base (flowItems (Compose.node fuel) false count) between items
        rest) :
    Takes base (flowItems (Compose.node fuel) isFirst (count + 1))
      (lead isFirst ++ token :: tokens) (item :: items) rest := by
  have noClose : token ≠ .flowSequenceEnd := by
    rintro rfl
    cases starts
  have noKey : token ≠ .key := by
    rintro rfl
    cases starts
  refine (takes_passIf_lead (by decide) noClose isFirst).bind ?_
  refine (takes_separate isFirst).bind ?_
  refine (takes_passIf_other noClose).bind ?_
  refine Takes.bind ?_ (behind.bind (.pure _))
  exact (takes_passIf_other noKey).bind here

/-- A pair whose key is marked is taken in front of the others. -/
theorem takes_pair
    {pair : Node × Node} {pairs : List (Node × Node)}
    (here :
      Takes base (flowPair (Compose.node fuel) .flowMappingEnd) tokens pair
        between)
    (behind :
      Takes base (flowPairs (Compose.node fuel) false count) between pairs
        rest) :
    Takes base (flowPairs (Compose.node fuel) isFirst (count + 1))
      (lead isFirst ++ .key :: tokens) (pair :: pairs) rest := by
  refine (takes_passIf_lead (by decide) (by decide) isFirst).bind ?_
  refine (takes_separate isFirst).bind ?_
  refine (takes_passIf_other (by decide)).bind ?_
  refine Takes.bind ?_ (behind.bind (.pure _))
  exact takes_passIf_same.bind here

/-- A name and a value with a colon between them are a pair. -/
theorem takes_flowPair
    {name : String} {value : Node} (starts : startsContent token = true)
    (here :
      Takes base (Compose.node fuel false false) (token :: tokens) value rest) :
    Takes base (flowPair (Compose.node fuel) .flowMappingEnd)
      (.scalar name false :: .value :: token :: tokens)
      (.scalar .text name, value) rest := by
  have noStop : [Token.flowEntry, .flowMappingEnd].contains token = false := by
    cases token <;> first | rfl | cases starts
  refine (takes_optional rfl (takes_scalar fuel false false name false)).bind ?_
  refine Takes.bind ?_ (.pure _)
  exact takes_passIf_same.bind (takes_optional noStop here)

/-- No comma follows a key whose mark is missing. -/
theorem flowPairs_value (grammar : Grammar) (count : Nat) :
    flowPairs grammar false count { base with tokens := .value :: tokens } =
      .error .malformed := by
  cases count with
  | zero => rfl
  | succ count =>
    have noComma :
        separate false { base with tokens := .value :: tokens } =
          .error .malformed :=
      bind_of_ok (passIf_other (by decide))
    rw [flowPairs, bind_of_ok (passIf_other (by decide)),
      if_neg Bool.false_ne_true, bind_of_error noComma]

/-- A key whose mark is missing is refused. -/
theorem takes_unmarked
    {name : String} {pairs : List (Node × Node)} (fuel count : Nat) :
    Takes base (flowPairs (Compose.node fuel) isFirst count)
      (lead isFirst ++ .scalar name false :: .value :: tokens) pairs rest := by
  cases count with
  | zero => exact takes_refuse
  | succ count =>
    refine (takes_passIf_lead (by decide) Token.noConfusion isFirst).bind ?_
    refine (takes_separate isFirst).bind ?_
    refine (takes_passIf_other Token.noConfusion).bind ?_
    have pair :
        Takes base (flowEntryPair (Compose.node fuel))
          (.scalar name false :: .value :: tokens)
          (.scalar .text name, absent) (.value :: tokens) :=
      (takes_passIf_other Token.noConfusion).bind
        ((takes_scalar fuel false false name false).bind (.pure _))
    exact pair.bind (Or.inl (bind_of_error (flowPairs_value _ count)))

end Entry

end Take

section Tree

variable {base : Composing} {tokens rest : List Token}

mutual

/-- The tokens of a tree give its node. -/
theorem takes_written
    {tokens rest : List Token} {written : Written} (fuel : Nat)
    (inBlock bareSequence : Bool) :
    IsCut written tokens →
      Takes base (Compose.node fuel inBlock bareSequence) (tokens ++ rest)
        written.node rest
  | .word word => takes_scalar fuel inBlock bareSequence _ true
  | .text pieces => takes_scalar fuel inBlock bareSequence _ false
  | .noItems inside => by
    cases fuel with
    | zero => exact takes_refuse
    | succ fuel =>
      refine takes_node rfl (takes_next.bind ?_)
      refine takes_pass.bind (Takes.bind ?_ (.pure _))
      cases fuel with
      | zero => exact takes_refuse
      | succ fuel => exact takes_passIf_same.bind (.pure _)
  | .list inside cut => by
    cases fuel with
    | zero => exact takes_refuse
    | succ fuel =>
      refine takes_node rfl (takes_next.bind ?_)
      exact takes_pass.bind ((takes_items fuel true fuel cut).bind (.pure _))
  | .noMembers inside => by
    cases fuel with
    | zero => exact takes_refuse
    | succ fuel =>
      refine takes_node rfl (takes_next.bind ?_)
      refine takes_pass.bind (Takes.bind ?_ (.pure _))
      cases fuel with
      | zero => exact takes_refuse
      | succ fuel => exact takes_passIf_same.bind (.pure _)
  | .object inside cut => by
    cases fuel with
    | zero => exact takes_refuse
    | succ fuel =>
      refine takes_node rfl (takes_next.bind ?_)
      exact takes_pass.bind ((takes_members fuel true fuel cut).bind (.pure _))

/-- The tokens of items give their nodes. -/
theorem takes_items
    {tokens rest : List Token} {items : WrittenItems} (fuel : Nat)
    (isFirst : Bool) (count : Nat) :
    IsCutItems items tokens →
      Takes base (flowItems (Compose.node fuel) isFirst count)
        (lead isFirst ++ (tokens ++ rest)) items.nodes rest
  | .last behind cut => by
    rcases cut.exists_head with ⟨token, more, rfl, starts⟩
    cases count with
    | zero => exact takes_refuse
    | succ count =>
      rw [List.append_assoc]
      refine takes_item starts (takes_written fuel false false cut) ?_
      cases count with
      | zero => exact takes_refuse
      | succ count => exact takes_passIf_same.bind (.pure _)
  | .next behind afterComma cut cutRest => by
    rcases cut.exists_head with ⟨token, more, rfl, starts⟩
    cases count with
    | zero => exact takes_refuse
    | succ count =>
      rw [List.append_assoc]
      exact
        takes_item starts (takes_written fuel false false cut)
          (takes_items fuel false count cutRest)

/-- The tokens of members give their nodes. -/
theorem takes_members
    {tokens rest : List Token} {members : WrittenMembers} (fuel : Nat)
    (isFirst : Bool) (count : Nat) :
    IsCutMembers members tokens →
      Takes base (flowPairs (Compose.node fuel) isFirst count)
        (lead isFirst ++ (tokens ++ rest)) members.pairs rest
  | .last label behind isMark cut => by
    rcases isMark with rfl | rfl
    · exact takes_unmarked fuel count
    · cases count with
      | zero => exact takes_refuse
      | succ count =>
        rcases cut.exists_head with ⟨token, more, rfl, starts⟩
        rw [List.append_assoc, List.cons_append, List.cons_append,
          List.cons_append, List.append_assoc]
        refine
          takes_pair (takes_flowPair starts (takes_written fuel false false cut))
            ?_
        cases count with
        | zero => exact takes_refuse
        | succ count => exact takes_passIf_same.bind (.pure _)
  | .next label behind afterComma isMark cut cutRest => by
    rcases isMark with rfl | rfl
    · exact takes_unmarked fuel count
    · cases count with
      | zero => exact takes_refuse
      | succ count =>
        rcases cut.exists_head with ⟨token, more, rfl, starts⟩
        rw [List.append_assoc, List.cons_append, List.cons_append,
          List.cons_append, List.append_assoc]
        exact
          takes_pair (takes_flowPair starts (takes_written fuel false false cut))
            (takes_members fuel false count cutRest)

end

/-- The tokens of an object up to the end of the text give its node. -/
theorem takes_root?
    {inside : Json.Gap} {members : WrittenMembers} (fuel : Nat)
    (cut : IsCut (.object inside members) tokens) :
    Takes base (root? fuel) (tokens ++ [.textEnd])
      (some (Written.object inside members).node) [.textEnd] := by
  have ended : Takes base (finish fuel) [.textEnd] () [.textEnd] := by
    cases fuel with
    | zero => exact takes_refuse
    | succ fuel =>
      refine (takes_passIf_other (by decide)).bind ?_
      exact takes_next.bind (.pure ())
  have whole :
      Takes base (Compose.node fuel true false) (tokens ++ [.textEnd])
        (Written.object inside members).node [.textEnd] :=
    takes_written fuel true false cut
  cases cut with
  | object inside cut =>
    refine takes_next.bind ?_
    exact whole.bind (ended.bind (.pure _))

/-- A text that writes an object has the node of the object, or is refused. -/
theorem rootOf_object
    {inside : Json.Gap} {members : WrittenMembers} {text : List Char}
    (isShared : members.IsShared)
    (writes : (Written.object inside members).Writes text) :
    rootOf text = .error .malformed ∨
      rootOf text = .ok (some (Written.object inside members).node) := by
  have outcome := tokensOf_object isShared writes
  rw [rootOf]
  generalize tokensOf text = all at outcome ⊢
  rcases outcome with refused | ⟨tokens, cut, rfl⟩
  · exact
      Or.inl
        (run'_of_error (root?_of_refused _ refused.rejection refused.noEnd))
  · have found :
        Takes ⟨[], none, [], standardHandles⟩
          (root? ((tokens ++ [Token.textEnd]).length + 1))
          (tokens ++ [.textEnd]) (some (Written.object inside members).node)
          [.textEnd] :=
      takes_root? _ cut
    exact found.imp run'_of_error run'_of_ok

end Tree

end Yaml

end ApiAtlas
