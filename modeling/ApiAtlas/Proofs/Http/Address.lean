import ApiAtlas.Proofs.Http.Failure
import ApiAtlas.Proofs.Http.Options
import ApiAtlas.Proofs.Http.Template

/-!
# Addresses of requests

An encoded value has no character that means anything in an address, so a
request goes to an address of the shape of its endpoint's template, whatever
the values are.

The name of a place may hold a slash, which is lost when the place is filled;
all other slashes of the address are those of the template.
-/

namespace ApiAtlas.Http

/-! ## The shape of an address -/

variable {value? : PlaceName → Option Datum}
  {values : List (PlaceName × Datum)}

/-- The names of the places that are filled, in order. -/
def Template.filledNames
    (value? : PlaceName → Option Datum) (template : Template) :
    List PlaceName :=
  template.names.filter fun name => (value? name).isSome

/-- A character that neither a brace nor an encoded value is or has. -/
structure IsShaping (c : Char) : Prop where
  notPercent : c ≠ '%'
  reserved : ¬ Text.IsUnreserved c
  notOpen : c ≠ openBrace
  notClose : c ≠ closeBrace

theorem IsShaping.count_encoded {c : Char} (shaping : IsShaping c) (value : Datum) :
    (encoded value).count c = 0 :=
  List.count_eq_zero.2
    (Text.notMem_percentEncode shaping.notPercent shaping.reserved value.plain)

theorem IsShaping.count_written {c : Char} (shaping : IsShaping c) (name : PlaceName) :
    name.written.count c = name.text.toList.count c := by
  rw [PlaceName.written, List.count_cons_of_ne shaping.notOpen.symm,
    List.count_append, List.count_singleton,
    beq_false_of_ne shaping.notClose.symm]
  exact Nat.add_zero _

/-- Only the names of filled places lose such characters. -/
theorem IsShaping.count_filled_add
    {c : Char} (shaping : IsShaping c) (template : Template) :
    (template.filled value?).count c +
        ((template.filledNames value?).flatMap fun name =>
          name.text.toList).count c =
      template.written.count c := by
  induction template with
  | nil => rfl
  | cons piece rest ih =>
    rw [Template.filled, List.flatMap_cons, ← Template.filled, Template.written,
      List.flatMap_cons, ← Template.written, List.count_append,
      List.count_append, ← ih]
    cases piece with
    | text characters braceFree =>
      rw [Template.filledNames, Template.names, List.filterMap_cons,
        Piece.name?, ← Template.names, ← Template.filledNames, Piece.filled]
      exact Nat.add_assoc _ _ _
    | place name =>
      rw [Template.filledNames, Template.names, List.filterMap_cons,
        Piece.name?, ← Template.names, List.filter_cons, ← Template.filledNames,
        Piece.filled]
      cases value? name with
      | none => exact Nat.add_assoc _ _ _
      | some value =>
        have counted : (Piece.place name).written.count c = name.text.toList.count c :=
          shaping.count_written name
        rw [counted, Option.elim_some, shaping.count_encoded, Option.isSome_some,
          if_pos rfl, List.flatMap_cons, List.count_append]
        omega

/-- Filled places make an address of the shape of its template. -/
structure KeepsShape
    (template : Template)
    (value? : PlaceName → Option Datum)
    (path : List Char) : Prop where
  slashes :
    path.count '/' +
        ((template.filledNames value?).flatMap fun name =>
          name.text.toList).count '/' =
      template.written.count '/'
  query : '?' ∈ path → '?' ∈ template.written
  fragment : '#' ∈ path → '#' ∈ template.written
  braces :
    (∀ name ∈ template.names, (value? name).isSome = true) → BraceFree path

/-- A character of an address that has a meaning there is one of the template. -/
theorem IsShaping.mem_written_of_mem_filled
    {c : Char} (shaping : IsShaping c) {template : Template}
    (member : c ∈ template.filled value?) : c ∈ template.written := by
  have count :
      (template.filled value?).count c +
          ((template.filledNames value?).flatMap fun name =>
            name.text.toList).count c =
        template.written.count c :=
    shaping.count_filled_add template
  rw [← List.count_pos_iff] at member ⊢
  omega

theorem braceFree_filled
    {template : Template}
    (all : ∀ name ∈ template.names, (value? name).isSome = true) :
    BraceFree (template.filled value?) := by
  have each : ∀ piece ∈ template, BraceFree (piece.filled value?) := by
    intro piece member
    cases piece with
    | text characters braceFree => exact braceFree
    | place name =>
      have present := all name (List.mem_filterMap.2 ⟨_, member, rfl⟩)
      rcases Option.isSome_iff_exists.1 present with ⟨value, found⟩
      rw [Piece.filled, found]
      exact braceFree_encoded value
  constructor
  · intro member
    rcases List.mem_flatMap.1 member with ⟨piece, inTemplate, within⟩
    exact (each piece inTemplate).1 within
  · intro member
    rcases List.mem_flatMap.1 member with ⟨piece, inTemplate, within⟩
    exact (each piece inTemplate).2 within

theorem isShaping_slash : IsShaping '/' := by
  constructor <;> decide

theorem isShaping_query : IsShaping '?' := by
  constructor <;> decide

theorem isShaping_fragment : IsShaping '#' := by
  constructor <;> decide

theorem keepsShape_filled (template : Template) :
    KeepsShape template value? (template.filled value?) :=
  ⟨isShaping_slash.count_filled_add template,
    isShaping_query.mem_written_of_mem_filled,
    isShaping_fragment.mem_written_of_mem_filled, braceFree_filled⟩

/-! ## Requests -/

/-- An exchange in which a request is sent to a path behind the base address. -/
def IsSentTo
    (transport : Transport) (path : List Char) (exchanged : Exchanged) : Prop :=
  ∃ (request : Request) (behind : List Event),
    exchanged.events = .sent request :: behind ∧
      request.address = transport.base ++ String.ofList path

variable {transport : Transport} {endpoint : Endpoint} {options : Entries}
  {template : Template}

theorem isSentTo_send_iff
    (hasPathValues : HasPathValues options) (reply : Reply) {path : List Char} :
    IsSentTo transport path (transport.send endpoint (.map options) reply) ↔
      fillPath endpoint.path (pathValues options) = String.ofList path := by
  have address :
      (requestOf transport endpoint options).address =
        transport.base ++ fillPath endpoint.path (pathValues options) := rfl
  rw [send_eq transport endpoint hasPathValues, IsSentTo]
  constructor
  · rintro ⟨request, behind, sent, same⟩
    cases sent
    rw [address, ← String.toList_inj, String.toList_append,
      String.toList_append] at same
    exact String.toList_inj.1 (List.append_cancel_left same)
  · intro filled
    exact ⟨_, _, rfl, congrArg (transport.base ++ ·) filled⟩

/-- A request is sent to the template with all places filled at once. -/
theorem isSentTo_filled
    (isTemplate : endpoint.path = String.ofList template.written)
    (hasPathValues : HasPathValues options)
    (given : pathValues options = placeEntries values) (reply : Reply) :
    IsSentTo transport (template.filled (valueIn values))
      (transport.send endpoint (.map options) reply) := by
  rw [isSentTo_send_iff hasPathValues, isTemplate, given, fillPath_eq]

/--
A request is sent to the template of its endpoint in which every place that has
a value is filled with that value, encoded, and every other place is kept.  In
whatever order the values are given, the path has the shape of the template:
no slash but those of the template, all of which it has except in the names of
filled places, no question mark and no hash that the template has not, and no
brace if all places are filled.
-/
theorem send_fillsTemplate
    (isTemplate : endpoint.path = String.ofList template.written)
    {order : List (PlaceName × Datum)}
    (different : (values.map Prod.fst).Nodup) (reordered : order.Perm values)
    (hasPathValues : HasPathValues options)
    (given : pathValues options = placeEntries order) (reply : Reply) :
    IsSentTo transport (template.filled (valueIn values))
        (transport.send endpoint (.map options) reply) ∧
      KeepsShape template (valueIn values)
        (template.filled (valueIn values)) := by
  rw [← valueIn_eq_of_perm different reordered]
  exact
    ⟨isSentTo_filled isTemplate hasPathValues given reply,
      keepsShape_filled template⟩

/-! ## A template with one place twice -/

/-- An endpoint whose path is a template, and nothing else. -/
def endpointAt (template : Template) : Endpoint :=
  { plainEndpoint with path := String.ofList template.written }

def idName : PlaceName := ⟨"id", by decide, by decide⟩

def tagName : PlaceName := ⟨"tag", by decide, by decide⟩

/-- A name with a slash. -/
def partName : PlaceName := ⟨"a/b", by decide, by decide⟩

def sampleTemplate : Template :=
  [.text "/x/".toList (by decide), .place idName, .text ['/'] (by decide),
    .place tagName, .place partName, .text "?v=".toList (by decide),
    .place idName]

/-- Two of its three names have values, one of which looks like a place. -/
def sampleValues : List (PlaceName × Datum) :=
  [(idName, .str "\x7btag\x7d"), (tagName, .str "#/é")]

/-- Options with the values in another order. -/
def sampleOptions : Entries :=
  Fields.toEntries [("path", .map (placeEntries sampleValues.reverse))]

/-- Each value stands in its own places, and the name without one is kept. -/
theorem send_fillsTemplate_sample :
    IsSentTo (.toBase "http://api/" "")
        "/x/%7Btag%7D/%23%2F%C3%A9\x7ba/b\x7d?v=%7Btag%7D".toList
        ((Transport.toBase "http://api/" "").send (endpointAt sampleTemplate)
          (.map sampleOptions) (.error .streamUnavailable)) ∧
      KeepsShape sampleTemplate (valueIn sampleValues)
        "/x/%7Btag%7D/%23%2F%C3%A9\x7ba/b\x7d?v=%7Btag%7D".toList := by
  have isTemplate :
      (endpointAt sampleTemplate).path = String.ofList sampleTemplate.written := rfl
  have different : (sampleValues.map Prod.fst).Nodup := by decide
  have hasPathValues : HasPathValues sampleOptions :=
    fun _ => ⟨_, rfl, trivial⟩
  have given :
      pathValues sampleOptions = placeEntries sampleValues.reverse := rfl
  have filled :
      sampleTemplate.filled (valueIn sampleValues) =
        "/x/%7Btag%7D/%23%2F%C3%A9\x7ba/b\x7d?v=%7Btag%7D".toList := by
    decide +kernel
  rw [← filled]
  exact
    send_fillsTemplate isTemplate different sampleValues.reverse_perm
      hasPathValues given (.error .streamUnavailable)

/-! ## Slashes and braces in names -/

/-- Options with values under names for the path. -/
def pathOptions (values : List (String × Datum)) : Entries :=
  Fields.toEntries [("path", .object values)]

theorem hasPathValues_pathOptions (values : List (String × Datum)) :
    HasPathValues (pathOptions values) :=
  fun _ => ⟨_, rfl, trivial⟩

def nameA : PlaceName := ⟨"a", by decide, by decide⟩

def nameB : PlaceName := ⟨"b", by decide, by decide⟩

/--
A slash in the name of a place is no longer there when the place is filled, and
a name with braces stands for two places and what is between them.
-/
theorem not_forall_send_fillsTemplate :
    (¬ ∀ (transport : Transport) (endpoint : Endpoint) (template : Template)
        (values : List (PlaceName × Datum)) (options : Entries) (reply : Reply),
      endpoint.path = String.ofList template.written →
        (values.map Prod.fst).Nodup → HasPathValues options →
        pathValues options = placeEntries values →
          ∃ path,
            IsSentTo transport path
                (transport.send endpoint (.map options) reply) ∧
              path.count '/' = template.written.count '/') ∧
      ¬ ∀ (transport : Transport) (endpoint : Endpoint) (template : Template)
          (values : List (String × Datum)) (options : Entries) (reply : Reply),
        endpoint.path = String.ofList template.written →
          (values.map Prod.fst).Nodup → HasPathValues options →
          pathValues options = Fields.toEntries values →
            IsSentTo transport
              (template.filled fun name => values.lookup name.text)
              (transport.send endpoint (.map options) reply) := by
  constructor
  · intro keeps
    rcases
      keeps (.toBase "" "") (endpointAt [.text ['/'] (by decide), .place partName])
        _ [(partName, .str "v")] (pathOptions [("a/b", .str "v")])
        (.error .streamUnavailable) rfl (by decide)
        (hasPathValues_pathOptions _) rfl with
      ⟨path, sent, count⟩
    rw [isSentTo_send_iff (hasPathValues_pathOptions _)] at sent
    have pathIs : path = "/v".toList := by
      have same := congrArg String.toList sent
      rw [String.toList_ofList] at same
      rw [← same]
      decide +kernel
    rw [pathIs] at count
    revert count
    decide
  · intro fills
    have sent :=
      fills (.toBase "" "")
        (endpointAt
          [.text ['/'] (by decide), .place nameA, .text ['/'] (by decide),
            .place nameB])
        _ [("a\x7d/\x7bb", .str "v")]
        (pathOptions [("a\x7d/\x7bb", .str "v")])
        (.error .streamUnavailable) rfl (by decide)
        (hasPathValues_pathOptions _) rfl
    rw [isSentTo_send_iff (hasPathValues_pathOptions _)] at sent
    revert sent
    decide +kernel

end ApiAtlas.Http
