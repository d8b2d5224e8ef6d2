import Mathlib.Data.List.Forall2
import ApiAtlas.Operation.Basic
import ApiAtlas.Proofs.Document.Joining
set_option autoImplicit false

/-!
# Operations of joined documents

A document that joins closed definitions is read definition by definition, as each of them is read
as a document of its own.  So it is well formed just when all of them are, and its operations are
theirs, one after the other.  Only the text that an operation keeps as its source is another one.
-/

namespace ApiAtlas.ApiOperation

open Document

/-! ## The source of an operation -/

theorem ofDefinition?_source (file : RawText) (source source' : String) (op : Operation) :
    ofDefinition? file source op =
      (ofDefinition? file source' op).map fun found => { found with source } := by
  unfold ofDefinition?
  cases op.name <|> op.firstField? with
  | none => rfl
  | some field =>
      by_cases hempty : field = ""
      · simp [hempty]
      · simp [hempty]

/-- The source of a document has no part in what is read. -/
theorem ofSlice_source (file : RawText) (source source' : String) (definition : List Char) :
    ofSlice file source definition =
      (ofSlice file source' definition).map (List.map fun found => { found with source }) := by
  have hoperations : ∀ ops : List Operation, ops.filterMap (ofDefinition? file source) =
      (ops.filterMap (ofDefinition? file source')).map fun found => { found with source } := by
    intro ops
    rw [List.map_filterMap]
    exact List.filterMap_congr fun op _ => ofDefinition?_source file source source' op
  unfold ofSlice
  by_cases hfragment : (String.ofList (leadingKeyword definition) == "fragment") = true
  · simp only [hfragment, if_true]
    cases parse (definition ++ fragmentCompanion.toList) <;> rfl
  · by_cases htypes :
        typeSystemKeywords.contains (String.ofList (leadingKeyword definition)) = true
    · simp only [hfragment, htypes, if_true]
      rfl
    · simp only [hfragment, htypes]
      cases parse definition with
      | error fault => rfl
      | ok ops => exact congrArg Except.ok (hoperations ops)

/-! ## Definition by definition -/

theorem ofSlices_cons_eq_ok_iff {file : RawText} {source : String} {d : List Char}
    {ds : List (List Char)} {ops : List ApiOperation} :
    ofSlices file source (d :: ds) = .ok ops ↔
      ∃ found more, ofSlice file source d = .ok found ∧ ofSlices file source ds = .ok more ∧
        ops = found ++ more := by
  rw [ofSlices]
  cases ofSlice file source d with
  | error fault => simp [bind, Except.bind]
  | ok found =>
      cases ofSlices file source ds with
      | error fault => simp [bind, Except.bind]
      | ok more => simp [bind, Except.bind, pure, Except.pure, eq_comm]

theorem ofDocument_eq_ok_iff {file : SourceFile} {ops : List ApiOperation} :
    ofDocument file = .ok ops ↔
      ofSlices file.path file.content (definitions file.content.toList) = .ok ops := by
  unfold ofDocument
  split <;> simp_all

/-- The document that one definition of a document is by itself. -/
def documentOf (file : SourceFile) (definition : List Char) : SourceFile :=
  { file with content := String.ofList definition }

theorem ofDocument_documentOf {file : SourceFile} {d : List Char} (hd : definitions d = [d])
    {ops : List ApiOperation} :
    ofDocument (documentOf file d) = .ok ops ↔
      ofSlice file.path (String.ofList d) d = .ok ops := by
  rw [ofDocument_eq_ok_iff]
  simp only [documentOf, String.toList_ofList, hd, ofSlices_cons_eq_ok_iff]
  constructor
  · rintro ⟨found, more, hfound, hmore, rfl⟩
    cases hmore
    rw [hfound, List.append_nil]
  · intro hfound
    exact ⟨ops, [], hfound, rfl, (List.append_nil ops).symm⟩

/-- A definition of a document has the operations that it has by itself. -/
theorem ofSlice_eq_ok_iff {file : SourceFile} {d : List Char} (hd : definitions d = [d])
    (source : String) {ops : List ApiOperation} :
    ofSlice file.path source d = .ok ops ↔
      ∃ found, ofDocument (documentOf file d) = .ok found ∧
        ops = found.map fun op => { op with source } := by
  simp only [ofDocument_documentOf hd]
  rw [ofSlice_source file.path source (String.ofList d)]
  cases ofSlice file.path (String.ofList d) d with
  | error fault => simp [Except.map]
  | ok found => simp [Except.map, eq_comm]

theorem ofSlices_eq_ok_iff {file : SourceFile} {pieces : List (List Char)}
    (hpieces : ∀ t ∈ pieces, definitions t = [t]) (source : String) (ops : List ApiOperation) :
    ofSlices file.path source pieces = .ok ops ↔
      ∃ parts, List.Forall₂ (fun t found => ofDocument (documentOf file t) = .ok found)
          pieces parts ∧ ops = parts.flatten.map fun op => { op with source } := by
  induction pieces generalizing ops with
  | nil =>
      constructor
      · intro h
        cases h
        exact ⟨[], .nil, rfl⟩
      · rintro ⟨parts, hparts, rfl⟩
        cases hparts
        rfl
  | cons t pieces ih =>
      obtain ⟨ht, hpieces⟩ := List.forall_mem_cons.mp hpieces
      rw [ofSlices_cons_eq_ok_iff]
      constructor
      · rintro ⟨found, more, hfound, hmore, rfl⟩
        obtain ⟨part, hpart, rfl⟩ := (ofSlice_eq_ok_iff ht source).mp hfound
        obtain ⟨parts, hparts, rfl⟩ := (ih hpieces more).mp hmore
        refine ⟨part :: parts, .cons hpart hparts, ?_⟩
        rw [List.flatten_cons, List.map_append]
      · rintro ⟨parts, hparts, rfl⟩
        cases hparts with
        | cons hpart hparts =>
            refine ⟨_, _, (ofSlice_eq_ok_iff ht source).mpr ⟨_, hpart, rfl⟩,
              (ih hpieces _).mpr ⟨_, hparts, rfl⟩, ?_⟩
            rw [List.flatten_cons, List.map_append]

/-- Cutting undoes joining: a document that joins closed definitions is cut into them, and it has
operations just when each of them has as a document of its own, namely theirs in order. -/
theorem ofDocument_joined (file : SourceFile) (pieces : List (List Char))
    (hpieces : ∀ t ∈ pieces, ClosedDefinition t) (hjoined : Joined pieces file.content.toList) :
    definitions file.content.toList = pieces ∧
    ∀ ops, ofDocument file = .ok ops ↔
      ∃ parts, List.Forall₂ (fun t found => ofDocument (documentOf file t) = .ok found)
          pieces parts ∧
        ops = parts.flatten.map fun op => { op with source := file.content } := by
  have hdefinitions := definitions_joined hpieces hjoined
  refine ⟨hdefinitions, ?_⟩
  intro ops
  rw [ofDocument_eq_ok_iff, hdefinitions]
  exact ofSlices_eq_ok_iff (fun t ht => (hpieces t ht).definitions_eq) file.content ops

/-- A query with a brace in a string and one in a comment, a fragment, and a mutation. -/
def shopPieces : List (List Char) :=
  ["query A \x7b a(s: \"\x7d\") # \x7d\n\x7d".toList, "fragment F on T { b }".toList,
    "mutation Pay { c }".toList]

/-- All of them, on lines of their own. -/
def shopLines : SourceFile where
  path := "shop.graphql"
  content := String.ofList (['\n'].intercalate shopPieces)
  kind := .document

/-- The three definitions are found again, and the query and the mutation are the operations of the
document as they are those of their pieces. -/
theorem ofDocument_joined_shop :
    (∀ t ∈ shopPieces, ClosedDefinition t) ∧
    Joined shopPieces shopLines.content.toList ∧
    definitions shopLines.content.toList = shopPieces ∧
    ofDocument shopLines = .ok
      [⟨"gql:query.A", .query, "A", some "A", "shop.graphql", shopLines.content⟩,
        ⟨"gql:mutation.Pay", .mutation, "Pay", some "Pay", "shop.graphql", shopLines.content⟩] := by
  have hpieces : ∀ t ∈ shopPieces, ClosedDefinition t := by
    rw [shopPieces, List.forall_mem_cons, List.forall_mem_cons, List.forall_mem_singleton]
    refine ⟨⟨?_, ?_, ?_⟩, ⟨?_, ?_, ?_⟩, ⟨?_, ?_, ?_⟩⟩
    all_goals decide +kernel
  have hjoined : Joined shopPieces shopLines.content.toList := by
    rw [shopLines, String.toList_ofList]
    exact joined_intercalate shopPieces
  obtain ⟨hcut, hoperations⟩ := ofDocument_joined shopLines shopPieces hpieces hjoined
  refine ⟨hpieces, hjoined, hcut, (hoperations _).mpr ?_⟩
  refine ⟨[[⟨"gql:query.A", .query, "A", some "A", "shop.graphql",
      "query A \x7b a(s: \"\x7d\") # \x7d\n\x7d"⟩], [],
    [⟨"gql:mutation.Pay", .mutation, "Pay", some "Pay", "shop.graphql", "mutation Pay { c }"⟩]],
    ?_, rfl⟩
  refine .cons ?_ (.cons ?_ (.cons ?_ .nil))
  all_goals decide +kernel

end ApiAtlas.ApiOperation
