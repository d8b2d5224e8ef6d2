import ApiAtlas.Operation.Basic
import ApiAtlas.Proofs.Document.Acceptance
import ApiAtlas.Proofs.Document.Chunk
set_option autoImplicit false

/-!
# Operations of accepted documents

A document is read slice by slice.  If the document as a whole is accepted, each of its definitions
is read from its slice as it is read in the document, provided that slices end where definitions do:
no keyword of definitions stands outside the brackets of a definition, nor behind a byte order mark,
and every fragment starts with the word `fragment`.  Otherwise the first slice that ends elsewhere
is refused, and with it the whole document.
-/

namespace ApiAtlas

namespace ApiOperation

open Document

variable {file : RawText} {source : String}

/-! ## One slice -/

/-- A text that is neither a fragment nor a definition of types is read as a document. -/
theorem ofSlice_of_parse {text : List Char} (hfragment : leadingKeyword text ≠ "fragment".toList)
    (htypes : typeSystemKeywords.contains (String.ofList (leadingKeyword text)) = false) :
    ofSlice file source text =
      (parse text).map fun ops => ops.filterMap (ofDefinition? file source) := by
  have hkeyword : (String.ofList (leadingKeyword text) == "fragment") = false := by
    rw [beq_eq_false_iff_ne]
    intro heq
    exact hfragment (by rw [← heq, String.toList_ofList])
  simp only [ofSlice, hkeyword, htypes]
  cases parse text <;> rfl

/-- A fragment is read together with its companion. -/
theorem ofSlice_of_fragment {text : List Char}
    (hfragment : leadingKeyword text = "fragment".toList) :
    ofSlice file source text =
      (parse (text ++ fragmentCompanion.toList)).map fun _ => [] := by
  have hkeyword : (String.ofList (leadingKeyword text) == "fragment") = true := by
    rw [hfragment]
    rfl
  simp only [ofSlice, hkeyword]
  cases parse (text ++ fragmentCompanion.toList) <;> rfl

/-- The companion is an operation that passes its checks. -/
theorem defines_companion : ∃ op : Operation, (Definition.operation op).check = .ok () ∧
    ∀ fuel, 64 ≤ fuel →
      Defines fuel fragmentCompanion.toList
        [(.operation op, skip fragmentCompanion.toList)] := by
  have hskip : skip fragmentCompanion.toList = "\x7b __typename ".toList ++ '}' :: [] := by decide
  have hbody : Rule.body 64 ("\x7b __typename ".toList ++ '}' :: []) =
      some (.operation ⟨.query, none, [], [], [.field none "__typename" [] [] none]⟩, []) := by
    decide +kernel
  have hlength : ("\x7b __typename ".toList ++ '}' :: []).length = 14 := by decide
  refine ⟨⟨.query, none, [], [], [.field none "__typename" [] [] none]⟩, rfl, ?_⟩
  intro fuel hfuel
  refine .more (y := []) ?_ (.done rfl)
  rw [hskip]
  exact Rule.body_local (by decide) (by omega) hbody [] (by omega)

section Chunks

variable {x p : List Char}

/-- The slice of an operation gives that operation. -/
theorem ofSlice_operation {op : Operation} (h : Chunk x (.operation op) p)
    (hcheck : (Definition.operation op).check = .ok ())
    (hfragment : leadingKeyword x ≠ "fragment".toList)
    (htypes : typeSystemKeywords.contains (String.ofList (leadingKeyword x)) = false) :
    ofSlice file source p = .ok ([op].filterMap (ofDefinition? file source)) := by
  rw [ofSlice_of_parse (by rwa [h.leadingKeyword_eq]) (by rwa [h.leadingKeyword_eq]),
    parse_operation h.document hcheck]
  rfl

/-- The slice of a fragment with its keyword gives nothing. -/
theorem ofSlice_fragment {f : Fragment} (h : Chunk x (.fragment f) p)
    (hcheck : (Definition.fragment f).check = .ok ())
    (hfragment : leadingKeyword x = "fragment".toList) : ofSlice file source p = .ok [] := by
  obtain ⟨op, hop, hcompanion⟩ := defines_companion
  have hlength : fragmentCompanion.toList.length = 15 := by decide
  have hdefines := h.defines fragmentCompanion.toList _
    (hcompanion _ (by rw [List.length_append, hlength]; omega))
  have hdocument := hdefines.document (by simp) (by simp)
  rw [ofSlice_of_fragment (by rw [h.leadingKeyword_eq, hfragment]),
    parse_fragment_operation hdocument hcheck hop]
  rfl

/-- The slice of a fragment without its keyword is refused. -/
theorem ofSlice_fragment_error {f : Fragment} (h : Chunk x (.fragment f) p)
    (hfragment : leadingKeyword x ≠ "fragment".toList)
    (htypes : typeSystemKeywords.contains (String.ofList (leadingKeyword x)) = false) :
    ∃ fault, ofSlice file source p = .error fault := by
  obtain ⟨fault, hfault⟩ := parse_fragment h.document
  refine ⟨fault, ?_⟩
  rw [ofSlice_of_parse (by rwa [h.leadingKeyword_eq]) (by rwa [h.leadingKeyword_eq]), hfault]
  rfl

end Chunks

/-! ## Slices without a definition -/

theorem lexemes_companion : lexemes fragmentCompanion.toList =
    [⟨.gap, ['\n']⟩, ⟨.opening, ['\x7b']⟩, ⟨.gap, [' ']⟩, ⟨.word, "__typename".toList⟩,
      ⟨.gap, [' ']⟩, closingBrace] := by decide

/-- Behind a loose text the companion ends the only slice. -/
theorem length_cutFrom_companion {s : Cut} (hs : s.depth = 0) :
    (cutFrom s (lexemes fragmentCompanion.toList)).1.length = 1 := by
  rw [lexemes_companion]
  simp [cutFrom, Cut.step, Cut.startsDefinition, closingBrace, hs]

/-- A loose text that starts like a fragment is no fragment. -/
theorem parse_companion_of_loose {q : List Char} (hq : Faithful q) (hloose : Loose (lexemes q))
    (hfragment : leadingKeyword q = "fragment".toList) :
    ∃ fault, parse (q ++ fragmentCompanion.toList) = .error fault := by
  cases hparse : parse (q ++ fragmentCompanion.toList) with
  | error fault => exact ⟨fault, rfl⟩
  | ok ops =>
      obtain ⟨ds, hds, -, -⟩ := of_parse hparse
      obtain ⟨hdefines, hne⟩ := defines_of_document hds
      have hend : AtLineEnd fragmentCompanion.toList := fun c hc => (Option.some.inj hc).symm
      have happend := lexemes_append hq hend
      have hfaithful := hq.append (by decide) hend
      have hlength := hdefines.length_le hfaithful (by omega)
      rw [happend, cutFrom_append, hloose.1, List.nil_append,
        length_cutFrom_companion hloose.2] at hlength
      -- There is one definition at most, and its keyword makes it a fragment.
      cases hdefines with
      | done _ => exact absurd rfl hne
      | @more _ y a ds hbody hrest =>
          obtain rfl : ds = [] := by
            rw [List.length_cons] at hlength
            exact List.length_eq_zero_iff.mp (by omega)
          have hkeyword : leadingKeyword (skip (q ++ fragmentCompanion.toList)) =
              "fragment".toList := by
            have hwhole : leadingKeyword (q ++ fragmentCompanion.toList) = leadingKeyword q := by
              rw [leadingKeyword_eq, happend]
              exact keywordOf_append_of_ne_nil (by rw [← leadingKeyword_eq, hfragment]; simp) _
            rw [leadingKeyword_skip hfaithful (by rw [hwhole, hfragment]; simp), hwhole, hfragment]
          have hkind := (leadingKeyword_of_body hbody).2 hkeyword
          cases a with
          | operation op => exact absurd hkind (by simp [Definition.isFragment])
          | fragment f =>
              obtain ⟨fault, hfault⟩ := parse_fragment hds
              rw [hfault] at hparse
              exact absurd hparse (by simp)

/-- A slice that ends before its definition does is refused. -/
theorem ofSlice_of_loose {x : List Char} {ks ms : List Lexeme} (hx : Faithful x)
    (hstart : ∀ a ∈ (skip x).head?, Text.isBlank a = false) (hks : lexemes x = ks ++ ms)
    (hcontent : ks.any Lexeme.isContent = true) (hloose : Loose ks)
    (htypes : typeSystemKeywords.contains (String.ofList (leadingKeyword x)) = false) :
    Text.trim (Slice.text ks) ≠ [] ∧
      ∃ fault, ofSlice file source (Text.trim (Slice.text ks)) = .error fault := by
  obtain ⟨p, hp⟩ := piece_of_content hx hstart hks hcontent
  obtain ⟨hne, hfaithful, hloose, hkeyword⟩ := hp.trim_of_loose hloose
  rw [hp.leadingKeyword_eq hks hcontent] at hkeyword
  refine ⟨hne, ?_⟩
  by_cases hfragment : leadingKeyword x = "fragment".toList
  · obtain ⟨fault, hfault⟩ := parse_companion_of_loose hfaithful hloose (hkeyword.trans hfragment)
    refine ⟨fault, ?_⟩
    rw [ofSlice_of_fragment (hkeyword.trans hfragment), hfault]
    rfl
  · refine ⟨.grammar, ?_⟩
    rw [ofSlice_of_parse (by rwa [hkeyword]) (by rwa [hkeyword]), parse,
      document_eq_none_of_loose hfaithful hloose]
    rfl

/-! ## All slices -/

theorem ofSlices_error {d : List Char} {fault : Fault} (h : ofSlice file source d = .error fault)
    (rest : List (List Char)) : ofSlices file source (d :: rest) = .error fault := by
  rw [ofSlices, h]
  rfl

/-- Reading the slices of a document succeeds with the operations of its definitions, or fails
because the document cannot be read slice by slice. -/
def Outcome (file : RawText) (source : String) (x : List Char)
    (ds : List (Definition × List Char)) : Prop :=
  (Separable x ds ∧ ofSlices file source (definitions x) =
      .ok ((operationsOf ds).filterMap (ofDefinition? file source))) ∨
    (¬Separable x ds ∧ ∃ fault, ofSlices file source (definitions x) = .error fault)

/-- A document whose first slice is loose fails. -/
theorem outcome_of_loose {x : List Char} {ds : List (Definition × List Char)} {k : Slice}
    {ks : List Slice} {ms : List Lexeme} (hslices : (slices x).1 = k :: ks)
    (hlength : (slices x).1.length ≠ ds.length) (hx : Faithful x)
    (hstart : ∀ a ∈ (skip x).head?, Text.isBlank a = false) (hk : lexemes x = k ++ ms)
    (hcontent : k.any Lexeme.isContent = true) (hloose : Loose k)
    (htypes : typeSystemKeywords.contains (String.ofList (leadingKeyword x)) = false) :
    Outcome file source x ds := by
  obtain ⟨hne, fault, hfault⟩ : Text.trim (Slice.text k) ≠ [] ∧
      ∃ fault, ofSlice file source (Text.trim (Slice.text k)) = .error fault :=
    ofSlice_of_loose hx hstart hk hcontent hloose htypes
  refine Or.inr ⟨fun hseparable => hlength hseparable.1, fault, ?_⟩
  rw [definitions_cons hslices hne]
  exact ofSlices_error hfault _

/-- Behind the last definition nothing but blanks and comments is read. -/
theorem outcome_done {x : List Char} (hx : Faithful x) (hskip : skip x = []) :
    Outcome file source x [] := by
  obtain ⟨gs, hgs, hignored⟩ := lexemes_skip hx
  rw [hskip, lexemes_nil, List.append_nil] at hgs
  have hcut := cutFrom_ignored (s := Cut.start) rfl hignored
  have hslices := slices_eq x
  rw [hgs, hcut] at hslices
  cases hcontent : gs.any Lexeme.isContent with
  | false =>
      rw [hcontent] at hslices
      have hnone : (slices x).1 = [] := hslices
      refine Or.inl ⟨⟨by rw [hnone]; rfl, fun d hd => absurd hd List.not_mem_nil⟩, ?_⟩
      rw [definitions, hnone]
      rfl
  | true =>
      rw [hcontent] at hslices hcut
      have hone : (slices x).1 = [gs] := by simpa [Cut.start] using hslices
      refine outcome_of_loose hone (by simp [hone]) hx (by simp [hskip])
        (by rw [hgs, List.append_nil]) hcontent ⟨by rw [hcut], by rw [hcut]; rfl⟩ ?_
      rcases keywordOf_ignored hignored [] with ⟨hfalse, _⟩ | ⟨_, hnil⟩
      · rw [hcontent] at hfalse
        exact absurd hfalse (by simp)
      · rw [leadingKeyword_eq, hgs, ← List.append_nil gs, hnil]
        decide

/-- A definition in which a slice ends before a keyword fails. -/
theorem outcome_of_cut {fuel : Nat} {x y u : List Char} {a : Definition} {gs ls : List Lexeme}
    {ds : List (Definition × List Char)} {k : Slice} {ks : List Slice} (hx : Faithful x)
    (hbody : Rule.body fuel (skip x) = some (a, y)) (h : Begins x gs ls u y)
    (hcut : (cutFrom Cut.start (gs ++ ls)).1 = k :: ks)
    (hlength : ds.length ≤ (slices y).1.length) : Outcome file source x ((a, skip x) :: ds) := by
  have hslices := slices_definition h.lexemes_append h.nests_append
  rw [hcut, List.cons_append] at hslices
  obtain ⟨ls₀, ls₁, hsplit, hk, hnone, hdepth, hcontent⟩ := h.nests_append.first_cutFrom
    (s := Cut.start) rfl hcut
  obtain rfl : k = ls₀ := hk
  rw [content_cutFrom hnone] at hcontent
  have hmore : (slices x).1.length ≠ ((a, skip x) :: ds).length := by
    simp only [hslices, List.length_cons, List.length_append]
    omega
  have hlexemes : lexemes x = k ++ (ls₁ ++ closingBrace :: lexemes y) := by
    rw [h.lexemes_append, hsplit, List.append_assoc]
  exact outcome_of_loose hslices hmore hx (not_isBlank_of_body hbody) hlexemes
    (by simpa [Cut.start] using hcontent) ⟨hnone, hdepth⟩ (not_typeSystem_of_body hx hbody)

/-- A definition that is a slice of its own is read as it stands in the document, unless it is a
fragment that does not show it. -/
theorem ofSlice_of_begins (file : RawText) (source : String) {fuel : Nat} {x y u : List Char}
    {a : Definition} {gs ls : List Lexeme} (hx : Faithful x) (hfuel : 3 * x.length + 1 ≤ fuel)
    (hbody : Rule.body fuel (skip x) = some (a, y)) (h : Begins x gs ls u y)
    (hcut : (cutFrom Cut.start (gs ++ ls)).1 = []) (hcheck : a.check = .ok ()) :
    (SpellsFragments [(a, skip x)] ∧
        ofSlice file source (Text.trim (Slice.text ((gs ++ ls) ++ [closingBrace]))) =
          .ok ((operationsOf [(a, skip x)]).filterMap (ofDefinition? file source))) ∨
      (¬SpellsFragments [(a, skip x)] ∧ ∃ fault,
        ofSlice file source (Text.trim (Slice.text ((gs ++ ls) ++ [closingBrace]))) =
          .error fault) := by
  have hchunk := chunk_of_begins hx hfuel hbody h
  have htypes := not_typeSystem_of_body hx hbody
  have hkeyword : leadingKeyword (skip x) ≠ "fragment".toList →
      leadingKeyword x ≠ "fragment".toList := by
    intro hne
    rcases leadingKeyword_cases hx with hnil | hsame
    · rw [hnil]
      decide
    · rwa [hsame]
  cases a with
  | operation op =>
      have hne : leadingKeyword (skip x) ≠ "fragment".toList :=
        fun heq => absurd ((leadingKeyword_of_body hbody).2 heq) (by simp [Definition.isFragment])
      refine Or.inl ⟨?_, ofSlice_operation hchunk hcheck (hkeyword hne) htypes⟩
      simp [SpellsFragments, Definition.isFragment]
  | fragment f =>
      by_cases hspelled : leadingKeyword (skip x) = "fragment".toList
      · refine Or.inl ⟨?_, ?_⟩
        · simp [SpellsFragments, hspelled]
        · exact ofSlice_fragment hchunk hcheck (h.leadingKeyword_fragment hbody hcut hspelled)
      · refine Or.inr ⟨fun hspells => hspelled ?_, ?_⟩
        · exact hspells _ (List.mem_singleton.mpr rfl) rfl
        · exact ofSlice_fragment_error hchunk (hkeyword hspelled) htypes

/-- A definition that is a slice of its own leaves the outcome to what follows it. -/
theorem outcome_more {fuel : Nat} {x y u : List Char} {a : Definition} {gs ls : List Lexeme}
    {ds : List (Definition × List Char)} (hx : Faithful x) (hfuel : 3 * x.length + 1 ≤ fuel)
    (hbody : Rule.body fuel (skip x) = some (a, y)) (h : Begins x gs ls u y)
    (hcut : (cutFrom Cut.start (gs ++ ls)).1 = []) (hcheck : a.check = .ok ())
    (hrest : Outcome file source y ds) : Outcome file source x ((a, skip x) :: ds) := by
  have hheld := cutFrom_tiles Cut.start (gs ++ ls)
  rw [hcut, List.flatten_nil, List.nil_append] at hheld
  change _ = gs ++ ls at hheld
  have hslices := slices_definition h.lexemes_append h.nests_append
  rw [hcut, hheld, List.nil_append] at hslices
  have hdefinitions := definitions_cons hslices (chunk_of_begins hx hfuel hbody h).ne_nil
  have hlength : (slices x).1.length = ((a, skip x) :: ds).length ↔
      (slices y).1.length = ds.length := by
    rw [hslices, List.length_cons, List.length_cons, Nat.add_right_cancel_iff]
  have hspells : SpellsFragments ((a, skip x) :: ds) ↔
      SpellsFragments [(a, skip x)] ∧ SpellsFragments ds := by
    simp [SpellsFragments]
  have hoperations : operationsOf ((a, skip x) :: ds) =
      operationsOf [(a, skip x)] ++ operationsOf ds := by
    cases a <;> rfl
  have hseparable : Separable x ((a, skip x) :: ds) ↔
      SpellsFragments [(a, skip x)] ∧ Separable y ds := by
    rw [Separable, Separable, hlength, hspells, and_left_comm]
  rw [Outcome, hdefinitions, hseparable, hoperations, List.filterMap_append]
  rcases ofSlice_of_begins file source hx hfuel hbody h hcut hcheck with
    ⟨hspelled, hfirst⟩ | ⟨hspelled, fault, hfault⟩
  · rcases hrest with ⟨hmore, hlater⟩ | ⟨hmore, fault, hfault⟩
    · refine Or.inl ⟨⟨hspelled, hmore⟩, ?_⟩
      rw [ofSlices, hfirst]
      change (ofSlices file source (definitions y) >>= _) = _
      rw [hlater]
      rfl
    · refine Or.inr ⟨fun hboth => hmore hboth.2, fault, ?_⟩
      rw [ofSlices, hfirst]
      change (ofSlices file source (definitions y) >>= _) = _
      rw [hfault]
      rfl
  · exact Or.inr ⟨fun hboth => hspelled hboth.1, fault, ofSlices_error hfault _⟩

/-- The run: a chain of definitions that pass their checks has an outcome. -/
theorem outcome_of_defines {fuel : Nat} {x : List Char} {ds : List (Definition × List Char)}
    (h : Defines fuel x ds) (hx : Faithful x) (hfuel : 3 * x.length + 1 ≤ fuel)
    (hcheck : ∀ d ∈ ds, d.1.check = .ok ()) : Outcome file source x ds := by
  induction h with
  | done hskip => exact outcome_done hx hskip
  | @more x y a ds hbody hds ih =>
      obtain ⟨gs, ls, u, hbegins⟩ := begins_of_body hx hfuel hbody
      have hlength := hbegins.length_lt
      cases hcut : (cutFrom Cut.start (gs ++ ls)).1 with
      | cons k ks =>
          have hslices := hds.length_le hbegins.faithful (by omega)
          refine outcome_of_cut hx hbody hbegins hcut (Nat.le_trans hslices ?_)
          rw [slices_eq, List.length_append]
          exact Nat.le_add_right _ _
      | nil =>
          refine outcome_more hx hfuel hbody hbegins hcut (hcheck _ List.mem_cons_self) ?_
          exact ih hbegins.faithful (by omega) fun d hd => hcheck d (List.mem_cons_of_mem _ hd)

/-! ## Documents -/

/-- The entity of an operation of a document: known by its name, or else by the field it selects
first; an operation with neither has none. -/
def entity? (file : SourceFile) (op : Operation) : Option ApiOperation :=
  (op.name.or op.firstField?).map fun field =>
    ⟨Identifier.operation op.kind field, op.kind, field, op.name, file.path, file.content⟩

theorem ofDefinition?_eq_entity? {op : Operation} (h : op.IsNamed) (file : SourceFile) :
    ofDefinition? file.path file.content op = entity? file op := by
  have hor : (op.name <|> op.firstField?) = op.name.or op.firstField? := by
    cases op.name <;> rfl
  have hne : ∀ field ∈ op.name.or op.firstField?, field.isEmpty = false := by
    intro field hfield
    rw [String.isEmpty_eq_false_iff]
    rcases Option.or_eq_some_iff.mp hfield with hname | ⟨_, hfirst⟩
    · exact h.name_ne_empty field hname
    · exact h.firstField_ne_empty field hfirst
  rw [ofDefinition?, entity?, hor]
  cases hfield : op.name.or op.firstField? with
  | none => rfl
  | some field =>
      simp only [Option.bind_eq_bind, Option.bind_some, hne field hfield]
      rfl

/-- **Extraction from an accepted document.**  The document is one whose comments and strings are
the same to the cutting as to the grammar.  Its accepted operations are the written ones, which
stand in the order of the text.  The extraction gives exactly the entities of the written
operations, in their order, if and only if the document can be read slice by slice; otherwise all of
it is lost to a warning. -/
theorem ofDocument_of_accepted (file : SourceFile) (ops : List Operation)
    (haccepted : parse file.content.toList = .ok ops) (hfaithful : Faithful file.content.toList) :
    ops.Perm (written file.content.toList) ∧ InSourceOrder (parsed file.content.toList) ∧
      (ofDocument file = .ok ((written file.content.toList).filterMap (entity? file)) ↔
        Separable file.content.toList (parsed file.content.toList)) ∧
      (¬Separable file.content.toList (parsed file.content.toList) →
        ∃ fault, ofDocument file = .error (parseWarning file.path fault)) := by
  obtain ⟨ds, hds, hcheck, hperm⟩ := of_parse haccepted
  obtain ⟨hdefines, _⟩ := defines_of_document hds
  have hparsed : parsed file.content.toList = ds := by rw [parsed, hds]; rfl
  have hentities : (operationsOf ds).filterMap (ofDefinition? file.path file.content) =
      (operationsOf ds).filterMap (entity? file) :=
    List.filterMap_congr fun op hop => ofDefinition?_eq_entity? (hdefines.isNamed op hop) file
  have houtcome : Outcome file.path file.content file.content.toList ds :=
    outcome_of_defines hdefines hfaithful (by omega) hcheck
  rw [written, hparsed]
  refine ⟨hperm, (hdefines.inSourceOrder hfaithful (by omega)).2, ?_⟩
  rcases houtcome with ⟨hseparable, hok⟩ | ⟨hseparable, fault, hfault⟩
  · rw [hentities] at hok
    refine ⟨⟨fun _ => hseparable, fun _ => ?_⟩, fun hnot => absurd hseparable hnot⟩
    rw [ofDocument, hok]
  · have herror : ofDocument file = .error (parseWarning file.path fault) := by
      rw [ofDocument, hfault]
    refine ⟨⟨fun hok => ?_, fun h => absurd h hseparable⟩, fun _ => ⟨fault, herror⟩⟩
    rw [herror] at hok
    exact absurd hok (by simp)

/-- A document of two operations with a comment and a fragment between them. -/
def shopDocument : SourceFile where
  path := "shop.graphql"
  content := "query Cart($n: Int) { a(n: $n) }\n# type\nfragment F on T { b }\nmutation Pay { c }"
  kind := .document

/-- A document whose operation is named like a keyword of definitions. -/
def keywordDocument : SourceFile where
  path := "q.graphql"
  content := "query type { a }"
  kind := .document

/-- The first document gives both of its operations; the second, which is accepted too, gives none
but a warning. -/
theorem ofDocument_of_accepted_shop :
    ofDocument shopDocument = .ok
        [⟨"gql:query.Cart", .query, "Cart", some "Cart", "shop.graphql", shopDocument.content⟩,
          ⟨"gql:mutation.Pay", .mutation, "Pay", some "Pay", "shop.graphql",
            shopDocument.content⟩] ∧
      written keywordDocument.content.toList =
        [⟨.query, some "type", [], [], [.field none "a" [] [] none]⟩] ∧
      ∃ fault, ofDocument keywordDocument = .error (parseWarning "q.graphql" fault) := by
  obtain ⟨ops, hshop⟩ := exists_parse_of_isOk shopDocument.content.toList (by decide +kernel)
  obtain ⟨others, hkeyword⟩ :=
    exists_parse_of_isOk keywordDocument.content.toList (by decide +kernel)
  obtain ⟨_, _, hiff, _⟩ := ofDocument_of_accepted shopDocument ops hshop (by decide +kernel)
  obtain ⟨_, _, _, hlost⟩ :=
    ofDocument_of_accepted keywordDocument others hkeyword (by decide +kernel)
  refine ⟨?_, by decide +kernel, hlost (by decide +kernel)⟩
  rw [hiff.mpr (by decide +kernel)]
  decide +kernel

-- Where a comment ends differently for the cutting and for the grammar, operations can be lost
-- without a warning: a carriage return ends the comment only for the grammar.
example :
    parse "#c\rquery Q { a }".toList =
        .ok [⟨.query, some "Q", [], [], [.field none "a" [] [] none]⟩] ∧
      ofDocument ⟨"q.graphql", "#c\rquery Q { a }", .document, none⟩ = .ok [] :=
  ⟨by decide +kernel, by decide +kernel⟩

end ApiOperation

end ApiAtlas
