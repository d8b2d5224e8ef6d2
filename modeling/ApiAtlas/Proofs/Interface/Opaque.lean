import Mathlib.Data.List.Forall2
import ApiAtlas.Proofs.Interface.Body
import ApiAtlas.Proofs.Interface.Literal
set_option autoImplicit false

/-!
# Interface: which string literals are opaque

Stripping keeps string literals, and everything behind it searches the kept text without regard to
quotes.  In the body of a service a brace in a literal counts for the body and a method in a literal
is read as one; elsewhere a service in a literal is read as one.  A literal is opaque if its text is
inert where it stands: in a body its braces are balanced and no method has its head there, elsewhere
no service has.  A closing parenthesis does no harm where none is open.  Even then a literal that
stands in the place of a type is part of that type; everything else about the methods and the
warnings is the same whatever the text between the quotes.
-/

namespace ApiAtlas.Interface

/-! ## Inert texts -/

/-- The pieces end in the body of a service: read by themselves, they leave it open. -/
def EndsInBody (front : List Piece) : Prop :=
  (services (front.flatMap Piece.kept)).2.isSome = true

/-- Behind every opening parenthesis of the text there is a closing one. -/
def ParenthesesClosed (text : List Char) : Prop := ∀ rest, '(' :: rest <:+ text → ')' ∈ rest

/-- Behind the pieces, the text has no influence as the text of a literal: it declares nothing, its
braces are balanced, and it closes no parenthesis and no comment that is open before it. -/
structure Inert (front : List Piece) (text : List Char) : Prop where
  package : packageFrom false text = []
  service : ¬ EndsInBody front → nextService? (some '"') text = none
  method : EndsInBody front → opensMethod (some '"') text = false
  braces : EndsInBody front → braceDepth 0 text = some 0
  parenthesis : EndsInBody front → ')' ∈ text → ParenthesesClosed (front.flatMap Piece.kept)
  comment : ['*', '/'] <:+: text → ¬ LeavesCommentOpen front

/-- Some texts are inert wherever the literal stands. -/
theorem Inert.of_anywhere {text : List Char} (hpackage : packageFrom false text = [])
    (hservice : nextService? (some '"') text = none) (hmethod : opensMethod (some '"') text = false)
    (hbraces : braceDepth 0 text = some 0) (hparenthesis : ')' ∉ text)
    (hcomment : ¬ ['*', '/'] <:+: text) (front : List Piece) : Inert front text where
  package := hpackage
  service _ := hservice
  method _ := hmethod
  braces _ := hbraces
  parenthesis _ h := absurd h hparenthesis
  comment h := absurd h hcomment

/-! ## Texts with another literal -/

/-- The texts are the same, or differ in the text of one literal, before which stands something that
`Lead` admits. -/
inductive Exchanged (Lead : List Char → Prop) (old new : List Char) :
    List Char → List Char → Prop
  | same (text : List Char) : Exchanged Lead old new text text
  | literal {lead : List Char} (rest : List Char) (hlead : Lead lead) :
      Exchanged Lead old new (lead ++ '"' :: (old ++ '"' :: rest))
        (lead ++ '"' :: (new ++ '"' :: rest))

/-- The types are the same, or both of them hold a quote. -/
def SameType (a b : List Char) : Prop := a = b ∨ ('"' ∈ a ∧ '"' ∈ b)

/-- The signatures are the same up to types that hold a quote. -/
structure SameSignature (s s' : Signature) : Prop where
  name : s.name = s'.name
  input : SameType s.input s'.input
  output : SameType s.output s'.output

theorem SameSignature.refl (s : Signature) : SameSignature s s := ⟨rfl, .inl rfl, .inl rfl⟩

theorem rel_bind {α β γ δ : Type} {R : α → β → Prop} {S : γ → δ → Prop} {x : Option α}
    {y : Option β} {f : α → Option γ} {g : β → Option δ} (h : Option.Rel R x y)
    (hfg : ∀ a b, R a b → Option.Rel S (f a) (g b)) : Option.Rel S (x.bind f) (y.bind g) := by
  cases h with
  | none => exact .none
  | some hab => exact hfg _ _ hab

theorem rel_same {α : Type} {R : α → α → Prop} (hR : ∀ a, R a a) (x : Option α) :
    Option.Rel R x x := by
  cases x with
  | none => exact .none
  | some a => exact .some (hR a)

theorem enclosed?_append {inside : List Char} (h : ')' ∉ inside) (rest : List Char) :
    enclosed? (inside ++ ')' :: rest) =
      if inside.isEmpty then none else some (inside, rest) := by
  have hrun : ∀ c ∈ inside, (c != ')') = true := by
    intro c hc
    rw [bne_iff_ne]
    rintro rfl
    exact h hc
  have hstops : Text.Stops (· != ')') (')' :: rest) := Text.stops_cons.mpr (by simp)
  simp only [enclosed?, Text.takeWhile_run hrun hstops, Text.dropWhile_run hrun hstops]

theorem enclosed?_eq_none {text : List Char} (h : ')' ∉ text) : enclosed? text = none := by
  have hdrop : text.dropWhile (· != ')') = [] := by
    rw [List.dropWhile_eq_nil_iff]
    intro c hc
    rw [bne_iff_ne]
    rintro rfl
    exact h hc
  unfold enclosed?
  rw [hdrop, ite_self]

/-- The first closing parenthesis of a text. -/
theorem exists_first_parenthesis {text : List Char} (h : ')' ∈ text) :
    ∃ inside rest, text = inside ++ ')' :: rest ∧ ')' ∉ inside := by
  induction text with
  | nil => cases h
  | cons c text ih =>
      by_cases hc : c = ')'
      · exact ⟨[], text, by rw [hc]; rfl, List.not_mem_nil⟩
      · obtain ⟨inside, rest, rfl, hinside⟩ := ih ((List.mem_cons.mp h).resolve_left (Ne.symm hc))
        refine ⟨c :: inside, rest, rfl, ?_⟩
        rw [List.mem_cons, not_or]
        exact ⟨Ne.symm hc, hinside⟩

section Reading

variable {whole old new : List Char} {s s' : List Char}

/-- The head of a method lies before the literal or behind it. -/
theorem Exchanged.methodHead (h : Exchanged (· <:+ whole) old new s s') :
    Option.Rel (fun a b => a.1 = b.1 ∧ Exchanged (fun l => '(' :: l <:+ whole) old new a.2 b.2)
      (methodHead? s) (methodHead? s') := by
  cases h with
  | same => exact rel_same (fun a => ⟨rfl, .same a.2⟩) _
  | @literal lead rest hlead =>
      rw [methodHead?_quote, methodHead?_quote]
      cases hhead : methodHead? lead with
      | none => exact .none
      | some r => exact .some ⟨rfl, .literal rest ((methodHead?_suffix hhead).trans hlead)⟩

theorem Exchanged.returnsHead (h : Exchanged (· <:+ whole) old new s s') :
    Option.Rel (Exchanged (fun l => '(' :: l <:+ whole) old new)
      (returnsHead? s) (returnsHead? s') := by
  cases h with
  | same => exact rel_same (fun a => .same a) _
  | @literal lead rest hlead =>
      rw [returnsHead?_quote, returnsHead?_quote]
      cases hhead : returnsHead? lead with
      | none => exact .none
      | some r => exact .some (.literal rest ((returnsHead?_suffix hhead).trans hlead))

variable (hold : ')' ∈ old → ParenthesesClosed whole) (hnew : ')' ∈ new → ParenthesesClosed whole)
include hold hnew

/-- A type ends before the literal, or goes on over it. -/
theorem Exchanged.enclosed (h : Exchanged (fun l => '(' :: l <:+ whole) old new s s') :
    Option.Rel (fun a b => SameType a.1 b.1 ∧ Exchanged (· <:+ whole) old new a.2 b.2)
      (enclosed? s) (enclosed? s') := by
  cases h with
  | same => exact rel_same (fun a => ⟨.inl rfl, .same a.2⟩) _
  | @literal lead rest hlead =>
      by_cases hclosed : ')' ∈ lead
      · obtain ⟨inside, more, rfl, hinside⟩ := exists_first_parenthesis hclosed
        rw [List.append_assoc, List.append_assoc, List.cons_append, List.cons_append,
          enclosed?_append hinside, enclosed?_append hinside]
        split
        · exact .none
        · refine .some ⟨.inl rfl, .literal rest ?_⟩
          have hmore : more <:+ '(' :: (inside ++ ')' :: more) :=
            ⟨'(' :: (inside ++ [')']), by simp⟩
          exact hmore.trans hlead
      · -- the parenthesis is still open, so the texts may not close it
        have hopen : ¬ ParenthesesClosed whole := fun hall => hclosed (hall lead hlead)
        have hquoted : ∀ {text : List Char} (more : List Char),
            (')' ∈ text → ParenthesesClosed whole) → ')' ∉ more →
              ')' ∉ lead ++ '"' :: (text ++ '"' :: more) := by
          intro text more htext hmore
          simp only [List.mem_append, List.mem_cons, not_or]
          exact ⟨hclosed, by decide, fun hmem => hopen (htext hmem), by decide, hmore⟩
        by_cases hrest : ')' ∈ rest
        · obtain ⟨inside, more, rfl, hinside⟩ := exists_first_parenthesis hrest
          have hsplit : ∀ text : List Char,
              lead ++ '"' :: (text ++ '"' :: (inside ++ ')' :: more)) =
                (lead ++ '"' :: (text ++ '"' :: inside)) ++ ')' :: more := by
            intro text
            simp
          rw [hsplit, hsplit, enclosed?_append (hquoted inside hold hinside),
            enclosed?_append (hquoted inside hnew hinside), if_neg (by simp), if_neg (by simp)]
          exact .some ⟨.inr ⟨by simp, by simp⟩, .same more⟩
        · rw [enclosed?_eq_none (hquoted rest hold hrest),
            enclosed?_eq_none (hquoted rest hnew hrest)]
          exact .none

/-- A method is read alike from both texts. -/
theorem Exchanged.methodHere (h : Exchanged (· <:+ whole) old new s s') :
    Option.Rel (fun a b => SameSignature a.1 b.1 ∧ Exchanged (· <:+ whole) old new a.2 b.2)
      (methodHere? s) (methodHere? s') := by
  rw [methodHere?_eq, methodHere?_eq]
  refine rel_bind h.methodHead ?_
  rintro head head' ⟨hname, hhead⟩
  refine rel_bind (hhead.enclosed hold hnew) ?_
  rintro input input' ⟨hinput, hrest⟩
  refine rel_bind hrest.returnsHead ?_
  intro inside inside' hinside
  rw [Option.map_eq_bind, Option.map_eq_bind]
  refine rel_bind (hinside.enclosed hold hnew) ?_
  rintro output output' ⟨houtput, hafter⟩
  exact .some ⟨⟨hname, hinput, houtput⟩, hafter⟩

/-- The methods of both texts are the same, one by one. -/
theorem Exchanged.methods (hmethod : opensMethod (some '"') old = false)
    (hmethod' : opensMethod (some '"') new = false) (h : Exchanged (· <:+ whole) old new s s')
    (before : Option Char) :
    List.Forall₂ SameSignature (methodsFrom before s) (methodsFrom before s') := by
  induction hlength : s.length using Nat.strongRecOn generalizing s s' before with
  | _ length ih =>
      have hhere := h.methodHere hold hnew
      cases h with
      | same => exact List.forall₂_same.mpr fun s _ => SameSignature.refl s
      | @literal lead rest hlead =>
          cases lead with
          | nil =>
              have hskip : ∀ {text : List Char}, opensMethod (some '"') text = false →
                  methodsFrom before ([] ++ '"' :: (text ++ '"' :: rest)) =
                    methodsFrom (some '"') rest := by
                intro text htext
                rw [methodsFrom_quote before rfl, methodsFrom_quote _ htext]
              rw [hskip hmethod, hskip hmethod']
              exact List.forall₂_same.mpr fun s _ => SameSignature.refl s
          | cons c lead =>
              rw [List.cons_append] at hlength
              rw [List.cons_append, List.cons_append] at hhere ⊢
              have hlead' : lead <:+ whole := (List.suffix_cons c lead).trans hlead
              have hbehind := ih _ (hlength ▸ Nat.lt_succ_self _) (.literal rest hlead') (some c)
                rfl
              rw [methodsFrom_cons, methodsFrom_cons]
              by_cases hword : before.any Text.isWord = true
              · rw [if_pos hword, if_pos hword]
                exact hbehind
              · rw [if_neg hword, if_neg hword]
                generalize hleft : methodHere? (c :: (lead ++ '"' :: (old ++ '"' :: rest))) = left
                  at hhere ⊢
                generalize methodHere? (c :: (lead ++ '"' :: (new ++ '"' :: rest))) = right
                  at hhere ⊢
                cases hhere with
                | none => exact hbehind
                | some hrel =>
                    have hafter := methodHere?_length hleft
                    exact .cons hrel.1 (ih _ (hlength ▸ hafter) hrel.2 _ rfl)

end Reading

/-! ## Definitions with another literal -/

/-- The methods are the same up to types that hold a quote. -/
structure SameMethod (m m' : RpcMethod) : Prop where
  id : m.id = m'.id
  service : m.service = m'.service
  name : m.name = m'.name
  package : m.package = m'.package
  file : m.file = m'.file
  inputType : SameType m.inputType.toList m'.inputType.toList
  outputType : SameType m.outputType.toList m'.outputType.toList

theorem SameType.typeName {a b : List Char} (h : SameType a b) :
    SameType (String.ofList (typeName a)).toList (String.ofList (Interface.typeName b)).toList := by
  rw [String.toList_ofList, String.toList_ofList]
  rcases h with rfl | ⟨ha, hb⟩
  · exact .inl rfl
  · exact .inr ⟨quote_mem_typeName ha, quote_mem_typeName hb⟩

theorem SameSignature.method {s s' : Signature} (h : SameSignature s s') (file : RawText)
    (package service : List Char) :
    SameMethod (method file package service s) (Interface.method file package service s') where
  id := by simp only [Interface.method, h.name]
  service := rfl
  name := by simp only [Interface.method, h.name]
  package := rfl
  file := rfl
  inputType := h.input.typeName
  outputType := h.output.typeName

/-- Methods without a quote in their types are the same. -/
theorem SameMethod.eq_of_not_mem {m m' : RpcMethod} (h : SameMethod m m')
    (hinput : '"' ∉ m.inputType.toList) (houtput : '"' ∉ m.outputType.toList) : m = m' := by
  have hin := String.toList_inj.mp (h.inputType.resolve_right fun hboth => hinput hboth.1)
  have hout := String.toList_inj.mp (h.outputType.resolve_right fun hboth => houtput hboth.1)
  cases m
  cases m'
  rw [RpcMethod.mk.injEq]
  exact ⟨h.id, h.service, h.name, h.package, hin, hout, h.file⟩

theorem stripComments_eq {text : List Char} {front back : List Piece} {literal : List Char}
    (h : pieces text = withLiteral front literal back) :
    stripComments text = front.flatMap Piece.kept ++
      '"' :: (literal ++ '"' :: back.flatMap Piece.kept) := by
  rw [stripComments, h]
  simp [withLiteral, quoted, Piece.kept, Piece.text]

/-- The services have the same name, and the same methods up to types that hold a quote. -/
structure SameService (a b : Service) : Prop where
  name : a.name = b.name
  methods : List.Forall₂ SameSignature (methodsOf a.body) (methodsOf b.body)

theorem sameServices_refl (found : List Service) : List.Forall₂ SameService found found :=
  List.forall₂_same.mpr fun _ _ =>
    ⟨rfl, List.forall₂_same.mpr fun s _ => SameSignature.refl s⟩

section Exchange

variable {front : List Piece} {old new : List Char} (hold : Inert front old)
  (hnew : Inert front new)
include hold hnew

/-- The package is declared before the literal or behind it. -/
theorem packageOf_exchange (lead rest : List Char) :
    packageOf (lead ++ '"' :: (old ++ '"' :: rest)) =
      packageOf (lead ++ '"' :: (new ++ '"' :: rest)) := by
  have hskip : ∀ {text : List Char}, packageFrom false text = [] →
      packageFrom false (text ++ '"' :: rest) = packageFrom false rest := by
    intro text htext
    rw [packageFrom_quote, if_pos htext]
  unfold packageOf
  rw [packageFrom_quote true lead, packageFrom_quote true lead, hskip hold.package,
    hskip hnew.package]

/-- The services are the same, up to the literal in the body of one of them. -/
theorem services_exchange (rest : List Char) :
    (services (front.flatMap Piece.kept ++ '"' :: (old ++ '"' :: rest))).2 =
      (services (front.flatMap Piece.kept ++ '"' :: (new ++ '"' :: rest))).2 ∧
    List.Forall₂ SameService
      (services (front.flatMap Piece.kept ++ '"' :: (old ++ '"' :: rest))).1
      (services (front.flatMap Piece.kept ++ '"' :: (new ++ '"' :: rest))).1 := by
  have hservices : ∀ text : List Char, services text = servicesFrom none text := fun _ => rfl
  rw [hservices, hservices]
  by_cases hbody : EndsInBody front
  · obtain ⟨name, hopen⟩ := Option.isSome_iff_exists.mp hbody
    obtain ⟨closed, inner, opened, hopened, hread⟩ := servicesFrom_literal_inside hopen
    rw [hread old (hold.braces hbody), hread new (hnew.braces hbody)]
    unfold servicesInBody
    cases bodyEnd? (inner + 1) rest with
    | none => exact ⟨rfl, sameServices_refl _⟩
    | some r =>
        obtain ⟨body, after⟩ := r
        have hbodies : Exchanged (· <:+ front.flatMap Piece.kept) old new
            (opened ++ '"' :: (old ++ '"' :: body)) (opened ++ '"' :: (new ++ '"' :: body)) :=
          .literal body hopened
        have hmethods := hbodies.methods (hold.parenthesis hbody) (hnew.parenthesis hbody)
          (hold.method hbody) (hnew.method hbody) none
        have hjoin : ∀ text : List Char, opened ++ '"' :: (text ++ ['"']) ++ body =
            opened ++ '"' :: (text ++ '"' :: body) := by
          intro text
          simp
        refine ⟨rfl, List.rel_append (sameServices_refl closed)
          (.cons ⟨rfl, ?_⟩ (sameServices_refl _))⟩
        simp only [hjoin]
        exact hmethods
  · have hclosed : (servicesFrom none (front.flatMap Piece.kept)).2 = none := by
      rw [← Option.not_isSome_iff_eq_none]
      exact hbody
    rw [servicesFrom_literal_outside hclosed (hold.service hbody),
      servicesFrom_literal_outside hclosed (hnew.service hbody)]
    exact ⟨rfl, sameServices_refl _⟩

end Exchange

/-- What is read from the definition with other text between the quotes of one of its literals, if
both texts are inert there: the same warnings, and the same methods up to types that the literal
stands in.  With no quote in a type, everything is the same. -/
theorem read_exchange_literal {file : SourceFile} {front back : List Piece} {old new : List Char}
    (hfile : pieces file.content.toList = withLiteral front old back) (hmarks : Unmarked new)
    (hold : Inert front old) (hnew : Inert front new) :
    let changed := { file with content := String.ofList (joined (withLiteral front new back)) }
    (read changed).warnings = (read file).warnings ∧
      List.Forall₂ SameMethod (read file).entities (read changed).entities ∧
      ((∀ m ∈ (read file).entities, '"' ∉ m.inputType.toList ∧ '"' ∉ m.outputType.toList) →
        read changed = read file) := by
  intro changed
  have hpieces : pieces changed.content.toList = withLiteral front new back := by
    rw [String.toList_ofList]
    exact pieces_exchange hfile hmarks hnew.comment
  have htext := stripComments_eq hfile
  have htext' := stripComments_eq hpieces
  obtain ⟨hbroken, hservices⟩ := services_exchange hold hnew (back.flatMap Piece.kept)
  have hpackage := packageOf_exchange hold hnew (front.flatMap Piece.kept)
    (back.flatMap Piece.kept)
  rw [← htext, ← htext'] at hbroken hservices hpackage
  have hwarnings : (read changed).warnings = (read file).warnings := by
    simp only [read, hbroken]
    rfl
  have hmethods : List.Forall₂ SameMethod (read file).entities (read changed).entities := by
    simp only [read, hpackage]
    refine List.rel_flatMap hservices ?_
    intro a b hab
    simp only [hab.name, List.forall₂_map_left_iff, List.forall₂_map_right_iff]
    exact hab.methods.imp fun s s' hs => hs.method _ _ _
  refine ⟨hwarnings, hmethods, fun hquotes => ?_⟩
  have hentities : (read file).entities = (read changed).entities := by
    rw [← List.forall₂_eq_eq_eq]
    refine ((List.forall₂_and_left _ _).mpr ⟨hquotes, hmethods⟩).imp ?_
    exact fun m m' h => h.2.eq_of_not_mem h.1.1 h.1.2
  generalize read file = layer at hwarnings hentities
  generalize read changed = layer' at hwarnings hentities
  cases layer
  cases layer'
  rw [Layer.mk.injEq]
  exact ⟨hentities.symm, hwarnings⟩

/-- A service with an option before its one method. -/
def optionFile (text : String) : SourceFile :=
  { path := "a.proto"
    content := "service A \x7b option p = \"" ++ text ++ "\"; rpc M(B) returns (C); \x7d"
    kind := .interfaceDefinition }

theorem read_exchange_literal_option :
    read (optionFile "/v1/\x7bid\x7d/*") = read (optionFile "//") := by
  have hold : ∀ front, Inert front "//".toList := by
    apply Inert.of_anywhere <;> decide +kernel
  have hnew : ∀ front, Inert front "/v1/\x7bid\x7d/*".toList := by
    apply Inert.of_anywhere <;> decide +kernel
  have hexchange := @read_exchange_literal (optionFile "//")
    ("service A \x7b option p = ".toList.map .plain)
    ("; rpc M(B) returns (C); \x7d".toList.map .plain) "//".toList "/v1/\x7bid\x7d/*".toList
    (by decide +kernel) (by decide +kernel) (hold _) (hnew _)
  exact hexchange.2.2 (by decide +kernel)

/-- A brace in a literal ends the body early, and the method behind it is lost. -/
example : (read (optionFile "\x7d")).entities = [] ∧ (read (optionFile "")).entities ≠ [] := by
  decide +kernel

end ApiAtlas.Interface
