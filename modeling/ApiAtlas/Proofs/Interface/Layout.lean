import ApiAtlas.Interface.Basic
import ApiAtlas.Proofs.Interface.Comment
import ApiAtlas.Proofs.Text.Run
set_option autoImplicit false

/-!
# Interface: definitions and how they are laid out

A definition is a package, if there is one, and services with methods.  It is written as a sequence
of tokens, and what stands between two tokens is free: blanks, line comments and block comments in
any mixture, as long as it separates.  Stripping leaves the tokens with nothing but blanks between
them.
-/

namespace ApiAtlas.Interface

/-! ## What is declared -/

/-- A name in which dots may stand, of a package or a type. -/
structure DottedName where
  chars : List Char
  ne_nil : chars ≠ []
  isPart : ∀ c ∈ chars, isPackagePart c = true

/-- A type where it is used, with or without the qualifier. -/
structure TypeUse where
  streamed : Bool
  name : DottedName

structure MethodDeclaration where
  name : Text.Word
  input : TypeUse
  output : TypeUse

structure ServiceDeclaration where
  name : Text.Word
  methods : List MethodDeclaration

structure Definition where
  package : Option DottedName
  services : List ServiceDeclaration

/-- A token of a written definition. -/
abbrev Token := List Char

/-- `A` or `stream A`. -/
def TypeUse.tokens (t : TypeUse) : List Token :=
  if t.streamed then ["stream".toList, t.name.chars] else [t.name.chars]

/-- `rpc M ( A ) returns ( B`. -/
def MethodDeclaration.openTokens (m : MethodDeclaration) : List Token :=
  "rpc".toList :: m.name.chars :: ['('] :: (m.input.tokens
    ++ [')'] :: "returns".toList :: ['('] :: m.output.tokens)

/-- `rpc M ( A ) returns ( B ) ;`. -/
def MethodDeclaration.tokens (m : MethodDeclaration) : List Token :=
  m.openTokens ++ [[')'], [';']]

/-- The service with its methods between braces. -/
def ServiceDeclaration.tokens (s : ServiceDeclaration) : List Token :=
  "service".toList :: s.name.chars :: ['{'] :: (s.methods.flatMap MethodDeclaration.tokens
    ++ [['}']])

/-- `package P ;`, or nothing. -/
def packageTokens : Option DottedName → List Token
  | some name => ["package".toList, name.chars, [';']]
  | none => []

/-- The package, then the services. -/
def Definition.tokens (d : Definition) : List Token :=
  packageTokens d.package ++ d.services.flatMap ServiceDeclaration.tokens

/-! ## What stands between tokens -/

/-- A part of what stands between two tokens. -/
inductive Filler
  | blank (c : Char) (isBlank : Text.isBlank c = true)
  /-- A comment that ends with its line. -/
  | line (content : List Char) (oneLine : '\n' ∉ content)
  /-- A comment that ends with the first closing mark. -/
  | block (content : List Char) (unclosed : ¬ ['*', '/'] <:+: content)

namespace Filler

/-- How the part is written. -/
def text : Filler → List Char
  | .blank c _ => [c]
  | .line content _ => '/' :: '/' :: (content ++ ['\n'])
  | .block content _ => '/' :: '*' :: (content ++ ['*', '/'])

/-- What stripping leaves of the part. -/
def kept : Filler → List Char
  | .blank c _ => [c]
  | .line _ _ => ['\n']
  | .block _ _ => []

/-- The part has a blank outside of comments; the line feed behind a line comment is one. -/
def separates : Filler → Bool
  | .blank _ _ => true
  | .line _ _ => true
  | .block _ _ => false

end Filler

/-- Something between two tokens that keeps them apart. -/
structure Gap where
  fillers : List Filler
  separates : ∃ f ∈ fillers, f.separates = true

/-- Tokens with a gap before each; the gaps are taken in order. -/
def behindGaps : (Nat → Gap) → List Token → List Char
  | _, [] => []
  | gaps, t :: rest =>
      (gaps 0).fillers.flatMap Filler.text ++ (t ++ behindGaps (fun n => gaps (n + 1)) rest)

/-- How a definition is laid out: what stands before the first token, between two tokens and behind
the last one. -/
structure Layout where
  lead : List Filler
  gaps : Nat → Gap
  trail : List Filler

/-- The tokens in the layout. -/
def Layout.text (l : Layout) : List Token → List Char
  | [] => l.lead.flatMap Filler.text ++ l.trail.flatMap Filler.text
  | t :: rest =>
      l.lead.flatMap Filler.text
        ++ (t ++ (behindGaps l.gaps rest ++ l.trail.flatMap Filler.text))

/-! ## Tokens between blanks -/

/-- The text starts with a blank, unless it is empty. -/
def BlankAhead (text : List Char) : Prop := ∀ c ∈ text.head?, Text.isBlank c = true

/-- The text is the tokens with blanks between any two of them, and perhaps at both ends. -/
inductive Spaced : List Token → List Char → Prop
  | nil {b : List Char} : Text.Blank b → Spaced [] b
  | cons {b text : List Char} {t : Token} {ts : List Token} :
      Text.Blank b → BlankAhead text → Spaced ts text → Spaced (t :: ts) (b ++ (t ++ text))

theorem BlankAhead.of_blank {b : List Char} (hb : Text.Blank b) : BlankAhead b := by
  intro c hc
  exact hb c (List.mem_of_mem_head? hc)

theorem BlankAhead.append {b : List Char} (hb : Text.Blank b) (hne : b ≠ []) (rest : List Char) :
    BlankAhead (b ++ rest) := by
  cases b with
  | nil => exact absurd rfl hne
  | cons c b =>
      intro d hd
      obtain rfl : c = d := by simpa using hd
      exact hb c List.mem_cons_self

theorem BlankAhead.stops {text : List Char} (h : BlankAhead text) :
    Text.Stops Text.isWord text := by
  intro c hc
  exact Text.not_isWord_of_isBlank (h c hc)

namespace Spaced

variable {ts us : List Token} {t : Token} {text : List Char}

theorem cons_inv (h : Spaced (t :: ts) text) :
    ∃ b rest, Text.Blank b ∧ text = b ++ (t ++ rest) ∧ BlankAhead rest ∧ Spaced ts rest := by
  cases h with
  | cons hb hahead hrest => exact ⟨_, _, hb, rfl, hahead, hrest⟩

/-- Every character is a blank or stands in a token. -/
theorem mem (h : Spaced ts text) {c : Char} (hc : c ∈ text) :
    Text.isBlank c = true ∨ ∃ t ∈ ts, c ∈ t := by
  induction h with
  | nil hb => exact .inl (hb c hc)
  | @cons b text t ts hb _ _ ih =>
      rcases List.mem_append.mp hc with hc | hc
      · exact .inl (hb c hc)
      · rcases List.mem_append.mp hc with hc | hc
        · exact .inr ⟨t, List.mem_cons_self, hc⟩
        · exact (ih hc).imp id fun ⟨u, hu, hcu⟩ => ⟨u, List.mem_cons_of_mem t hu, hcu⟩

/-- The text of some tokens and others behind them falls into two parts. -/
theorem split (h : Spaced (ts ++ us) text) :
    ∃ front back, text = front ++ back ∧ Spaced ts front ∧ Spaced us back := by
  induction ts generalizing text with
  | nil => exact ⟨[], text, rfl, .nil (by simp [Text.Blank]), h⟩
  | cons t ts ih =>
      obtain ⟨b, rest, hb, rfl, hahead, hrest⟩ := h.cons_inv
      obtain ⟨front, back, rfl, hfront, hback⟩ := ih hrest
      refine ⟨b ++ (t ++ front), back, by simp, .cons hb ?_ hfront, hback⟩
      intro c hc
      exact hahead c (List.mem_head?_append_of_mem_head? hc)

theorem append_blank (h : Spaced ts text) {b : List Char} (hb : Text.Blank b) :
    Spaced ts (text ++ b) := by
  induction h with
  | nil ha => exact .nil (ha.append hb)
  | @cons a text t ts ha hahead _ ih =>
      rw [List.append_assoc, List.append_assoc]
      refine .cons ha ?_ ih
      cases text with
      | nil => exact .of_blank hb
      | cons c text => exact fun d hd => hahead d (by simpa using hd)

end Spaced

/-! ## Stripping a layout -/

theorem isPlain_of_isBlank {c : Char} (hc : Text.isBlank c = true) : isPlain c = true := by
  unfold isPlain
  rw [Bool.and_eq_true, bne_iff_ne, bne_iff_ne]
  constructor <;> rintro rfl <;> exact absurd hc (by decide)

namespace Filler

theorem blank_kept (f : Filler) : Text.Blank f.kept := by
  intro c hc
  cases f with
  | blank d hd =>
      obtain rfl : c = d := by simpa [kept] using hc
      exact hd
  | line _ _ =>
      obtain rfl : c = '\n' := by simpa [kept] using hc
      decide
  | block _ _ => exact absurd hc (by simp [kept])

theorem kept_ne_nil {f : Filler} (h : f.separates = true) : f.kept ≠ [] := by
  cases f with
  | blank _ _ => simp [kept]
  | line _ _ => simp [kept]
  | block _ _ => simp [separates] at h

theorem stripComments_text (f : Filler) (rest : List Char) :
    stripComments (f.text ++ rest) = f.kept ++ stripComments rest := by
  cases f with
  | blank c hc => exact stripComments_plain (isPlain_of_isBlank hc) rest
  | line content h =>
      have hline := stripComments_line h rest
      simpa [text, kept] using hline
  | block content h =>
      have hblock := stripComments_block h rest
      simpa [text, kept] using hblock

end Filler

theorem blank_fillers (fillers : List Filler) : Text.Blank (fillers.flatMap Filler.kept) := by
  intro c hc
  obtain ⟨f, _, hcf⟩ := List.mem_flatMap.mp hc
  exact f.blank_kept c hcf

theorem stripComments_fillers (fillers : List Filler) (rest : List Char) :
    stripComments (fillers.flatMap Filler.text ++ rest) =
      fillers.flatMap Filler.kept ++ stripComments rest := by
  induction fillers with
  | nil => rfl
  | cons f fillers ih =>
      rw [List.flatMap_cons, List.append_assoc, f.stripComments_text, ih, List.flatMap_cons,
        List.append_assoc]

theorem Gap.kept_ne_nil (g : Gap) : g.fillers.flatMap Filler.kept ≠ [] := by
  obtain ⟨f, hf, hseparates⟩ := g.separates
  intro hnil
  exact Filler.kept_ne_nil hseparates (List.flatMap_eq_nil_iff.mp hnil f hf)

theorem stripComments_trail (trail : List Filler) :
    stripComments (trail.flatMap Filler.text) = trail.flatMap Filler.kept := by
  have h := stripComments_fillers trail []
  rwa [List.append_nil, stripComments_nil, List.append_nil] at h

theorem spaced_behindGaps {ts : List Token} (hts : ∀ t ∈ ts, ∀ c ∈ t, isPlain c = true)
    (trail : List Filler) : ∀ gaps : Nat → Gap,
    Spaced ts (stripComments (behindGaps gaps ts ++ trail.flatMap Filler.text)) ∧
      BlankAhead (stripComments (behindGaps gaps ts ++ trail.flatMap Filler.text)) := by
  induction ts with
  | nil =>
      intro gaps
      unfold behindGaps
      rw [List.nil_append, stripComments_trail]
      exact ⟨.nil (blank_fillers trail), .of_blank (blank_fillers trail)⟩
  | cons t ts ih =>
      intro gaps
      obtain ⟨hrest, hahead⟩ := ih (fun u hu => hts u (List.mem_cons_of_mem t hu))
        fun n => gaps (n + 1)
      unfold behindGaps
      rw [List.append_assoc, List.append_assoc, stripComments_fillers,
        stripComments_append (hts t List.mem_cons_self)]
      exact ⟨.cons (blank_fillers _) hahead hrest,
        .append (blank_fillers _) (gaps 0).kept_ne_nil _⟩

/-- Whatever the layout, stripping leaves the tokens between blanks. -/
theorem Layout.spaced (l : Layout) {ts : List Token} (hts : ∀ t ∈ ts, ∀ c ∈ t, isPlain c = true) :
    Spaced ts (stripComments (l.text ts)) := by
  cases ts with
  | nil =>
      unfold text
      rw [stripComments_fillers, stripComments_trail]
      exact .nil ((blank_fillers l.lead).append (blank_fillers l.trail))
  | cons t ts =>
      obtain ⟨hrest, hahead⟩ :=
        spaced_behindGaps (fun u hu => hts u (List.mem_cons_of_mem t hu)) l.trail l.gaps
      unfold text
      rw [stripComments_fillers, stripComments_append (hts t List.mem_cons_self)]
      exact .cons (blank_fillers l.lead) hahead hrest

/-! ## The characters of tokens -/

theorem isPackagePart_of_isWord {c : Char} (hc : Text.isWord c = true) :
    isPackagePart c = true := by
  unfold isPackagePart
  rw [hc, Bool.true_or]

theorem not_isBlank_of_isPackagePart {c : Char} (hc : isPackagePart c = true) :
    Text.isBlank c = false := by
  unfold isPackagePart at hc
  rw [Bool.or_eq_true, beq_iff_eq] at hc
  rcases hc with hword | rfl
  · exact Text.not_isBlank_of_isWord hword
  · decide

theorem isPlain_of_isPackagePart {c : Char} (hc : isPackagePart c = true) : isPlain c = true := by
  unfold isPlain
  rw [Bool.and_eq_true, bne_iff_ne, bne_iff_ne]
  constructor <;> rintro rfl <;> exact absurd hc (by decide)

/-- The characters of a token: those of names, and the given marks. -/
def OfNames (marks : List Char) (ts : List Token) : Prop :=
  ∀ t ∈ ts, ∀ c ∈ t, isPackagePart c = true ∨ c ∈ marks

theorem isPackagePart_of_mem {name : Text.Word} {c : Char} (hc : c ∈ name.chars) :
    isPackagePart c = true :=
  isPackagePart_of_isWord (name.isWord c hc)

theorem TypeUse.ofNames (t : TypeUse) : OfNames [] t.tokens := by
  have hstream : ∀ c ∈ "stream".toList, isPackagePart c = true :=
    List.all_eq_true.mp (by decide)
  intro u hu c hc
  unfold tokens at hu
  split at hu
  · simp only [List.mem_cons, List.not_mem_nil, or_false] at hu
    rcases hu with rfl | rfl
    · exact .inl (hstream c hc)
    · exact .inl (t.name.isPart c hc)
  · obtain rfl := List.mem_singleton.mp hu
    exact .inl (t.name.isPart c hc)

theorem ofNames_cons {marks : List Char} {t : Token} {ts : List Token} :
    OfNames marks (t :: ts) ↔ (∀ c ∈ t, isPackagePart c = true ∨ c ∈ marks) ∧ OfNames marks ts := by
  unfold OfNames
  exact List.forall_mem_cons

theorem ofNames_append {marks : List Char} {ts us : List Token} :
    OfNames marks (ts ++ us) ↔ OfNames marks ts ∧ OfNames marks us := by
  unfold OfNames
  exact List.forall_mem_append

theorem OfNames.mono {marks more : List Char} {ts : List Token} (h : OfNames marks ts)
    (hmore : marks ⊆ more) : OfNames more ts := by
  intro t ht c hc
  exact (h t ht c hc).imp id fun hmark => hmore hmark

theorem OfNames.flatMap {α : Type} {marks : List Char} {tokens : α → List Token}
    (h : ∀ a, OfNames marks (tokens a)) (items : List α) :
    OfNames marks (items.flatMap tokens) := by
  intro t ht
  obtain ⟨a, _, hta⟩ := List.mem_flatMap.mp ht
  exact h a t hta

theorem MethodDeclaration.ofNames_open (m : MethodDeclaration) :
    OfNames ['(', ')'] m.openTokens := by
  have hrpc : ∀ c ∈ "rpc".toList, isPackagePart c = true := List.all_eq_true.mp (by decide)
  have hreturns : ∀ c ∈ "returns".toList, isPackagePart c = true :=
    List.all_eq_true.mp (by decide)
  have htype : ∀ t : TypeUse, OfNames ['(', ')'] t.tokens :=
    fun t => t.ofNames.mono (List.nil_subset _)
  unfold openTokens
  simp only [ofNames_cons, ofNames_append]
  exact ⟨fun c hc => .inl (hrpc c hc), fun c hc => .inl (isPackagePart_of_mem hc), by simp,
    htype m.input, by simp, fun c hc => .inl (hreturns c hc), by simp, htype m.output⟩

theorem MethodDeclaration.ofNames (m : MethodDeclaration) :
    OfNames ['(', ')', ';'] m.tokens := by
  unfold tokens
  rw [ofNames_append]
  exact ⟨m.ofNames_open.mono (by decide), by simp [OfNames]⟩

theorem ServiceDeclaration.ofNames (s : ServiceDeclaration) :
    OfNames ['(', ')', ';', '{', '}'] s.tokens := by
  have hservice : ∀ c ∈ "service".toList, isPackagePart c = true :=
    List.all_eq_true.mp (by decide)
  have hmethod : ∀ m : MethodDeclaration, OfNames ['(', ')', ';', '{', '}'] m.tokens :=
    fun m => m.ofNames.mono (by decide)
  unfold tokens
  simp only [ofNames_cons, ofNames_append]
  exact ⟨fun c hc => .inl (hservice c hc), fun c hc => .inl (isPackagePart_of_mem hc), by simp,
    .flatMap hmethod s.methods, by simp, by simp [OfNames]⟩

theorem Definition.ofNames (d : Definition) : OfNames ['(', ')', ';', '{', '}'] d.tokens := by
  have hpackage : ∀ c ∈ "package".toList, isPackagePart c = true :=
    List.all_eq_true.mp (by decide)
  unfold tokens
  refine ofNames_append.mpr ⟨?_, .flatMap ServiceDeclaration.ofNames d.services⟩
  cases d.package with
  | none => simp [packageTokens, OfNames]
  | some name =>
      simp only [packageTokens, ofNames_cons]
      exact ⟨fun c hc => .inl (hpackage c hc), fun c hc => .inl (name.isPart c hc), by simp,
        by simp [OfNames]⟩

/-- Stripping leaves the tokens of a definition between blanks. -/
theorem Definition.spaced (d : Definition) (l : Layout) :
    Spaced d.tokens (stripComments (l.text d.tokens)) := by
  apply l.spaced
  intro t ht c hc
  rcases d.ofNames t ht c hc with hpart | hmark
  · exact isPlain_of_isPackagePart hpart
  · have hmarks : ∀ c ∈ ['(', ')', ';', '{', '}'], isPlain c = true :=
      List.all_eq_true.mp (by decide)
    exact hmarks c hmark

end ApiAtlas.Interface
