import Mathlib.Data.List.Pairwise
import ApiAtlas.Proofs.Document.Trimming
import ApiAtlas.Proofs.Text.Run
set_option autoImplicit false

/-!
# Document: the cutting loses nothing

The slices of a text tile it, up to a rest of blanks, commas, comments and strings.  Definitions are
slices without the blanks at their ends, so each of them has its place in the text.  The places do
not overlap, and every bracket and every word outside comments and strings is inside one of them.
-/

namespace ApiAtlas.Document

/-! ## Texts without content -/

/-- `PlainEnds text rest`: behind its opening quote a plain string goes on with `text`, and `rest`
is what follows it.  A backslash takes the character behind it into the string. -/
inductive PlainEnds : List Char → List Char → Prop
  | quote {rest : List Char} : PlainEnds ('"' :: rest) rest
  | lineFeed {rest : List Char} : PlainEnds ('\n' :: rest) ('\n' :: rest)
  | unclosed : PlainEnds [] []
  | backslash : PlainEnds ['\\'] []
  | escape {c : Char} {text rest : List Char} (h : PlainEnds text rest) :
      PlainEnds ('\\' :: c :: text) rest
  | char {c : Char} {text rest : List Char} (hquote : c ≠ '"') (hfeed : c ≠ '\n')
      (hescape : c ≠ '\\') (h : PlainEnds text rest) : PlainEnds (c :: text) rest

/-- `BlockEnds text rest`: behind its opening quotes a block string goes on with `text`, and `rest`
is what follows it.  A backslash takes three quotes into the string. -/
inductive BlockEnds : List Char → List Char → Prop
  | quotes {rest : List Char} : BlockEnds ('"' :: '"' :: '"' :: rest) rest
  | unclosed : BlockEnds [] []
  | escape {text rest : List Char} (h : BlockEnds text rest) :
      BlockEnds ('\\' :: '"' :: '"' :: '"' :: text) rest
  | char {c : Char} {text rest : List Char} (hquotes : ¬ ['"', '"', '"'] <+: c :: text)
      (hescape : ¬ ['\\', '"', '"', '"'] <+: c :: text) (h : BlockEnds text rest) :
      BlockEnds (c :: text) rest

/-- The text holds nothing but ASCII blanks, commas, comments and strings. -/
inductive Idle : List Char → Prop
  | nil : Idle []
  | gap {c : Char} {rest : List Char} (hc : Text.isAsciiBlank c = true ∨ c = ',')
      (h : Idle rest) : Idle (c :: rest)
  | comment {text : List Char} (h : Idle (text.dropWhile (· != '\n'))) : Idle ('#' :: text)
  | block {text rest : List Char} (hends : BlockEnds text rest) (h : Idle rest) :
      Idle ('"' :: '"' :: '"' :: text)
  | plain {text rest : List Char} (hplain : ¬ ['"', '"'] <+: text) (hends : PlainEnds text rest)
      (h : Idle rest) : Idle ('"' :: text)

theorem plainEnds_plainString (text : List Char) : PlainEnds text (plainString text).2 := by
  fun_induction plainString text with
  | case1 => exact .unclosed
  | case2 rest => exact .quote
  | case3 rest => exact .lineFeed
  | case4 c rest inside after hrest ih =>
      rw [hrest] at ih
      exact .escape ih
  | case5 c rest hquote hfeed hescape inside after hrest ih =>
      rw [hrest] at ih
      by_cases hc : c = '\\'
      · -- only the last character of a text is a backslash with nothing to take in
        cases rest with
        | nil =>
            cases hrest
            exact hc ▸ .backslash
        | cons d more => exact absurd rfl (hescape d more hc)
      · exact .char hquote hfeed hc ih

theorem blockEnds_blockString (text : List Char) : BlockEnds text (blockString text).2 := by
  fun_induction blockString text with
  | case1 => exact .unclosed
  | case2 rest inside after hrest ih =>
      rw [hrest] at ih
      exact .escape ih
  | case3 rest => exact .quotes
  | case4 c rest hescape hquotes inside after hrest ih =>
      rw [hrest] at ih
      refine .char ?_ ?_ ih
      · rintro ⟨more, hmore⟩
        simp only [List.cons_append, List.nil_append, List.cons.injEq] at hmore
        exact hquotes more hmore.1.symm hmore.2.symm
      · rintro ⟨more, hmore⟩
        simp only [List.cons_append, List.nil_append, List.cons.injEq] at hmore
        exact hescape more hmore.1.symm hmore.2.symm

/-- A text whose lexemes are blanks, comments and strings is idle. -/
theorem idle_of_lexemes {text : List Char} (h : ∀ l ∈ lexemes text, l.isContent = false) :
    Idle text := by
  induction text using lexemes_induction with
  | nil => exact .nil
  | cons c rest ih =>
      rw [lexemes_cons, List.forall_mem_cons] at h
      obtain ⟨hfirst, hrest⟩ := h
      have hidle := ih hrest
      rcases class_cases c with rfl | rfl | hopening | hclosing | hplain
      · exact .comment hidle
      · by_cases hblock : ['"', '"'] <+: rest
        · obtain ⟨more, rfl⟩ := hblock
          exact .block (blockEnds_blockString more) hidle
        · rw [firstLexeme_line fun body hbody => hblock ⟨body, hbody.symm⟩] at hidle
          exact .plain hblock (plainEnds_plainString rest) hidle
      · rw [firstLexeme_opening hopening] at hfirst
        contradiction
      · rw [firstLexeme_closing hclosing] at hfirst
        contradiction
      · by_cases hstart : isWordStart c = true
        · rw [firstLexeme_word hstart] at hfirst
          contradiction
        · rw [firstLexeme_single hplain hstart] at hfirst hidle
          refine .gap ?_ hidle
          by_contra hgap
          rw [if_neg (by simpa using hgap)] at hfirst
          contradiction

/-! ## What follows the last slice -/

/-- The slice counts as one with content just when a lexeme with content is held. -/
def Cut.Records (s : Cut) : Prop := s.content = s.held.any Lexeme.isContent

theorem Cut.Records.step {s : Cut} (h : s.Records) (l : Lexeme) :
    (s.step l).2.Records ∧ ∀ k ∈ (s.step l).1, k.any Lexeme.isContent = true := by
  unfold Cut.Records at h ⊢
  rcases s.step_cases l with ⟨hended, hheld, _, hgrown⟩ | ⟨rfl, _, hstep⟩ |
    ⟨hkind, hstarts, hended, hheld, _, hgrown⟩
  · rw [hended, hheld, hgrown, h, List.any_cons, Bool.or_comm]
    exact ⟨rfl, fun k hk => absurd hk (by simp)⟩
  · rw [hstep]
    refine ⟨rfl, fun k hk => ?_⟩
    obtain rfl := Option.mem_some.mp hk
    rw [List.any_reverse, List.any_cons]
    rfl
  · rw [hended, hheld, hgrown]
    refine ⟨by simp [Lexeme.isContent, hkind], fun k hk => ?_⟩
    obtain rfl := Option.mem_some.mp hk
    rw [List.any_reverse, ← h, (Cut.depth_eq_zero hstarts).2]

theorem Cut.Records.cutFrom {s : Cut} (h : s.Records) (ls : List Lexeme) :
    (cutFrom s ls).2.Records ∧ ∀ k ∈ (cutFrom s ls).1, k.any Lexeme.isContent = true := by
  induction ls generalizing s with
  | nil => exact ⟨h, List.forall_mem_nil _⟩
  | cons l ls ih =>
      obtain ⟨hnext, hended⟩ := h.step l
      obtain ⟨hlast, hslices⟩ := ih hnext
      rw [cutFrom_cons]
      refine ⟨hlast, fun k hk => ?_⟩
      rcases List.mem_append.mp hk with hk | hk
      · exact hended k (Option.mem_toList.mp hk)
      · exact hslices k hk

theorem Cut.records_start : Cut.start.Records := rfl

/-- The slices and what follows them are the lexemes of the text. -/
theorem slices_tile (text : List Char) :
    (slices text).1.flatten ++ (slices text).2 = lexemes text := by
  have htiles : (cutFrom Cut.start (lexemes text)).1.flatten ++
      (cutFrom Cut.start (lexemes text)).2.held.reverse = lexemes text :=
    cutFrom_tiles Cut.start (lexemes text)
  simp only [slices]
  split
  · simpa using htiles
  · exact htiles

theorem isContent_of_mem_rest {text : List Char} :
    ∀ l ∈ (slices text).2, l.isContent = false := by
  have hrecords := (Cut.records_start.cutFrom (lexemes text)).1
  intro l hl
  simp only [slices] at hl
  split at hl
  · exact absurd hl List.not_mem_nil
  · rename_i hcontent
    rw [hrecords, Bool.not_eq_true, List.any_eq_false] at hcontent
    exact Bool.eq_false_iff.mpr (hcontent l (List.mem_reverse.mp hl))

/-- The last lexemes of a text are the lexemes of its last part. -/
theorem lexemes_of_append {text : List Char} {ls ms : List Lexeme}
    (h : lexemes text = ls ++ ms) : lexemes (Slice.text ms) = ms := by
  induction ls generalizing text with
  | nil => rw [← List.nil_append ms, ← h, text_lexemes]
  | cons l ls ih =>
      cases text with
      | nil => contradiction
      | cons c rest =>
          rw [lexemes_cons, List.cons_append, List.cons.injEq] at h
          exact ih h.2

theorem idle_rest (text : List Char) : Idle (Slice.text (slices text).2) := by
  apply idle_of_lexemes
  rw [lexemes_of_append (slices_tile text).symm]
  exact isContent_of_mem_rest

theorem text_flatten (ss : List Slice) :
    Slice.text ss.flatten = (ss.map Slice.text).flatten := by
  induction ss with
  | nil => rfl
  | cons s ss ih => rw [List.flatten_cons, text_append, ih, List.map_cons, List.flatten_cons]

/-- The texts of the slices, one behind the other, and the rest are the text. -/
theorem text_slices (text : List Char) :
    ((slices text).1.map Slice.text).flatten ++ Slice.text (slices text).2 = text := by
  rw [← text_flatten, ← text_append, slices_tile, text_lexemes]

/-! ## Trimming -/

/-- A text is blanks, what trimming leaves of it, and blanks. -/
theorem trim_parts (text : List Char) :
    ∃ tail, text = text.takeWhile Text.isBlank ++ (Text.trim text ++ tail) ∧
      ∀ c ∈ tail, Text.isBlank c = true := by
  obtain ⟨tail, htail, hblank⟩ := trimEnd_append (Text.trimStart text)
  refine ⟨tail, ?_, hblank⟩
  rw [Text.trim, ← htail, Text.trimStart, List.takeWhile_append_dropWhile]

theorem trim_eq_nil_iff {text : List Char} :
    Text.trim text = [] ↔ text.all Text.isBlank = true := by
  rw [List.all_eq_true]
  constructor
  · intro hnil c hc
    by_contra hblank
    have hmem := Text.mem_trim (Bool.eq_false_iff.mpr hblank) hc
    rw [hnil] at hmem
    exact List.not_mem_nil hmem
  · intro hall
    rw [Text.trim, Text.trimStart, List.dropWhile_eq_nil_iff.mpr hall]
    rfl

theorem definitions_eq_filter (text : List Char) :
    definitions text =
      (((slices text).1.map Slice.text).map Text.trim).filter fun d => !d.isEmpty := by
  rw [definitions, List.map_map]
  rfl

/-- The definitions are the slices that are not blank, trimmed. -/
theorem definitions_eq_map (text : List Char) :
    definitions text =
      (((slices text).1.map Slice.text).filter fun s => !s.all Text.isBlank).map Text.trim := by
  rw [definitions_eq_filter, List.filter_map]
  refine congrArg _ (List.filter_congr ?_)
  intro s _
  rw [Function.comp_apply, Bool.not_inj_iff, Bool.eq_iff_iff, List.isEmpty_iff]
  exact trim_eq_nil_iff

/-- The blanks in front of a text end before any other character of it. -/
theorem length_le_of_blank {lead rest front more : List Char} {c : Char}
    (h : lead ++ rest = front ++ c :: more) (hlead : ∀ d ∈ lead, Text.isBlank d = true)
    (hc : Text.isBlank c = false) : lead.length ≤ front.length := by
  rcases List.append_eq_append_iff.mp h with ⟨between, hfront, _⟩ | ⟨between, hblanks, hmore⟩
  · rw [hfront, List.length_append]
    exact Nat.le_add_right _ _
  · cases between with
    | nil => rw [hblanks, List.append_nil]
    | cons d between =>
        rw [List.cons_append, List.cons.injEq] at hmore
        have hblank := hlead d (hblanks ▸ List.mem_append_right front List.mem_cons_self)
        rw [← hmore.1, hc] at hblank
        contradiction

/-! ## Places -/

/-- A stretch of a text, with the place of its first character. -/
structure Span where
  start : Nat
  text : List Char
  deriving DecidableEq, Repr

namespace Span

/-- The place behind the last character. -/
def stop (s : Span) : Nat := s.start + s.text.length

/-- The stretch is what the text has at its place. -/
def StandsIn (s : Span) (text : List Char) : Prop :=
  ∃ front back, text = front ++ (s.text ++ back) ∧ front.length = s.start

/-- The stretch holds the `n` characters from the place `k` on. -/
def Covers (s : Span) (k n : Nat) : Prop := s.start ≤ k ∧ k + n ≤ s.stop

/-- The stretch without the blanks at its ends. -/
def trim (s : Span) : Span :=
  ⟨s.start + (s.text.takeWhile Text.isBlank).length, Text.trim s.text⟩

theorem start_le_start_trim (s : Span) : s.start ≤ s.trim.start := Nat.le_add_right _ _

theorem stop_trim_le_stop (s : Span) : s.trim.stop ≤ s.stop := by
  obtain ⟨tail, htext, _⟩ := trim_parts s.text
  have hlength := congrArg List.length htext
  simp only [List.length_append] at hlength
  simp only [stop, trim]
  omega

theorem StandsIn.trim {s : Span} {text : List Char} (h : s.StandsIn text) :
    s.trim.StandsIn text := by
  obtain ⟨front, back, rfl, hstart⟩ := h
  obtain ⟨tail, htext, _⟩ := trim_parts s.text
  refine ⟨front ++ s.text.takeWhile Text.isBlank, tail ++ back, ?_, ?_⟩
  · have hparts := congrArg (fun t => front ++ (t ++ back)) htext
    simpa [Span.trim] using hparts
  · rw [List.length_append, hstart]
    rfl

/-- Trimming takes nothing off a part of the stretch that has no blanks. -/
theorem covers_trim {s : Span} {front part back : List Char}
    (h : s.text = front ++ (part ++ back)) (hne : part ≠ [])
    (hpart : ∀ c ∈ part, Text.isBlank c = false) :
    s.trim.Covers (s.start + front.length) part.length := by
  obtain ⟨tail, htext, htail⟩ := trim_parts s.text
  have hlead : (s.text.takeWhile Text.isBlank).length ≤ front.length := by
    obtain ⟨c, more, rfl⟩ := List.exists_cons_of_ne_nil hne
    exact length_le_of_blank (htext.symm.trans h) (fun d hd => List.mem_takeWhile_imp hd)
      (hpart c List.mem_cons_self)
  have htail' : tail.length ≤ back.length := by
    -- the same from the other end
    obtain ⟨c, more, hc⟩ := List.exists_cons_of_ne_nil (List.reverse_ne_nil_iff.mpr hne)
    have hreverse := congrArg List.reverse (htext.symm.trans h)
    simp only [List.reverse_append, List.append_assoc, hc, List.cons_append] at hreverse
    have hlength := length_le_of_blank hreverse (fun d hd => htail d (List.mem_reverse.mp hd))
      (hpart c (List.mem_reverse.mp (hc ▸ List.mem_cons_self)))
    simpa using hlength
  have hlength := congrArg List.length (htext.symm.trans h)
  simp only [List.length_append] at hlength
  simp only [Covers, stop, trim]
  omega

end Span

/-- Stretches one behind the other. -/
def spansFrom : Nat → List (List Char) → List Span
  | _, [] => []
  | start, text :: texts => ⟨start, text⟩ :: spansFrom (start + text.length) texts

theorem map_text_spansFrom (start : Nat) (texts : List (List Char)) :
    (spansFrom start texts).map Span.text = texts := by
  induction texts generalizing start with
  | nil => rfl
  | cons text texts ih => rw [spansFrom, List.map_cons, ih]

theorem mem_spansFrom {start : Nat} {texts : List (List Char)} {s : Span} :
    s ∈ spansFrom start texts ↔
      ∃ before after, texts = before ++ s.text :: after ∧
        s.start = start + before.flatten.length := by
  induction texts generalizing start with
  | nil => simp [spansFrom]
  | cons text texts ih =>
      rw [spansFrom, List.mem_cons, ih]
      constructor
      · rintro (rfl | ⟨before, after, rfl, hstart⟩)
        · exact ⟨[], texts, rfl, rfl⟩
        · refine ⟨text :: before, after, rfl, ?_⟩
          rw [hstart, List.flatten_cons, List.length_append, Nat.add_assoc]
      · rintro ⟨before, after, htexts, hstart⟩
        cases before with
        | nil =>
            rw [List.nil_append, List.cons.injEq] at htexts
            refine Or.inl ?_
            obtain ⟨start', text'⟩ := s
            simp_all
        | cons t before =>
            rw [List.cons_append, List.cons.injEq] at htexts
            refine Or.inr ⟨before, after, htexts.2, ?_⟩
            rw [hstart, List.flatten_cons, List.length_append, htexts.1, Nat.add_assoc]

theorem pairwise_spansFrom (start : Nat) (texts : List (List Char)) :
    (spansFrom start texts).Pairwise fun s t => s.stop ≤ t.start := by
  induction texts generalizing start with
  | nil => exact List.Pairwise.nil
  | cons text texts ih =>
      refine List.Pairwise.cons ?_ (ih _)
      intro s hs
      obtain ⟨before, after, _, hstart⟩ := mem_spansFrom.mp hs
      rw [hstart]
      exact Nat.le_add_right _ _

/-- The definitions of a text with their places. -/
def definitionSpans (text : List Char) : List Span :=
  ((spansFrom 0 ((slices text).1.map Slice.text)).map Span.trim).filter fun s => !s.text.isEmpty

theorem map_text_definitionSpans (text : List Char) :
    (definitionSpans text).map Span.text = definitions text := by
  have htexts : ((slices text).1.map Slice.text).map Text.trim =
      ((spansFrom 0 ((slices text).1.map Slice.text)).map Span.trim).map Span.text := by
    calc ((slices text).1.map Slice.text).map Text.trim
        = ((spansFrom 0 ((slices text).1.map Slice.text)).map Span.text).map Text.trim := by
          rw [map_text_spansFrom]
      _ = ((spansFrom 0 ((slices text).1.map Slice.text)).map Span.trim).map Span.text := by
          rw [List.map_map, List.map_map]
          rfl
  rw [definitions_eq_filter, htexts, List.filter_map]
  rfl

theorem standsIn_of_mem {text : List Char} {s : Span} (hs : s ∈ definitionSpans text) :
    s.StandsIn text := by
  obtain ⟨t, ht, rfl⟩ := List.mem_map.mp (List.mem_filter.mp hs).1
  obtain ⟨before, after, htexts, hstart⟩ := mem_spansFrom.mp ht
  apply Span.StandsIn.trim
  refine ⟨before.flatten, after.flatten ++ Slice.text (slices text).2, ?_, ?_⟩
  · have htext := text_slices text
    rw [htexts] at htext
    simpa using htext.symm
  · rw [hstart, Nat.zero_add]

theorem pairwise_definitionSpans (text : List Char) :
    (definitionSpans text).Pairwise fun s t => s.stop ≤ t.start := by
  refine List.Pairwise.filter _ (List.pairwise_map.mpr ?_)
  refine (pairwise_spansFrom 0 _).imp ?_
  intro s t hapart
  exact (s.stop_trim_le_stop.trans hapart).trans t.start_le_start_trim

/-! ## Brackets and words -/

theorem kind_firstLexeme_quote (rest : List Char) :
    (firstLexeme '"' rest).1.kind = .quoted := by
  by_cases hblock : ['"', '"'] <+: rest
  · obtain ⟨more, rfl⟩ := hblock
    rfl
  · rw [firstLexeme_line fun body hbody => hblock ⟨body, hbody.symm⟩]

theorem not_isBlank_of_not_isPlain {c : Char} (hc : isPlain c = false) :
    Text.isBlank c = false := by
  by_contra hblank
  rw [isPlain_of_isBlank (by simpa using hblank)] at hc
  exact Bool.false_ne_true hc.symm

theorem not_isBlank_of_isWordPart {c : Char} (hc : isWordPart c = true) :
    Text.isBlank c = false := by
  by_contra hblank
  rw [not_isWordPart_of_isBlank (by simpa using hblank)] at hc
  exact Bool.false_ne_true hc

/-- Brackets and words have no blanks. -/
theorem visible_of_mem_lexemes {text : List Char} {l : Lexeme} (hl : l ∈ lexemes text)
    (hkind : l.kind ∈ [LexemeKind.opening, .closing, .word]) :
    l.text ≠ [] ∧ ∀ c ∈ l.text, Text.isBlank c = false := by
  induction text using lexemes_induction with
  | nil => exact absurd hl List.not_mem_nil
  | cons c rest ih =>
      rw [lexemes_cons, List.mem_cons] at hl
      rcases hl with rfl | hl
      · rcases class_cases c with rfl | rfl | hopening | hclosing | hplain
        · simp [firstLexeme_hash] at hkind
        · simp [kind_firstLexeme_quote] at hkind
        · have hc : isPlain c = false := by simp [isPlain, hopening]
          rw [firstLexeme_opening hopening]
          exact ⟨List.cons_ne_nil _ _,
            List.forall_mem_singleton.mpr (not_isBlank_of_not_isPlain hc)⟩
        · have hc : isPlain c = false := by simp [isPlain, hclosing]
          rw [firstLexeme_closing hclosing]
          exact ⟨List.cons_ne_nil _ _,
            List.forall_mem_singleton.mpr (not_isBlank_of_not_isPlain hc)⟩
        · by_cases hstart : isWordStart c = true
          · rw [firstLexeme_word hstart]
            refine ⟨List.cons_ne_nil _ _, ?_⟩
            intro d hd
            apply not_isBlank_of_isWordPart
            rcases List.mem_cons.mp hd with rfl | hd
            · exact isWordPart_of_isWordStart hstart
            · exact List.mem_takeWhile_imp hd
          · rw [firstLexeme_single hplain hstart] at hkind
            dsimp only at hkind
            split at hkind <;> simp at hkind
      · exact ih hl

/-- A lexeme that is not in the rest is in one of the slices. -/
theorem exists_slice {ss : List Slice} {rest front back : List Lexeme} {l : Lexeme}
    (h : ss.flatten ++ rest = front ++ l :: back) (hl : l ∉ rest) :
    ∃ before after inside behind, ss = before ++ (inside ++ l :: behind) :: after ∧
      front = before.flatten ++ inside := by
  induction ss generalizing front with
  | nil =>
      rw [List.flatten_nil, List.nil_append] at h
      exact absurd (h ▸ List.mem_append_right front List.mem_cons_self) hl
  | cons s ss ih =>
      rw [List.flatten_cons, List.append_assoc] at h
      rcases List.append_eq_append_iff.mp h with ⟨between, hfront, hmore⟩ | ⟨between, hs, hmore⟩
      · obtain ⟨before, after, inside, behind, hss, hbetween⟩ := ih hmore
        refine ⟨s :: before, after, inside, behind, by rw [hss, List.cons_append], ?_⟩
        rw [hfront, hbetween, List.flatten_cons, List.append_assoc]
      · cases between with
        | nil =>
            rw [List.nil_append] at hmore
            obtain ⟨before, after, inside, behind, hss, hempty⟩ := @ih [] hmore.symm
            refine ⟨s :: before, after, inside, behind, by rw [hss, List.cons_append], ?_⟩
            rw [List.flatten_cons, List.append_assoc, ← hempty, List.append_nil, hs,
              List.append_nil]
        | cons k between =>
            rw [List.cons_append, List.cons.injEq] at hmore
            exact ⟨[], ss, front, between, by rw [hs, hmore.1, List.nil_append], rfl⟩

theorem exists_span {text : List Char} {front back : List Lexeme} {l : Lexeme}
    (h : lexemes text = front ++ l :: back)
    (hkind : l.kind ∈ [LexemeKind.opening, .closing, .word]) :
    ∃ s ∈ definitionSpans text, s.Covers (Slice.text front).length l.text.length := by
  have hmem : l ∈ lexemes text := h ▸ List.mem_append_right front List.mem_cons_self
  obtain ⟨hne, hvisible⟩ := visible_of_mem_lexemes hmem hkind
  have hrest : l ∉ (slices text).2 := by
    intro hl
    have hcontent := isContent_of_mem_rest l hl
    simp only [List.mem_cons, List.not_mem_nil, or_false] at hkind
    rcases hkind with hkind | hkind | hkind <;>
      rw [Lexeme.isContent, hkind] at hcontent <;> contradiction
  obtain ⟨before, after, inside, behind, hss, hfront⟩ :=
    exists_slice ((slices_tile text).trans h) hrest
  -- the slice that the lexeme is in, with its place
  let s : Span := ⟨(before.map Slice.text).flatten.length, Slice.text (inside ++ l :: behind)⟩
  have hs : s ∈ spansFrom 0 ((slices text).1.map Slice.text) := by
    rw [mem_spansFrom, hss]
    exact ⟨before.map Slice.text, after.map Slice.text, by simp [s], (Nat.zero_add _).symm⟩
  have hinside : s.text = Slice.text inside ++ (l.text ++ Slice.text behind) := by
    simp [s]
  have hplace : (Slice.text front).length = s.start + (Slice.text inside).length := by
    rw [hfront, text_append, List.length_append, text_flatten]
  have hcovers := Span.covers_trim hinside hne hvisible
  refine ⟨s.trim, List.mem_filter.mpr ⟨List.mem_map_of_mem hs, ?_⟩, hplace ▸ hcovers⟩
  have hempty : s.trim.text ≠ [] := by
    intro hnil
    have hlength := List.length_pos_of_ne_nil hne
    have hstart := hcovers.1
    have hstop := hcovers.2
    rw [Span.stop, hnil, List.length_nil] at hstop
    omega
  simpa using hempty

/-- At most one of the definitions holds a part of the text that is not empty. -/
theorem eq_of_covers {text : List Char} {i j k n : Nat} {s t : Span}
    (hs : (definitionSpans text)[i]? = some s) (ht : (definitionSpans text)[j]? = some t)
    (hn : 0 < n) (hscovers : s.Covers k n) (htcovers : t.Covers k n) : i = j := by
  obtain ⟨hi, rfl⟩ := List.getElem?_eq_some_iff.mp hs
  obtain ⟨hj, rfl⟩ := List.getElem?_eq_some_iff.mp ht
  have hapart := List.pairwise_iff_getElem.mp (pairwise_definitionSpans text)
  obtain ⟨hstart, hstop⟩ := hscovers
  obtain ⟨hstart', hstop'⟩ := htcovers
  rcases Nat.lt_trichotomy i j with hlt | heq | hgt
  · have hle := hapart i j hi hj hlt
    omega
  · exact heq
  · have hle := hapart j i hj hi hgt
    omega

/-- The cutting loses no content.  The slices tile the text from its start, and what follows them
is idle; the definitions are the slices that are not blank, trimmed and in order.  Each definition
has its place in the text, and every bracket and every word is in exactly one of them. -/
theorem definitions_tile (text : List Char) :
    ((slices text).1.map Slice.text).flatten ++ Slice.text (slices text).2 = text ∧
    Idle (Slice.text (slices text).2) ∧
    definitions text =
      (((slices text).1.map Slice.text).filter fun s => !s.all Text.isBlank).map Text.trim ∧
    (definitionSpans text).map Span.text = definitions text ∧
    (∀ s ∈ definitionSpans text, s.StandsIn text) ∧
    ∀ front l back, lexemes text = front ++ l :: back →
      l.kind ∈ [LexemeKind.opening, .closing, .word] →
      ∃! i : Nat, ∃ s : Span, (definitionSpans text)[i]? = some s ∧
        s.Covers (Slice.text front).length l.text.length := by
  refine ⟨text_slices text, idle_rest text, definitions_eq_map text, map_text_definitionSpans text,
    fun s hs => standsIn_of_mem hs, ?_⟩
  intro front l back hlexemes hkind
  obtain ⟨s, hs, hcovers⟩ := exists_span hlexemes hkind
  obtain ⟨i, hi⟩ := List.mem_iff_getElem?.mp hs
  refine ⟨i, ⟨s, hi, hcovers⟩, ?_⟩
  rintro j ⟨t, hj, hcovers'⟩
  have hmem : l ∈ lexemes text := hlexemes ▸ List.mem_append_right front List.mem_cons_self
  have hne := (visible_of_mem_lexemes hmem hkind).1
  exact eq_of_covers hj hi (List.length_pos_of_ne_nil hne) hcovers' hcovers

/-- A string and a comment with a brace each, and a definition that starts behind them. -/
def bracesHidden : List Char := "\x7ba(s:\"\x7d\")\x7d #\x7d\n\x7b".toList

theorem definitions_tile_braces :
    lexemes (bracesHidden ++ "b\x7d,".toList) =
      lexemes bracesHidden ++ ⟨.word, ['b']⟩ :: lexemes "\x7d,".toList ∧
    ∃! i : Nat, ∃ s : Span, (definitionSpans (bracesHidden ++ "b\x7d,".toList))[i]? = some s ∧
      s.Covers (Slice.text (lexemes bracesHidden)).length 1 := by
  have hlexemes : lexemes (bracesHidden ++ "b\x7d,".toList) =
      lexemes bracesHidden ++ ⟨.word, ['b']⟩ :: lexemes "\x7d,".toList := by
    decide
  exact ⟨hlexemes, (definitions_tile _).2.2.2.2.2 _ _ _ hlexemes (by decide)⟩

end ApiAtlas.Document
