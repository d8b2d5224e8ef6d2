import ApiAtlas.Proofs.Document.Tiling
set_option autoImplicit false

/-!
# Document: cutting undoes joining

A definition that its last brace closes leaves the cutting where it started: the brackets are
closed, nothing is held, and what comes next is read as if it stood at the start of a text.  So a
text that joins such definitions, with blanks around them, is cut into these definitions.
-/

namespace ApiAtlas.Document

/-! ## Lexemes of a text that goes on

A lexeme with text behind it stays the same when the text goes on. -/

theorem span_extend {p : Char → Bool} {text : List Char} (h : text.dropWhile p ≠ [])
    (rest : List Char) :
    (text ++ rest).takeWhile p = text.takeWhile p ∧
      (text ++ rest).dropWhile p = text.dropWhile p ++ rest := by
  have hstops : ∀ a ∈ (text.dropWhile p ++ rest).head?, p a = false := by
    obtain ⟨c, more, hc⟩ := List.exists_cons_of_ne_nil h
    intro a ha
    rw [hc, List.cons_append, List.head?_cons, Option.mem_some_iff] at ha
    exact head?_dropWhile_eq_false p text a (by rw [hc, ha]; rfl)
  have hspan := span_append text hstops
  rwa [← List.append_assoc, List.takeWhile_append_dropWhile] at hspan

theorem plainString_extend {text : List Char} (h : (plainString text).2 ≠ [])
    (rest : List Char) :
    plainString (text ++ rest) = ((plainString text).1, (plainString text).2 ++ rest) := by
  fun_induction plainString text with
  | case1 => exact absurd rfl h
  | case2 more => rfl
  | case3 more => rfl
  | case4 c more inside after hmore ih =>
      rw [hmore] at ih
      rw [List.cons_append, List.cons_append, plainString, ih h]
  | case5 c more hquote hfeed hescape inside after hmore ih =>
      rw [hmore] at ih
      rw [List.cons_append, plainString, ih h]
      · exact hquote
      · exact hfeed
      · intro d tail hc htail
        cases more with
        | nil =>
            cases hmore
            exact h rfl
        | cons e more => exact hescape e more hc rfl

/-- A block string that ends within the text has its closing quotes there. -/
theorem length_of_blockString {text : List Char} (h : (blockString text).2 ≠ []) :
    3 ≤ text.length := by
  fun_induction blockString text with
  | case1 => exact absurd rfl h
  | case2 rest inside after hrest ih => simp
  | case3 rest => simp
  | case4 c rest hescape hquotes inside after hrest ih =>
      rw [hrest] at ih
      have hlength := ih h
      rw [List.length_cons]
      omega

theorem blockString_extend {text : List Char} (h : (blockString text).2 ≠ [])
    (rest : List Char) :
    blockString (text ++ rest) = ((blockString text).1, (blockString text).2 ++ rest) := by
  fun_induction blockString text with
  | case1 => exact absurd rfl h
  | case2 more inside after hmore ih =>
      rw [hmore] at ih
      simp only [List.cons_append]
      rw [blockString, ih h]
  | case3 more => rfl
  | case4 c more hescape hquotes inside after hmore ih =>
      rw [hmore] at ih
      -- the quotes that decide are not taken from the text behind
      have hlength : 3 ≤ more.length := length_of_blockString (by rw [hmore]; exact h)
      rw [List.cons_append, blockString, ih h]
      · intro tail hc htail
        obtain ⟨behind, hbehind⟩ : ['"', '"', '"'] <+: more :=
          List.prefix_of_prefix_length_le ⟨tail, htail.symm⟩ (List.prefix_append more rest) hlength
        exact hescape behind hc hbehind.symm
      · intro tail hc htail
        obtain ⟨behind, hbehind⟩ : ['"', '"'] <+: more :=
          List.prefix_of_prefix_length_le ⟨tail, htail.symm⟩ (List.prefix_append more rest)
            (Nat.le_of_succ_le hlength)
        exact hquotes behind hc hbehind.symm

theorem firstLexeme_block (text : List Char) :
    firstLexeme '"' ('"' :: '"' :: text) =
      (⟨.quoted, '"' :: '"' :: '"' :: (blockString text).1⟩, (blockString text).2) := rfl

theorem firstLexeme_extend {c : Char} {text : List Char} (h : (firstLexeme c text).2 ≠ [])
    (rest : List Char) :
    firstLexeme c (text ++ rest) = ((firstLexeme c text).1, (firstLexeme c text).2 ++ rest) := by
  rcases class_cases c with rfl | rfl | hopening | hclosing | hplain
  · rw [firstLexeme_hash] at h ⊢
    obtain ⟨htake, hdrop⟩ := span_extend h rest
    rw [firstLexeme_hash, htake, hdrop]
  · by_cases hblock : ['"', '"'] <+: text
    · obtain ⟨more, rfl⟩ := hblock
      simp only [List.cons_append, List.nil_append, firstLexeme_block] at h ⊢
      rw [blockString_extend h]
    · have hline : ∀ body, text ≠ '"' :: '"' :: body := fun body hbody =>
        hblock ⟨body, hbody.symm⟩
      rw [firstLexeme_line hline] at h ⊢
      have hline' : ∀ body, text ++ rest ≠ '"' :: '"' :: body := by
        intro body hbody
        cases text with
        | nil => exact h rfl
        | cons c text =>
            rw [List.cons_append, List.cons.injEq] at hbody
            obtain ⟨rfl, hbody⟩ := hbody
            cases text with
            | nil => exact h rfl
            | cons d text =>
                rw [List.cons_append, List.cons.injEq] at hbody
                exact hline text (by rw [hbody.1])
      rw [firstLexeme_line hline', plainString_extend h]
  · rw [firstLexeme_opening hopening, firstLexeme_opening hopening]
  · rw [firstLexeme_closing hclosing, firstLexeme_closing hclosing]
  · by_cases hstart : isWordStart c = true
    · rw [firstLexeme_word hstart] at h ⊢
      obtain ⟨htake, hdrop⟩ := span_extend h rest
      rw [firstLexeme_word hstart, htake, hdrop]
    · rw [firstLexeme_single hplain hstart, firstLexeme_single hplain hstart]

theorem isClosing_of_kind {c : Char} {text : List Char}
    (h : (firstLexeme c text).1.kind = .closing) : isClosing c = true := by
  rcases class_cases c with rfl | rfl | hopening | hclosing | hplain
  · contradiction
  · rw [kind_firstLexeme_quote] at h
    contradiction
  · rw [firstLexeme_opening hopening] at h
    contradiction
  · exact hclosing
  · rw [firstLexeme_plain hplain] at h
    split at h
    · contradiction
    · split at h <;> contradiction

/-- A bracket at the end of a text closes what is open of strings, comments and words. -/
theorem lexemes_extend {text : List Char} {ls : List Lexeme} {l : Lexeme}
    (h : lexemes text = ls ++ [l]) (hl : l.kind = .closing) (rest : List Char) :
    lexemes (text ++ rest) = lexemes text ++ lexemes rest := by
  induction ls generalizing text with
  | nil =>
      cases text with
      | nil => contradiction
      | cons c text =>
          rw [lexemes_cons, List.nil_append, List.cons.injEq] at h
          obtain ⟨rfl, hnone⟩ := h
          have hclosing := isClosing_of_kind hl
          rw [firstLexeme_closing hclosing] at hnone
          have hnil : text = [] := by rw [← text_lexemes text, hnone, text_nil]
          rw [hnil, List.singleton_append, lexemes_cons, lexemes_cons,
            firstLexeme_closing hclosing, firstLexeme_closing hclosing]
          rfl
  | cons k ls ih =>
      cases text with
      | nil => contradiction
      | cons c text =>
          rw [lexemes_cons, List.cons_append, List.cons.injEq] at h
          obtain ⟨rfl, hmore⟩ := h
          have hne : (firstLexeme c text).2 ≠ [] := by
            intro hnil
            rw [hnil, lexemes_nil] at hmore
            simp at hmore
          rw [List.cons_append, lexemes_cons, firstLexeme_extend hne, lexemes_cons, ih hmore]
          rfl

/-! ## Lexemes held from before -/

/-- What was held from before goes into the slice that ends first. -/
theorem Cut.step_behind (s : Cut) (held : List Lexeme) (l : Lexeme) :
    ((s.step l).1 = none ∧ Cut.step { s with held := s.held ++ held } l =
      (none, { (s.step l).2 with held := (s.step l).2.held ++ held })) ∨
    ∃ k, (s.step l).1 = some k ∧
      Cut.step { s with held := s.held ++ held } l = (some (held.reverse ++ k), (s.step l).2) := by
  obtain ⟨kind, text⟩ := l
  cases kind with
  | closing =>
      simp only [Cut.step]
      split
      · exact Or.inr ⟨_, rfl, by simp⟩
      · exact Or.inl ⟨rfl, rfl⟩
  | word =>
      have hsame : Cut.startsDefinition { s with held := s.held ++ held } text =
          s.startsDefinition text := rfl
      simp only [Cut.step, hsame]
      split
      · exact Or.inr ⟨_, rfl, by simp⟩
      · exact Or.inl ⟨rfl, rfl⟩
  | comment => exact Or.inl ⟨rfl, rfl⟩
  | quoted => exact Or.inl ⟨rfl, rfl⟩
  | gap => exact Or.inl ⟨rfl, rfl⟩
  | other => exact Or.inl ⟨rfl, rfl⟩
  | opening => exact Or.inl ⟨rfl, rfl⟩

theorem cutFrom_behind {s : Cut} {ls : List Lexeme} {k : Slice} {ks : List Slice}
    (h : (cutFrom s ls).1 = k :: ks) (held : List Lexeme) :
    cutFrom { s with held := s.held ++ held } ls =
      ((held.reverse ++ k) :: ks, (cutFrom s ls).2) := by
  induction ls generalizing s with
  | nil => contradiction
  | cons l ls ih =>
      rw [cutFrom_cons] at h ⊢
      rcases s.step_behind held l with ⟨hnone, hstep⟩ | ⟨k', hended, hstep⟩
      · rw [hnone, Option.toList_none, List.nil_append] at h
        rw [hstep, ih h]
        rfl
      · rw [hended, Option.toList_some, List.singleton_append, List.cons.injEq] at h
        obtain ⟨rfl, rfl⟩ := h
        rw [hstep]
        rfl

/-! ## Definitions closed by a brace -/

/-- How many brackets are open behind lexemes. A bracket that closes nothing does not count. -/
def openBrackets (ls : List Lexeme) : Nat := ls.foldl (fun depth l => l.depthAfter depth) 0

theorem depth_cutFrom (s : Cut) (ls : List Lexeme) :
    (cutFrom s ls).2.depth = ls.foldl (fun depth l => l.depthAfter depth) s.depth := by
  induction ls generalizing s with
  | nil => rfl
  | cons l ls ih =>
      rw [cutFrom_cons, List.foldl_cons, ih]
      refine congrArg (ls.foldl (fun depth l => l.depthAfter depth)) ?_
      rcases s.step_cases l with ⟨_, _, hdepth, _⟩ | ⟨rfl, hdepth, hstep⟩ |
        ⟨hkind, _, _, _, hdepth, _⟩
      · exact hdepth
      · rw [hstep]
        exact (Nat.sub_eq_zero_of_le hdepth).symm
      · rw [hdepth, Lexeme.depthAfter, hkind]

/-- The text is one definition without blanks at its ends, and its last brace closes it. -/
structure ClosedDefinition (text : List Char) : Prop where
  definitions_eq : definitions text = [text]
  getLast?_eq : (lexemes text).getLast? = some closingBrace
  openBrackets_eq : openBrackets (lexemes text) = 0

namespace ClosedDefinition

variable {text : List Char}

theorem lexemes_eq (h : ClosedDefinition text) :
    ∃ ls, lexemes text = ls ++ [closingBrace] ∧ openBrackets ls ≤ 1 := by
  obtain ⟨ls, hls⟩ := List.getLast?_eq_some_iff.mp h.getLast?_eq
  refine ⟨ls, hls, ?_⟩
  have hopen := h.openBrackets_eq
  rw [hls, openBrackets, List.foldl_append] at hopen
  exact Nat.sub_eq_zero_iff_le.mp hopen

theorem ne_nil (h : ClosedDefinition text) : text ≠ [] := by
  rintro rfl
  exact absurd h.getLast?_eq (by simp)

/-- The last slice ends with the text, and trimmed it is the text. -/
theorem last_slice (h : ClosedDefinition text) :
    ∃ before k, cutFrom Cut.start (lexemes text) = (before ++ [k], Cut.start) ∧
      Text.trim (Slice.text k) = text := by
  obtain ⟨ls, hls, hopen⟩ := h.lexemes_eq
  have hdepth : (cutFrom Cut.start ls).2.depth ≤ 1 := by
    rw [depth_cutFrom]
    exact hopen
  have hcut : cutFrom Cut.start (lexemes text) =
      ((cutFrom Cut.start ls).1 ++ [(cutFrom Cut.start ls).2.held.reverse ++ [closingBrace]],
        Cut.start) := by
    have hstep : (cutFrom Cut.start ls).2.step closingBrace =
        (some ((cutFrom Cut.start ls).2.held.reverse ++ [closingBrace]), Cut.start) := by
      simp [Cut.step, closingBrace, hdepth]
    rw [hls, cutFrom_append, cutFrom_cons, hstep]
    rfl
  refine ⟨_, _, hcut, ?_⟩
  have hbrace : '}' ∈ Slice.text ((cutFrom Cut.start ls).2.held.reverse ++ [closingBrace]) := by
    simp [closingBrace]
  have hne := List.ne_nil_of_mem (Text.mem_trim (by decide) hbrace)
  have hdefinitions := h.definitions_eq
  rw [definitions, slices_eq, hcut, if_neg (by simp [Cut.start]), List.append_nil, List.map_append,
    List.filter_append, List.map_singleton, List.filter_cons_of_pos (by simpa using hne),
    List.filter_nil] at hdefinitions
  have hlast := List.append_inj' (hdefinitions.trans (List.nil_append [text]).symm) rfl
  exact List.singleton_inj.mp hlast.2

/-- Behind the definition the cutting is where it started. -/
theorem cutFrom_eq (h : ClosedDefinition text) :
    cutFrom Cut.start (lexemes text) = ([lexemes text], Cut.start) := by
  obtain ⟨before, k, hcut, htrim⟩ := h.last_slice
  have htiles : before.flatten ++ k = lexemes text := by
    have htiles := cutFrom_tiles Cut.start (lexemes text)
    rw [hcut] at htiles
    simpa [Cut.start] using htiles
  -- trimming cannot shorten the last slice, so nothing stands before it
  have htext : Slice.text k = text := by
    have htexts : Slice.text before.flatten ++ Slice.text k = text := by
      rw [← text_append, htiles, text_lexemes]
    obtain ⟨tail, hparts, _⟩ := trim_parts (Slice.text k)
    have hlength := congrArg List.length hparts
    have hlength' := congrArg List.length htexts
    rw [htrim] at hlength
    simp only [List.length_append] at hlength hlength'
    have hnil : Slice.text before.flatten = [] := List.length_eq_zero_iff.mp (by omega)
    rwa [hnil, List.nil_append] at htexts
  have hk : k = lexemes text := by
    rw [← lexemes_of_append htiles.symm, htext]
  have hbefore : before = [] := by
    have hflat : before.flatten = [] := by
      rw [hk] at htiles
      exact List.append_left_eq_self.mp htiles
    have hcontent := (Cut.records_start.cutFrom (lexemes text)).2
    rw [hcut] at hcontent
    rw [List.eq_nil_iff_forall_not_mem]
    intro a ha
    have hnone := List.flatten_eq_nil_iff.mp hflat a ha
    have hsome := hcontent a (List.mem_append_left _ ha)
    rw [hnone] at hsome
    contradiction
  rw [hcut, hbefore, hk, List.nil_append]

theorem trim_eq (h : ClosedDefinition text) : Text.trim text = text := by
  have hmem : text ∈ definitions text := by
    rw [h.definitions_eq]
    exact List.mem_singleton_self text
  rw [definitions, slices_eq, h.cutFrom_eq] at hmem
  have heq := (List.mem_filter.mp hmem).1
  simp only [Cut.start, Bool.false_eq_true, if_false, List.append_nil, List.map_cons,
    List.map_nil, List.mem_singleton, text_lexemes] at heq
  exact heq.symm

end ClosedDefinition

/-! ## Joined definitions -/

/-- The text is the pieces in order, with blanks of ASCII in front of each and behind the last. -/
inductive Joined : List (List Char) → List Char → Prop
  | nil {gap : List Char} (hgap : ∀ c ∈ gap, Text.isAsciiBlank c = true) : Joined [] gap
  | cons {gap piece rest : List Char} {pieces : List (List Char)}
      (hgap : ∀ c ∈ gap, Text.isAsciiBlank c = true) (h : Joined pieces rest) :
      Joined (piece :: pieces) (gap ++ (piece ++ rest))

theorem Joined.append {pieces : List (List Char)} {text : List Char} (h : Joined pieces text)
    {gap : List Char} (hgap : ∀ c ∈ gap, Text.isAsciiBlank c = true) :
    Joined pieces (gap ++ text) := by
  cases h with
  | nil hmore => exact .nil (List.forall_mem_append.mpr ⟨hgap, hmore⟩)
  | cons hmore h =>
      rw [← List.append_assoc]
      exact .cons (List.forall_mem_append.mpr ⟨hgap, hmore⟩) h

/-- Line feeds between the pieces join them. -/
theorem joined_intercalate (pieces : List (List Char)) :
    Joined pieces (['\n'].intercalate pieces) := by
  induction pieces with
  | nil => exact .nil (List.forall_mem_nil _)
  | cons piece pieces ih =>
      cases pieces with
      | nil =>
          have hjoined : Joined [piece] ([] ++ (piece ++ [])) := .cons (List.forall_mem_nil _) ih
          simpa using hjoined
      | cons next pieces =>
          have hfeed : ∀ c ∈ ['\n'], Text.isAsciiBlank c = true :=
            List.forall_mem_singleton.mpr rfl
          have hjoined : Joined (piece :: next :: pieces)
              ([] ++ (piece ++ (['\n'] ++ ['\n'].intercalate (next :: pieces)))) :=
            .cons (List.forall_mem_nil _) (ih.append hfeed)
          simpa using hjoined

/-- The lexemes of blanks of ASCII. -/
def gapLexemes (gap : List Char) : List Lexeme := gap.map fun c => ⟨.gap, [c]⟩

theorem lexemes_gap {gap : List Char} (hgap : ∀ c ∈ gap, Text.isAsciiBlank c = true)
    (rest : List Char) : lexemes (gap ++ rest) = gapLexemes gap ++ lexemes rest := by
  induction gap with
  | nil => rfl
  | cons c gap ih =>
      obtain ⟨hc, hgap⟩ := List.forall_mem_cons.mp hgap
      rw [List.cons_append, lexemes_cons,
        firstLexeme_blank (Text.isBlank_of_isAsciiBlank hc), ih hgap, if_pos hc]
      rfl

theorem text_gapLexemes (gap : List Char) : Slice.text (gapLexemes gap) = gap := by
  induction gap with
  | nil => rfl
  | cons c gap ih =>
      rw [gapLexemes, List.map_cons, text_cons, ← gapLexemes, ih, List.singleton_append]

theorem cutFrom_gapLexemes (gap : List Char) :
    cutFrom Cut.start (gapLexemes gap) =
      ([], { Cut.start with held := (gapLexemes gap).reverse }) := by
  apply cutFrom_gaps
  intro b hb
  obtain ⟨c, _, rfl⟩ := List.mem_map.mp hb
  rfl

theorem definitions_gap {gap : List Char} (hgap : ∀ c ∈ gap, Text.isAsciiBlank c = true) :
    definitions gap = [] := by
  have hlexemes := lexemes_gap hgap []
  rw [List.append_nil, lexemes_nil, List.append_nil] at hlexemes
  rw [definitions, slices_eq, hlexemes, cutFrom_gapLexemes]
  rfl

/-- A closed definition is cut off a text, with the blanks in front of it. -/
theorem ClosedDefinition.slices_append {gap piece : List Char} (h : ClosedDefinition piece)
    (hgap : ∀ c ∈ gap, Text.isAsciiBlank c = true) (rest : List Char) :
    (slices (gap ++ (piece ++ rest))).1 =
      (gapLexemes gap ++ lexemes piece) :: (slices rest).1 := by
  obtain ⟨ls, hls, _⟩ := h.lexemes_eq
  -- the piece is cut off as it is at the start of a text, and takes the blanks with it
  have hpiece : cutFrom { Cut.start with held := (gapLexemes gap).reverse } (lexemes piece) =
      ([gapLexemes gap ++ lexemes piece], Cut.start) := by
    have hbehind := cutFrom_behind (congrArg Prod.fst h.cutFrom_eq) (gapLexemes gap).reverse
    rwa [h.cutFrom_eq, List.reverse_reverse] at hbehind
  rw [slices_eq, slices_eq, lexemes_gap hgap, lexemes_extend hls rfl, cutFrom_append,
    cutFrom_gapLexemes, cutFrom_append, hpiece]
  rfl

theorem ClosedDefinition.definitions_append {gap piece : List Char} (h : ClosedDefinition piece)
    (hgap : ∀ c ∈ gap, Text.isAsciiBlank c = true) (rest : List Char) :
    definitions (gap ++ (piece ++ rest)) = piece :: definitions rest := by
  have htrim : Text.trim (Slice.text (gapLexemes gap ++ lexemes piece)) = piece := by
    have hblank : ∀ c ∈ gap, Text.isBlank c = true := fun c hc =>
      Text.isBlank_of_isAsciiBlank (hgap c hc)
    rw [text_append, text_gapLexemes, text_lexemes, Text.trim, Text.trimStart,
      List.dropWhile_append_of_pos hblank]
    exact h.trim_eq
  rw [definitions_cons (h.slices_append hgap rest) (by rw [htrim]; exact h.ne_nil), htrim]
  rfl

/-- Joined definitions are cut apart again. -/
theorem definitions_joined {pieces : List (List Char)} {text : List Char}
    (hpieces : ∀ t ∈ pieces, ClosedDefinition t) (h : Joined pieces text) :
    definitions text = pieces := by
  induction h with
  | nil hgap => exact definitions_gap hgap
  | cons hgap _ ih =>
      obtain ⟨hpiece, hpieces⟩ := List.forall_mem_cons.mp hpieces
      rw [hpiece.definitions_append hgap, ih hpieces]

end ApiAtlas.Document
