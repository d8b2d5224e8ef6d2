import Mathlib.Data.List.TakeWhile
import ApiAtlas.Proofs.Document.Keyword
set_option autoImplicit false

/-!
# Document: pieces without the blanks around them

A slice is read without the blanks at its ends.  The blanks in front are lexemes of their own; at
the end a comment may become shorter.  Neither changes whether a definition ends in the piece, what
its keyword is, or whether it is faithful.
-/

namespace ApiAtlas.Document

/-! ## Blanks as lexemes -/

/-- The code point of a blank lies below those of visible ASCII characters, or above. -/
theorem toNat_of_isBlank {c : Char} (hc : Text.isBlank c = true) :
    c.toNat ≤ 32 ∨ 133 ≤ c.toNat := by
  obtain ⟨r, hr, hlow, hhigh⟩ := Text.inRanges_iff.mp hc
  have hranges : ∀ r ∈ Text.blankRanges, r.2 ≤ 32 ∨ 133 ≤ r.1 := by decide
  have := hranges r hr
  omega

theorem toNat_of_isWordPart {c : Char} (hc : isWordPart c = true) :
    48 ≤ c.toNat ∧ c.toNat ≤ 122 := by
  have hval : c.toNat = c.val.toNat := rfl
  have halpha : c.isAlpha = (c.isUpper || c.isLower) := rfl
  have hupper : c.isUpper = decide ('A'.val ≤ c.val ∧ c.val ≤ 'Z'.val) := rfl
  have hlower : c.isLower = (decide ('a'.val ≤ c.val) && decide (c.val ≤ 'z'.val)) := rfl
  simp only [isWordPart, Char.isAlphanum, halpha, hupper, hlower, Char.isDigit, Bool.or_eq_true,
    Bool.and_eq_true, decide_eq_true_eq, ge_iff_le, UInt32.le_iff_toNat_le, beq_iff_eq] at hc
  rcases hc with ((⟨h, h'⟩ | ⟨h, h'⟩) | ⟨h, h'⟩) | rfl
  · have h₁ : 'A'.val.toNat = 65 := rfl
    have h₂ : 'Z'.val.toNat = 90 := rfl
    omega
  · have h₁ : 'a'.val.toNat = 97 := rfl
    have h₂ : 'z'.val.toNat = 122 := rfl
    omega
  · have h₁ : '0'.val.toNat = 48 := rfl
    have h₂ : '9'.val.toNat = 57 := rfl
    omega
  · decide

theorem not_isWordPart_of_isBlank {c : Char} (hc : Text.isBlank c = true) :
    isWordPart c = false := by
  rw [← Bool.not_eq_true]
  intro hpart
  have hblank := toNat_of_isBlank hc
  have hword := toNat_of_isWordPart hpart
  omega

/-- A blank starts no comment, string, bracket or word. -/
theorem isPlain_of_isBlank {c : Char} (hc : Text.isBlank c = true) : isPlain c = true := by
  rcases class_cases c with rfl | rfl | hopening | hclosing | hplain
  · exact absurd hc (by decide)
  · exact absurd hc (by decide)
  · simp only [isOpening, Bool.or_eq_true, beq_iff_eq] at hopening
    rcases hopening with (rfl | rfl) | rfl <;> exact absurd hc (by decide)
  · simp only [isClosing, Bool.or_eq_true, beq_iff_eq] at hclosing
    rcases hclosing with (rfl | rfl) | rfl <;> exact absurd hc (by decide)
  · exact hplain

/-- A blank is a lexeme by itself, and neither a word nor a bracket. -/
theorem firstLexeme_blank {c : Char} (hc : Text.isBlank c = true) (rest : List Char) :
    firstLexeme c rest = (⟨if Text.isAsciiBlank c then .gap else .other, [c]⟩, rest) := by
  have hstart : isWordStart c ≠ true := by
    intro hstart
    have hpart := isWordPart_of_isWordStart hstart
    rw [not_isWordPart_of_isBlank hc] at hpart
    exact absurd hpart (by simp)
  have hcomma : c ≠ ',' := by
    rintro rfl
    exact absurd hc (by decide)
  rw [firstLexeme_single (isPlain_of_isBlank hc) hstart]
  simp [hcomma]

/-- The blanks in front of a text are lexemes by themselves. -/
theorem lexemes_trimStart (text : List Char) :
    lexemes text =
      (text.takeWhile Text.isBlank).map
          (fun c => ⟨if Text.isAsciiBlank c then .gap else .other, [c]⟩) ++
        lexemes (Text.trimStart text) := by
  induction text with
  | nil => rfl
  | cons c text ih =>
      by_cases hc : Text.isBlank c = true
      · rw [lexemes_cons, firstLexeme_blank hc, List.takeWhile_cons_of_pos hc, ih, Text.trimStart,
          Text.trimStart, List.dropWhile_cons_of_pos hc]
        rfl
      · rw [Text.trimStart, List.dropWhile_cons_of_neg hc, List.takeWhile_cons_of_neg hc]
        rfl

/-- If the grammar finds no blank behind what it drops, the blanks in front are blanks of ASCII. -/
theorem isAsciiBlank_of_skip {text : List Char}
    (h : ∀ a ∈ (skip text).head?, Text.isBlank a = false) :
    ∀ c ∈ text.takeWhile Text.isBlank, Text.isAsciiBlank c = true ∧ isGap c = true := by
  induction text with
  | nil => simp
  | cons c text ih =>
      by_cases hc : Text.isBlank c = true
      · have hhash : c ≠ '#' := by
          rintro rfl
          exact absurd hc (by decide)
        by_cases hgap : isGap c = true
        · rw [skip_of_isGap hgap] at h
          rw [List.takeWhile_cons_of_pos hc]
          intro b hb
          rcases List.mem_cons.mp hb with rfl | hb
          · refine ⟨?_, hgap⟩
            simp only [isGap, isLineEnd, Bool.or_eq_true, beq_iff_eq] at hgap
            rcases hgap with (((rfl | rfl) | rfl) | rfl) | rfl | rfl
            · decide
            · decide
            · exact absurd hc (by decide)
            · exact absurd hc (by decide)
            · decide
            · decide
          · exact ih h b hb
        · rw [skip_of_not_isGap (by simpa using hgap) hhash] at h
          rw [h c rfl] at hc
          exact absurd hc (by simp)
      · rw [List.takeWhile_cons_of_neg hc]
        simp

/-! ## Blanks at the end -/

theorem Rule.lineContent_quote {done text r y : List Char}
    (h : Rule.lineContent done text = some (r, y)) : ∃ p, text = p ++ '"' :: y := by
  fun_induction Rule.lineContent done text with
  | case1 => simp at h
  | case2 done text =>
      obtain ⟨_, rfl⟩ : done.reverse = r ∧ text = y := by simpa using h
      exact ⟨[], rfl⟩
  | case3 => simp at h
  | case4 => simp at h
  | case5 done a b c d text n hn hrange ih =>
      obtain ⟨p, rfl⟩ := ih h
      exact ⟨'\\' :: 'u' :: a :: b :: c :: d :: p, rfl⟩
  | case6 => simp at h
  | case7 done e text hu c he ih =>
      obtain ⟨p, rfl⟩ := ih h
      exact ⟨'\\' :: e :: p, rfl⟩
  | case8 => simp at h
  | case9 done c text hquote hu hescape hend ih =>
      obtain ⟨p, rfl⟩ := ih h
      exact ⟨c :: p, rfl⟩

theorem Rule.blockContent_quote {done text r y : List Char}
    (h : Rule.blockContent done text = some (r, y)) : ∃ p, text = p ++ '"' :: y := by
  fun_induction Rule.blockContent done text with
  | case1 => simp at h
  | case2 done text ih =>
      obtain ⟨p, rfl⟩ := ih h
      exact ⟨'\\' :: '"' :: '"' :: '"' :: p, rfl⟩
  | case3 done text =>
      obtain ⟨_, rfl⟩ : done.reverse = r ∧ text = y := by simpa using h
      exact ⟨['"', '"'], rfl⟩
  | case4 done c text hescape hend ih =>
      obtain ⟨p, rfl⟩ := ih h
      exact ⟨c :: p, rfl⟩

/-- A whole string ends with a quote. -/
theorem Rule.text_quote {q : List Char} {v : String} (h : Rule.text ('"' :: q) = some (v, [])) :
    ∃ p, q = p ++ ['"'] := by
  by_cases hblock : ∃ inside, q = '"' :: '"' :: inside
  · obtain ⟨inside, rfl⟩ := hblock
    cases hcontent : Rule.blockContent [] inside with
    | none => simp [Rule.text, hcontent, Rule.lineContent] at h
    | some r =>
        obtain ⟨content, y⟩ := r
        obtain ⟨_, rfl⟩ : String.ofList content = v ∧ y = [] := by
          simpa [Rule.text, hcontent] using h
        obtain ⟨p, rfl⟩ := Rule.blockContent_quote hcontent
        exact ⟨'"' :: '"' :: p, rfl⟩
  · have hline : ∀ inside, q ≠ '"' :: '"' :: inside := fun inside hq => hblock ⟨inside, hq⟩
    rw [Rule.text_line hline] at h
    obtain ⟨⟨content, y⟩, hcontent, hr⟩ := Option.map_eq_some_iff.mp h
    obtain ⟨_, rfl⟩ : String.ofList content = v ∧ y = [] := by simpa using hr
    exact Rule.lineContent_quote hcontent

/-- A lexeme that makes no difference at the end of a piece. -/
structure Lexeme.Marginal (l : Lexeme) : Prop where
  not_word : l.kind ≠ .word
  not_opening : l.kind ≠ .opening
  not_closing : l.kind ≠ .closing
  not_brace : l.text ≠ ['{']

theorem marginal_of_isBlank {w : List Char} (hw : ∀ c ∈ w, Text.isBlank c = true) :
    ∀ l ∈ lexemes w, l.Marginal := by
  intro l hl
  have hall : w.takeWhile Text.isBlank = w := List.takeWhile_eq_self_iff.mpr hw
  have hnone : Text.trimStart w = [] := List.dropWhile_eq_nil_iff.mpr hw
  rw [lexemes_trimStart, hall, hnone, lexemes_nil, List.append_nil, List.mem_map] at hl
  obtain ⟨c, hc, rfl⟩ := hl
  have hbrace : c ≠ '{' := by
    rintro rfl
    exact absurd (hw _ hc) (by decide)
  refine ⟨?_, ?_, ?_, by simpa using hbrace⟩
  all_goals
    simp only
    split <;> simp

/-- The first lexeme of a text stays the same when blanks are added behind the text, unless it is a
comment up to the end. -/
theorem firstLexeme_blanks {c : Char} {text w : List Char}
    (h : (firstLexeme c (text ++ w)).1.isFaithful = true)
    (hw : ∀ c ∈ w, Text.isBlank c = true) :
    firstLexeme c (text ++ w) = ((firstLexeme c text).1, (firstLexeme c text).2 ++ w) ∨
      (c = '#' ∧ '\n' ∉ text) := by
  rcases class_cases c with rfl | rfl | hopening | hclosing | hplain
  · by_cases hfeed : '\n' ∈ text
    · refine Or.inl ?_
      have hne : text.dropWhile (· != '\n') ≠ [] := by
        intro hnil
        have hall := List.dropWhile_eq_nil_iff.mp hnil _ hfeed
        exact absurd hall (by decide)
      have hstop : ∀ a ∈ (text.dropWhile (· != '\n') ++ w).head?, (a != '\n') = false := by
        intro a ha
        rw [List.head?_append, Option.or_of_isSome (by simpa using hne)] at ha
        exact head?_dropWhile_eq_false _ _ a ha
      obtain ⟨htake, hdrop⟩ := span_append text hstop
      rw [← List.append_assoc, List.takeWhile_append_dropWhile] at htake hdrop
      rw [firstLexeme_hash, firstLexeme_hash, htake, hdrop]
    · exact Or.inr ⟨rfl, hfeed⟩
  · refine Or.inl ?_
    obtain ⟨q, y, v, hq, htext, hquotes, hfirst⟩ := firstLexeme_quoted h
    obtain ⟨p, hp⟩ := Rule.text_quote htext
    -- The closing quote is no blank, so the string is part of the text.
    obtain ⟨y', rfl, rfl⟩ : ∃ y', text = q ++ y' ∧ y = y' ++ w := by
      rcases List.append_eq_append_iff.mp hq with ⟨a, rfl, rfl⟩ | ⟨b, rfl, rfl⟩
      · rcases List.eq_nil_or_concat a with rfl | ⟨a', b, rfl⟩
        · exact ⟨[], by simp, rfl⟩
        · have hb : b = '"' := by
            have hlast := congrArg List.getLast? hp
            simpa using hlast
          have hblank := hw b (by simp)
          rw [hb] at hblank
          exact absurd hblank (by decide)
      · exact ⟨b, rfl, rfl⟩
    have hy' : q = ['"'] → y'.head? ≠ some '"' := by
      intro hq' hhead
      refine hquotes hq' ?_
      rw [List.head?_append, hhead]
      rfl
    rw [hfirst, (Rule.text_append htext hy').2]
  · rw [firstLexeme_opening hopening, firstLexeme_opening hopening]
    exact Or.inl rfl
  · rw [firstLexeme_closing hclosing, firstLexeme_closing hclosing]
    exact Or.inl rfl
  · refine Or.inl ?_
    by_cases hstart : isWordStart c = true
    · have hstop : ∀ a ∈ (text.dropWhile isWordPart ++ w).head?, isWordPart a = false := by
        intro a ha
        rw [List.head?_append] at ha
        cases hdrop : (text.dropWhile isWordPart).head? with
        | some b =>
            rw [hdrop] at ha
            obtain rfl : b = a := by simpa using ha
            exact head?_dropWhile_eq_false _ _ b hdrop
        | none =>
            rw [hdrop, Option.none_or] at ha
            exact not_isWordPart_of_isBlank (hw a (List.mem_of_mem_head? ha))
      obtain ⟨htake, hdrop⟩ := span_append text hstop
      rw [← List.append_assoc, List.takeWhile_append_dropWhile] at htake hdrop
      rw [firstLexeme_word hstart, firstLexeme_word hstart, htake, hdrop]
    · rw [firstLexeme_single hplain hstart, firstLexeme_single hplain hstart]

/-- Without the blanks at its end a text has the same lexemes up to marginal ones. -/
theorem lexemes_blanks {text w : List Char} (h : Faithful (text ++ w))
    (hw : ∀ c ∈ w, Text.isBlank c = true) :
    ∃ ls ms ns, lexemes (text ++ w) = ls ++ ms ∧ lexemes text = ls ++ ns ∧
      (∀ m ∈ ms, m.Marginal) ∧ ∀ n ∈ ns, n.Marginal ∧ n.isFaithful = true := by
  induction text using lexemes_induction with
  | nil => exact ⟨[], lexemes w, [], rfl, rfl, marginal_of_isBlank hw, by simp⟩
  | cons c text ih =>
      rw [List.cons_append] at h ⊢
      have hcons := (faithful_cons c (text ++ w)).mp h
      rcases firstLexeme_blanks hcons.1 hw with hfirst | ⟨rfl, hfeed⟩
      · rw [hfirst] at hcons
        obtain ⟨ls, ms, ns, hls, hends, hms, hns⟩ := ih hcons.2
        refine ⟨(firstLexeme c text).1 :: ls, ms, ns, ?_, ?_, hms, hns⟩
        · rw [lexemes_cons, hfirst, hls, List.cons_append]
        · rw [lexemes_cons, hends, List.cons_append]
      · -- The comment goes on into the blanks; without them it is the rest of the text.
        have hall : ∀ a ∈ text, (a != '\n') = true := by
          intro a ha
          rw [bne_iff_ne]
          rintro rfl
          exact hfeed ha
        have hcomment := h.of_comment.1
        rw [List.takeWhile_append_of_pos hall, ← List.cons_append] at hcomment
        have hblanks : ∀ c ∈ w.dropWhile (· != '\n'), Text.isBlank c = true :=
          fun c hc => hw c ((List.dropWhile_suffix _).subset hc)
        refine ⟨[], lexemes ('#' :: (text ++ w)), [⟨.comment, '#' :: text⟩], rfl, ?_, ?_, ?_⟩
        · rw [lexemes_cons, firstLexeme_hash, List.takeWhile_eq_self_iff.mpr hall,
            List.dropWhile_eq_nil_iff.mpr hall]
          rfl
        · rw [lexemes_cons, firstLexeme_hash, List.dropWhile_append_of_pos hall]
          intro m hm
          rcases List.mem_cons.mp hm with rfl | hm
          · exact ⟨by simp, by simp, by simp, by simp⟩
          · exact marginal_of_isBlank hblanks m hm
        · intro n hn
          obtain rfl := List.mem_singleton.mp hn
          refine ⟨⟨by simp, by simp, by simp, by simp⟩, ?_⟩
          simp [Lexeme.isFaithful, skip_eq_nil_of_append hcomment]

/-- Marginal lexemes open and close nothing. -/
theorem nests_of_marginal (d : Nat) {ms : List Lexeme} (h : ∀ m ∈ ms, m.Marginal) :
    Nests d ms d := by
  induction ms with
  | nil => exact .nil
  | cons m ms ih =>
      have hm := h m List.mem_cons_self
      exact .flat hm.not_opening hm.not_closing (ih fun k hk => h k (List.mem_cons_of_mem _ hk))

/-- Marginal lexemes end no slice. -/
theorem cutFrom_of_marginal (s : Cut) {ms : List Lexeme} (h : ∀ m ∈ ms, m.Marginal) :
    (cutFrom s ms).1 = [] := by
  induction ms generalizing s with
  | nil => rfl
  | cons m ms ih =>
      have hm := h m List.mem_cons_self
      have hms := ih (s.step m).2 fun k hk => h k (List.mem_cons_of_mem _ hk)
      rw [cutFrom_cons, hms, List.append_nil]
      rcases s.step_cases m with ⟨hended, _⟩ | ⟨rfl, _⟩ | ⟨hkind, _⟩
      · rw [hended]
        rfl
      · exact absurd rfl hm.not_closing
      · exact absurd hkind hm.not_word

/-- Marginal lexemes give no keyword. -/
theorem keywordOf_append_marginal (ls : List Lexeme) {ms : List Lexeme}
    (h : ∀ m ∈ ms, m.Marginal) : keywordOf (ls ++ ms) = keywordOf ls := by
  cases hls : ls.any Lexeme.isContent with
  | true => exact keywordOf_append hls ms
  | false =>
      rw [keywordOf_append_left hls, keywordOf_eq_nil hls, keywordOf]
      cases hfind : ms.find? Lexeme.isContent with
      | none => rfl
      | some m =>
          have hm := h m (List.mem_of_find?_eq_some hfind)
          simp [hm.not_word, hm.not_brace]

/-- Without the blanks at its end a text is still faithful, has the same keyword, and is as loose as
with them. -/
theorem piece_of_blanks {text w : List Char} (h : Faithful (text ++ w))
    (hw : ∀ c ∈ w, Text.isBlank c = true) :
    Faithful text ∧ leadingKeyword text = leadingKeyword (text ++ w) ∧
      (Loose (lexemes (text ++ w)) → Loose (lexemes text)) := by
  obtain ⟨ls, ms, ns, hls, hends, hms, hns⟩ := lexemes_blanks h hw
  have hmarginal : ∀ n ∈ ns, n.Marginal := fun n hn => (hns n hn).1
  refine ⟨?_, ?_, ?_⟩
  · rw [Faithful, hends]
    intro l hl
    rcases List.mem_append.mp hl with hl | hl
    · exact h l (by rw [hls]; exact List.mem_append_left _ hl)
    · exact (hns l hl).2
  · rw [leadingKeyword_eq, leadingKeyword_eq, hls, hends, keywordOf_append_marginal ls hms,
      keywordOf_append_marginal ls hmarginal]
  · rintro ⟨hnone, hdepth⟩
    rw [hls, cutFrom_append] at hnone hdepth
    rw [(nests_of_marginal _ hms).depth_cutFrom rfl] at hdepth
    rw [hends, Loose, cutFrom_append, cutFrom_of_marginal _ hmarginal,
      (nests_of_marginal _ hmarginal).depth_cutFrom rfl, List.append_nil]
    exact ⟨(List.append_eq_nil_iff.mp hnone).1, hdepth⟩

theorem trimEnd_append (text : List Char) :
    ∃ w, text = Text.trimEnd text ++ w ∧ ∀ c ∈ w, Text.isBlank c = true := by
  refine ⟨(text.reverse.takeWhile Text.isBlank).reverse, ?_, ?_⟩
  · rw [Text.trimEnd, ← List.reverse_append, List.takeWhile_append_dropWhile, List.reverse_reverse]
  · intro c hc
    exact List.mem_takeWhile_imp (List.mem_reverse.mp hc)

/-! ## Blanks in front -/

/-- What is held has no part in where slices end. -/
theorem Cut.step_held (s : Cut) (held : List Lexeme) (l : Lexeme) :
    ∃ held', (Cut.step { s with held } l).2 = { (s.step l).2 with held := held' } ∧
      (Cut.step { s with held } l).1.isSome = (s.step l).1.isSome := by
  obtain ⟨kind, text⟩ := l
  cases kind with
  | closing =>
      simp only [Cut.step]
      split
      · exact ⟨[], rfl, rfl⟩
      · exact ⟨_, rfl, rfl⟩
  | word =>
      have hsame : Cut.startsDefinition { s with held } text = s.startsDefinition text := rfl
      simp only [Cut.step, hsame]
      cases s.startsDefinition text with
      | true => exact ⟨_, rfl, rfl⟩
      | false => exact ⟨_, rfl, rfl⟩
  | comment => exact ⟨_, rfl, rfl⟩
  | quoted => exact ⟨_, rfl, rfl⟩
  | gap => exact ⟨_, rfl, rfl⟩
  | other => exact ⟨_, rfl, rfl⟩
  | opening => exact ⟨_, rfl, rfl⟩

theorem cutFrom_held (s : Cut) (held : List Lexeme) (ls : List Lexeme) :
    (cutFrom { s with held } ls).1.length = (cutFrom s ls).1.length ∧
      (cutFrom { s with held } ls).2.depth = (cutFrom s ls).2.depth := by
  induction ls generalizing s held with
  | nil => exact ⟨rfl, rfl⟩
  | cons l ls ih =>
      obtain ⟨held', hnext, hended⟩ := s.step_held held l
      obtain ⟨hlength, hdepth⟩ := ih (s.step l).2 held'
      simp only [cutFrom_cons, hnext, List.length_append, hlength, hdepth, and_true]
      cases h : (s.step l).1 <;> cases h' : (Cut.step { s with held } l).1 <;>
        simp_all

/-- Blanks of ASCII have no content. -/
theorem any_isContent_of_gaps {bs : List Lexeme} (hbs : ∀ b ∈ bs, b.kind = .gap) :
    bs.any Lexeme.isContent = false := by
  rw [List.any_eq_false]
  intro b hb
  simp [Lexeme.isContent, hbs b hb]

/-- Blanks of ASCII in front of a slice are held, and nothing else changes. -/
theorem cutFrom_gaps {bs : List Lexeme} (hbs : ∀ b ∈ bs, b.kind = .gap) :
    cutFrom Cut.start bs = ([], { Cut.start with held := bs.reverse }) := by
  have hall : ∀ b ∈ bs, b.isIgnored = true := fun b hb => by simp [Lexeme.isIgnored, hbs b hb]
  have hignored := cutFrom_ignored (s := Cut.start) rfl hall
  rw [any_isContent_of_gaps hbs] at hignored
  simpa [Cut.start] using hignored

/-- Blanks in front make no piece loose. -/
theorem Loose.of_gaps {bs ls : List Lexeme} (hbs : ∀ b ∈ bs, b.kind = .gap)
    (h : Loose (bs ++ ls)) : Loose ls := by
  obtain ⟨hnone, hdepth⟩ := h
  rw [cutFrom_append, cutFrom_gaps hbs] at hnone hdepth
  obtain ⟨hlength, hsame⟩ := cutFrom_held Cut.start bs.reverse ls
  refine ⟨?_, by rw [← hsame]; exact hdepth⟩
  rw [← List.length_eq_zero_iff, ← hlength, List.length_eq_zero_iff]
  exact hnone

theorem skip_of_gaps {g : List Char} (hg : ∀ c ∈ g, isGap c = true) (rest : List Char) :
    skip (g ++ rest) = skip rest := by
  induction g with
  | nil => rfl
  | cons c g ih =>
      rw [List.cons_append, skip_of_isGap (hg c List.mem_cons_self)]
      exact ih fun b hb => hg b (List.mem_cons_of_mem _ hb)

/-- A slice without the blanks in front of it. -/
structure Piece (x : List Char) (ks ms : List Lexeme) (p : List Char) : Prop where
  trimStart_eq : Text.trimStart (Slice.text ks) = p
  /-- Only whole lexemes are lost. -/
  lexemes_eq : ∃ bs, (∀ b ∈ bs, b.kind = .gap) ∧ ks = bs ++ lexemes p
  faithful : Faithful p
  head_eq : ∃ c rest, p = c :: rest ∧ Text.isBlank c = false
  skip_eq : skip x = skip (p ++ Slice.text ms)

theorem piece_of_content {x : List Char} {ks ms : List Lexeme} (hx : Faithful x)
    (hstart : ∀ a ∈ (skip x).head?, Text.isBlank a = false) (hks : lexemes x = ks ++ ms)
    (hcontent : ks.any Lexeme.isContent = true) : ∃ p, Piece x ks ms p := by
  have hascii := isAsciiBlank_of_skip hstart
  have hlexemes := lexemes_trimStart x
  generalize hbs : (x.takeWhile Text.isBlank).map
    (fun c => (⟨if Text.isAsciiBlank c then .gap else .other, [c]⟩ : Lexeme)) = bs at hlexemes
  have hgaps : ∀ b ∈ bs, b.kind = .gap := by
    intro b hb
    rw [← hbs, List.mem_map] at hb
    obtain ⟨c, hc, rfl⟩ := hb
    simp [(hascii c hc).1]
  have htext : Slice.text bs = x.takeWhile Text.isBlank := by
    simp [← hbs, Slice.text, List.flatMap_map]
  -- The blanks have no content, so the slice reaches beyond them.
  obtain ⟨cs, rfl, hcs⟩ : ∃ cs, ks = bs ++ cs ∧ lexemes (Text.trimStart x) = cs ++ ms := by
    rw [hks] at hlexemes
    rcases List.append_eq_append_iff.mp hlexemes with ⟨cs, hbs', _⟩ | ⟨cs, hks', hcs⟩
    · rw [any_isContent_of_gaps fun l hl =>
        hgaps l (by rw [hbs']; exact List.mem_append_left _ hl)] at hcontent
      exact absurd hcontent (by simp)
    · exact ⟨cs, hks', hcs⟩
  have hfaithful : ∀ l ∈ cs, l.isFaithful = true := by
    intro l hl
    refine hx l ?_
    rw [hks]
    exact List.mem_append_left _ (List.mem_append_right _ hl)
  have hwhole : Slice.text cs ++ Slice.text ms = Text.trimStart x := by
    rw [← text_append, ← hcs, text_lexemes]
  have hhead : ∃ c rest, Slice.text cs = c :: rest ∧ Text.isBlank c = false := by
    cases cs with
    | nil =>
        rw [List.append_nil, any_isContent_of_gaps hgaps] at hcontent
        exact absurd hcontent (by simp)
    | cons l cs =>
        cases htrim : Text.trimStart x with
        | nil => simp [htrim] at hcs
        | cons c rest =>
            cases hfirst : firstLexeme c rest with
            | mk l' y =>
                rw [htrim, lexemes_cons, hfirst, List.cons_append, List.cons.injEq] at hcs
                obtain ⟨rfl, _⟩ := hcs
                refine ⟨c, l'.text.tail ++ Slice.text cs, ?_, ?_⟩
                · rw [text_cons, (firstLexeme_tail hfirst).1]
                  rfl
                · refine head?_dropWhile_eq_false Text.isBlank x c ?_
                  rw [← Text.trimStart, htrim]
                  rfl
  refine ⟨Slice.text cs, ?_, ⟨bs, hgaps, by rw [lexemes_text hcs hfaithful]⟩, ?_, hhead, ?_⟩
  · obtain ⟨c, rest, hc, hblank⟩ := hhead
    rw [text_append, htext, Text.trimStart,
      List.dropWhile_append_of_pos (List.all_eq_true.mp List.all_takeWhile), hc,
      List.dropWhile_cons_of_neg (by simp [hblank])]
  · rw [Faithful, lexemes_text hcs hfaithful]
    exact hfaithful
  · have hdrop := skip_of_gaps (fun c hc => (hascii c hc).2) (Text.trimStart x)
    rw [Text.trimStart, List.takeWhile_append_dropWhile] at hdrop
    rw [hdrop, hwhole]
    rfl

namespace Piece

variable {x p : List Char} {ks ms : List Lexeme}

/-- The keyword of a piece is that of the text it starts. -/
theorem leadingKeyword_eq (h : Piece x ks ms p) (hks : lexemes x = ks ++ ms)
    (hcontent : ks.any Lexeme.isContent = true) : leadingKeyword p = leadingKeyword x := by
  obtain ⟨bs, hbs, rfl⟩ := h.lexemes_eq
  rw [Document.leadingKeyword_eq, Document.leadingKeyword_eq, hks, keywordOf_append hcontent,
    keywordOf_append_left (any_isContent_of_gaps hbs)]

/-- A loose slice is read as a text that is loose. -/
theorem trim_of_loose (h : Piece x ks ms p) (hloose : Loose ks) :
    Text.trim (Slice.text ks) ≠ [] ∧ Faithful (Text.trim (Slice.text ks)) ∧
      Loose (lexemes (Text.trim (Slice.text ks))) ∧
      leadingKeyword (Text.trim (Slice.text ks)) = leadingKeyword p := by
  obtain ⟨w, hw, hblank⟩ := trimEnd_append p
  have hfaithful := h.faithful
  obtain ⟨bs, hbs, hks⟩ := h.lexemes_eq
  have hp : Loose (lexemes p) := by
    rw [hks] at hloose
    exact hloose.of_gaps hbs
  rw [Text.trim, h.trimStart_eq]
  rw [hw] at hfaithful hp
  obtain ⟨hq, hkeyword, hends⟩ := piece_of_blanks hfaithful hblank
  rw [← hw] at hkeyword
  refine ⟨?_, hq, hends hp, hkeyword⟩
  intro hnil
  obtain ⟨c, rest, hc, hvisible⟩ := h.head_eq
  rw [hnil, List.nil_append] at hw
  have := hblank c (by rw [← hw, hc]; exact List.mem_cons_self)
  rw [hvisible] at this
  exact absurd this (by simp)

/-- A slice that ends with a brace has no blanks at its end. -/
theorem trim_of_closingBrace {ls : List Lexeme} (h : Piece x (ls ++ [closingBrace]) ms p) :
    Text.trim (Slice.text (ls ++ [closingBrace])) = p := by
  obtain ⟨bs, _, hks⟩ := h.lexemes_eq
  obtain ⟨c, rest, hc, _⟩ := h.head_eq
  have hlast : p.reverse.head? = some '}' := by
    have htext := congrArg (fun ls => (Slice.text ls).getLast?) hks
    simp only [text_append, text_lexemes, text_cons, text_nil, closingBrace,
      List.getLast?_append] at htext
    rw [List.head?_reverse]
    simpa [hc] using htext.symm
  obtain ⟨rest', hrest'⟩ : ∃ rest', p.reverse = '}' :: rest' := List.head?_eq_some_iff.mp hlast
  rw [Text.trim, h.trimStart_eq, Text.trimEnd, hrest', List.dropWhile_cons_of_neg (by decide),
    ← hrest', List.reverse_reverse]

end Piece

theorem length_skipFrom (comment : Bool) (text : List Char) :
    (skipFrom comment text).length ≤ text.length := by
  fun_induction skipFrom comment text with
  | case1 => exact Nat.le_refl _
  | case2 c text hend ih => exact Nat.le_succ_of_le ih
  | case3 c text hend ih => exact Nat.le_succ_of_le ih
  | case4 c text hgap ih => exact Nat.le_succ_of_le ih
  | case5 c text hgap hhash ih => exact Nat.le_succ_of_le ih
  | case6 => exact Nat.le_refl _

/-- What is dropped in front of a piece does not depend on what follows it. -/
theorem skip_local {p u y : List Char} (h : skip (p ++ y) = u ++ '}' :: y) (z : List Char) :
    skip (p ++ z) = u ++ '}' :: z := by
  rcases skipFrom_append false p with ⟨_, next, hnext⟩ | ⟨_, happend⟩
  · have hlength := length_skipFrom next y
    rw [← hnext, ← skip, h] at hlength
    simp only [List.length_append, List.length_cons] at hlength
    omega
  · have hp : skip p = u ++ ['}'] := by
      refine (List.append_left_inj y).mp ?_
      rw [List.append_assoc, List.singleton_append, ← h]
      exact (happend y).symm
    have hz := happend z
    rw [← skip, ← skip, hp, List.append_assoc, List.singleton_append] at hz
    exact hz

end ApiAtlas.Document
