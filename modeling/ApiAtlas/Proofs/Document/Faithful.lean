import ApiAtlas.Document.Grammar
import ApiAtlas.Proofs.Document.Lexeme
set_option autoImplicit false

/-!
# Document: texts that are cut as they are read

The cutting and the grammar have their own ideas of comments and strings.  For the cutting a comment
ends at a line feed, for the grammar at a carriage return too; an unclosed block string goes on to
the end of the text for the one, and is an empty string with more text behind it for the other.  A
text is faithful when its lexemes hide no such difference.  Faithful texts can be lexed piece by
piece, and blanks and comments of the grammar are whole lexemes of them.
-/

namespace ApiAtlas.Document

/-- The grammar reads the comment as blank and the string as one string. -/
def Lexeme.isFaithful (l : Lexeme) : Bool :=
  match l.kind with
  | .comment => (skip l.text).isEmpty
  | .quoted => (Rule.text l.text).any fun r => r.2.isEmpty
  | _ => true

/-- The comments and strings that the cutting sees are comments and strings of the grammar. -/
def Faithful (text : List Char) : Prop := ∀ l ∈ lexemes text, l.isFaithful = true

instance (text : List Char) : Decidable (Faithful text) :=
  inferInstanceAs (Decidable (∀ l ∈ lexemes text, l.isFaithful = true))

/-! ## Blanks and comments -/

/-- What is dropped from a text is dropped whatever follows it. Either all of it is blank, and the
blanks go on behind it, or the rest of it stays as it is. -/
theorem skipFrom_append (comment : Bool) (text : List Char) :
    (skipFrom comment text = [] ∧
        ∃ next, ∀ rest, skipFrom comment (text ++ rest) = skipFrom next rest) ∨
      (skipFrom comment text ≠ [] ∧
        ∀ rest, skipFrom comment (text ++ rest) = skipFrom comment text ++ rest) := by
  fun_induction skipFrom comment text with
  | case1 comment => exact Or.inl ⟨rfl, comment, fun rest => rfl⟩
  | case2 c text hend ih => simpa [skipFrom, hend] using ih
  | case3 c text hend ih => simpa [skipFrom, hend] using ih
  | case4 c text hgap ih => simpa [skipFrom, hgap] using ih
  | case5 c text hgap hhash ih => simpa [skipFrom, hgap, hhash] using ih
  | case6 c text hgap hhash => exact Or.inr (by simp [skipFrom, hgap, hhash])

/-- A text that is all blank stays blank when it is cut off earlier. -/
theorem skip_eq_nil_of_append {text rest : List Char} (h : skip (text ++ rest) = []) :
    skip text = [] := by
  rcases skipFrom_append false text with ⟨hnil, _⟩ | ⟨hne, happend⟩
  · exact hnil
  · rw [skip, happend rest] at h
    exact absurd (List.append_eq_nil_iff.mp h).1 hne

/-- A line feed ends a blank text whether or not it stands in a comment. -/
theorem skip_append_newline {text : List Char} (h : skip text = []) (rest : List Char) :
    skip (text ++ '\n' :: rest) = skip rest := by
  rcases skipFrom_append false text with ⟨_, next, hnext⟩ | ⟨hne, _⟩
  · rw [skip, hnext]
    cases next <;> rfl
  · exact absurd h hne

@[simp] theorem skip_nil : skip [] = [] := rfl

theorem skip_of_isGap {c : Char} (hc : isGap c = true) (rest : List Char) :
    skip (c :: rest) = skip rest := by
  simp [skip, skipFrom, hc]

/-- Nothing is dropped before a character that is neither a blank nor starts a comment. -/
theorem skip_of_not_isGap {c : Char} (hc : isGap c = false) (hhash : c ≠ '#')
    (rest : List Char) : skip (c :: rest) = c :: rest := by
  simp [skip, skipFrom, hc, hhash]

theorem isPlain_of_isGap {c : Char} (hc : isGap c = true) : isPlain c = true := by
  simp only [isGap, isLineEnd, Bool.or_eq_true, beq_iff_eq] at hc
  rcases hc with (((rfl | rfl) | rfl) | rfl) | rfl | rfl <;> decide

theorem head?_dropWhile_eq_false (p : Char → Bool) (xs : List Char) :
    ∀ a ∈ (xs.dropWhile p).head?, p a = false := by
  intro a ha
  have hnot := List.head?_dropWhile_not p xs
  rw [ha] at hnot
  simpa using hnot

/-- A text that starts with a line feed, unless it is empty. -/
def AtLineEnd (text : List Char) : Prop := ∀ c ∈ text.head?, c = '\n'

theorem atLineEnd_dropWhile (text : List Char) : AtLineEnd (text.dropWhile (· != '\n')) := by
  intro c hc
  simpa using head?_dropWhile_eq_false (· != '\n') text c hc

/-- Behind a comment that the grammar reads as one, the line end is where blanks go on. -/
theorem skip_comment {body rest : List Char} (hbody : skip ('#' :: body) = [])
    (hrest : AtLineEnd rest) : skip ('#' :: (body ++ rest)) = skip rest := by
  cases rest with
  | nil => simpa using hbody
  | cons c rest =>
      obtain rfl : c = '\n' := hrest c rfl
      exact skip_append_newline hbody rest

/-! ## Strings -/

/-- An escape of one character stands for one, and `u` is none of them. -/
theorem Rule.lineContent_escape {e c : Char} (he : Json.Draft.escape? e = some c)
    (done text : List Char) :
    Rule.lineContent done ('\\' :: e :: text) = Rule.lineContent (c :: done) text := by
  have hu : e ≠ 'u' := by
    rintro rfl
    simp [Json.Draft.escape?] at he
  simp [Rule.lineContent, hu, he]

/-- A character that neither ends a string nor escapes another is passed over. -/
theorem plainString_cons {c : Char} (hquote : c ≠ '"') (hfeed : c ≠ '\n') (hback : c ≠ '\\')
    (text : List Char) : (plainString (c :: text)).2 = (plainString text).2 := by
  rw [plainString]
  · exact hquote
  · exact hfeed
  · exact fun _ _ hc _ => hback hc

/-- Digits in base sixteen are passed over. -/
theorem plainString_hex {c : Char} {n : Nat} (hc : Json.Draft.hexValue? c = some n)
    (text : List Char) : (plainString (c :: text)).2 = (plainString text).2 := by
  apply plainString_cons
  all_goals
    rintro rfl
    simp [Json.Draft.hexValue?] at hc

/-- Where the grammar finds the end of a text on one line, the cutting finds it too, whatever
follows. -/
theorem Rule.lineContent_append {done text r y : List Char}
    (h : Rule.lineContent done text = some (r, y)) (rest : List Char) :
    Rule.lineContent done (text ++ rest) = some (r, y ++ rest) ∧
      (plainString (text ++ rest)).2 = y ++ rest := by
  fun_induction Rule.lineContent done text with
  | case1 => simp at h
  | case2 done text =>
      obtain ⟨rfl, rfl⟩ : done.reverse = r ∧ text = y := by simpa using h
      exact ⟨rfl, rfl⟩
  | case3 => simp at h
  | case4 => simp at h
  | case5 done a b c d text n hn hrange ih =>
      obtain ⟨hline, hplain⟩ := ih h
      have hhex := hn
      simp only [Json.Draft.hexValue4?, Option.bind_eq_bind, Option.bind_eq_some_iff] at hhex
      obtain ⟨_, ha, _, hb, _, hc, _, hd, _⟩ := hhex
      refine ⟨?_, ?_⟩
      · simpa [Rule.lineContent, hn, hrange] using hline
      · have hpass : (plainString ('\\' :: 'u' :: a :: b :: c :: d :: (text ++ rest))).2 =
            (plainString (a :: b :: c :: d :: (text ++ rest))).2 := by
          simp [plainString]
        simp only [List.cons_append]
        rw [hpass, plainString_hex ha, plainString_hex hb, plainString_hex hc, plainString_hex hd,
          hplain]
  | case6 => simp at h
  | case7 done e text hu c he ih =>
      obtain ⟨hline, hplain⟩ := ih h
      refine ⟨?_, ?_⟩
      · rw [List.cons_append, List.cons_append, Rule.lineContent_escape he, hline]
      · simpa [plainString] using hplain
  | case8 => simp at h
  | case9 done c text hquote hu hescape hend ih =>
      have hback : c ≠ '\\' := by
        rintro rfl
        cases text with
        | nil => simp [Rule.lineContent] at h
        | cons e text => exact hescape e text rfl rfl
      obtain ⟨hline, hplain⟩ := ih h
      have hfeed : c ≠ '\n' := by
        rintro rfl
        exact hend rfl
      refine ⟨?_, ?_⟩
      · simpa [Rule.lineContent, hquote, hback, hend] using hline
      · simpa [plainString, hquote, hback, hfeed] using hplain

/-- A block text ends with three quotes. -/
theorem Rule.blockContent_length {done text r y : List Char}
    (h : Rule.blockContent done text = some (r, y)) : y.length + 3 ≤ text.length := by
  fun_induction Rule.blockContent done text with
  | case1 => simp at h
  | case2 done text ih =>
      have := ih h
      simp only [List.length_cons]
      omega
  | case3 done text =>
      obtain ⟨rfl, rfl⟩ : done.reverse = r ∧ text = y := by simpa using h
      simp
  | case4 done c text hescape hend ih =>
      have := ih h
      simp only [List.length_cons]
      omega

/-- Where the grammar finds the end of a block text, the cutting finds it too, whatever follows. -/
theorem Rule.blockContent_append {done text r y : List Char}
    (h : Rule.blockContent done text = some (r, y)) (rest : List Char) :
    Rule.blockContent done (text ++ rest) = some (r, y ++ rest) ∧
      (blockString (text ++ rest)).2 = y ++ rest := by
  fun_induction Rule.blockContent done text with
  | case1 => simp at h
  | case2 done text ih =>
      obtain ⟨hblock, hstring⟩ := ih h
      refine ⟨?_, ?_⟩
      · simpa [Rule.blockContent] using hblock
      · simpa [blockString] using hstring
  | case3 done text =>
      obtain ⟨rfl, rfl⟩ : done.reverse = r ∧ text = y := by simpa using h
      exact ⟨rfl, rfl⟩
  | case4 done c text hescape hend ih =>
      obtain ⟨hblock, hstring⟩ := ih h
      -- Three more characters are in the text, so what follows it plays no part in the choice.
      obtain ⟨c₁, c₂, c₃, more, rfl⟩ : ∃ c₁ c₂ c₃ more, text = c₁ :: c₂ :: c₃ :: more := by
        have hlength := Rule.blockContent_length h
        match text, hlength with
        | c₁ :: c₂ :: c₃ :: more, _ => exact ⟨c₁, c₂, c₃, more, rfl⟩
      have hescape' : ∀ tail, c = '\\' →
          c₁ :: c₂ :: c₃ :: (more ++ rest) = '"' :: '"' :: '"' :: tail → False := by
        intro tail hc htail
        simp only [List.cons.injEq] at htail
        obtain ⟨rfl, rfl, rfl, _⟩ := htail
        exact hescape more hc rfl
      have hend' : ∀ tail, c = '"' →
          c₁ :: c₂ :: c₃ :: (more ++ rest) = '"' :: '"' :: tail → False := by
        intro tail hc htail
        simp only [List.cons.injEq] at htail
        obtain ⟨rfl, rfl, _⟩ := htail
        exact hend (c₃ :: more) hc rfl
      simp only [List.cons_append] at hblock hstring ⊢
      refine ⟨?_, ?_⟩
      · rw [Rule.blockContent]
        · exact hblock
        · exact hescape'
        · exact hend'
      · rw [blockString]
        · exact hstring
        · exact hescape'
        · exact hend'

/-- Without two more quotes behind its first one a text is read on one line. -/
theorem Rule.text_line {q : List Char} (hline : ∀ body, q ≠ '"' :: '"' :: body) :
    Rule.text ('"' :: q) =
      (Rule.lineContent [] q).map fun r => (String.ofList r.1, r.2) := by
  simp only [Rule.text]
  congr 1
  split
  · rename_i r hr
    split at hr
    · rename_i body hq
      exact absurd (List.cons.inj hq).2 (hline body)
    · exact absurd hr (by simp)
  · rfl

theorem firstLexeme_line {q : List Char} (hline : ∀ body, q ≠ '"' :: '"' :: body) :
    firstLexeme '"' q = (⟨.quoted, '"' :: (plainString q).1⟩, (plainString q).2) := by
  unfold firstLexeme
  split
  · rename_i hhash
    exact absurd hhash (by decide)
  · split
    · split
      · rename_i body
        exact absurd rfl (hline body)
      · rfl
    · rename_i hquote
      exact absurd rfl hquote

/-- What the grammar reads as one string it reads as one, and so does the cutting, whatever follows;
two quotes alone are not followed by a third. -/
theorem Rule.text_append {q rest : List Char} {v : String}
    (h : Rule.text ('"' :: q) = some (v, [])) (hrest : q = ['"'] → rest.head? ≠ some '"') :
    Rule.text ('"' :: (q ++ rest)) = some (v, rest) ∧
      firstLexeme '"' (q ++ rest) = (⟨.quoted, '"' :: q⟩, rest) := by
  -- The lexeme is known from what it leaves.
  have hlexeme : ∀ l y, firstLexeme '"' (q ++ rest) = (l, y) → l.kind = .quoted → y = rest →
      firstLexeme '"' (q ++ rest) = (⟨.quoted, '"' :: q⟩, rest) := by
    intro l y hfirst hkind hy
    have happend := firstLexeme_append '"' (q ++ rest)
    rw [hfirst, hy, ← List.cons_append] at happend
    rw [hfirst, hy, ← List.append_cancel_right happend, ← hkind]
  by_cases hblock : ∃ body, q = '"' :: '"' :: body
  · obtain ⟨body, rfl⟩ := hblock
    cases hcontent : Rule.blockContent [] body with
    | none => simp [Rule.text, hcontent, Rule.lineContent] at h
    | some r =>
        obtain ⟨content, y⟩ := r
        obtain ⟨rfl, rfl⟩ : String.ofList content = v ∧ y = [] := by
          simpa [Rule.text, hcontent] using h
        obtain ⟨hgrammar, hcut⟩ := Rule.blockContent_append hcontent rest
        refine ⟨?_, ?_⟩
        · simp [Rule.text, hgrammar]
        · exact hlexeme _ _ rfl rfl hcut
  · have hline : ∀ body, q ≠ '"' :: '"' :: body := fun body hq => hblock ⟨body, hq⟩
    rw [Rule.text_line hline] at h
    obtain ⟨⟨content, y⟩, hcontent, hr⟩ := Option.map_eq_some_iff.mp h
    obtain ⟨rfl, rfl⟩ : String.ofList content = v ∧ y = [] := by simpa using hr
    obtain ⟨hgrammar, hcut⟩ := Rule.lineContent_append hcontent rest
    have hline' : ∀ body, q ++ rest ≠ '"' :: '"' :: body := by
      match q, hline, hrest, hcontent with
      | [c], _, hrest, _ =>
          intro body hbody
          simp only [List.cons_append, List.nil_append, List.cons.injEq] at hbody
          obtain ⟨rfl, rfl⟩ := hbody
          exact hrest rfl rfl
      | c₁ :: c₂ :: tail, hline, _, _ =>
          intro body hbody
          simp only [List.cons_append, List.cons.injEq] at hbody
          obtain ⟨rfl, rfl, _⟩ := hbody
          exact hline tail rfl
    refine ⟨?_, ?_⟩
    · rw [Rule.text_line hline', hgrammar]
      rfl
    · exact hlexeme _ _ (firstLexeme_line hline') rfl hcut

/-! ## Faithful texts, lexeme by lexeme -/

theorem faithful_cons (c : Char) (rest : List Char) :
    Faithful (c :: rest) ↔
      (firstLexeme c rest).1.isFaithful = true ∧ Faithful (firstLexeme c rest).2 := by
  simp only [Faithful, lexemes_cons, List.mem_cons, forall_eq_or_imp]

theorem faithful_nil : Faithful [] := fun _ hl => absurd hl List.not_mem_nil

/-- Letters and digits in front of a text say nothing about it. -/
theorem faithful_of_dropWhile (text : List Char) (h : Faithful (text.dropWhile isWordPart)) :
    Faithful text := by
  induction text with
  | nil => exact faithful_nil
  | cons c rest ih =>
      by_cases hpart : isWordPart c = true
      · rw [List.dropWhile_cons_of_pos hpart] at h
        rw [faithful_cons]
        by_cases hstart : isWordStart c = true
        · rw [firstLexeme_word hstart]
          exact ⟨rfl, h⟩
        · rw [firstLexeme_single (isPlain_of_isWordPart hpart) hstart]
          refine ⟨?_, ih h⟩
          split <;> rfl
      · rwa [List.dropWhile_cons_of_neg hpart] at h

/-- A faithful string in front of a text is one for the grammar too. -/
theorem firstLexeme_quoted {rest : List Char}
    (h : (firstLexeme '"' rest).1.isFaithful = true) :
    ∃ q y v, rest = q ++ y ∧ Rule.text ('"' :: q) = some (v, []) ∧
      (q = ['"'] → y.head? ≠ some '"') ∧ firstLexeme '"' rest = (⟨.quoted, '"' :: q⟩, y) := by
  have hkind : (firstLexeme '"' rest).1.kind = .quoted := by
    unfold firstLexeme
    split
    · rename_i hhash
      exact absurd hhash (by decide)
    · split
      · split <;> rfl
      · rename_i hquote
        exact absurd rfl hquote
  obtain ⟨q, hq⟩ : ∃ q, (firstLexeme '"' rest).1.text = '"' :: q := by
    have hhead := head?_firstLexeme '"' rest
    cases htext : (firstLexeme '"' rest).1.text with
    | nil => simp [htext] at hhead
    | cons c q =>
        rw [htext] at hhead
        obtain rfl : c = '"' := by simpa using hhead
        exact ⟨q, rfl⟩
  have happend := firstLexeme_append '"' rest
  rw [hq, List.cons_append, List.cons.injEq] at happend
  simp only [Lexeme.isFaithful, hkind, hq, Option.any_eq_true, List.isEmpty_iff] at h
  obtain ⟨⟨v, y⟩, htext, rfl⟩ := h
  refine ⟨q, (firstLexeme '"' rest).2, v, happend.2.symm, htext, ?_, ?_⟩
  · -- Three quotes open a block string, and the lexeme would hold them.
    rintro rfl hhead
    cases hy : (firstLexeme '"' rest).2 with
    | nil => simp [hy] at hhead
    | cons c y =>
        rw [hy] at hhead happend
        obtain rfl : c = '"' := by simpa using hhead
        rw [← happend.2] at hq
        simp [firstLexeme] at hq
  · rw [← hq, ← hkind]

namespace Faithful

variable {c : Char} {rest : List Char}

theorem of_plain (h : Faithful (c :: rest)) (hc : isPlain c = true) : Faithful rest := by
  rw [faithful_cons] at h
  by_cases hstart : isWordStart c = true
  · rw [firstLexeme_word hstart] at h
    exact faithful_of_dropWhile rest h.2
  · rw [firstLexeme_single hc hstart] at h
    exact h.2

theorem of_opening (h : Faithful (c :: rest)) (hc : isOpening c = true) : Faithful rest := by
  rw [faithful_cons, firstLexeme_opening hc] at h
  exact h.2

theorem of_closing (h : Faithful (c :: rest)) (hc : isClosing c = true) : Faithful rest := by
  rw [faithful_cons, firstLexeme_closing hc] at h
  exact h.2

theorem of_comment (h : Faithful ('#' :: rest)) :
    skip ('#' :: rest.takeWhile (· != '\n')) = [] ∧ Faithful (rest.dropWhile (· != '\n')) := by
  rw [faithful_cons, firstLexeme_hash] at h
  exact ⟨List.isEmpty_iff.mp h.1, h.2⟩

theorem of_quoted (h : Faithful ('"' :: rest)) :
    ∃ q y v, rest = q ++ y ∧ Rule.text ('"' :: q) = some (v, []) ∧
      (q = ['"'] → y.head? ≠ some '"') ∧ firstLexeme '"' rest = (⟨.quoted, '"' :: q⟩, y) ∧
      Faithful y := by
  rw [faithful_cons] at h
  obtain ⟨q, y, v, hrest, htext, hquotes, hfirst⟩ := firstLexeme_quoted h.1
  exact ⟨q, y, v, hrest, htext, hquotes, hfirst, by simpa [hfirst] using h.2⟩

end Faithful

/-! ## Lexing piece by piece -/

/-- The longest run at the front of a text stays the longest one if what follows does not go on
with it. -/
theorem span_append {p : Char → Bool} (text : List Char) {rest : List Char}
    (hrest : ∀ a ∈ rest.head?, p a = false) :
    (text.takeWhile p ++ rest).takeWhile p = text.takeWhile p ∧
      (text.takeWhile p ++ rest).dropWhile p = rest := by
  have hall : ∀ a ∈ text.takeWhile p, p a = true := List.all_eq_true.mp List.all_takeWhile
  rw [List.takeWhile_append_of_pos hall, List.dropWhile_append_of_pos hall]
  cases rest with
  | nil => simp
  | cons a rest => simp [hrest a rfl]

/-- A faithful lexeme ends where it ends also when the text goes on in another way, as long as the
next character is the same, or a line feed, or there is none. -/
theorem firstLexeme_local {c : Char} {rest y : List Char} {l : Lexeme}
    (hfirst : firstLexeme c rest = (l, y)) (hfaithful : l.isFaithful = true) (text : List Char)
    (htext : ∀ a ∈ text.head?, a = '\n' ∨ y.head? = some a) :
    firstLexeme c (l.text.tail ++ text) = (l, text) := by
  rcases class_cases c with rfl | rfl | hopening | hclosing | hplain
  · rw [firstLexeme_hash, Prod.mk.injEq] at hfirst
    obtain ⟨rfl, rfl⟩ := hfirst
    have hstop : ∀ a ∈ text.head?, (a != '\n') = false := by
      intro a ha
      rcases htext a ha with rfl | hy
      · rfl
      · exact head?_dropWhile_eq_false _ _ a hy
    obtain ⟨htake, hdrop⟩ := span_append rest hstop
    rw [List.tail_cons, firstLexeme_hash, htake, hdrop]
  · obtain ⟨q, y', v, hrest, hq, hquotes, hlexeme⟩ :=
      firstLexeme_quoted (by rw [hfirst]; exact hfaithful)
    rw [hfirst, Prod.mk.injEq] at hlexeme
    obtain ⟨rfl, rfl⟩ := hlexeme
    refine (Rule.text_append hq ?_).2
    intro hq' hhead
    rcases htext '"' hhead with hfeed | hy
    · exact absurd hfeed (by decide)
    · exact hquotes hq' hy
  · rw [firstLexeme_opening hopening, Prod.mk.injEq] at hfirst
    obtain ⟨rfl, rfl⟩ := hfirst
    exact firstLexeme_opening hopening text
  · rw [firstLexeme_closing hclosing, Prod.mk.injEq] at hfirst
    obtain ⟨rfl, rfl⟩ := hfirst
    exact firstLexeme_closing hclosing text
  · by_cases hstart : isWordStart c = true
    · rw [firstLexeme_word hstart, Prod.mk.injEq] at hfirst
      obtain ⟨rfl, rfl⟩ := hfirst
      have hstop : ∀ a ∈ text.head?, isWordPart a = false := by
        intro a ha
        rcases htext a ha with rfl | hy
        · decide
        · exact head?_dropWhile_eq_false _ _ a hy
      obtain ⟨htake, hdrop⟩ := span_append rest hstop
      rw [List.tail_cons, firstLexeme_word hstart, htake, hdrop]
    · rw [firstLexeme_single hplain hstart, Prod.mk.injEq] at hfirst
      obtain ⟨rfl, rfl⟩ := hfirst
      exact firstLexeme_single hplain hstart text

/-- The lexemes of a faithful text stay the same before a line feed. -/
theorem lexemes_append {text rest : List Char} (h : Faithful text) (hrest : AtLineEnd rest) :
    lexemes (text ++ rest) = lexemes text ++ lexemes rest := by
  induction text using lexemes_induction with
  | nil => rfl
  | cons c text ih =>
      rw [faithful_cons] at h
      cases hfirst : firstLexeme c text with
      | mk l y =>
          rw [hfirst] at h ih
          have hlocal := firstLexeme_local hfirst h.1 (y ++ rest) (by
            intro a ha
            cases y with
            | nil => exact Or.inl (hrest a ha)
            | cons b y => exact Or.inr ha)
          rw [← List.append_assoc, (firstLexeme_tail hfirst).2] at hlocal
          rw [List.cons_append, lexemes_cons, hlocal, lexemes_cons, hfirst, List.cons_append,
            ih h.2]

/-- The first lexemes of a text are the lexemes of the text they hold. -/
theorem lexemes_text {text : List Char} {ls ms : List Lexeme} (h : lexemes text = ls ++ ms)
    (hfaithful : ∀ l ∈ ls, l.isFaithful = true) : lexemes (Slice.text ls) = ls := by
  induction ls generalizing text with
  | nil => rfl
  | cons l ls ih =>
      cases text with
      | nil => simp at h
      | cons c text =>
          cases hfirst : firstLexeme c text with
          | mk k y =>
              rw [lexemes_cons, hfirst, List.cons_append, List.cons.injEq] at h
              obtain ⟨rfl, hy⟩ := h
              have hls := ih hy (fun k hk => hfaithful k (List.mem_cons_of_mem _ hk))
              have htiles := text_lexemes y
              rw [hy, text_append] at htiles
              have hlocal := firstLexeme_local hfirst (hfaithful _ List.mem_cons_self)
                (Slice.text ls) (by
                  intro a ha
                  rw [← htiles, List.head?_append, ha]
                  exact Or.inr rfl)
              rw [text_cons, (firstLexeme_tail hfirst).1, List.cons_append, lexemes_cons, hlocal,
                hls]

theorem Faithful.append {text rest : List Char} (h : Faithful text) (hrest : Faithful rest)
    (hend : AtLineEnd rest) : Faithful (text ++ rest) := by
  intro l hl
  rw [lexemes_append h hend] at hl
  rcases List.mem_append.mp hl with hl | hl
  · exact h l hl
  · exact hrest l hl

/-! ## Blanks and comments as lexemes -/

/-- A lexeme that the grammar passes over: a comment, a blank or a byte order mark. -/
def Lexeme.isIgnored (l : Lexeme) : Bool :=
  l.kind == .comment || l.kind == .gap || l == ⟨.other, ['\uFEFF']⟩

/-- A blank of the grammar is a lexeme by itself. -/
theorem firstLexeme_of_isGap {c : Char} (hc : isGap c = true) (rest : List Char) :
    ∃ l, firstLexeme c rest = (l, rest) ∧ l.isIgnored = true := by
  simp only [isGap, isLineEnd, Bool.or_eq_true, beq_iff_eq] at hc
  rcases hc with (((rfl | rfl) | rfl) | rfl) | rfl | rfl
  all_goals exact ⟨_, rfl, rfl⟩

/-- What the grammar drops in front of a faithful text is a run of whole lexemes. -/
theorem lexemes_skip {text : List Char} (h : Faithful text) :
    ∃ ls, lexemes text = ls ++ lexemes (skip text) ∧ ∀ l ∈ ls, l.isIgnored = true := by
  induction text using lexemes_induction with
  | nil => exact ⟨[], rfl, by simp⟩
  | cons c rest ih =>
      have hrest := (faithful_cons c rest).mp h
      by_cases hgap : isGap c = true
      · obtain ⟨l, hfirst, hignored⟩ := firstLexeme_of_isGap hgap rest
        rw [hfirst] at hrest ih
        obtain ⟨ls, hls, hall⟩ := ih hrest.2
        refine ⟨l :: ls, ?_, by simpa [hignored] using hall⟩
        rw [lexemes_cons, hfirst, skip_of_isGap hgap, hls, List.cons_append]
      · by_cases hhash : c = '#'
        · subst hhash
          rw [firstLexeme_hash] at hrest ih
          obtain ⟨ls, hls, hall⟩ := ih hrest.2
          have hskip := skip_comment h.of_comment.1 (atLineEnd_dropWhile rest)
          rw [List.takeWhile_append_dropWhile] at hskip
          refine ⟨⟨.comment, '#' :: rest.takeWhile (· != '\n')⟩ :: ls, ?_, ?_⟩
          · rw [lexemes_cons, firstLexeme_hash, hskip, hls, List.cons_append]
          · simpa [Lexeme.isIgnored] using hall
        · exact ⟨[], by rw [skip_of_not_isGap (by simpa using hgap) hhash]; rfl, by simp⟩

end ApiAtlas.Document
