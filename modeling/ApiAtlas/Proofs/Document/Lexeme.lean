import ApiAtlas.Document.Slice
set_option autoImplicit false

/-!
# Document: the lexemes of a text

The lexemes of a text tile it, and the list of them unfolds lexeme by lexeme: the bound on their
number never shows.  Which lexeme comes first depends on the class of the first character.
-/

namespace ApiAtlas.Document

/-! ## Classes of characters -/

/-- An opening bracket. -/
def isOpening (c : Char) : Bool := c == '{' || c == '(' || c == '['

/-- A closing bracket. -/
def isClosing (c : Char) : Bool := c == '}' || c == ')' || c == ']'

/-- A character that starts neither a comment nor a string and is no bracket. -/
def isPlain (c : Char) : Bool := c != '#' && c != '"' && !isOpening c && !isClosing c

/-- The classes of characters that the first lexeme depends on. -/
theorem class_cases (c : Char) :
    c = '#' ∨ c = '"' ∨ isOpening c = true ∨ isClosing c = true ∨ isPlain c = true := by
  simp only [isPlain, Bool.and_eq_true, bne_iff_ne, ne_eq, Bool.not_eq_true']
  cases isOpening c <;> cases isClosing c <;> simp
  by_cases hhash : c = '#'
  · exact Or.inl hhash
  · by_cases hquote : c = '"'
    · exact Or.inr (Or.inl hquote)
    · exact Or.inr (Or.inr ⟨hhash, hquote⟩)

/-- No character is both an opening and a closing bracket. -/
theorem not_isClosing_of_isOpening {c : Char} (hc : isOpening c = true) :
    isClosing c = false := by
  simp only [isOpening, Bool.or_eq_true, beq_iff_eq] at hc
  rcases hc with (rfl | rfl) | rfl <;> decide

theorem isPlain_of_isWordPart {c : Char} (hc : isWordPart c = true) : isPlain c = true := by
  rw [← Bool.not_eq_false]
  intro hplain
  -- None of the eight excluded characters is a letter, a digit or an underscore.
  simp only [isPlain, isOpening, isClosing, Bool.and_eq_false_iff, bne_eq_false_iff_eq,
    Bool.not_eq_false', Bool.or_eq_true, beq_iff_eq] at hplain
  rcases hplain with ((rfl | rfl) | ((rfl | rfl) | rfl)) | ((rfl | rfl) | rfl) <;>
    exact absurd hc (by decide)

theorem isWordPart_of_isWordStart {c : Char} (hc : isWordStart c = true) :
    isWordPart c = true := by
  simp only [isWordStart, isWordPart, Char.isAlphanum, Bool.or_eq_true] at hc ⊢
  rcases hc with hc | hc
  · exact Or.inl (Or.inl hc)
  · exact Or.inr hc

theorem isPlain_of_isWordStart {c : Char} (hc : isWordStart c = true) : isPlain c = true :=
  isPlain_of_isWordPart (isWordPart_of_isWordStart hc)

/-! ## Strings -/

theorem plainString_append (text : List Char) :
    (plainString text).1 ++ (plainString text).2 = text := by
  fun_induction plainString text <;> simp_all

theorem blockString_append (text : List Char) :
    (blockString text).1 ++ (blockString text).2 = text := by
  fun_induction blockString text <;> simp_all

/-! ## The first lexeme -/

/-- The first lexeme and what is left of the text make up the text. -/
theorem firstLexeme_append (c : Char) (rest : List Char) :
    (firstLexeme c rest).1.text ++ (firstLexeme c rest).2 = c :: rest := by
  unfold firstLexeme
  split
  · simp [List.takeWhile_append_dropWhile]
  · split
    · rename_i hquote
      split
      · rename_i more
        have hmore := blockString_append more
        simp only [List.cons_append, hmore]
        rw [beq_iff_eq.mp hquote]
      · have hrest := plainString_append rest
        simp only [List.cons_append, hrest]
        rw [beq_iff_eq.mp hquote]
    · repeat' split
      all_goals simp [List.takeWhile_append_dropWhile]

/-- The first lexeme starts with the first character. -/
theorem head?_firstLexeme (c : Char) (rest : List Char) :
    (firstLexeme c rest).1.text.head? = some c := by
  unfold firstLexeme
  split
  · rfl
  · split
    · rename_i hquote
      rw [beq_iff_eq.mp hquote]
      split <;> rfl
    · repeat' split
      all_goals rfl

/-- The first lexeme without its first character is cut off the rest of the text. -/
theorem firstLexeme_tail {c : Char} {rest y : List Char} {l : Lexeme}
    (h : firstLexeme c rest = (l, y)) : l.text = c :: l.text.tail ∧ l.text.tail ++ y = rest := by
  have happend := firstLexeme_append c rest
  have hhead := head?_firstLexeme c rest
  rw [h] at happend hhead
  cases htext : l.text with
  | nil => simp [htext] at hhead
  | cons d more => simp_all

theorem length_firstLexeme (c : Char) (rest : List Char) :
    (firstLexeme c rest).2.length ≤ rest.length := by
  have happend := congrArg List.length (firstLexeme_append c rest)
  have hhead := head?_firstLexeme c rest
  cases htext : (firstLexeme c rest).1.text with
  | nil => simp [htext] at hhead
  | cons d more =>
      rw [htext] at happend
      simp only [List.length_append, List.length_cons] at happend
      omega

theorem firstLexeme_hash (rest : List Char) :
    firstLexeme '#' rest =
      (⟨.comment, '#' :: rest.takeWhile (· != '\n')⟩, rest.dropWhile (· != '\n')) := rfl

theorem firstLexeme_opening {c : Char} (hc : isOpening c = true) (rest : List Char) :
    firstLexeme c rest = (⟨.opening, [c]⟩, rest) := by
  simp only [isOpening, Bool.or_eq_true, beq_iff_eq] at hc
  rcases hc with (rfl | rfl) | rfl <;> rfl

theorem firstLexeme_closing {c : Char} (hc : isClosing c = true) (rest : List Char) :
    firstLexeme c rest = (⟨.closing, [c]⟩, rest) := by
  simp only [isClosing, Bool.or_eq_true, beq_iff_eq] at hc
  rcases hc with (rfl | rfl) | rfl <;> rfl

/-- A plain character starts a word, or is a lexeme by itself. -/
theorem firstLexeme_plain {c : Char} (hc : isPlain c = true) (rest : List Char) :
    firstLexeme c rest =
      if isWordStart c then (⟨.word, c :: rest.takeWhile isWordPart⟩, rest.dropWhile isWordPart)
      else if Text.isAsciiBlank c || c == ',' then (⟨.gap, [c]⟩, rest)
      else (⟨.other, [c]⟩, rest) := by
  simp only [isPlain, isOpening, isClosing, Bool.and_eq_true, bne_iff_ne, ne_eq,
    Bool.not_eq_true', Bool.or_eq_false_iff, beq_eq_false_iff_ne] at hc
  obtain ⟨⟨⟨hhash, hquote⟩, ⟨hbrace, hparen⟩, hbracket⟩, ⟨hbrace', hparen'⟩, hbracket'⟩ := hc
  simp [firstLexeme, hhash, hquote, hbrace, hparen, hbracket, hbrace', hparen', hbracket']

theorem firstLexeme_word {c : Char} (hc : isWordStart c = true) (rest : List Char) :
    firstLexeme c rest =
      (⟨.word, c :: rest.takeWhile isWordPart⟩, rest.dropWhile isWordPart) := by
  rw [firstLexeme_plain (isPlain_of_isWordStart hc), if_pos hc]

/-- A plain character that starts no word is a lexeme by itself. -/
theorem firstLexeme_single {c : Char} (hc : isPlain c = true) (hstart : isWordStart c ≠ true)
    (rest : List Char) :
    firstLexeme c rest =
      (⟨if Text.isAsciiBlank c || c == ',' then .gap else .other, [c]⟩, rest) := by
  rw [firstLexeme_plain hc, if_neg hstart]
  split <;> rfl

/-! ## The list of lexemes -/

/-- Once the bound reaches the length of the text, it makes no difference. -/
theorem lexemesWithin_eq (text : List Char) : ∀ fuel, text.length ≤ fuel →
    lexemesWithin fuel text = lexemes text := by
  induction hlen : text.length using Nat.strongRecOn generalizing text with
  | ind n ih =>
      intro fuel hfuel
      cases text with
      | nil => cases fuel <;> rfl
      | cons c rest =>
          simp only [List.length_cons] at hlen
          have hshort := length_firstLexeme c rest
          cases fuel with
          | zero => omega
          | succ fuel =>
              have hleft := ih _ (by omega) (firstLexeme c rest).2 rfl fuel (by omega)
              have hright := ih _ (by omega) (firstLexeme c rest).2 rfl rest.length hshort
              simp only [lexemes, List.length_cons, lexemesWithin] at hleft hright ⊢
              rw [hleft, hright]

@[simp] theorem lexemes_nil : lexemes [] = [] := rfl

theorem lexemes_cons (c : Char) (rest : List Char) :
    lexemes (c :: rest) = (firstLexeme c rest).1 :: lexemes (firstLexeme c rest).2 := by
  have hshort := length_firstLexeme c rest
  rw [← lexemesWithin_eq (firstLexeme c rest).2 rest.length hshort]
  rfl

@[simp] theorem text_nil : Slice.text [] = [] := rfl

@[simp] theorem text_cons (l : Lexeme) (ls : List Lexeme) :
    Slice.text (l :: ls) = l.text ++ Slice.text ls := rfl

@[simp] theorem text_append (ls ms : List Lexeme) :
    Slice.text (ls ++ ms) = Slice.text ls ++ Slice.text ms := by
  simp [Slice.text]

/-- Induction over the lexemes of a text. -/
theorem lexemes_induction {motive : List Char → Prop} (nil : motive [])
    (cons : ∀ c rest, motive (firstLexeme c rest).2 → motive (c :: rest)) (text : List Char) :
    motive text := by
  induction hlen : text.length using Nat.strongRecOn generalizing text with
  | ind n ih =>
      cases text with
      | nil => exact nil
      | cons c rest =>
          have hshort := length_firstLexeme c rest
          simp only [List.length_cons] at hlen
          exact cons c rest (ih _ (by omega) _ rfl)

/-- The lexemes of a text tile it. -/
theorem text_lexemes (text : List Char) : Slice.text (lexemes text) = text := by
  induction text using lexemes_induction with
  | nil => rfl
  | cons c rest ih =>
      rw [lexemes_cons, text_cons, ih]
      exact firstLexeme_append c rest

end ApiAtlas.Document
