import ApiAtlas.Proofs.Document.Faithful
set_option autoImplicit false

/-!
# Document: brackets along a text

A walk passes over a text character by character and counts the open brackets, with comments and
strings passed over as a whole.  Its steps are those on which the grammar and the cutting agree, and
the brace that closes the last open bracket is none of them: a walk stays inside one definition.
Seen through the lexemes a walk is a run of lexemes that nests in the same way.
-/

namespace ApiAtlas.Document

/-! ## Walks -/

/-- One step over a text, from one number of open brackets to the next. -/
inductive Step : Nat → List Char → Nat → List Char → Prop
  /-- A character that is no bracket. -/
  | plain {d : Nat} {c : Char} {y : List Char} : isPlain c = true → Step d (c :: y) d y
  /-- A comment of both, up to the line feed. -/
  | comment {d : Nat} {rest : List Char} :
      skip ('#' :: rest.takeWhile (· != '\n')) = [] →
      Step d ('#' :: rest) d (rest.dropWhile (· != '\n'))
  /-- A string of both. -/
  | quoted {d : Nat} {q y : List Char} {v : String} :
      Rule.text ('"' :: q) = some (v, []) → (q = ['"'] → y.head? ≠ some '"') →
      Step d ('"' :: (q ++ y)) d y
  /-- An opening bracket. -/
  | opening {d : Nat} {c : Char} {y : List Char} : isOpening c = true → Step d (c :: y) (d + 1) y
  /-- A closing bracket, unless it ends the definition. -/
  | closing {d : Nat} {c : Char} {y : List Char} :
      isClosing c = true → (d = 0 → c ≠ '}') → Step (d + 1) (c :: y) d y

/-- Any number of steps. -/
inductive Walk : Nat → List Char → Nat → List Char → Prop
  | refl {d : Nat} {x : List Char} : Walk d x d x
  | step {d e f : Nat} {x y z : List Char} : Step d x e y → Walk e y f z → Walk d x f z

theorem Step.walk {d e : Nat} {x y : List Char} (h : Step d x e y) : Walk d x e y :=
  .step h .refl

theorem Walk.trans {d e f : Nat} {x y z : List Char} (hxy : Walk d x e y) (hyz : Walk e y f z) :
    Walk d x f z := by
  induction hxy with
  | refl => exact hyz
  | step hstep _ ih => exact .step hstep (ih hyz)

/-- What a walk leaves is the end of the text. -/
theorem Walk.suffix {d e : Nat} {x y : List Char} (h : Walk d x e y) : ∃ u, x = u ++ y := by
  induction h with
  | refl => exact ⟨[], rfl⟩
  | @step d e f x m y hstep _ ih =>
      obtain ⟨u, rfl⟩ := ih
      have hsuffix : ∃ u', x = u' ++ (u ++ y) := by
        generalize u ++ y = m at hstep
        cases hstep with
        | @plain _ c _ _ => exact ⟨[c], rfl⟩
        | @comment _ rest _ =>
            refine ⟨'#' :: rest.takeWhile (· != '\n'), ?_⟩
            rw [List.cons_append, List.takeWhile_append_dropWhile]
        | @quoted _ q _ _ _ _ => exact ⟨'"' :: q, rfl⟩
        | @opening _ c _ _ => exact ⟨[c], rfl⟩
        | @closing _ c _ _ _ => exact ⟨[c], rfl⟩
      obtain ⟨u', rfl⟩ := hsuffix
      exact ⟨u' ++ u, by simp⟩

/-- A comment is passed over up to its line feed. -/
theorem Step.comment_of_not_mem {d : Nat} {body rest : List Char} (hbody : '\n' ∉ body)
    (hskip : skip ('#' :: body) = []) :
    Step d ('#' :: (body ++ '\n' :: rest)) d ('\n' :: rest) := by
  have hall : ∀ a ∈ body, (a != '\n') = true := by
    intro a ha
    rw [bne_iff_ne]
    rintro rfl
    exact hbody ha
  have htake : (body ++ '\n' :: rest).takeWhile (· != '\n') = body := by
    rw [List.takeWhile_append_of_pos hall]
    simp
  have hdrop : (body ++ '\n' :: rest).dropWhile (· != '\n') = '\n' :: rest := by
    rw [List.dropWhile_append_of_pos hall]
    simp
  have hstep : Step d ('#' :: (body ++ '\n' :: rest)) d
      ((body ++ '\n' :: rest).dropWhile (· != '\n')) := .comment (by rwa [htake])
  rwa [hdrop] at hstep

/-- A step leaves a faithful text faithful. -/
theorem Step.faithful {d e : Nat} {x y : List Char} (hstep : Step d x e y) (h : Faithful x) :
    Faithful y := by
  cases hstep with
  | plain hc => exact h.of_plain hc
  | comment _ => exact h.of_comment.2
  | quoted htext hquotes =>
      obtain ⟨_, y', _, _, _, _, hfirst, hy⟩ := h.of_quoted
      rw [(Rule.text_append htext hquotes).2, Prod.mk.injEq] at hfirst
      rwa [hfirst.2]
  | opening hc => exact h.of_opening hc
  | closing hc _ => exact h.of_closing hc

theorem Walk.faithful {d e : Nat} {x y : List Char} (hwalk : Walk d x e y) (h : Faithful x) :
    Faithful y := by
  induction hwalk with
  | refl => exact h
  | step hstep _ ih => exact ih (hstep.faithful h)

/-- A walk never leaves an empty text. -/
theorem Walk.of_nil {d e : Nat} {y : List Char} (h : Walk d [] e y) : y = [] ∧ e = d := by
  cases h with
  | refl => exact ⟨rfl, rfl⟩
  | step hstep _ => cases hstep

/-- A faithful text can be walked over its leading blanks. -/
theorem walk_skip (d : Nat) {text : List Char} (h : Faithful text) :
    Walk d text d (skip text) := by
  induction text using lexemes_induction with
  | nil => exact .refl
  | cons c rest ih =>
      have hrest := (faithful_cons c rest).mp h
      by_cases hgap : isGap c = true
      · obtain ⟨l, hfirst, _⟩ := firstLexeme_of_isGap hgap rest
        rw [hfirst] at hrest ih
        rw [skip_of_isGap hgap]
        exact .step (.plain (isPlain_of_isGap hgap)) (ih hrest.2)
      · by_cases hhash : c = '#'
        · subst hhash
          rw [firstLexeme_hash] at hrest ih
          have hskip := skip_comment h.of_comment.1 (atLineEnd_dropWhile rest)
          rw [List.takeWhile_append_dropWhile] at hskip
          rw [hskip]
          exact .step (.comment h.of_comment.1) (ih hrest.2)
        · rw [skip_of_not_isGap (by simpa using hgap) hhash]
          exact .refl

/-! ## Runs of lexemes -/

/-- The lexemes lead from one number of open brackets to the next, and no brace among them closes
the last open bracket. -/
inductive Nests : Nat → List Lexeme → Nat → Prop
  | nil {d : Nat} : Nests d [] d
  | flat {d e : Nat} {l : Lexeme} {ls : List Lexeme} :
      l.kind ≠ .opening → l.kind ≠ .closing → Nests d ls e → Nests d (l :: ls) e
  | opening {d e : Nat} {l : Lexeme} {ls : List Lexeme} :
      l.kind = .opening → Nests (d + 1) ls e → Nests d (l :: ls) e
  | closing {d e : Nat} {l : Lexeme} {ls : List Lexeme} :
      l.kind = .closing → (d = 0 → l.text ≠ ['}']) → Nests d ls e → Nests (d + 1) (l :: ls) e

theorem Nests.append {d e f : Nat} {ls ms : List Lexeme} (hls : Nests d ls e)
    (hms : Nests e ms f) : Nests d (ls ++ ms) f := by
  induction hls with
  | nil => exact hms
  | flat hopening hclosing _ ih => exact .flat hopening hclosing (ih hms)
  | opening hkind _ ih => exact .opening hkind (ih hms)
  | closing hkind htext _ ih => exact .closing hkind htext (ih hms)

/-- A run of lexemes splits at every point. -/
theorem Nests.split {d f : Nat} {ls ms : List Lexeme} (h : Nests d (ls ++ ms) f) :
    ∃ e, Nests d ls e ∧ Nests e ms f := by
  induction ls generalizing d with
  | nil => exact ⟨d, .nil, h⟩
  | cons l ls ih =>
      cases h with
      | flat hopening hclosing h =>
          obtain ⟨e, hls, hms⟩ := ih h
          exact ⟨e, .flat hopening hclosing hls, hms⟩
      | opening hkind h =>
          obtain ⟨e, hls, hms⟩ := ih h
          exact ⟨e, .opening hkind hls, hms⟩
      | closing hkind htext h =>
          obtain ⟨e, hls, hms⟩ := ih h
          exact ⟨e, .closing hkind htext hls, hms⟩

/-- Lexemes that the grammar passes over open and close nothing. -/
theorem nests_of_isIgnored (d : Nat) {ls : List Lexeme} (h : ∀ l ∈ ls, l.isIgnored = true) :
    Nests d ls d := by
  induction ls with
  | nil => exact .nil
  | cons l ls ih =>
      have hl := h l List.mem_cons_self
      simp only [Lexeme.isIgnored, Bool.or_eq_true, beq_iff_eq] at hl
      refine .flat ?_ ?_ (ih fun k hk => h k (List.mem_cons_of_mem _ hk))
      · rcases hl with (hl | hl) | rfl <;> simp_all
      · rcases hl with (hl | hl) | rfl <;> simp_all

/-- A walk that ends before a character that goes on with no word passes the rest of a word
first. -/
theorem Walk.dropWhile {d e : Nat} {x y : List Char} (h : Walk d x e y)
    (hy : ∀ a ∈ y.head?, isWordPart a = false) : Walk d (x.dropWhile isWordPart) e y := by
  induction h with
  | @refl d x =>
      cases x with
      | nil => exact .refl
      | cons c x =>
          rw [List.dropWhile_cons_of_neg (by simp [hy c rfl])]
          exact .refl
  | @step d e f x y z hstep hwalk ih =>
      cases x with
      | nil => cases hstep
      | cons c x =>
          by_cases hpart : isWordPart c = true
          · rw [List.dropWhile_cons_of_pos hpart]
            have hplain := isPlain_of_isWordPart hpart
            cases hstep with
            | plain _ => exact ih hy
            | comment _ => exact absurd hplain (by decide)
            | quoted _ _ => exact absurd hplain (by decide)
            | opening hc => simp [isPlain, hc] at hplain
            | closing hc _ => simp [isPlain, hc] at hplain
          · rw [List.dropWhile_cons_of_neg hpart]
            exact .step hstep hwalk

/-- A walk passes a run of lexemes that nests as it does, if it does not end inside a word. -/
theorem Walk.nests {d e : Nat} {x y : List Char} (h : Walk d x e y)
    (hy : ∀ a ∈ y.head?, isWordPart a = false) :
    ∃ ls, lexemes x = ls ++ lexemes y ∧ Nests d ls e := by
  induction x using lexemes_induction generalizing d with
  | nil =>
      obtain ⟨rfl, rfl⟩ := h.of_nil
      exact ⟨[], rfl, .nil⟩
  | cons c rest ih =>
      cases h with
      | refl => exact ⟨[], rfl, .nil⟩
      | step hstep hwalk =>
          rw [lexemes_cons]
          cases hstep with
          | plain hc =>
              by_cases hstart : isWordStart c = true
              · -- The walk went into the word; the lexeme takes all of it.
                rw [firstLexeme_word hstart] at ih ⊢
                obtain ⟨ls, hls, hnests⟩ := ih (hwalk.dropWhile hy)
                rw [hls, ← List.cons_append]
                exact ⟨_, rfl, .flat (by simp) (by simp) hnests⟩
              · rw [firstLexeme_single hc hstart] at ih ⊢
                obtain ⟨ls, hls, hnests⟩ := ih hwalk
                rw [hls, ← List.cons_append]
                refine ⟨_, rfl, .flat ?_ ?_ hnests⟩
                · simp only; split <;> simp
                · simp only; split <;> simp
          | comment hbody =>
              rw [firstLexeme_hash] at ih ⊢
              obtain ⟨ls, hls, hnests⟩ := ih hwalk
              rw [hls, ← List.cons_append]
              exact ⟨_, rfl, .flat (by simp) (by simp) hnests⟩
          | quoted htext hquotes =>
              rw [(Rule.text_append htext hquotes).2] at ih ⊢
              obtain ⟨ls, hls, hnests⟩ := ih hwalk
              rw [hls, ← List.cons_append]
              exact ⟨_, rfl, .flat (by simp) (by simp) hnests⟩
          | opening hc =>
              rw [firstLexeme_opening hc] at ih ⊢
              obtain ⟨ls, hls, hnests⟩ := ih hwalk
              rw [hls, ← List.cons_append]
              exact ⟨_, rfl, .opening rfl hnests⟩
          | closing hc hbrace =>
              rw [firstLexeme_closing hc] at ih ⊢
              obtain ⟨ls, hls, hnests⟩ := ih hwalk
              rw [hls, ← List.cons_append]
              exact ⟨_, rfl, .closing rfl (by simpa using hbrace) hnests⟩

end ApiAtlas.Document
