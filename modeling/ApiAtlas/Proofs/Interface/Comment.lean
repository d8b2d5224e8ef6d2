import Mathlib.Data.List.Infix
import ApiAtlas.Interface.Comment
set_option autoImplicit false

/-!
# Interface: what stripping leaves

The pieces of a text tile it, so stripping goes through the text piece by piece.  Plain characters
stay, a line comment vanishes up to its line feed, a block comment vanishes up to its closing mark,
whatever stands inside.
-/

namespace ApiAtlas.Interface

/-! ## Pieces tile the text -/

theorem literalEnd?_append {text inside after : List Char}
    (h : literalEnd? text = some (inside, after)) : text = inside ++ after := by
  fun_induction literalEnd? text generalizing inside with
  | case1 => simp at h
  | case2 rest =>
      simp only [Option.some.injEq, Prod.mk.injEq] at h
      obtain ⟨rfl, rfl⟩ := h
      rfl
  | case3 => simp at h
  | case4 c rest ih =>
      obtain ⟨r, hr, heq⟩ := Option.map_eq_some_iff.mp h
      simp only [Prod.mk.injEq] at heq
      obtain ⟨rfl, rfl⟩ := heq
      rw [ih hr]
      rfl
  | case5 => simp at h
  | case6 c rest _ _ _ _ ih =>
      obtain ⟨r, hr, heq⟩ := Option.map_eq_some_iff.mp h
      simp only [Prod.mk.injEq] at heq
      obtain ⟨rfl, rfl⟩ := heq
      rw [ih hr]
      rfl

theorem blockEnd?_append {text inside after : List Char}
    (h : blockEnd? text = some (inside, after)) : text = inside ++ after := by
  fun_induction blockEnd? text generalizing inside with
  | case1 => simp at h
  | case2 rest =>
      simp only [Option.some.injEq, Prod.mk.injEq] at h
      obtain ⟨rfl, rfl⟩ := h
      rfl
  | case3 c rest _ ih =>
      obtain ⟨r, hr, heq⟩ := Option.map_eq_some_iff.mp h
      simp only [Prod.mk.injEq] at heq
      obtain ⟨rfl, rfl⟩ := heq
      rw [ih hr]
      rfl

theorem firstPiece_append (c : Char) (rest : List Char) :
    (firstPiece c rest).1.text ++ (firstPiece c rest).2 = c :: rest := by
  unfold firstPiece
  split
  · split
    · next inside after hend =>
      rw [literalEnd?_append hend]
      rfl
    · rfl
  · split
    · next hslash =>
      obtain rfl := beq_iff_eq.mp hslash
      split
      · next more =>
        show '/' :: '/' :: (more.takeWhile (· != '\n') ++ more.dropWhile (· != '\n')) = _
        rw [List.takeWhile_append_dropWhile]
      · split
        · next inside after hend =>
          rw [blockEnd?_append hend]
          rfl
        · rfl
      · rfl
    · rfl

theorem length_firstPiece (c : Char) (rest : List Char) :
    (firstPiece c rest).2.length ≤ rest.length := by
  have htext : (firstPiece c rest).1.text ≠ [] := by
    unfold firstPiece
    split
    · split <;> simp [Piece.text]
    · split
      · split
        · simp [Piece.text]
        · split <;> simp [Piece.text]
        · simp [Piece.text]
      · simp [Piece.text]
  have htiles := congrArg List.length (firstPiece_append c rest)
  have hpos := List.length_pos_iff.mpr htext
  simp only [List.length_append, List.length_cons] at htiles
  omega

theorem piecesWithin_eq {fuel : Nat} {text : List Char} (h : text.length ≤ fuel) :
    piecesWithin fuel text = pieces text := by
  -- both bounds are large enough, so compare any two of them
  have hany : ∀ (a b : Nat) (text : List Char), text.length ≤ a → text.length ≤ b →
      piecesWithin a text = piecesWithin b text := by
    intro a
    induction a with
    | zero =>
        intro b text ha _
        obtain rfl := List.length_eq_zero_iff.mp (Nat.le_zero.mp ha)
        cases b <;> rfl
    | succ a ih =>
        intro b text ha hb
        cases text with
        | nil => cases b <;> rfl
        | cons c rest =>
            cases b with
            | zero => simp at hb
            | succ b =>
                have hlength := length_firstPiece c rest
                simp only [List.length_cons] at ha hb
                simp only [piecesWithin]
                rw [ih b _ (by omega) (by omega)]
  exact hany fuel text.length text h (Nat.le_refl _)

theorem pieces_cons (c : Char) (rest : List Char) :
    pieces (c :: rest) = (firstPiece c rest).1 :: pieces (firstPiece c rest).2 := by
  rw [← piecesWithin_eq (length_firstPiece c rest)]
  rfl

/-! ## Stripping -/

theorem stripComments_nil : stripComments [] = [] := rfl

theorem stripComments_cons (c : Char) (rest : List Char) :
    stripComments (c :: rest) =
      (firstPiece c rest).1.kept ++ stripComments (firstPiece c rest).2 := by
  unfold stripComments
  rw [pieces_cons, List.flatMap_cons]

/-- A character that begins neither a string nor a comment. -/
def isPlain (c : Char) : Bool := c != '"' && c != '/'

theorem stripComments_plain {c : Char} (hc : isPlain c = true) (rest : List Char) :
    stripComments (c :: rest) = c :: stripComments rest := by
  unfold isPlain at hc
  simp only [Bool.and_eq_true, bne_iff_ne] at hc
  have hpiece : firstPiece c rest = (.plain c, rest) := by
    unfold firstPiece
    rw [if_neg (by simp [hc.1]), if_neg (by simp [hc.2])]
  rw [stripComments_cons, hpiece]
  rfl

theorem stripComments_append {front : List Char} (h : ∀ c ∈ front, isPlain c = true)
    (rest : List Char) : stripComments (front ++ rest) = front ++ stripComments rest := by
  induction front with
  | nil => rfl
  | cons c front ih =>
      rw [List.cons_append, stripComments_plain (h c List.mem_cons_self),
        ih fun d hd => h d (List.mem_cons_of_mem c hd)]
      rfl

/-- A line comment vanishes, its line feed stays. -/
theorem stripComments_line {content : List Char} (h : '\n' ∉ content) (rest : List Char) :
    stripComments ('/' :: '/' :: (content ++ '\n' :: rest)) = '\n' :: stripComments rest := by
  have hcontent : ∀ c ∈ content, (c != '\n') = true := by
    intro c hc
    rw [bne_iff_ne]
    rintro rfl
    exact h hc
  have hdrop : (content ++ '\n' :: rest).dropWhile (· != '\n') = '\n' :: rest := by
    rw [List.dropWhile_append_of_pos hcontent, List.dropWhile_cons_of_neg (by simp)]
  have hpiece : ∀ more, firstPiece '/' ('/' :: more) =
      (.comment ('/' :: '/' :: more.takeWhile (· != '\n')), more.dropWhile (· != '\n')) := by
    intro more
    rfl
  rw [stripComments_cons, hpiece, hdrop, stripComments_plain (c := '\n') (by decide)]
  rfl

theorem blockEnd?_of_not_infix {content : List Char} (h : ¬ ['*', '/'] <:+: content)
    (rest : List Char) :
    blockEnd? (content ++ '*' :: '/' :: rest) = some (content ++ ['*', '/'], rest) := by
  induction content with
  | nil => rfl
  | cons c content ih =>
      have hrest : blockEnd? (content ++ '*' :: '/' :: rest) = some (content ++ ['*', '/'], rest) :=
        ih fun hinside => h (hinside.trans (List.suffix_cons c content).isInfix)
      have hopen : ∀ more, c :: (content ++ '*' :: '/' :: rest) ≠ '*' :: '/' :: more := by
        intro more heq
        obtain ⟨rfl, htail⟩ := List.cons.inj heq
        cases content with
        | nil => exact absurd (List.cons.inj htail).1 (by decide)
        | cons d content =>
            obtain ⟨rfl, _⟩ := List.cons.inj htail
            exact h ⟨[], content, rfl⟩
      rw [List.cons_append, blockEnd?]
      · rw [hrest]
        rfl
      · intro more hc hmore
        exact hopen more (by rw [hc, hmore])

/-- A block comment vanishes. -/
theorem stripComments_block {content : List Char} (h : ¬ ['*', '/'] <:+: content)
    (rest : List Char) :
    stripComments ('/' :: '*' :: (content ++ '*' :: '/' :: rest)) = stripComments rest := by
  have hpiece : firstPiece '/' ('*' :: (content ++ '*' :: '/' :: rest)) =
      (.comment ('/' :: '*' :: (content ++ ['*', '/'])), rest) := by
    have hend := blockEnd?_of_not_infix h rest
    unfold firstPiece
    simp [hend]
  rw [stripComments_cons, hpiece]
  rfl

end ApiAtlas.Interface
