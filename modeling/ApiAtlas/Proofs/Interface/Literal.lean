import ApiAtlas.Proofs.Interface.Comment
import ApiAtlas.Proofs.Text.Run
set_option autoImplicit false

/-!
# Interface: exchanging the text of a string literal

The pieces before a literal do not depend on what stands between its quotes, with one exception.  A
mark that opens a block comment is a plain character as long as nothing closes the comment, and a
literal further on may hold the closing mark.  Apart from that, another text between the quotes
gives the same pieces with another literal.
-/

namespace ApiAtlas.Interface

/-- The text between quotes. -/
def quoted (text : List Char) : List Char := '"' :: (text ++ ['"'])

/-- The text of pieces. -/
def joined (ps : List Piece) : List Char := ps.flatMap Piece.text

/-- The pieces with a literal of the given text between them. -/
def withLiteral (front : List Piece) (text : List Char) (back : List Piece) : List Piece :=
  front ++ .literal (quoted text) :: back

/-- No quote, backslash or line feed is in the text. -/
def Unmarked (text : List Char) : Prop := ∀ c ∈ text, c ≠ '"' ∧ c ≠ '\\' ∧ c ≠ '\n'

instance (text : List Char) : Decidable (Unmarked text) := List.decidableBAll _ text

/-- The mark of a block comment that nothing closes is among the pieces. -/
def LeavesCommentOpen (ps : List Piece) : Prop := [.plain '/', .plain '*'] <:+: ps

theorem joined_withLiteral (front back : List Piece) (text : List Char) :
    joined (withLiteral front text back) =
      joined front ++ '"' :: (text ++ '"' :: joined back) := by
  simp [joined, withLiteral, quoted, Piece.text]

theorem joined_pieces (text : List Char) : joined (pieces text) = text := by
  induction hlength : text.length using Nat.strongRecOn generalizing text with
  | _ length ih =>
      cases text with
      | nil => rfl
      | cons c rest =>
          have hrest : (firstPiece c rest).2.length < length := by
            rw [← hlength, List.length_cons]
            exact Nat.lt_succ_of_le (length_firstPiece c rest)
          have hjoined := ih _ hrest (firstPiece c rest).2 rfl
          unfold joined at hjoined ⊢
          rw [pieces_cons, List.flatMap_cons, hjoined, firstPiece_append]

/-! ## Where a literal ends -/

theorem literalEnd?_cons {c : Char} (hquote : c ≠ '"') (hescape : c ≠ '\\') (hfeed : c ≠ '\n')
    (rest : List Char) :
    literalEnd? (c :: rest) = (literalEnd? rest).map fun r => (c :: r.1, r.2) := by
  rw [literalEnd?]
  · exact hquote
  · exact hfeed
  · exact fun _ _ hc => absurd hc hescape
  · exact fun hc => absurd hc hescape

/-- A literal ends where it does, whatever follows. -/
theorem literalEnd?_local {text inside after : List Char}
    (h : literalEnd? text = some (inside, after)) (rest : List Char) :
    literalEnd? (inside ++ rest) = some (inside, rest) := by
  fun_induction literalEnd? text generalizing inside with
  | case1 => cases h
  | case2 =>
      obtain ⟨rfl, rfl⟩ := Prod.mk.inj (Option.some.inj h)
      rfl
  | case3 => cases h
  | case4 c more ih =>
      obtain ⟨r, hr, heq⟩ := Option.map_eq_some_iff.mp h
      obtain ⟨rfl, rfl⟩ := Prod.mk.inj heq
      simp [literalEnd?, ih hr]
  | case5 => cases h
  | case6 c more hquote hfeed hescape hlast ih =>
      obtain ⟨r, hr, heq⟩ := Option.map_eq_some_iff.mp h
      obtain ⟨rfl, rfl⟩ := Prod.mk.inj heq
      have hc : c ≠ '\\' := by
        rintro rfl
        cases more with
        | nil => exact hlast rfl rfl
        | cons d more => exact hescape d more rfl rfl
      rw [List.cons_append, literalEnd?_cons hquote hc hfeed, ih hr]
      rfl

theorem literalEnd?_unmarked {text : List Char} (h : Unmarked text) (rest : List Char) :
    literalEnd? (text ++ '"' :: rest) = some (text ++ ['"'], rest) := by
  induction text with
  | nil => rfl
  | cons c text ih =>
      obtain ⟨hquote, hescape, hfeed⟩ := h c List.mem_cons_self
      have hrest := ih fun d hd => h d (List.mem_cons_of_mem c hd)
      rw [List.cons_append, literalEnd?_cons hquote hescape hfeed, hrest]
      rfl

/-- A quote that closes nothing before a literal closes nothing whatever the literal is: either a
line feed comes first, or the scan would end with the literal. -/
theorem literalEnd?_eq_none {lead old new rest : List Char}
    (hold : (literalEnd? (old ++ '"' :: rest)).isSome = true)
    (h : literalEnd? (lead ++ '"' :: (old ++ '"' :: rest)) = none) :
    literalEnd? (lead ++ '"' :: (new ++ '"' :: rest)) = none := by
  fun_induction literalEnd? lead with
  | case1 => cases h
  | case2 => cases h
  | case3 => rfl
  | case4 c more ih =>
      simp only [List.cons_append, literalEnd?, Option.map_eq_none_iff] at h ⊢
      exact ih h
  | case5 =>
      -- the backslash escapes the opening quote
      simp only [List.cons_append, List.nil_append, literalEnd?, Option.map_eq_none_iff] at h
      rw [h] at hold
      cases hold
  | case6 c more hquote hfeed hescape hlast ih =>
      have hc : c ≠ '\\' := by
        rintro rfl
        cases more with
        | nil => exact hlast rfl rfl
        | cons d more => exact hescape d more rfl rfl
      rw [List.cons_append, literalEnd?_cons hquote hc hfeed, Option.map_eq_none_iff] at h ⊢
      exact ih h

/-! ## Where a block comment ends -/

theorem blockEnd?_cons {c : Char} {rest : List Char} (h : ∀ more, c :: rest ≠ '*' :: '/' :: more) :
    blockEnd? (c :: rest) = (blockEnd? rest).map fun r => (c :: r.1, r.2) := by
  rw [blockEnd?]
  intro more hc hrest
  exact h more (by rw [hc, hrest])

theorem blockEnd?_ne_nil {text inside after : List Char}
    (h : blockEnd? text = some (inside, after)) : inside ≠ [] := by
  fun_cases blockEnd? text with
  | case1 => cases h
  | case2 =>
      obtain ⟨rfl, rfl⟩ := Prod.mk.inj (Option.some.inj h)
      exact List.cons_ne_nil _ _
  | case3 c more hopen =>
      have hmark : ∀ rest, c :: more ≠ '*' :: '/' :: rest := by
        intro rest hmark
        obtain ⟨hc, hmore⟩ := List.cons.inj hmark
        exact hopen rest hc hmore
      rw [blockEnd?_cons hmark] at h
      obtain ⟨r, _, heq⟩ := Option.map_eq_some_iff.mp h
      obtain ⟨rfl, rfl⟩ := Prod.mk.inj heq
      exact List.cons_ne_nil _ _

/-- A block comment ends where it does, whatever follows. -/
theorem blockEnd?_local {text inside after : List Char}
    (h : blockEnd? text = some (inside, after)) (rest : List Char) :
    blockEnd? (inside ++ rest) = some (inside, rest) := by
  fun_induction blockEnd? text generalizing inside with
  | case1 => cases h
  | case2 =>
      obtain ⟨rfl, rfl⟩ := Prod.mk.inj (Option.some.inj h)
      rfl
  | case3 c more hopen ih =>
      obtain ⟨⟨inner, after⟩, hinner, heq⟩ := Option.map_eq_some_iff.mp h
      obtain ⟨rfl, rfl⟩ := Prod.mk.inj heq
      have hmark : ∀ rest', c :: (inner ++ rest) ≠ '*' :: '/' :: rest' := by
        intro rest' hmark
        obtain ⟨hc, htail⟩ := List.cons.inj hmark
        cases inner with
        | nil => exact blockEnd?_ne_nil hinner rfl
        | cons d inner =>
            obtain ⟨rfl, _⟩ := List.cons.inj htail
            exact hopen (inner ++ after) hc (blockEnd?_append hinner)
      rw [List.cons_append, blockEnd?_cons hmark, ih hinner]
      rfl

/-- No closing mark has a quote in it: a comment is closed before a quote, behind it or not at
all. -/
theorem blockEnd?_quote (text rest : List Char) :
    blockEnd? (text ++ '"' :: rest) = none ↔ blockEnd? text = none ∧ blockEnd? rest = none := by
  fun_induction blockEnd? text with
  | case1 =>
      rw [List.nil_append, blockEnd?_cons (by simp), Option.map_eq_none_iff]
      simp
  | case2 more => simp [blockEnd?]
  | case3 c more hopen ih =>
      have hmark : ∀ rest', c :: (more ++ '"' :: rest) ≠ '*' :: '/' :: rest' := by
        intro rest' hmark
        obtain ⟨hc, htail⟩ := List.cons.inj hmark
        cases more with
        | nil => exact absurd (List.cons.inj htail).1 (by decide)
        | cons d more =>
            obtain ⟨rfl, _⟩ := List.cons.inj htail
            exact hopen more hc rfl
      rw [List.cons_append, blockEnd?_cons hmark, Option.map_eq_none_iff, ih,
        Option.map_eq_none_iff]

theorem blockEnd?_eq_none {text : List Char} (h : ¬ ['*', '/'] <:+: text) :
    blockEnd? text = none := by
  fun_induction blockEnd? text with
  | case1 => rfl
  | case2 more => exact absurd ⟨[], more, rfl⟩ h
  | case3 c more _ ih =>
      rw [Option.map_eq_none_iff]
      exact ih fun hinside => h (hinside.trans (List.suffix_cons c more).isInfix)

/-! ## The first piece -/

theorem firstPiece_literal {rest inside after : List Char}
    (h : literalEnd? rest = some (inside, after)) :
    firstPiece '"' rest = (.literal ('"' :: inside), after) := by
  simp [firstPiece, h]

theorem firstPiece_line {body after : List Char} (hbody : '\n' ∉ body)
    (hafter : Text.Stops (· != '\n') after) :
    firstPiece '/' ('/' :: (body ++ after)) = (.comment ('/' :: '/' :: body), after) := by
  have hrun : ∀ c ∈ body, (c != '\n') = true := by
    intro c hc
    rw [bne_iff_ne]
    rintro rfl
    exact hbody hc
  simp [firstPiece, Text.takeWhile_run hrun hafter, Text.dropWhile_run hrun hafter]

theorem firstPiece_block {more inside after : List Char}
    (h : blockEnd? more = some (inside, after)) :
    firstPiece '/' ('*' :: more) = (.comment ('/' :: '*' :: inside), after) := by
  simp [firstPiece, h]

/-- What follows makes the character a plain one: it opens no literal and no comment. -/
structure OpensNothing (c : Char) (rest : List Char) : Prop where
  literal : c = '"' → literalEnd? rest = none
  line : c = '/' → rest.head? ≠ some '/'
  block : c = '/' → ∀ more, rest = '*' :: more → blockEnd? more = none

theorem firstPiece_plain {c : Char} {rest : List Char} (h : OpensNothing c rest) :
    firstPiece c rest = (.plain c, rest) := by
  unfold firstPiece
  split
  · next hc => rw [h.literal (beq_iff_eq.mp hc)]
  · split
    · next hc =>
      have hslash := beq_iff_eq.mp hc
      split
      · next more => exact absurd rfl (h.line hslash)
      · next more => rw [h.block hslash more rfl]
      · rfl
    · rfl

/-- The four ways in which a text can start. -/
theorem firstPiece_cases (c : Char) (rest : List Char) :
    (∃ inside after, c = '"' ∧ literalEnd? rest = some (inside, after)) ∨
    (∃ body after, c = '/' ∧ rest = '/' :: (body ++ after) ∧ '\n' ∉ body ∧
      Text.Stops (· != '\n') after) ∨
    (∃ more inside after, c = '/' ∧ rest = '*' :: more ∧
      blockEnd? more = some (inside, after)) ∨
    OpensNothing c rest := by
  by_cases hquote : c = '"'
  · cases hend : literalEnd? rest with
    | some r => exact .inl ⟨r.1, r.2, hquote, rfl⟩
    | none =>
        have hslash : c ≠ '/' := by
          rw [hquote]
          decide
        exact .inr (.inr (.inr ⟨fun _ => hend, fun hc => absurd hc hslash,
          fun hc => absurd hc hslash⟩))
  by_cases hslash : c = '/'
  · by_cases hline : ∃ more, rest = '/' :: more
    · obtain ⟨more, rfl⟩ := hline
      refine .inr (.inl ⟨more.takeWhile (· != '\n'), more.dropWhile (· != '\n'), hslash, ?_, ?_,
        ?_⟩)
      · rw [List.takeWhile_append_dropWhile]
      · intro hmem
        exact absurd (List.mem_takeWhile_imp hmem) (by decide)
      · intro d hd
        have hhead := List.head?_dropWhile_not (· != '\n') more
        rw [hd] at hhead
        exact hhead
    by_cases hblock : ∃ more r, rest = '*' :: more ∧ blockEnd? more = some r
    · obtain ⟨more, r, hrest, hend⟩ := hblock
      exact .inr (.inr (.inl ⟨more, r.1, r.2, hslash, hrest, hend⟩))
    · refine .inr (.inr (.inr ⟨fun hc => absurd hc hquote, fun _ hhead => ?_, ?_⟩))
      · obtain ⟨more, hmore⟩ := List.head?_eq_some_iff.mp hhead
        exact hline ⟨more, hmore⟩
      · intro _ more hmore
        rw [Option.eq_none_iff_forall_ne_some]
        exact fun r hr => hblock ⟨more, r, hmore, hr⟩
  · exact .inr (.inr (.inr ⟨fun hc => absurd hc hquote, fun hc => absurd hc hslash,
      fun hc => absurd hc hslash⟩))

/-! ## Exchanging a literal -/

section Exchange

variable {front back : List Piece} {old new : List Char}

/-- The first character of the text is the same before any literal. -/
theorem head?_joined (front back : List Piece) (old new : List Char) :
    (joined (withLiteral front new back)).head? = (joined (withLiteral front old back)).head? := by
  rw [joined_withLiteral, joined_withLiteral]
  cases joined front <;> rfl

/-- A character that opens nothing before a literal opens nothing before another one, unless the
new one closes a comment that it leaves open. -/
theorem OpensNothing.exchange {c : Char}
    (h : OpensNothing c (joined (withLiteral front old back)))
    (hold : (literalEnd? (old ++ '"' :: joined back)).isSome = true)
    (hnew : c = '/' → (joined front).head? = some '*' → blockEnd? new = none) :
    OpensNothing c (joined (withLiteral front new back)) where
  literal hc := by
    have hnone := h.literal hc
    rw [joined_withLiteral] at hnone ⊢
    exact literalEnd?_eq_none hold hnone
  line hc := by
    rw [head?_joined front back old new]
    exact h.line hc
  block hc more hmore := by
    rw [joined_withLiteral] at hmore
    cases hfront : joined front with
    | nil =>
        rw [hfront] at hmore
        exact absurd (List.cons.inj hmore).1 (by decide)
    | cons d lead =>
        rw [hfront, List.cons_append] at hmore
        obtain ⟨rfl, rfl⟩ := List.cons.inj hmore
        have hnone := h.block hc (lead ++ '"' :: (old ++ '"' :: joined back))
          (by rw [joined_withLiteral, hfront]; rfl)
        rw [blockEnd?_quote, blockEnd?_quote] at hnone ⊢
        exact ⟨hnone.1, hnew hc (by rw [hfront]; rfl), hnone.2.2⟩

/-- The first piece of a text is the same before another literal. -/
theorem firstPiece_exchange {c : Char} {rest : List Char} {p : Piece}
    (h : firstPiece c rest = (p, joined (withLiteral front old back)))
    (hold : (literalEnd? (old ++ '"' :: joined back)).isSome = true)
    (hnew : p = .plain '/' → (joined front).head? = some '*' → blockEnd? new = none) :
    ∃ rest', p.text ++ joined (withLiteral front new back) = c :: rest' ∧
      firstPiece c rest' = (p, joined (withLiteral front new back)) := by
  rcases firstPiece_cases c rest with ⟨inside, after, rfl, hend⟩ | ⟨body, after, rfl, rfl, hbody,
    hafter⟩ | ⟨more, inside, after, rfl, rfl, hend⟩ | hnothing
  · rw [firstPiece_literal hend] at h
    obtain ⟨rfl, rfl⟩ := Prod.mk.inj h
    exact ⟨_, rfl, firstPiece_literal (literalEnd?_local hend _)⟩
  · rw [firstPiece_line hbody hafter] at h
    obtain ⟨rfl, rfl⟩ := Prod.mk.inj h
    refine ⟨_, rfl, firstPiece_line hbody ?_⟩
    intro d hd
    rw [head?_joined front back old new] at hd
    exact hafter d hd
  · rw [firstPiece_block hend] at h
    obtain ⟨rfl, rfl⟩ := Prod.mk.inj h
    exact ⟨_, rfl, firstPiece_block (blockEnd?_local hend _)⟩
  · rw [firstPiece_plain hnothing] at h
    obtain ⟨rfl, rfl⟩ := Prod.mk.inj h
    refine ⟨_, rfl, firstPiece_plain (hnothing.exchange hold ?_)⟩
    rintro rfl
    exact hnew rfl

/-- A text that starts with a star starts with it as a plain character. -/
theorem head?_of_star {text : List Char} (h : pieces text = withLiteral front old back)
    (hhead : text.head? = some '*') : front.head? = some (.plain '*') := by
  obtain ⟨rest, rfl⟩ := List.head?_eq_some_iff.mp hhead
  rw [pieces_cons] at h
  have hfirst : (firstPiece '*' rest).1 = .plain '*' := rfl
  rw [hfirst] at h
  cases front with
  | nil => cases (List.cons.inj h).1
  | cons p front => rw [← (List.cons.inj h).1]; rfl

theorem joined_cons (p : Piece) (text : List Char) :
    joined (withLiteral (p :: front) text back) =
      p.text ++ joined (withLiteral front text back) := by
  simp [joined, withLiteral]

/-- What follows the first of several pieces. -/
theorem pieces_tail {text : List Char} {p : Piece} {ps : List Piece} (h : pieces text = p :: ps) :
    ∃ c rest, text = c :: rest ∧ firstPiece c rest = (p, joined ps) ∧
      pieces (joined ps) = ps := by
  cases text with
  | nil => cases h
  | cons c rest =>
      rw [pieces_cons] at h
      obtain ⟨hfirst, hrest⟩ := List.cons.inj h
      have hafter : (firstPiece c rest).2 = joined ps := by rw [← hrest, joined_pieces]
      refine ⟨c, rest, rfl, ?_, ?_⟩
      · rw [← hfirst, ← hafter]
      · rw [← hafter, hrest]

/-- A literal among the pieces was read up to its closing quote. -/
theorem literalEnd?_of_pieces {text : List Char} (h : pieces text = withLiteral front old back) :
    literalEnd? (old ++ '"' :: joined back) = some (old ++ ['"'], joined back) := by
  induction front generalizing text with
  | nil =>
      obtain ⟨c, rest, rfl, hfirst, _⟩ := pieces_tail h
      rcases firstPiece_cases c rest with ⟨inside, after, rfl, hend⟩ | ⟨body, after, rfl, rfl,
        hbody, hafter⟩ | ⟨more, inside, after, rfl, rfl, hend⟩ | hnothing
      · rw [firstPiece_literal hend] at hfirst
        obtain ⟨hliteral, rfl⟩ := Prod.mk.inj hfirst
        obtain rfl : inside = old ++ ['"'] := (List.cons.inj (Piece.literal.inj hliteral)).2
        have hlocal := literalEnd?_local hend (joined back)
        rwa [List.append_assoc] at hlocal
      · rw [firstPiece_line hbody hafter] at hfirst
        cases (Prod.mk.inj hfirst).1
      · rw [firstPiece_block hend] at hfirst
        cases (Prod.mk.inj hfirst).1
      · rw [firstPiece_plain hnothing] at hfirst
        cases (Prod.mk.inj hfirst).1
  | cons p front ih =>
      obtain ⟨_, _, _, _, hrest⟩ := pieces_tail h
      exact ih hrest

/-- **Another text between the quotes of a literal gives the same pieces with another literal**,
unless the text closes a comment that was left open before the literal. -/
theorem pieces_exchange {text : List Char} (h : pieces text = withLiteral front old back)
    (hmarks : Unmarked new) (hcomment : ['*', '/'] <:+: new → ¬ LeavesCommentOpen front) :
    pieces (joined (withLiteral front new back)) = withLiteral front new back := by
  induction front generalizing text with
  | nil =>
      obtain ⟨_, _, _, _, hback⟩ := pieces_tail h
      have htext : joined (withLiteral [] new back) = '"' :: (new ++ '"' :: joined back) :=
        joined_withLiteral [] back new
      rw [htext, pieces_cons, firstPiece_literal (literalEnd?_unmarked hmarks _), hback]
      rfl
  | cons p front ih =>
      obtain ⟨c, rest, _, hfirst, hrest⟩ := pieces_tail h
      have hinner : ['*', '/'] <:+: new → ¬ LeavesCommentOpen front := by
        intro hmark hopen
        exact hcomment hmark (hopen.trans (List.suffix_cons p front).isInfix)
      have hnew : p = .plain '/' → (joined front).head? = some '*' → blockEnd? new = none := by
        rintro rfl hstar
        apply blockEnd?_eq_none
        intro hmark
        have hhead : (joined (withLiteral front old back)).head? = some '*' := by
          obtain ⟨lead, hlead⟩ := List.head?_eq_some_iff.mp hstar
          rw [joined_withLiteral, hlead]
          rfl
        obtain ⟨front', rfl⟩ := List.head?_eq_some_iff.mp (head?_of_star hrest hhead)
        exact hcomment hmark ⟨[], front', rfl⟩
      have hold : (literalEnd? (old ++ '"' :: joined back)).isSome = true := by
        rw [literalEnd?_of_pieces h]
        rfl
      obtain ⟨rest', htext, hpiece⟩ := firstPiece_exchange hfirst hold hnew
      rw [joined_cons, htext, pieces_cons, hpiece, ih hrest hinner]
      rfl

end Exchange

end ApiAtlas.Interface
