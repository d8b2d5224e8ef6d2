import Mathlib.Data.List.Basic
import ApiAtlas.Proofs.Document.Nesting
set_option autoImplicit false

/-!
# Document: texts that are read alike

A rule of the grammar looks only as far as the definition it reads.  To say so, two texts are alike
when they are the same up to the brace that ends the definition, and go on as they like behind it.
On texts that are alike a rule gives up on both or reads the same from both, and leaves texts that
are alike again.  Which of the two happens is followed through the combinators that rules are made
of.
-/

namespace ApiAtlas.Document

/-! ## Alike texts -/

/-- With `d` brackets open, the two texts are the same up to the brace that closes the last one.
Also a faithful text and itself are alike. -/
inductive Alike : Nat → List Char → List Char → Prop
  | same {d : Nat} {s : List Char} : Faithful s → Alike d s s
  | finish {y z : List Char} : Alike 1 ('}' :: y) ('}' :: z)
  | plain {d : Nat} {c : Char} {s t : List Char} :
      isPlain c = true → Alike d s t → Alike d (c :: s) (c :: t)
  | comment {d : Nat} {body s t : List Char} :
      '\n' ∉ body → skip ('#' :: body) = [] → Alike d ('\n' :: s) ('\n' :: t) →
      Alike d ('#' :: (body ++ '\n' :: s)) ('#' :: (body ++ '\n' :: t))
  | quoted {d : Nat} {q s t : List Char} {v : String} :
      Rule.text ('"' :: q) = some (v, []) → (q = ['"'] → s.head? ≠ some '"') → Alike d s t →
      Alike d ('"' :: (q ++ s)) ('"' :: (q ++ t))
  | opening {d : Nat} {c : Char} {s t : List Char} :
      isOpening c = true → Alike (d + 1) s t → Alike d (c :: s) (c :: t)
  | closing {d : Nat} {c : Char} {s t : List Char} :
      isClosing c = true → (d = 0 → c ≠ '}') → Alike d s t → Alike (d + 1) (c :: s) (c :: t)

namespace Alike

variable {d : Nat} {c : Char} {s t : List Char}

theorem head?_eq (h : Alike d s t) : s.head? = t.head? := by
  cases h <;> rfl

theorem eq_nil (h : Alike d [] t) : t = [] := by
  cases h
  rfl

/-- Alike texts start with the same character. -/
theorem eq_cons (h : Alike d (c :: s) t) : ∃ t', t = c :: t' := by
  cases h <;> exact ⟨_, rfl⟩

theorem ne_cons (h : Alike d s t) (hs : ∀ rest, s ≠ c :: rest) : ∀ rest, t ≠ c :: rest := by
  rintro rest rfl
  have hhead := h.head?_eq
  cases s with
  | nil => simp at hhead
  | cons a s => exact hs s (by simpa using hhead)

/-- Alike texts go on alike behind a plain character. -/
theorem of_plain (h : Alike d (c :: s) t) (hc : isPlain c = true) :
    ∃ t', t = c :: t' ∧ Alike d s t' := by
  cases h with
  | same hs => exact ⟨s, rfl, .same (hs.of_plain hc)⟩
  | finish => exact absurd hc (by decide)
  | plain _ h => exact ⟨_, rfl, h⟩
  | comment _ _ _ => exact absurd hc (by decide)
  | quoted _ _ _ => exact absurd hc (by decide)
  | opening hopening _ => simp [isPlain, hopening] at hc
  | closing hclosing _ _ => simp [isPlain, hclosing] at hc

/-- Alike texts that start with a quote hold the same string, and go on alike behind it. -/
theorem of_quoted (h : Alike d ('"' :: s) t) :
    ∃ q y z v, s = q ++ y ∧ t = '"' :: (q ++ z) ∧ Rule.text ('"' :: q) = some (v, []) ∧
      (q = ['"'] → y.head? ≠ some '"') ∧ Alike d y z := by
  cases h with
  | same hs =>
      obtain ⟨q, y, v, rfl, htext, hquotes, _, hy⟩ := hs.of_quoted
      exact ⟨q, y, y, v, rfl, rfl, htext, hquotes, .same hy⟩
  | plain hc _ => exact absurd hc (by decide)
  | quoted htext hquotes h => exact ⟨_, _, _, _, rfl, rfl, htext, hquotes, h⟩
  | opening hc _ => exact absurd hc (by decide)
  | closing hc _ _ => exact absurd hc (by decide)

/-- Alike texts go on alike behind an opening bracket, one level deeper. -/
theorem of_opening (h : Alike d (c :: s) t) (hc : isOpening c = true) :
    ∃ t', t = c :: t' ∧ Alike (d + 1) s t' := by
  cases h with
  | same hs => exact ⟨s, rfl, .same (hs.of_opening hc)⟩
  | finish => exact absurd hc (by decide)
  | plain hplain _ => simp [isPlain, hc] at hplain
  | comment _ _ _ => exact absurd hc (by decide)
  | quoted _ _ _ => exact absurd hc (by decide)
  | opening _ h => exact ⟨_, rfl, h⟩
  | closing hclosing _ _ => simp [not_isClosing_of_isOpening hc] at hclosing

/-- Alike texts go on alike behind a closing bracket that does not end the definition. -/
theorem of_closing (h : Alike (d + 1) (c :: s) t) (hc : isClosing c = true)
    (hbrace : d = 0 → c ≠ '}') : ∃ t', t = c :: t' ∧ Alike d s t' := by
  cases h with
  | same hs => exact ⟨s, rfl, .same (hs.of_closing hc)⟩
  | finish => exact absurd rfl (hbrace rfl)
  | plain hplain _ => simp [isPlain, hc] at hplain
  | comment _ _ _ => exact absurd hc (by decide)
  | quoted _ _ _ => exact absurd hc (by decide)
  | opening hopening _ => simp [not_isClosing_of_isOpening hopening] at hc
  | closing _ _ h => exact ⟨_, rfl, h⟩

end Alike

/-- A walk that ends before alike texts starts from alike texts. -/
theorem Walk.alike {d e : Nat} {x y z : List Char} (h : Walk d x e y) (hy : Alike e y z)
    (hne : y ≠ []) : ∃ u, x = u ++ y ∧ Alike d x (u ++ z) := by
  induction h with
  | refl => exact ⟨[], rfl, hy⟩
  | @step d e f x m y hstep _ ih =>
      obtain ⟨u, hu, hm⟩ := ih hy hne
      cases hstep with
      | @plain _ c _ hc => exact ⟨c :: u, by rw [hu]; rfl, .plain hc hm⟩
      | @comment _ rest hbody =>
          -- The comment ends before a line feed, since more text follows.
          have hrest : rest.takeWhile (· != '\n') ++ rest.dropWhile (· != '\n') = rest :=
            List.takeWhile_append_dropWhile
          have hfeed := atLineEnd_dropWhile rest
          cases hdrop : rest.dropWhile (· != '\n') with
          | nil =>
              rw [hdrop] at hu
              exact absurd (List.append_eq_nil_iff.mp hu.symm).2 hne
          | cons c m =>
              rw [hdrop] at hu hm hrest hfeed
              obtain rfl : c = '\n' := hfeed c rfl
              obtain ⟨t, ht, halike⟩ := hm.of_plain (by decide)
              refine ⟨'#' :: (rest.takeWhile (· != '\n') ++ u), ?_, ?_⟩
              · rw [List.cons_append, List.append_assoc, ← hu, hrest]
              · have hbody' : '\n' ∉ rest.takeWhile (· != '\n') := by
                  intro hmem
                  have hall := List.all_eq_true.mp (List.all_takeWhile (l := rest)) _ hmem
                  exact absurd hall (by decide)
                rw [ht] at hm
                have hcomment := Alike.comment hbody' hbody hm
                rwa [hrest, ← ht, ← List.append_assoc] at hcomment
      | @quoted _ q _ v htext hquotes =>
          exact ⟨'"' :: (q ++ u), by simp [hu], by simpa using Alike.quoted htext hquotes hm⟩
      | @opening _ c _ hc => exact ⟨c :: u, by rw [hu]; rfl, .opening hc hm⟩
      | @closing _ c _ hc hbrace => exact ⟨c :: u, by rw [hu]; rfl, .closing hc hbrace hm⟩

/-! ## Moves -/

/-- Two alike texts are left for two others by taking the same `n` or more characters off both. -/
structure Moves (n d : Nat) (s t : List Char) (e : Nat) (y z : List Char) : Prop where
  /-- What is left is alike. -/
  alike : Alike e y z
  /-- The first text is walked over. -/
  walk : Walk d s e y
  /-- The same is taken off both. -/
  used : ∃ u, n ≤ u.length ∧ s = u ++ y ∧ t = u ++ z

namespace Moves

variable {n m d e f : Nat} {s t y z y' z' : List Char}

theorem refl (h : Alike d s t) : Moves 0 d s t d s t := ⟨h, .refl, [], Nat.le_refl 0, rfl, rfl⟩

theorem trans (h : Moves n d s t e y z) (h' : Moves m e y z f y' z') :
    Moves n d s t f y' z' := by
  obtain ⟨u, hu, rfl, rfl⟩ := h.used
  obtain ⟨u', _, rfl, rfl⟩ := h'.used
  refine ⟨h'.alike, h.walk.trans h'.walk, u ++ u', ?_, by simp, by simp⟩
  rw [List.length_append]
  omega

/-- The characters may also be taken off behind the first move. -/
theorem after (h : Moves n d s t e y z) (h' : Moves m e y z f y' z') :
    Moves m d s t f y' z' := by
  obtain ⟨u, _, rfl, rfl⟩ := h.used
  obtain ⟨u', hu', rfl, rfl⟩ := h'.used
  refine ⟨h'.alike, h.walk.trans h'.walk, u ++ u', ?_, by simp, by simp⟩
  rw [List.length_append]
  omega

theorem weaken (h : Moves n d s t e y z) : Moves 0 d s t e y z := by
  obtain ⟨u, _, hs, ht⟩ := h.used
  exact ⟨h.alike, h.walk, u, Nat.zero_le _, hs, ht⟩

/-- One step over both texts. -/
theorem step {u : List Char} (hstep : Step d (u ++ s) e s) (h : Alike e s t) :
    Moves u.length d (u ++ s) (u ++ t) e s t :=
  ⟨h, hstep.walk, u, Nat.le_refl _, rfl, rfl⟩

/-- A walk over a faithful text moves it and itself. -/
theorem same (hs : Faithful s) (hwalk : Walk d s e y) (hn : y.length + n ≤ s.length) :
    Moves n d s s e y y := by
  obtain ⟨u, rfl⟩ := hwalk.suffix
  refine ⟨.same (hwalk.faithful hs), hwalk, u, ?_, rfl, rfl⟩
  rw [List.length_append] at hn
  omega

theorem length_left (h : Moves n d s t e y z) : y.length + n ≤ s.length := by
  obtain ⟨u, hu, rfl, _⟩ := h.used
  rw [List.length_append]
  omega

theorem length_right (h : Moves n d s t e y z) : z.length + n ≤ t.length := by
  obtain ⟨u, hu, _, rfl⟩ := h.used
  rw [List.length_append]
  omega

end Moves

namespace Alike

variable {d : Nat} {c : Char} {s t : List Char}

theorem move_plain (h : Alike d (c :: s) t) (hc : isPlain c = true) :
    ∃ t', t = c :: t' ∧ Moves 1 d (c :: s) (c :: t') d s t' := by
  obtain ⟨t', rfl, h'⟩ := h.of_plain hc
  exact ⟨t', rfl, .step (u := [c]) (.plain hc) h'⟩

theorem move_opening (h : Alike d (c :: s) t) (hc : isOpening c = true) :
    ∃ t', t = c :: t' ∧ Moves 1 d (c :: s) (c :: t') (d + 1) s t' := by
  obtain ⟨t', rfl, h'⟩ := h.of_opening hc
  exact ⟨t', rfl, .step (u := [c]) (.opening hc) h'⟩

theorem move_closing (h : Alike (d + 1) (c :: s) t) (hc : isClosing c = true)
    (hbrace : d = 0 → c ≠ '}') :
    ∃ t', t = c :: t' ∧ Moves 1 (d + 1) (c :: s) (c :: t') d s t' := by
  obtain ⟨t', rfl, h'⟩ := h.of_closing hc hbrace
  exact ⟨t', rfl, .step (u := [c]) (.closing hc hbrace) h'⟩

/-- Alike texts stay alike without the blanks in front of them. -/
theorem skip (h : Alike d s t) : Moves 0 d s t d (skip s) (skip t) := by
  induction h with
  | @same d s hs =>
      have hwalk := walk_skip d hs
      obtain ⟨u, hu⟩ := hwalk.suffix
      refine .same hs hwalk ?_
      rw [Nat.add_zero, congrArg List.length hu, List.length_append]
      exact Nat.le_add_left _ _
  | finish => exact .refl .finish
  | @plain d c s t hc h ih =>
      by_cases hgap : isGap c = true
      · rw [skip_of_isGap hgap, skip_of_isGap hgap]
        exact (Moves.step (u := [c]) (.plain hc) h).after ih
      · have hhash : c ≠ '#' := by
          rintro rfl
          exact absurd hc (by decide)
        rw [skip_of_not_isGap (by simpa using hgap) hhash,
          skip_of_not_isGap (by simpa using hgap) hhash]
        exact .refl (.plain hc h)
  | @comment d body s t hbody hskip h ih =>
      have hfeed : ∀ rest, AtLineEnd ('\n' :: rest) := by
        intro rest c hc
        simpa using hc.symm
      rw [skip_comment hskip (hfeed s), skip_comment hskip (hfeed t)]
      exact (Moves.step (u := '#' :: body) (.comment_of_not_mem hbody hskip) h).after ih
  | quoted htext hquotes h _ => exact .refl (.quoted htext hquotes h)
  | @opening d c s t hc h _ =>
      have hstay : ∀ rest, Document.skip (c :: rest) = c :: rest := by
        simp only [isOpening, Bool.or_eq_true, beq_iff_eq] at hc
        rcases hc with (rfl | rfl) | rfl <;> exact fun _ => rfl
      rw [hstay, hstay]
      exact .refl (.opening hc h)
  | @closing d c s t hc hbrace h _ =>
      have hstay : ∀ rest, Document.skip (c :: rest) = c :: rest := by
        simp only [isClosing, Bool.or_eq_true, beq_iff_eq] at hc
        rcases hc with (rfl | rfl) | rfl <;> exact fun _ => rfl
      rw [hstay, hstay]
      exact .refl (.closing hc hbrace h)

/-- A run of plain characters is the same in front of alike texts. -/
theorem span {p : Char → Bool} (hp : ∀ c, p c = true → isPlain c = true) (h : Alike d s t) :
    s.takeWhile p = t.takeWhile p ∧ Moves 0 d s t d (s.dropWhile p) (t.dropWhile p) := by
  induction s generalizing t with
  | nil =>
      obtain rfl := h.eq_nil
      exact ⟨rfl, .refl h⟩
  | cons c s ih =>
      by_cases hc : p c = true
      · obtain ⟨t', rfl, hmove⟩ := h.move_plain (hp c hc)
        obtain ⟨htake, hdrop⟩ := ih hmove.alike
        refine ⟨?_, ?_⟩
        · rw [List.takeWhile_cons_of_pos hc, List.takeWhile_cons_of_pos hc, htake]
        · rw [List.dropWhile_cons_of_pos hc, List.dropWhile_cons_of_pos hc]
          exact hmove.after hdrop
      · obtain ⟨t', rfl⟩ := h.eq_cons
        refine ⟨?_, ?_⟩
        · rw [List.takeWhile_cons_of_neg hc, List.takeWhile_cons_of_neg hc]
        · rw [List.dropWhile_cons_of_neg hc, List.dropWhile_cons_of_neg hc]
          exact .refl h

end Alike

/-! ## Rules that agree -/

/-- Two rules both gave up, or both read the same and left texts related by `P`. -/
inductive Agree {α : Type} (P : List Char → List Char → Prop) :
    Option (α × List Char) → Option (α × List Char) → Prop
  | none : Agree P none none
  | some {a : α} {y z : List Char} : P y z → Agree P (some (a, y)) (some (a, z))

namespace Agree

variable {α β : Type} {P Q : List Char → List Char → Prop}
variable {r r' q q' : Option (α × List Char)}

theorem mono (h : Agree P r r') (hPQ : ∀ y z, P y z → Q y z) : Agree Q r r' := by
  cases h with
  | none => exact .none
  | some hP => exact .some (hPQ _ _ hP)

/-- One rule after another. -/
theorem bind {k k' : α × List Char → Option (β × List Char)} (h : Agree P r r')
    (hk : ∀ a y z, P y z → Agree Q (k (a, y)) (k' (a, z))) : Agree Q (r.bind k) (r'.bind k') := by
  cases h with
  | none => exact .none
  | some hP => exact hk _ _ _ hP

/-- A function of what was read. -/
theorem map (f : α → β) (h : Agree P r r') :
    Agree P (r.map fun x => (f x.1, x.2)) (r'.map fun x => (f x.1, x.2)) := by
  cases h with
  | none => exact .none
  | some hP => exact .some hP

/-- A choice. -/
theorem or (h : Agree P r r') (h' : Agree P q q') : Agree P (r.or q) (r'.or q') := by
  cases h with
  | none => exact h'
  | some hP => exact .some hP

/-- The first text alone decides: what its rule leaves is left by the other one too. -/
theorem eq_some {a : α} {y : List Char} (h : Agree P r r') (hr : r = Option.some (a, y)) :
    ∃ z, r' = Option.some (a, z) ∧ P y z := by
  subst hr
  cases h with
  | some hP => exact ⟨_, rfl, hP⟩

theorem cases_some (h : Agree P r r') :
    (r = Option.none ∧ r' = Option.none) ∨
      ∃ a y z, r = Option.some (a, y) ∧ r' = Option.some (a, z) ∧ P y z := by
  cases h with
  | none => exact Or.inl ⟨rfl, rfl⟩
  | some hP => exact Or.inr ⟨_, _, _, rfl, rfl, hP⟩

/-- A rule that may be absent, with a value in its place. -/
theorem getD {d : Nat} {s t : List Char} (h : Agree (Moves 0 d s t d) r r') (b : α)
    (halike : Alike d s t) :
    (r.getD (b, s)).1 = (r'.getD (b, t)).1 ∧
      Moves 0 d s t d (r.getD (b, s)).2 (r'.getD (b, t)).2 := by
  cases h with
  | none => exact ⟨rfl, .refl halike⟩
  | some hyz => exact ⟨rfl, hyz⟩

theorem isSome_eq (h : Agree P r r') : r.isSome = r'.isSome := by
  cases h <;> rfl

end Agree

namespace Rule

variable {d : Nat} {s t : List Char}

theorem agree_isPrefixOf? (cs : List Char) (hcs : ∀ c ∈ cs, isPlain c = true) (h : Alike d s t) :
    Agree (Moves cs.length d s t d) ((cs.isPrefixOf? s).map fun rest => ((), rest))
      ((cs.isPrefixOf? t).map fun rest => ((), rest)) := by
  induction cs generalizing s t with
  | nil => exact .some (.refl h)
  | cons c cs ih =>
      cases s with
      | nil =>
          obtain rfl := h.eq_nil
          exact .none
      | cons b s =>
          by_cases hb : c = b
          · subst hb
            obtain ⟨t', rfl, hmove⟩ := h.move_plain (hcs c List.mem_cons_self)
            have hrest := ih (fun a ha => hcs a (List.mem_cons_of_mem _ ha)) hmove.alike
            simp only [List.isPrefixOf?, beq_self_eq_true, if_true]
            refine hrest.mono fun y z hyz => ?_
            obtain ⟨u, hu, hs, ht⟩ := hyz.used
            refine ⟨hyz.alike, hmove.walk.trans hyz.walk, c :: u, Nat.succ_le_succ hu, ?_, ?_⟩
            · rw [hs, List.cons_append]
            · rw [ht, List.cons_append]
          · obtain ⟨t', rfl⟩ := h.eq_cons
            simp only [List.isPrefixOf?, beq_iff_eq, hb, if_false]
            exact .none

/-- A literal of plain characters. -/
theorem agree_literal {e : String} (he : e.toList.all isPlain = true)
    (hne : 1 ≤ e.toList.length) (h : Alike d s t) :
    Agree (Moves 1 d s t d) (literal e s) (literal e t) := by
  refine (agree_isPrefixOf? e.toList (List.all_eq_true.mp he) h).mono fun y z hyz => ?_
  obtain ⟨u, hu, hs, ht⟩ := hyz.used
  exact ⟨hyz.alike, hyz.walk, u, by omega, hs, ht⟩

theorem isPlain_of_isNameStart {c : Char} (hc : isNameStart c = true) : isPlain c = true :=
  isPlain_of_isWordStart hc

theorem isPlain_of_isNamePart {c : Char} (hc : isNamePart c = true) : isPlain c = true :=
  isPlain_of_isWordPart hc

theorem agree_name (h : Alike d s t) : Agree (Moves 1 d s t d) (name s) (name t) := by
  cases s with
  | nil =>
      obtain rfl := h.eq_nil
      exact .none
  | cons c s =>
      by_cases hc : isNameStart c = true
      · obtain ⟨t', rfl, hmove⟩ := h.move_plain (isPlain_of_isNameStart hc)
        obtain ⟨htake, hdrop⟩ := hmove.alike.span fun c hc => isPlain_of_isNamePart hc
        simp only [name, hc, if_true, htake]
        exact .some (hmove.trans hdrop)
      · obtain ⟨t', rfl⟩ := h.eq_cons
        simp only [name, hc]
        exact .none

end Rule

end ApiAtlas.Document
