import ApiAtlas.Proofs.Document.Nesting
set_option autoImplicit false

/-!
# Document: what the cutting does

One lexeme is taken into the slice, or ends it, or starts the next one.  From this it follows that
slices lose no lexeme, and that a run of lexemes which nests without closing its last bracket is cut
only before keywords of definitions.
-/

namespace ApiAtlas.Document

/-- The brace that ends a definition. -/
def closingBrace : Lexeme := ⟨.closing, ['}']⟩

/-- A lexeme that counts as content of a slice. -/
def Lexeme.isContent (l : Lexeme) : Bool :=
  l.kind != .comment && l.kind != .quoted && l.kind != .gap

/-! ## One lexeme -/

/-- The number of open brackets behind a lexeme. -/
def Lexeme.depthAfter (l : Lexeme) (depth : Nat) : Nat :=
  match l.kind with
  | .opening => depth + 1
  | .closing => depth - 1
  | _ => depth

/-- A lexeme is taken into the slice, or is the brace that ends it, or is a keyword before which it
ends. -/
theorem Cut.step_cases (s : Cut) (l : Lexeme) :
    ((s.step l).1 = none ∧ (s.step l).2.held = l :: s.held ∧
      (s.step l).2.depth = l.depthAfter s.depth ∧
      (s.step l).2.content = (s.content || l.isContent)) ∨
    (l = closingBrace ∧ s.depth ≤ 1 ∧ s.step l = (some (l :: s.held).reverse, Cut.start)) ∨
    (l.kind = .word ∧ s.startsDefinition l.text = true ∧ (s.step l).1 = some s.held.reverse ∧
      (s.step l).2.held = [l] ∧ (s.step l).2.depth = s.depth ∧ (s.step l).2.content = true) := by
  obtain ⟨kind, text⟩ := l
  cases kind with
  | closing =>
      by_cases hends : (s.depth ≤ 1 && text == ['}']) = true
      · refine Or.inr (Or.inl ?_)
        simp only [Bool.and_eq_true, decide_eq_true_eq, beq_iff_eq] at hends
        obtain ⟨hdepth, rfl⟩ := hends
        refine ⟨rfl, hdepth, ?_⟩
        simp [Cut.step, hdepth]
      · refine Or.inl ?_
        simp [Cut.step, hends, Lexeme.depthAfter, Lexeme.isContent]
  | word =>
      by_cases hstarts : s.startsDefinition text = true
      · refine Or.inr (Or.inr ?_)
        simp [Cut.step, hstarts]
      · refine Or.inl ?_
        simp [Cut.step, hstarts, Lexeme.depthAfter, Lexeme.isContent]
  | comment => exact Or.inl (by simp [Cut.step, Lexeme.depthAfter, Lexeme.isContent])
  | quoted => exact Or.inl (by simp [Cut.step, Lexeme.depthAfter, Lexeme.isContent])
  | gap => exact Or.inl (by simp [Cut.step, Lexeme.depthAfter, Lexeme.isContent])
  | other => exact Or.inl (by simp [Cut.step, Lexeme.depthAfter, Lexeme.isContent])
  | opening => exact Or.inl (by simp [Cut.step, Lexeme.depthAfter, Lexeme.isContent])

/-! ## A run of lexemes -/

theorem cutFrom_cons (s : Cut) (l : Lexeme) (ls : List Lexeme) :
    cutFrom s (l :: ls) =
      ((s.step l).1.toList ++ (cutFrom (s.step l).2 ls).1, (cutFrom (s.step l).2 ls).2) := rfl

theorem cutFrom_append (s : Cut) (ls ms : List Lexeme) :
    cutFrom s (ls ++ ms) =
      ((cutFrom s ls).1 ++ (cutFrom (cutFrom s ls).2 ms).1,
        (cutFrom (cutFrom s ls).2 ms).2) := by
  induction ls generalizing s with
  | nil => rfl
  | cons l ls ih => rw [List.cons_append, cutFrom_cons, ih, cutFrom_cons, List.append_assoc]

/-- The slices and what is held at the end make up what was held and the lexemes. -/
theorem cutFrom_tiles (s : Cut) (ls : List Lexeme) :
    (cutFrom s ls).1.flatten ++ (cutFrom s ls).2.held.reverse = s.held.reverse ++ ls := by
  induction ls generalizing s with
  | nil => simp [cutFrom]
  | cons l ls ih =>
      rw [cutFrom_cons, List.flatten_append, List.append_assoc, ih]
      rcases s.step_cases l with ⟨hended, hheld, _⟩ | ⟨_, _, hstep⟩ | ⟨_, _, hended, hheld, _⟩
      · simp [hended, hheld]
      · simp [hstep, Cut.start]
      · simp [hended, hheld]

/-- The first slice ends at some lexeme, and none ended before. -/
theorem cutFrom_first {s : Cut} {ls : List Lexeme} {k : Slice} {ks : List Slice}
    (h : (cutFrom s ls).1 = k :: ks) :
    ∃ ls₀ l ls₁, ls = ls₀ ++ l :: ls₁ ∧ (cutFrom s ls₀).1 = [] ∧
      ((cutFrom s ls₀).2.step l).1 = some k := by
  induction ls generalizing s with
  | nil => simp [cutFrom] at h
  | cons l ls ih =>
      rw [cutFrom_cons] at h
      cases hended : (s.step l).1 with
      | some k' =>
          rw [hended, Option.toList_some, List.cons_append, List.cons.injEq] at h
          exact ⟨[], l, ls, rfl, rfl, by rw [← h.1]; exact hended⟩
      | none =>
          rw [hended, Option.toList_none, List.nil_append] at h
          obtain ⟨ls₀, l', ls₁, rfl, hnone, hfirst⟩ := ih h
          refine ⟨l :: ls₀, l', ls₁, rfl, ?_, hfirst⟩
          rw [cutFrom_cons, hended, hnone]
          rfl

/-- As long as no slice ends, the content of the lexemes adds up. -/
theorem content_cutFrom {s : Cut} {ls : List Lexeme} (h : (cutFrom s ls).1 = []) :
    (cutFrom s ls).2.content = (s.content || ls.any Lexeme.isContent) := by
  induction ls generalizing s with
  | nil => simp [cutFrom]
  | cons l ls ih =>
      rw [cutFrom_cons] at h ⊢
      rw [List.append_eq_nil_iff] at h
      rcases s.step_cases l with ⟨_, _, _, hcontent⟩ | ⟨_, _, hstep⟩ | ⟨_, _, hended, _⟩
      · rw [ih h.2, hcontent, List.any_cons, Bool.or_assoc]
      · simp [hstep] at h
      · simp [hended] at h

/-- Blanks and comments are taken in whole. -/
theorem cutFrom_ignored {s : Cut} (hs : s.sigil = false) {gs : List Lexeme}
    (hgs : ∀ l ∈ gs, l.isIgnored = true) :
    cutFrom s gs =
      ([], { s with
        held := gs.reverse ++ s.held, content := s.content || gs.any Lexeme.isContent }) := by
  induction gs generalizing s with
  | nil => simp [cutFrom]
  | cons l gs ih =>
      have hstep : s.step l =
          (none, { s with held := l :: s.held, content := s.content || l.isContent }) := by
        have hl := hgs l List.mem_cons_self
        simp only [Lexeme.isIgnored, Bool.or_eq_true, beq_iff_eq] at hl
        rcases hl with (hkind | hkind) | rfl
        · simp [Cut.step, Lexeme.isContent, hkind, hs]
        · simp [Cut.step, Lexeme.isContent, hkind, hs]
        · simp [Cut.step, Lexeme.isContent, hs]
      have hrest := ih (s := (s.step l).2) (by rw [hstep]; exact hs)
        fun k hk => hgs k (List.mem_cons_of_mem _ hk)
      rw [cutFrom_cons, hrest, hstep]
      simp [Bool.or_assoc]

/-! ## Runs that nest -/

/-- The rest of a run nests too, and a brace in front of it leaves a bracket open. -/
theorem Nests.tail {d e : Nat} {l : Lexeme} {ls : List Lexeme} (h : Nests d (l :: ls) e) :
    Nests (l.depthAfter d) ls e ∧ (l = closingBrace → 1 < d) := by
  cases h with
  | flat hopening hclosing h =>
      have hdepth : l.depthAfter d = d := by
        unfold Lexeme.depthAfter
        split <;> simp_all
      refine ⟨by rwa [hdepth], ?_⟩
      rintro rfl
      exact absurd rfl hclosing
  | opening hkind h =>
      refine ⟨by rwa [Lexeme.depthAfter, hkind], ?_⟩
      rintro rfl
      exact absurd hkind (by decide)
  | @closing d _ _ _ hkind htext h =>
      refine ⟨by rwa [Lexeme.depthAfter, hkind], ?_⟩
      rintro rfl
      have hd : d ≠ 0 := fun hd => htext hd rfl
      omega

theorem Cut.depth_eq_zero {s : Cut} {word : List Char} (h : s.startsDefinition word = true) :
    s.depth = 0 ∧ s.content = true := by
  simp only [Cut.startsDefinition, Bool.and_eq_true, beq_iff_eq] at h
  exact ⟨h.1.1.1.1, h.1.1.1.2⟩

/-- The count of open brackets is that of the nesting. -/
theorem Nests.depth_cutFrom {d e : Nat} {ls : List Lexeme} (h : Nests d ls e) {s : Cut}
    (hs : s.depth = d) : (cutFrom s ls).2.depth = e := by
  induction ls generalizing d s with
  | nil =>
      cases h
      exact hs
  | cons l ls ih =>
      obtain ⟨hnext, hbrace⟩ := h.tail
      rw [cutFrom_cons]
      rcases s.step_cases l with ⟨_, _, hdepth, _⟩ | ⟨hl, hle, _⟩ | ⟨hkind, _, _, _, hdepth, _⟩
      · exact ih hnext (by rw [hdepth, hs])
      · exact absurd (hbrace hl) (by omega)
      · refine ih hnext ?_
        rw [hdepth, hs, Lexeme.depthAfter, hkind]

/-- Inside one definition slices end only before keywords, outside all brackets. -/
theorem Nests.first_cutFrom {d e : Nat} {ls : List Lexeme} (h : Nests d ls e) {s : Cut}
    (hs : s.depth = d) {k : Slice} {ks : List Slice} (hk : (cutFrom s ls).1 = k :: ks) :
    ∃ ls₀ ls₁, ls = ls₀ ++ ls₁ ∧ k = s.held.reverse ++ ls₀ ∧ (cutFrom s ls₀).1 = [] ∧
      (cutFrom s ls₀).2.depth = 0 ∧ (cutFrom s ls₀).2.content = true := by
  obtain ⟨ls₀, l, ls₁, rfl, hnone, hfirst⟩ := cutFrom_first hk
  obtain ⟨d', hls₀, hls₁⟩ := h.split
  have hdepth := hls₀.depth_cutFrom hs
  rcases (cutFrom s ls₀).2.step_cases l with ⟨hended, _⟩ | ⟨hl, hle, _⟩ |
    ⟨_, hstarts, hended, _⟩
  · rw [hended] at hfirst
    exact absurd hfirst (by simp)
  · exact absurd (hls₁.tail.2 hl) (by omega)
  · have htiles := cutFrom_tiles s ls₀
    rw [hended, Option.some.injEq] at hfirst
    rw [hnone, List.flatten_nil, List.nil_append, hfirst] at htiles
    obtain ⟨hzero, hcontent⟩ := Cut.depth_eq_zero hstarts
    exact ⟨ls₀, l :: ls₁, rfl, htiles, hnone, hzero, hcontent⟩

/-! ## Slices -/

theorem slices_eq (text : List Char) :
    (slices text).1 =
      (cutFrom Cut.start (lexemes text)).1 ++
        if (cutFrom Cut.start (lexemes text)).2.content then
          [(cutFrom Cut.start (lexemes text)).2.held.reverse]
        else [] := by
  simp only [slices]
  split
  · rfl
  · rw [List.append_nil]

theorem definitions_cons {x : List Char} {k : Slice} {ks : List Slice}
    (h : (slices x).1 = k :: ks) (hk : Text.trim k.text ≠ []) :
    definitions x =
      Text.trim k.text :: (ks.map fun s => Text.trim s.text).filter fun d => !d.isEmpty := by
  rw [definitions, h, List.map_cons, List.filter_cons_of_pos (by simpa using hk)]

/-- The brace that ends a definition ends a slice, and the cutting starts anew. -/
theorem cutFrom_definition {ls rest : List Lexeme} (hls : Nests 0 ls 1) :
    cutFrom Cut.start (ls ++ closingBrace :: rest) =
      ((cutFrom Cut.start ls).1 ++
        ((cutFrom Cut.start ls).2.held.reverse ++ [closingBrace]) :: (cutFrom Cut.start rest).1,
        (cutFrom Cut.start rest).2) := by
  have hdepth := hls.depth_cutFrom (s := Cut.start) rfl
  have hstep : (cutFrom Cut.start ls).2.step closingBrace =
      (some ((cutFrom Cut.start ls).2.held.reverse ++ [closingBrace]), Cut.start) := by
    simp [Cut.step, closingBrace, hdepth]
  rw [cutFrom_append, cutFrom_cons, hstep]
  rfl

/-- A text that starts with a definition is cut into the slices before the keywords in it, one that
ends with it, and the slices of what follows. -/
theorem slices_definition {text rest : List Char} {ls : List Lexeme}
    (h : lexemes text = ls ++ closingBrace :: lexemes rest) (hls : Nests 0 ls 1) :
    (slices text).1 =
      (cutFrom Cut.start ls).1 ++
        ((cutFrom Cut.start ls).2.held.reverse ++ [closingBrace]) :: (slices rest).1 := by
  rw [slices_eq, slices_eq, h, cutFrom_definition hls]
  simp

end ApiAtlas.Document
