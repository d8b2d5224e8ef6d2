import ApiAtlas.Proofs.Document.Locality.Value
set_option autoImplicit false

/-!
# Document: the rules for definitions are local

Every rule of the grammar agrees with itself on alike texts, up to whole definitions.  Two
consequences are used later.  A definition is walked over up to the brace that ends it, so it
respects the brackets as the cutting sees them; and it is read in the same way when something else
follows that brace.
-/

namespace ApiAtlas.Document

namespace Rule

variable {α : Type} {d : Nat} {s t : List Char}

/-! ## Arguments and directives -/

theorem agree_value (constant : Bool) (fuel fuel' : Nat) (h : Alike (d + 1) s t)
    (hs : 2 * s.length + 1 ≤ fuel) (ht : 2 * t.length + 1 ≤ fuel') :
    Agree (Moves 1 (d + 1) s t (d + 1)) (value constant fuel s) (value constant fuel' t) :=
  (agree_value_items_fields constant fuel fuel' h).1 hs ht

theorem agree_argument (fuel fuel' : Nat) (h : Alike (d + 1) s t)
    (hs : 2 * s.length + 1 ≤ fuel) (ht : 2 * t.length + 1 ≤ fuel') :
    Agree (Moves 1 (d + 1) s t (d + 1)) (argument fuel s) (argument fuel' t) := by
  refine (agree_name h).bind fun key y z hyz => ?_
  have hskip := hyz.trans hyz.alike.skip
  refine (agree_literal (by decide) (by decide) hskip.alike).bind fun _ y₁ z₁ hyz₁ => ?_
  have hskip₁ := hskip.trans (hyz₁.trans hyz₁.alike.skip)
  have hs₁ := hskip₁.length_left
  have ht₁ := hskip₁.length_right
  refine (agree_value false fuel fuel' hskip₁.alike (by omega) (by omega)).bind
    fun v y₂ z₂ hyz₂ => ?_
  exact .some (hskip₁.trans hyz₂)

theorem arguments_eq (fuel : Nat) (s : List Char) :
    arguments fuel s = between '(' ')' (atLeastOne (argument fuel) fuel) s := by
  simp only [arguments, between, literal_eq_exactly (e := "(") (c := '(') rfl,
    literal_eq_exactly (e := ")") (c := ')') rfl]
  rfl

theorem agree_arguments (fuel fuel' : Nat) (h : Alike d s t)
    (hs : 2 * s.length + 1 ≤ fuel) (ht : 2 * t.length + 1 ≤ fuel') :
    Agree (Moves 1 d s t d) (arguments fuel s) (arguments fuel' t) := by
  rw [arguments_eq, arguments_eq]
  refine agree_between_closed (by decide) (by decide) (by simp) h fun s' t' hmove => ?_
  have hs' := hmove.length_left
  have ht' := hmove.length_right
  refine agree_atLeastOne s.length t.length ?_ fuel fuel' hmove.alike
    (by omega) (by omega) (by omega) (by omega)
  intro s'' t'' h'' hs'' ht''
  exact agree_argument fuel fuel' h'' (by omega) (by omega)

theorem argumentsIfAny_eq (fuel : Nat) (s : List Char) :
    argumentsIfAny fuel s = (arguments fuel (skip s)).or (some ([], s)) := by
  simp only [argumentsIfAny]
  cases arguments fuel (skip s) <;> rfl

theorem agree_argumentsIfAny (fuel fuel' : Nat) (h : Alike d s t)
    (hs : 2 * s.length + 1 ≤ fuel) (ht : 2 * t.length + 1 ≤ fuel') :
    Agree (Moves 0 d s t d) (argumentsIfAny fuel s) (argumentsIfAny fuel' t) := by
  rw [argumentsIfAny_eq, argumentsIfAny_eq]
  have hs' := h.skip.length_left
  have ht' := h.skip.length_right
  have harguments := agree_arguments fuel fuel' h.skip.alike (by omega) (by omega)
  exact (harguments.mono fun _ _ hyz => h.skip.trans hyz).or (.some (.refl h))

theorem agree_directive (fuel fuel' : Nat) (h : Alike d s t)
    (hs : 2 * s.length + 1 ≤ fuel) (ht : 2 * t.length + 1 ≤ fuel') :
    Agree (Moves 1 d s t d) (directive fuel s) (directive fuel' t) := by
  refine (agree_literal (by decide) (by decide) h).bind fun _ y z hyz => ?_
  have hskip := hyz.trans hyz.alike.skip
  refine (agree_name hskip.alike).bind fun key y₁ z₁ hyz₁ => ?_
  have hname := hskip.trans hyz₁
  have hs₁ := hname.length_left
  have ht₁ := hname.length_right
  refine (agree_argumentsIfAny fuel fuel' hname.alike (by omega) (by omega)).bind
    fun args y₂ z₂ hyz₂ => ?_
  exact .some (hname.trans hyz₂)

theorem directives_eq (fuel : Nat) (s : List Char) :
    directives fuel s =
      (atLeastOne (directive fuel) fuel (skip s)).or (some ([], s)) := by
  simp only [directives]
  cases atLeastOne (directive fuel) fuel (skip s) <;> rfl

theorem agree_directives (fuel fuel' : Nat) (h : Alike d s t)
    (hs : 2 * s.length + 1 ≤ fuel) (ht : 2 * t.length + 1 ≤ fuel') :
    Agree (Moves 0 d s t d) (directives fuel s) (directives fuel' t) := by
  rw [directives_eq, directives_eq]
  have hs' := h.skip.length_left
  have ht' := h.skip.length_right
  have hmany := agree_atLeastOne s.length t.length
    (fun s'' t'' h'' hs'' ht'' => agree_directive fuel fuel' h'' (by omega) (by omega))
    fuel fuel' h.skip.alike (by omega) (by omega) (by omega) (by omega)
  exact (hmany.mono fun _ _ hyz => h.skip.trans hyz).or (.some (.refl h))

/-! ## Selections -/

theorem agree_labelled (h : Alike d s t) :
    Agree (Moves 1 d s t d) (labelled s) (labelled t) := by
  refine (agree_name h).bind fun first y z hyz => ?_
  have hskip := hyz.trans hyz.alike.skip
  have hcolon := agree_literal (e := ":") (by decide) (by decide) hskip.alike
  rcases hcolon.cases_some with ⟨hc, hc'⟩ | ⟨_, y₁, z₁, hc, hc', hyz₁⟩
  · simp only [hc, hc', Option.bind_eq_bind, Option.bind_none]
    exact .some hyz
  · simp only [hc, hc', Option.bind_eq_bind, Option.bind_some]
    have hskip₁ := hskip.trans (hyz₁.trans hyz₁.alike.skip)
    rcases (agree_name hskip₁.alike).cases_some with ⟨hn, hn'⟩ | ⟨key, y₂, z₂, hn, hn', hyz₂⟩
    · simp only [hn, hn', Option.bind_none]
      exact .none
    · simp only [hn, hn', Option.bind_some]
      exact .some (hskip₁.trans hyz₂)

/-- A field, with the rule for the selections below it. -/
def field (set : Rule (List Selection)) (fuel : Nat) : Rule Selection := fun input => do
  let ((label, key), rest) ← labelled input
  let (args, rest) ← argumentsIfAny fuel rest
  let (ds, rest) ← directives fuel rest
  match set (skip rest) with
  | some (inner, after) => return (.field label key args ds (some inner), after)
  | none => return (.field label key args ds none, rest)

/-- A fragment in place, with the rule for the selections below it. -/
def inlined (set : Rule (List Selection)) (fuel : Nat) : Rule Selection := fun input => do
  let (on, afterOn) ← optional typeCondition input
  let (ds, afterDirectives) ← directives fuel afterOn
  let (inner, after) ← set (skip afterDirectives)
  return (.inline on ds inner, after)

/-- A fragment by name, which is no condition. -/
def spread (fuel : Nat) : Rule Selection := fun input =>
  if (typeCondition input).isSome then none
  else do
    let (key, rest) ← name input
    let (ds, rest) ← directives fuel rest
    return (.spread key ds, rest)

/-- The first result, or else what one of two rules makes of the text behind the dots. -/
def orBehind (first : Option (Selection × List Char)) (dots : Option (Unit × List Char))
    (second third : Rule Selection) : Option (Selection × List Char) :=
  match first with
  | some r => some r
  | none =>
      match dots with
      | none => none
      | some (_, rest) =>
          match second (skip rest) with
          | some r => some r
          | none => third (skip rest)

theorem orBehind_eq (first : Option (Selection × List Char)) (dots : Option (Unit × List Char))
    (second third : Rule Selection) :
    orBehind first dots second third =
      first.or (dots.bind fun r => (second (skip r.2)).or (third (skip r.2))) := by
  cases first with
  | some r => rfl
  | none =>
      cases dots with
      | none => rfl
      | some r =>
          simp only [orBehind, Option.none_or, Option.bind_some]
          cases second (skip r.2) <;> rfl

theorem selection_succ (fuel : Nat) (s : List Char) :
    selection (fuel + 1) s =
      (field (selectionSet fuel) fuel s).or
        ((literal "..." s).bind fun r =>
          (inlined (selectionSet fuel) fuel (skip r.2)).or (spread fuel (skip r.2))) := by
  rw [selection]
  exact orBehind_eq (field (selectionSet fuel) fuel s) (literal "..." s)
    (inlined (selectionSet fuel) fuel) (spread fuel)

/-- A field agrees if the rule for what is below it does. -/
theorem agree_field {set set' : Rule (List Selection)} (fuel fuel' : Nat) (h : Alike d s t)
    (hs : 2 * s.length ≤ fuel) (ht : 2 * t.length ≤ fuel')
    (hset : ∀ s' t', Moves 1 d s t d s' t' → Agree (Moves 1 d s' t' d) (set s') (set' t')) :
    Agree (Moves 1 d s t d) (field set fuel s) (field set' fuel' t) := by
  refine (agree_labelled h).bind fun l y z hyz => ?_
  have hy := hyz.length_left
  have hz := hyz.length_right
  refine (agree_argumentsIfAny fuel fuel' hyz.alike (by omega) (by omega)).bind
    fun args y₁ z₁ hyz₁ => ?_
  have hmove₁ := hyz.trans hyz₁
  have hy₁ := hmove₁.length_left
  have hz₁ := hmove₁.length_right
  refine (agree_directives fuel fuel' hyz₁.alike (by omega) (by omega)).bind
    fun ds y₂ z₂ hyz₂ => ?_
  have hmove₂ := hmove₁.trans hyz₂
  have hskip := hmove₂.trans hyz₂.alike.skip
  rcases (hset _ _ hskip).cases_some with ⟨hi, hi'⟩ | ⟨inner, y₃, z₃, hi, hi', hyz₃⟩
  · simp only [hi, hi']
    exact .some hmove₂
  · simp only [hi, hi']
    exact .some (hskip.trans hyz₃)

theorem agree_optional {rule : Rule α} (h : Alike d s t)
    (hrule : Agree (Moves 1 d s t d) (rule s) (rule t)) :
    Agree (Moves 0 d s t d) (optional rule s) (optional rule t) := by
  simp only [optional]
  rcases hrule.cases_some with ⟨hr, hr'⟩ | ⟨a, y, z, hr, hr', hyz⟩
  · simp only [hr, hr']
    exact .some (.refl h)
  · simp only [hr, hr']
    exact .some hyz.weaken

theorem agree_inlined {set set' : Rule (List Selection)} (fuel fuel' : Nat) (h : Alike d s t)
    (hs : 2 * s.length + 1 ≤ fuel) (ht : 2 * t.length + 1 ≤ fuel')
    (hset : ∀ s' t', Moves 0 d s t d s' t' → Agree (Moves 1 d s' t' d) (set s') (set' t')) :
    Agree (Moves 1 d s t d) (inlined set fuel s) (inlined set' fuel' t) := by
  refine (agree_optional h (agree_typeCondition h)).bind fun on y z hyz => ?_
  have hy := hyz.length_left
  have hz := hyz.length_right
  refine (agree_directives fuel fuel' hyz.alike (by omega) (by omega)).bind
    fun ds y₁ z₁ hyz₁ => ?_
  have hskip := (hyz.trans hyz₁).trans hyz₁.alike.skip
  refine (hset _ _ hskip).bind fun inner y₂ z₂ hyz₂ => ?_
  exact .some (hskip.after hyz₂)

theorem agree_spread (fuel fuel' : Nat) (h : Alike d s t) (hs : 2 * s.length + 1 ≤ fuel)
    (ht : 2 * t.length + 1 ≤ fuel') :
    Agree (Moves 1 d s t d) (spread fuel s) (spread fuel' t) := by
  simp only [spread, (agree_typeCondition h).isSome_eq]
  split
  · exact .none
  · refine (agree_name h).bind fun key y z hyz => ?_
    have hy := hyz.length_left
    have hz := hyz.length_right
    refine (agree_directives fuel fuel' hyz.alike (by omega) (by omega)).bind
      fun ds y₁ z₁ hyz₁ => ?_
    exact .some (hyz.trans hyz₁)

/-- Selections of which there is at least one. -/
def nonempty (rule : Rule (List Selection)) : Rule (List Selection) := fun s =>
  (rule s).bind fun r => if r.1.isEmpty then none else some r

theorem selectionSet_succ (fuel : Nat) (s : List Char) :
    selectionSet (fuel + 1) s = between '{' '}' (nonempty (selections fuel)) s := by
  by_cases hbrace : ∃ rest, s = '{' :: rest
  · obtain ⟨rest, rfl⟩ := hbrace
    rw [between_cons]
    simp only [selectionSet, nonempty, literal_eq_exactly (e := "\x7d") (c := '}') rfl]
    cases selections fuel (skip rest) with
    | none => rfl
    | some r =>
        obtain ⟨found, after⟩ := r
        cases found with
        | nil => rfl
        | cons first more =>
            simp only [Option.bind_some, List.isEmpty_cons, Bool.false_eq_true, if_false]
            cases exactly '}' (skip after) <;> rfl
  · have hs : ∀ rest, s ≠ '{' :: rest := fun rest hrest => hbrace ⟨rest, hrest⟩
    rw [between_of_ne _ _ hs, selectionSet]
    exact hs

theorem agree_nonempty {rule rule' : Rule (List Selection)}
    (h : Agree (Moves 0 d s t d) (rule s) (rule' t)) :
    Agree (Moves 0 d s t d) (nonempty rule s) (nonempty rule' t) := by
  refine h.bind fun found y z hyz => ?_
  cases found with
  | nil => exact .none
  | cons first more => exact .some hyz

/-- Selections agree inside brackets, each kind of rule with its own need of fuel. -/
theorem agree_selections (fuel fuel' : Nat) (h : Alike (d + 1) s t) :
    (3 * s.length + 1 ≤ fuel → 3 * t.length + 1 ≤ fuel' →
      Agree (Moves 1 (d + 1) s t (d + 1)) (selectionSet fuel s) (selectionSet fuel' t)) ∧
    (3 * s.length + 3 ≤ fuel → 3 * t.length + 3 ≤ fuel' →
      Agree (Moves 0 (d + 1) s t (d + 1)) (selections fuel s) (selections fuel' t)) ∧
    (3 * s.length + 2 ≤ fuel → 3 * t.length + 2 ≤ fuel' →
      Agree (Moves 1 (d + 1) s t (d + 1)) (selection fuel s) (selection fuel' t)) := by
  induction fuel generalizing fuel' s t d with
  | zero =>
      exact ⟨fun hs _ => absurd hs (by omega), fun hs _ => absurd hs (by omega),
        fun hs _ => absurd hs (by omega)⟩
  | succ fuel ih =>
      cases fuel' with
      | zero =>
          exact ⟨fun _ ht => absurd ht (by omega), fun _ ht => absurd ht (by omega),
            fun _ ht => absurd ht (by omega)⟩
      | succ fuel' =>
          refine ⟨fun hs ht => ?_, fun hs ht => ?_, fun hs ht => ?_⟩
          · rw [selectionSet_succ, selectionSet_succ]
            refine agree_between_closed (by decide) (by decide) (by simp) h fun s' t' hmove => ?_
            have hs' := hmove.length_left
            have ht' := hmove.length_right
            exact agree_nonempty ((ih fuel' hmove.alike).2.1 (by omega) (by omega))
          · simp only [selections]
            have hfirst := (ih fuel' h).2.2 (by omega) (by omega)
            rcases hfirst.cases_some with ⟨hr, hr'⟩ | ⟨first, y, z, hr, hr', hyz⟩
            · simp only [hr, hr']
              exact .some (.refl h)
            · simp only [hr, hr']
              have hskip := hyz.trans hyz.alike.skip
              have hs' := hskip.length_left
              have ht' := hskip.length_right
              have hmore := (ih fuel' hskip.alike).2.1 (by omega) (by omega)
              rcases hmore.cases_some with ⟨hm, hm'⟩ | ⟨more, y', z', hm, hm', hyz'⟩
              · simp only [hm, hm']
                exact .none
              · simp only [hm, hm']
                exact .some (hskip.trans hyz').weaken
          · rw [selection_succ, selection_succ]
            refine Agree.or ?_ ?_
            · refine agree_field fuel fuel' h (by omega) (by omega) fun s' t' hmove => ?_
              have hs' := hmove.length_left
              have ht' := hmove.length_right
              exact (ih fuel' hmove.alike).1 (by omega) (by omega)
            · refine (agree_literal (by decide) (by decide) h).bind fun _ y z hyz => ?_
              have hskip := hyz.trans hyz.alike.skip
              have hy := hskip.length_left
              have hz := hskip.length_right
              have hinlined : Agree (Moves 1 (d + 1) (skip y) (skip z) (d + 1))
                  (inlined (selectionSet fuel) fuel (skip y))
                  (inlined (selectionSet fuel') fuel' (skip z)) := by
                refine agree_inlined fuel fuel' hskip.alike (by omega) (by omega)
                  fun s' t' hmove => ?_
                have hs' := hmove.length_left
                have ht' := hmove.length_right
                exact (ih fuel' hmove.alike).1 (by omega) (by omega)
              have hspread := agree_spread fuel fuel' hskip.alike (by omega) (by omega)
              exact (hinlined.or hspread).mono fun _ _ hmove => hskip.trans hmove

/-- A selection set agrees also where it ends the definition; its last brace is not passed. -/
theorem agree_selectionSet (fuel fuel' : Nat) (h : Alike d s t) (hs : 3 * s.length + 1 ≤ fuel)
    (ht : 3 * t.length + 1 ≤ fuel') :
    Agree (fun y z => Moves 1 d s t (d + 1) ('}' :: y) ('}' :: z)) (selectionSet fuel s)
      (selectionSet fuel' t) := by
  cases fuel with
  | zero => omega
  | succ fuel =>
      cases fuel' with
      | zero => omega
      | succ fuel' =>
          rw [selectionSet_succ, selectionSet_succ]
          refine agree_between (by decide) '}' h fun s' t' hmove => ?_
          have hs' := hmove.length_left
          have ht' := hmove.length_right
          exact agree_nonempty
            ((agree_selections fuel fuel' hmove.alike).2.1 (by omega) (by omega))

/-! ## Definitions -/

theorem agree_variableDefinition (fuel fuel' : Nat) (h : Alike (d + 1) s t)
    (hs : 2 * s.length + 1 ≤ fuel) (ht : 2 * t.length + 1 ≤ fuel') :
    Agree (Moves 1 (d + 1) s t (d + 1)) (variableDefinition fuel s)
      (variableDefinition fuel' t) := by
  refine (agree_reference h).bind fun key y z hyz => ?_
  have hskip := hyz.trans hyz.alike.skip
  refine (agree_literal (by decide) (by decide) hskip.alike).bind fun _ y₁ z₁ hyz₁ => ?_
  have hskip₁ := hskip.trans (hyz₁.trans hyz₁.alike.skip)
  have hy₁ := hskip₁.length_left
  have hz₁ := hskip₁.length_right
  refine (agree_type fuel fuel' hskip₁.alike (by omega) (by omega)).bind
    fun type y₂ z₂ hyz₂ => ?_
  have hmove₂ := hskip₁.trans hyz₂
  have hy₂ := hmove₂.length_left
  have hz₂ := hmove₂.length_right
  refine (agree_directives fuel fuel' hmove₂.alike (by omega) (by omega)).bind
    fun ds y₃ z₃ hyz₃ => ?_
  have hmove₃ := hmove₂.trans hyz₃
  have hfallback : Agree (Moves 1 (d + 1) s t (d + 1))
      ((literal "=" (skip y₃)).bind fun r => value true fuel (skip r.2))
      ((literal "=" (skip z₃)).bind fun r => value true fuel' (skip r.2)) := by
    have hskip₃ := hmove₃.trans hmove₃.alike.skip
    refine (agree_literal (by decide) (by decide) hskip₃.alike).bind fun _ y₄ z₄ hyz₄ => ?_
    have hskip₄ := hskip₃.trans (hyz₄.trans hyz₄.alike.skip)
    have hy₄ := hskip₄.length_left
    have hz₄ := hskip₄.length_right
    exact (agree_value true fuel fuel' hskip₄.alike (by omega) (by omega)).mono
      fun _ _ hmove => hskip₄.trans hmove
  rcases hfallback.cases_some with ⟨hv, hv'⟩ | ⟨v, y₅, z₅, hv, hv', hyz₅⟩
  · simp only [Option.bind_eq_bind, hv, hv']
    exact .some hmove₃
  · simp only [Option.bind_eq_bind, hv, hv']
    exact .some hyz₅

theorem variableDefinitions_eq (fuel : Nat) (s : List Char) :
    variableDefinitions fuel s = between '(' ')' (many (variableDefinition fuel) fuel) s := by
  simp only [variableDefinitions, between, literal_eq_exactly (e := "(") (c := '(') rfl,
    literal_eq_exactly (e := ")") (c := ')') rfl]
  rfl

theorem agree_variableDefinitions (fuel fuel' : Nat) (h : Alike d s t)
    (hs : 2 * s.length + 1 ≤ fuel) (ht : 2 * t.length + 1 ≤ fuel') :
    Agree (Moves 1 d s t d) (variableDefinitions fuel s) (variableDefinitions fuel' t) := by
  rw [variableDefinitions_eq, variableDefinitions_eq]
  refine agree_between_closed (by decide) (by decide) (by simp) h fun s' t' hmove => ?_
  have hs' := hmove.length_left
  have ht' := hmove.length_right
  refine agree_many s.length t.length ?_ fuel fuel' hmove.alike (by omega) (by omega) (by omega)
    (by omega)
  intro s'' t'' h'' hs'' ht''
  exact agree_variableDefinition fuel fuel' h'' (by omega) (by omega)

theorem operationKind_eq (s : List Char) :
    operationKind s =
      ((literal "query" s).map fun r => (OperationKind.query, r.2)).or
        (((literal "mutation" s).map fun r => (OperationKind.mutation, r.2)).or
          ((literal "subscription" s).map fun r => (OperationKind.subscription, r.2))) := by
  simp only [operationKind, List.findSome?, OperationKind.name]
  cases literal "query" s with
  | some r => rfl
  | none =>
      cases literal "mutation" s with
      | some r => rfl
      | none => cases literal "subscription" s <;> rfl

theorem agree_operationKind (h : Alike d s t) :
    Agree (Moves 1 d s t d) (operationKind s) (operationKind t) := by
  have hquery := agree_literal (e := "query") (by decide) (by decide) h
  have hmutation := agree_literal (e := "mutation") (by decide) (by decide) h
  have hsubscription := agree_literal (e := "subscription") (by decide) (by decide) h
  rw [operationKind_eq, operationKind_eq]
  exact (hquery.map fun _ => OperationKind.query).or
    ((hmutation.map fun _ => OperationKind.mutation).or
      (hsubscription.map fun _ => OperationKind.subscription))

/-- An operation behind its keyword and its name. -/
def operationBody (fuel : Nat) (kind : OperationKind) (key : Option String) : Rule Operation :=
  fun afterName => do
    let (vs, rest) := (variableDefinitions fuel (skip afterName)).getD ([], afterName)
    let (ds, rest) ← directives fuel rest
    let (selected, rest) ← selectionSet fuel (skip rest)
    return (⟨kind, key, vs, ds, selected⟩, rest)

theorem keywordOperation_eq (fuel : Nat) (s : List Char) :
    keywordOperation fuel s =
      (operationKind s).bind fun kind =>
        ((name (skip kind.2)).map fun key =>
          operationBody fuel kind.1 (some key.1) key.2).getD
            (operationBody fuel kind.1 none kind.2) := by
  simp only [keywordOperation]
  cases operationKind s with
  | none => rfl
  | some kind =>
      simp only [Option.bind_eq_bind, Option.bind_some]
      cases name (skip kind.2) <;> rfl

theorem agree_operationBody (fuel fuel' : Nat) (kind : OperationKind) (key : Option String)
    (h : Alike 0 s t) (hs : 3 * s.length + 1 ≤ fuel) (ht : 3 * t.length + 1 ≤ fuel') :
    Agree (fun y z => Moves 1 0 s t 1 ('}' :: y) ('}' :: z)) (operationBody fuel kind key s)
      (operationBody fuel' kind key t) := by
  have hvariables : Agree (Moves 0 0 s t 0) (variableDefinitions fuel (skip s))
      (variableDefinitions fuel' (skip t)) := by
    have hs' := h.skip.length_left
    have ht' := h.skip.length_right
    exact (agree_variableDefinitions fuel fuel' h.skip.alike (by omega) (by omega)).mono
      fun _ _ hmove => h.skip.trans hmove
  obtain ⟨hvs, hmove⟩ := hvariables.getD [] h
  have hs₁ := hmove.length_left
  have ht₁ := hmove.length_right
  simp only [operationBody, hvs]
  refine (agree_directives fuel fuel' hmove.alike (by omega) (by omega)).bind
    fun ds y z hyz => ?_
  have hskip := (hmove.trans hyz).trans hyz.alike.skip
  have hs₂ := hskip.length_left
  have ht₂ := hskip.length_right
  refine (agree_selectionSet fuel fuel' hskip.alike (by omega) (by omega)).bind
    fun selected y' z' hyz' => ?_
  exact .some (hskip.after hyz')

/-- Operations agree, and end with a brace that is not passed. -/
theorem agree_keywordOperation (fuel fuel' : Nat) (h : Alike 0 s t)
    (hs : 3 * s.length + 1 ≤ fuel) (ht : 3 * t.length + 1 ≤ fuel') :
    Agree (fun y z => Moves 1 0 s t 1 ('}' :: y) ('}' :: z)) (keywordOperation fuel s)
      (keywordOperation fuel' t) := by
  rw [keywordOperation_eq, keywordOperation_eq]
  refine (agree_operationKind h).bind fun kind y z hyz => ?_
  have hy := hyz.length_left
  have hz := hyz.length_right
  have hskip := hyz.trans hyz.alike.skip
  rcases (agree_name hskip.alike).cases_some with ⟨hn, hn'⟩ | ⟨key, y₁, z₁, hn, hn', hyz₁⟩
  · simp only [hn, hn', Option.map_none, Option.getD_none]
    have hbody := agree_operationBody fuel fuel' kind none hyz.alike (by omega) (by omega)
    exact hbody.mono fun _ _ hmove => hyz.trans hmove
  · simp only [hn, hn', Option.map_some, Option.getD_some]
    have hname := hskip.trans hyz₁
    have hy₁ := hname.length_left
    have hz₁ := hname.length_right
    have hbody := agree_operationBody fuel fuel' kind (some key) hname.alike (by omega) (by omega)
    exact hbody.mono fun _ _ hmove => hname.trans hmove

theorem operation_eq (fuel : Nat) (s : List Char) :
    operation fuel s =
      (keywordOperation fuel s).or
        ((selectionSet fuel s).map fun r => (⟨.query, none, [], [], r.1⟩, r.2)) := by
  simp only [operation]
  cases keywordOperation fuel s <;> rfl

theorem agree_operation (fuel fuel' : Nat) (h : Alike 0 s t)
    (hs : 3 * s.length + 1 ≤ fuel) (ht : 3 * t.length + 1 ≤ fuel') :
    Agree (fun y z => Moves 1 0 s t 1 ('}' :: y) ('}' :: z)) (operation fuel s)
      (operation fuel' t) := by
  rw [operation_eq, operation_eq]
  exact (agree_keywordOperation fuel fuel' h hs ht).or
    ((agree_selectionSet fuel fuel' h hs ht).map _)

theorem agree_fragment (fuel fuel' : Nat) (h : Alike 0 s t)
    (hs : 3 * s.length + 1 ≤ fuel) (ht : 3 * t.length + 1 ≤ fuel') :
    Agree (fun y z => Moves 1 0 s t 1 ('}' :: y) ('}' :: z)) (fragment fuel s)
      (fragment fuel' t) := by
  refine (agree_literal (by decide) (by decide) h).bind fun _ y z hyz => ?_
  have hskip := hyz.trans hyz.alike.skip
  refine (agree_name hskip.alike).bind fun key y₁ z₁ hyz₁ => ?_
  have hskip₁ := hskip.trans (hyz₁.trans hyz₁.alike.skip)
  refine (agree_typeCondition hskip₁.alike).bind fun on y₂ z₂ hyz₂ => ?_
  have hmove₂ := hskip₁.trans hyz₂
  have hy₂ := hmove₂.length_left
  have hz₂ := hmove₂.length_right
  refine (agree_directives fuel fuel' hmove₂.alike (by omega) (by omega)).bind
    fun ds y₃ z₃ hyz₃ => ?_
  have hskip₃ := (hmove₂.trans hyz₃).trans hyz₃.alike.skip
  have hy₃ := hskip₃.length_left
  have hz₃ := hskip₃.length_right
  refine (agree_selectionSet fuel fuel' hskip₃.alike (by omega) (by omega)).bind
    fun selected y₄ z₄ hyz₄ => ?_
  exact .some (hskip₃.trans hyz₄)

/-- A definition without the text it starts at. -/
def body (fuel : Nat) : Rule Definition := fun s =>
  ((operation fuel s).map fun r => (Definition.operation r.1, r.2)).or
    ((fragment fuel s).map fun r => (Definition.fragment r.1, r.2))

theorem definition_eq (fuel : Nat) (s : List Char) :
    definition fuel s = (body fuel s).map fun r => ((r.1, s), r.2) := by
  simp only [definition, body]
  cases operation fuel s with
  | some r => rfl
  | none => cases fragment fuel s <;> rfl

theorem agree_body (fuel fuel' : Nat) (h : Alike 0 s t)
    (hs : 3 * s.length + 1 ≤ fuel) (ht : 3 * t.length + 1 ≤ fuel') :
    Agree (fun y z => Moves 1 0 s t 1 ('}' :: y) ('}' :: z)) (body fuel s) (body fuel' t) :=
  ((agree_operation fuel fuel' h hs ht).map Definition.operation).or
    ((agree_fragment fuel fuel' h hs ht).map Definition.fragment)

/-- A definition is walked over up to the brace that ends it. -/
theorem body_walk {fuel : Nat} {a : Definition} {y : List Char} (hs : Faithful s)
    (hfuel : 3 * s.length + 1 ≤ fuel) (h : body fuel s = some (a, y)) :
    Walk 0 s 1 ('}' :: y) := by
  obtain ⟨z, _, hmove⟩ := (agree_body fuel fuel (.same hs) hfuel hfuel).eq_some h
  exact hmove.walk

/-- What a definition is does not depend on what follows the brace that ends it, nor on the fuel. -/
theorem body_local {fuel fuel' : Nat} {a : Definition} {u y : List Char}
    (hs : Faithful (u ++ '}' :: y)) (hfuel : 3 * (u ++ '}' :: y).length + 1 ≤ fuel)
    (h : body fuel (u ++ '}' :: y) = some (a, y)) (z : List Char)
    (hfuel' : 3 * (u ++ '}' :: z).length + 1 ≤ fuel') :
    body fuel' (u ++ '}' :: z) = some (a, z) := by
  have hwalk := body_walk hs hfuel h
  obtain ⟨u', hu', halike⟩ := hwalk.alike (.finish (z := z)) (by simp)
  obtain rfl : u = u' := List.append_cancel_right hu'
  obtain ⟨z', hz', hmove⟩ := (agree_body fuel fuel' halike hfuel hfuel').eq_some h
  obtain ⟨w, _, hw, hw'⟩ := hmove.used
  obtain rfl : u = w := List.append_cancel_right hw
  rw [hz', (List.cons.inj (List.append_cancel_left hw')).2]

end Rule

end ApiAtlas.Document
