import ApiAtlas.Proofs.Interface.Quote
set_option autoImplicit false

/-!
# Interface: services around a quote

A text is read as a search for the next service head, then its body up to the closing brace, then
the search again.  At a quote the reading is in one of two states: it searches, and then the text
before the quote is done with; or it is in a body with some braces open, and then the body goes on.
Which of the two it is shows in the text before the quote alone: a body is open there if that text,
read by itself, has a service that never closes.
-/

namespace ApiAtlas.Interface

/-! ## Bodies -/

/-- The number of braces that are open behind a text if `depth` are open before it; none if the text
closes more than are open. -/
def braceDepth (depth : Nat) : List Char → Option Nat
  | [] => some depth
  | c :: rest =>
      if c = '{' then braceDepth (depth + 1) rest
      else if c = '}' then if depth = 0 then none else braceDepth (depth - 1) rest
      else braceDepth depth rest

/-- A text that closes only braces of its own does not end a body. -/
theorem bodyEnd?_of_braceDepth {text : List Char} {inner inner' : Nat}
    (h : braceDepth inner text = some inner') (depth : Nat) (rest : List Char) :
    bodyEnd? (depth + 1 + inner) (text ++ rest) =
      (bodyEnd? (depth + 1 + inner') rest).map fun r => (text ++ r.1, r.2) := by
  induction text generalizing inner with
  | nil =>
      obtain rfl := Option.some.inj h
      simp
  | cons c text ih =>
      rw [braceDepth] at h
      split at h
      · next hopen =>
        subst hopen
        have hbody := ih h
        rw [← Nat.add_assoc] at hbody
        simp [bodyEnd?, hbody, Function.comp_def]
      · next hopen =>
        split at h
        · next hclose =>
          subst hclose
          split at h
          · cases h
          · next hinner =>
            obtain ⟨outer, rfl⟩ := Nat.exists_eq_add_one_of_ne_zero hinner
            have hbody := ih h
            have hdeep : ¬ depth + 1 + (outer + 1) ≤ 1 := by omega
            rw [Nat.add_sub_cancel] at hbody
            simp [bodyEnd?, hdeep, hbody, Function.comp_def]
        · next hclose =>
          have hbody := ih h
          simp [bodyEnd?, hopen, hclose, hbody, Function.comp_def]

/-- A body ends before some point, or is still open there. -/
theorem bodyEnd?_split (depth : Nat) (front : List Char) :
    (∃ body after, after <:+ front ∧
      ∀ rest, bodyEnd? (depth + 1) (front ++ rest) = some (body, after ++ rest)) ∨
    ∃ inner, ∀ rest, bodyEnd? (depth + 1) (front ++ rest) =
      (bodyEnd? (inner + 1) rest).map fun r => (front ++ r.1, r.2) := by
  induction front generalizing depth with
  | nil => exact .inr ⟨depth, fun rest => by simp⟩
  | cons c front ih =>
      by_cases hend : (c == '}' && decide (depth + 1 ≤ 1)) = true
      · refine .inl ⟨[], front, List.suffix_cons c front, fun rest => ?_⟩
        rw [List.cons_append, bodyEnd?, if_pos hend]
      · -- one more brace is open, or one less but not the last
        obtain ⟨next, hnext⟩ : ∃ next,
            (if c == '{' then depth + 1 + 1 else if c == '}' then depth + 1 - 1 else depth + 1) =
              next + 1 := by
          apply Nat.exists_eq_add_one_of_ne_zero
          simp only [Bool.and_eq_true, decide_eq_true_eq] at hend
          split
          · omega
          · split
            · next hclose => exact fun hzero => hend ⟨hclose, by omega⟩
            · omega
        have hstep : ∀ rest, bodyEnd? (depth + 1) (c :: front ++ rest) =
            (bodyEnd? (next + 1) (front ++ rest)).map fun r => (c :: r.1, r.2) := by
          intro rest
          rw [List.cons_append, bodyEnd?, if_neg hend, ← hnext]
        rcases ih next with ⟨body, after, hsuffix, hbody⟩ | ⟨inner, hbody⟩
        · refine .inl ⟨c :: body, after, hsuffix.trans (List.suffix_cons c front), fun rest => ?_⟩
          rw [hstep, hbody]
          rfl
        · refine .inr ⟨inner, fun rest => ?_⟩
          rw [hstep, hbody, Option.map_map]
          rfl

/-- A literal with balanced braces does not end a body. -/
theorem bodyEnd?_literal {text : List Char} (h : braceDepth 0 text = some 0) (depth : Nat)
    (rest : List Char) :
    bodyEnd? (depth + 1) ('"' :: (text ++ '"' :: rest)) =
      (bodyEnd? (depth + 1) rest).map fun r => ('"' :: (text ++ '"' :: r.1), r.2) := by
  have hquote : ∀ rest, bodyEnd? (depth + 1) ('"' :: rest) =
      (bodyEnd? (depth + 1) rest).map fun r => ('"' :: r.1, r.2) := fun rest => rfl
  rw [hquote, bodyEnd?_of_braceDepth h, Nat.add_zero, hquote, Option.map_map, Option.map_map]
  rfl

theorem bodyEnd?_length {depth : Nat} {text body after : List Char}
    (h : bodyEnd? depth text = some (body, after)) : after.length < text.length := by
  induction text generalizing depth body with
  | nil => cases h
  | cons c text ih =>
      simp only [bodyEnd?] at h
      split at h
      · obtain ⟨rfl, rfl⟩ := Prod.mk.inj (Option.some.inj h)
        exact Nat.lt_succ_self _
      · obtain ⟨r, hr, heq⟩ := Option.map_eq_some_iff.mp h
        obtain ⟨rfl, rfl⟩ := Prod.mk.inj heq
        exact Nat.lt_succ_of_lt (ih hr)

theorem nextService?_suffix {before : Option Char} {text name rest : List Char}
    (h : nextService? before text = some (name, rest)) : '{' :: rest <:+ text := by
  induction text generalizing before with
  | nil => cases h
  | cons c text ih =>
      rw [nextService?] at h
      split at h
      · next found hhere =>
        obtain rfl := Option.some.inj h
        split at hhere
        · cases hhere
        · obtain ⟨b, b', htext, _⟩ := serviceHere?_eq_some hhere
          exact ⟨"service".toList ++ (b ++ (name ++ b')), by rw [htext]; simp⟩
      · exact (ih h).trans (List.suffix_cons c text)

theorem nextService?_length {before : Option Char} {text name rest : List Char}
    (h : nextService? before text = some (name, rest)) : rest.length < text.length :=
  (nextService?_suffix h).length_le

/-! ## Services -/

/-- The services of a text, where `before` is the character before it. -/
def servicesFrom (before : Option Char) (text : List Char) : List Service × Option (List Char) :=
  servicesWithin (text.length + 1) before text

theorem servicesWithin_eq {fuel : Nat} {text : List Char} (before : Option Char)
    (h : text.length < fuel) : servicesWithin fuel before text = servicesFrom before text := by
  have hany : ∀ (a b : Nat) (before : Option Char) (text : List Char), text.length < a →
      text.length < b → servicesWithin a before text = servicesWithin b before text := by
    intro a
    induction a with
    | zero => exact fun _ _ _ ha => absurd ha (Nat.not_lt_zero _)
    | succ a ih =>
        intro b before text ha hb
        cases b with
        | zero => exact absurd hb (Nat.not_lt_zero _)
        | succ b =>
            simp only [servicesWithin]
            split
            · rfl
            · next name rest hnext =>
              split
              · rfl
              · next body after hbody =>
                have hrest := nextService?_length hnext
                have hafter := bodyEnd?_length hbody
                rw [ih b _ after (by omega) (by omega)]
  exact hany fuel _ before text h (Nat.lt_succ_self _)

/-- What is read of a text that goes on in the body of a service. `opened` is the part of the body
before it, and `depth` braces are open. -/
def servicesInBody (depth : Nat) (name opened text : List Char) :
    List Service × Option (List Char) :=
  match bodyEnd? depth text with
  | none => ([], some name)
  | some (body, after) =>
      (⟨name, opened ++ body⟩ :: (servicesFrom (some '}') after).1,
        (servicesFrom (some '}') after).2)

/-- Nothing is read without a service head, and behind one comes a body. -/
theorem servicesFrom_eq (before : Option Char) (text : List Char) :
    servicesFrom before text =
      match nextService? before text with
      | none => ([], none)
      | some (name, rest) => servicesInBody 1 name [] rest := by
  have hunfold : servicesFrom before text = servicesWithin (text.length + 1) before text := rfl
  rw [hunfold, servicesWithin]
  cases hnext : nextService? before text with
  | none => rfl
  | some r =>
      obtain ⟨name, rest⟩ := r
      unfold servicesInBody
      cases hbody : bodyEnd? 1 rest with
      | none => simp only [hbody]
      | some r =>
          obtain ⟨body, after⟩ := r
          have hrest := nextService?_length hnext
          have hafter := bodyEnd?_length hbody
          have hmore : servicesWithin text.length (some '}') after =
              servicesFrom (some '}') after :=
            servicesWithin_eq _ (by omega)
          simp only [hbody, hmore, List.nil_append]

/-- A literal with balanced braces is part of the body. -/
theorem servicesInBody_literal {literal : List Char} (h : braceDepth 0 literal = some 0)
    (depth : Nat) (name opened rest : List Char) :
    servicesInBody (depth + 1) name opened ('"' :: (literal ++ '"' :: rest)) =
      servicesInBody (depth + 1) name (opened ++ '"' :: (literal ++ ['"'])) rest := by
  unfold servicesInBody
  rw [bodyEnd?_literal h]
  cases bodyEnd? (depth + 1) rest <;> simp

/-! ## Before a quote -/

/-- Nothing is left, or a quote comes next. -/
def AtQuote (text : List Char) : Prop := text = [] ∨ ∃ rest, text = '"' :: rest

theorem atQuote_nil : AtQuote [] := .inl rfl

theorem atQuote_cons (rest : List Char) : AtQuote ('"' :: rest) := .inr ⟨rest, rfl⟩

/-- The first step of reading a text before a quote: no service is found in it, or its first service
closes in it, or the body of its first service is open at the quote. -/
theorem servicesFrom_quote_cases (before : Option Char) (text : List Char) :
    (servicesFrom before text = ([], none) ∧
      ∀ rest, servicesFrom before (text ++ '"' :: rest) = servicesFrom (some '"') rest) ∨
    (∃ s after, after <:+ text ∧ after.length < text.length ∧ ∀ more, AtQuote more →
      servicesFrom before (text ++ more) = (s :: (servicesFrom (some '}') (after ++ more)).1,
        (servicesFrom (some '}') (after ++ more)).2)) ∨
    ∃ name inner opened, opened <:+ text ∧ servicesFrom before text = ([], some name) ∧
      ∀ rest, servicesFrom before (text ++ '"' :: rest) =
        servicesInBody (inner + 1) name opened ('"' :: rest) := by
  cases hnext : nextService? before text with
  | none =>
      refine .inl ⟨by rw [servicesFrom_eq, hnext], fun rest => ?_⟩
      rw [servicesFrom_eq, servicesFrom_eq, nextService?_quote, hnext]
      rfl
  | some r =>
      obtain ⟨name, inside⟩ := r
      have hsuffix : inside <:+ text := (List.suffix_cons _ _).trans (nextService?_suffix hnext)
      have hhead : ∀ more, AtQuote more →
          servicesFrom before (text ++ more) = servicesInBody 1 name [] (inside ++ more) := by
        rintro more (rfl | ⟨rest, rfl⟩)
        · rw [List.append_nil, List.append_nil, servicesFrom_eq, hnext]
        · rw [servicesFrom_eq, nextService?_quote, hnext]
          rfl
      right
      rcases bodyEnd?_split 0 inside with ⟨body, after, hafter, hbody⟩ | ⟨inner, hbody⟩
      · refine .inl ⟨⟨name, body⟩, after, hafter.trans hsuffix,
          Nat.lt_of_le_of_lt hafter.length_le (nextService?_length hnext), fun more hmore => ?_⟩
        have hend : bodyEnd? 1 (inside ++ more) = some (body, after ++ more) := hbody more
        rw [hhead more hmore, servicesInBody, hend]
        rfl
      · refine .inr ⟨name, inner, inside, hsuffix, ?_, fun rest => ?_⟩
        · have hopen : bodyEnd? 1 (inside ++ []) = none := hbody []
          have hself := hhead [] atQuote_nil
          rwa [List.append_nil, servicesInBody, hopen] at hself
        · have hopen : bodyEnd? 1 (inside ++ '"' :: rest) = _ := hbody _
          rw [hhead _ (atQuote_cons rest), servicesInBody, servicesInBody, hopen]
          cases bodyEnd? (inner + 1) ('"' :: rest) <;> rfl

/-- The text before a quote ends outside of every body: the search goes on behind the quote. -/
theorem servicesFrom_outside {before : Option Char} {text : List Char}
    (h : (servicesFrom before text).2 = none) (rest : List Char) :
    servicesFrom before (text ++ '"' :: rest) =
      ((servicesFrom before text).1 ++ (servicesFrom (some '"') rest).1,
        (servicesFrom (some '"') rest).2) := by
  induction hlength : text.length using Nat.strongRecOn generalizing text before with
  | _ length ih =>
      rcases servicesFrom_quote_cases before text with ⟨hnone, hquote⟩ |
        ⟨s, after, -, hshort, hstep⟩ | ⟨name, _, _, _, hopen, _⟩
      · rw [hquote, hnone]
        rfl
      · have hself := hstep [] atQuote_nil
        rw [List.append_nil, List.append_nil] at hself
        rw [hself] at h ⊢
        rw [hstep _ (atQuote_cons rest), ih _ (hlength ▸ hshort) h rfl]
        rfl
      · rw [hopen] at h
        cases h

/-- The text before a quote ends in the body of a service: the body goes on behind the quote. -/
theorem servicesFrom_inside {before : Option Char} {text name : List Char}
    (h : (servicesFrom before text).2 = some name) :
    ∃ closed inner opened, opened <:+ text ∧ ∀ rest,
      servicesFrom before (text ++ '"' :: rest) =
        (closed ++ (servicesInBody (inner + 1) name opened ('"' :: rest)).1,
          (servicesInBody (inner + 1) name opened ('"' :: rest)).2) := by
  induction hlength : text.length using Nat.strongRecOn generalizing text before with
  | _ length ih =>
      rcases servicesFrom_quote_cases before text with ⟨hnone, _⟩ |
        ⟨s, after, hsuffix, hshort, hstep⟩ | ⟨name', inner, opened, hsuffix, hopen, hquote⟩
      · rw [hnone] at h
        cases h
      · have hself := hstep [] atQuote_nil
        rw [List.append_nil, List.append_nil] at hself
        rw [hself] at h
        obtain ⟨closed, inner, opened, hopened, hbody⟩ := ih _ (hlength ▸ hshort) h rfl
        refine ⟨s :: closed, inner, opened, hopened.trans hsuffix, fun rest => ?_⟩
        rw [hstep _ (atQuote_cons rest), hbody]
        rfl
      · rw [hopen] at h
        obtain rfl : name' = name := Option.some.inj h
        exact ⟨[], inner, opened, hsuffix, hquote⟩

/-! ## Around a literal -/

/-- Outside of bodies, a literal without a service head is passed over. -/
theorem servicesFrom_literal_outside {before : Option Char} {text literal : List Char}
    (h : (servicesFrom before text).2 = none) (hservice : nextService? (some '"') literal = none)
    (rest : List Char) :
    servicesFrom before (text ++ '"' :: (literal ++ '"' :: rest)) =
      ((servicesFrom before text).1 ++ (servicesFrom (some '"') rest).1,
        (servicesFrom (some '"') rest).2) := by
  have hnone : servicesFrom (some '"') literal = ([], none) := by
    rw [servicesFrom_eq, hservice]
  have hskip : servicesFrom (some '"') (literal ++ '"' :: rest) = servicesFrom (some '"') rest := by
    rw [servicesFrom_outside (by rw [hnone]), hnone]
    rfl
  rw [servicesFrom_outside h, hskip]

/-- In a body, a literal with balanced braces is part of the body. -/
theorem servicesFrom_literal_inside {before : Option Char} {text name : List Char}
    (h : (servicesFrom before text).2 = some name) :
    ∃ closed inner opened, opened <:+ text ∧ ∀ literal, braceDepth 0 literal = some 0 → ∀ rest,
      servicesFrom before (text ++ '"' :: (literal ++ '"' :: rest)) =
        (closed ++ (servicesInBody (inner + 1) name (opened ++ '"' :: (literal ++ ['"'])) rest).1,
          (servicesInBody (inner + 1) name (opened ++ '"' :: (literal ++ ['"'])) rest).2) := by
  obtain ⟨closed, inner, opened, hopened, hread⟩ := servicesFrom_inside h
  refine ⟨closed, inner, opened, hopened, fun literal hbraces rest => ?_⟩
  rw [hread, servicesInBody_literal hbraces]

end ApiAtlas.Interface
