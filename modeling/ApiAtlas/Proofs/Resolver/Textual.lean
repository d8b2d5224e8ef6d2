import ApiAtlas.Proofs.Text.Run
import ApiAtlas.Resolver.Textual
set_option autoImplicit false

/-!
# Resolvers: what the readers of text take

A reader that succeeds has taken a part of the text of its shape and handed on the rest.  In the
other direction, a reader takes the longest run first, so that where a run ends is decided by the
text alone as long as what follows succeeds there.
-/

namespace ApiAtlas.Resolver.Textual

variable {β : Type} {next : Next β} {text rest : List Char} {result : β}

/-! ## Taken parts -/

theorem orElse_eq_some {first : Option β} {second : Unit → Option β}
    (h : orElse first second = some result) : first = some result ∨ second () = some result := by
  cases first with
  | none => exact .inr h
  | some b => exact .inl h

theorem run_eq_some {p : Char → Bool} (h : run p next text = some result) :
    ∃ front rest, text = front ++ rest ∧ (∀ c ∈ front, p c = true) ∧ next rest = some result := by
  induction text with
  | nil => exact ⟨[], [], rfl, by simp, h⟩
  | cons c text ih =>
      have hhere : next (c :: text) = some result →
          ∃ front rest, c :: text = front ++ rest ∧ (∀ c ∈ front, p c = true) ∧
            next rest = some result :=
        fun hnext => ⟨[], c :: text, rfl, by simp, hnext⟩
      rw [run] at h
      split at h
      · next hc =>
        rcases orElse_eq_some h with hmore | hnext
        · obtain ⟨front, rest, rfl, hfront, hrest⟩ := ih hmore
          exact ⟨c :: front, rest, rfl, List.forall_mem_cons.mpr ⟨hc, hfront⟩, hrest⟩
        · exact hhere hnext
      · exact hhere h

theorem literal_eq_some {expected : String} (h : literal expected next text = some result) :
    ∃ rest, text = expected.toList ++ rest ∧ next rest = some result := by
  obtain ⟨rest, hrest, hnext⟩ := Option.bind_eq_some_iff.mp h
  exact ⟨rest, Text.dropHead?_eq_some_iff.mp hrest, hnext⟩

theorem inParentheses_eq_some {next : List Char → Next β}
    (h : inParentheses next text = some result) :
    ∃ b inside args rest, text = b ++ '(' :: inside ∧ Text.Blank b ∧
      arguments? (inside.length + 1) [] inside = some (args, rest) ∧
      next args rest = some result := by
  obtain ⟨b, behind, rfl, hb, hmark⟩ := run_eq_some h
  obtain ⟨inside, rfl, hargs⟩ := literal_eq_some hmark
  obtain ⟨⟨args, rest⟩, hread, hnext⟩ := Option.bind_eq_some_iff.mp hargs
  exact ⟨b, inside, args, rest, rfl, hb, hread, hnext⟩

theorem inParentheses_ne_none {next : List Char → Next β} (h : inParentheses next text ≠ none) :
    ∃ b inside, text = b ++ '(' :: inside ∧ Text.Blank b := by
  obtain ⟨result, hresult⟩ := Option.ne_none_iff_exists'.mp h
  obtain ⟨b, inside, _, _, htext, hb, _⟩ := inParentheses_eq_some hresult
  exact ⟨b, inside, htext, hb⟩

theorem oneOf_eq_some {names : List String} {next : String → Next β}
    (h : oneOf names next text = some result) :
    ∃ name ∈ names, ∃ rest, text = name.toList ++ rest ∧ next name rest = some result := by
  obtain ⟨name, hname, hread⟩ := List.exists_of_findSome?_eq_some h
  obtain ⟨rest, htext, hnext⟩ := literal_eq_some hread
  exact ⟨name, hname, rest, htext, hnext⟩

/-! ## Parts that are taken -/

theorem run_append {p : Char → Bool} {front : List Char} (hfront : ∀ c ∈ front, p c = true)
    (hrest : Text.Stops p rest) (h : next rest = some result) :
    run p next (front ++ rest) = some result := by
  induction front with
  | nil =>
      cases rest with
      | nil => exact h
      | cons c rest =>
          rw [List.nil_append, run, if_neg (by simp [Text.stops_cons.mp hrest])]
          exact h
  | cons c front ih =>
      rw [List.cons_append, run, if_pos (hfront c List.mem_cons_self),
        ih fun d hd => hfront d (List.mem_cons_of_mem c hd)]
      rfl

theorem run1_append {p : Char → Bool} {front : List Char} (hne : front ≠ [])
    (hfront : ∀ c ∈ front, p c = true) (hrest : Text.Stops p rest)
    (h : next rest = some result) : run1 p next (front ++ rest) = some result := by
  cases front with
  | nil => exact absurd rfl hne
  | cons c front =>
      rw [List.cons_append, run1, if_pos (hfront c List.mem_cons_self)]
      exact run_append (fun d hd => hfront d (List.mem_cons_of_mem c hd)) hrest h

theorem literal_append (expected : String) (next : Next β) (rest : List Char) :
    literal expected next (expected.toList ++ rest) = next rest := by
  unfold literal
  rw [Text.dropHead?_append]
  rfl

theorem literal_at_of_ne {c : Char} (hc : c ≠ '@') (next : Next β) (rest : List Char) :
    literal "@" next (c :: rest) = none := by
  rw [Option.eq_none_iff_forall_ne_some]
  intro result hresult
  obtain ⟨tail, htext, -⟩ := literal_eq_some hresult
  exact hc (List.cons.inj htext).1

/-- Arguments without parentheses reach to the first one. -/
theorem arguments?_append {args : List Char} (hargs : ∀ c ∈ args, c ≠ '(' ∧ c ≠ ')')
    (rest : List Char) : ∀ (fuel : Nat) (done : List Char), args.length < fuel →
    arguments? fuel done (args ++ ')' :: rest) = some (done.reverse ++ args, rest) := by
  induction args with
  | nil =>
      intro fuel done hfuel
      cases fuel with
      | zero => exact absurd hfuel (Nat.not_lt_zero _)
      | succ fuel => simp [arguments?]
  | cons c args ih =>
      intro fuel done hfuel
      cases fuel with
      | zero => exact absurd hfuel (Nat.not_lt_zero _)
      | succ fuel =>
          obtain ⟨hopen, hclose⟩ := hargs c List.mem_cons_self
          have hrest := ih (fun d hd => hargs d (List.mem_cons_of_mem c hd)) fuel (c :: done)
            (by simpa using hfuel)
          rw [List.cons_append, arguments?, hrest]
          · simp
          · exact hclose
          · exact hopen

theorem inParentheses_append {next : List Char → Next β} {args : List Char}
    (hargs : ∀ c ∈ args, c ≠ '(' ∧ c ≠ ')') (h : next args rest = some result) :
    inParentheses next ('(' :: (args ++ ')' :: rest)) = some result := by
  have hread := arguments?_append hargs rest ((args ++ ')' :: rest).length + 1) []
    (by rw [List.length_append]; omega)
  have hnone : ∀ c ∈ ([] : List Char), Text.isBlank c = true := by simp
  have hmark : literal "(" (fun inside => (arguments? (inside.length + 1) [] inside).bind
      fun r => next r.1 r.2) ('(' :: (args ++ ')' :: rest)) = some result := by
    refine (literal_append "(" _ (args ++ ')' :: rest)).trans ?_
    rw [hread]
    exact h
  exact run_append hnone (Text.stops_cons.mpr (by decide)) hmark

/-- The name that is taken is the only one that leads to a parenthesis. -/
theorem oneOf_append {names : List String} {next : String → Next β} {name : String}
    (hnames : ∀ n ∈ names, ∀ c ∈ n.toList, Text.isWord c = true) (hname : name ∈ names)
    (hnext : ∀ n behind, next n behind ≠ none →
      ∃ b inside, behind = b ++ '(' :: inside ∧ Text.Blank b)
    (h : next name ('(' :: rest) = some result) :
    oneOf names next (name.toList ++ '(' :: rest) = some result := by
  have hout : ∀ {n : List Char}, (∀ c ∈ n, Text.isWord c = true) → '(' ∉ n :=
    fun hn => Text.not_mem_of_forall hn (by decide)
  have hunique : ∀ found, oneOf names next (name.toList ++ '(' :: rest) = some found →
      found = result := by
    intro found hfound
    obtain ⟨n, hn, behind, htext, hread⟩ := oneOf_eq_some hfound
    obtain ⟨b, inside, rfl, hb⟩ := hnext n behind (by rw [hread]; simp)
    have hboth : name.toList ++ '(' :: rest = (n.toList ++ b) ++ '(' :: inside := by
      rw [htext, List.append_assoc]
    have hopen : '(' ∉ n.toList ++ b := by
      rw [List.mem_append, not_or]
      exact ⟨hout (hnames n hn), hb.not_mem (by decide)⟩
    have hcut := Text.append_cons_inj hboth (hout (hnames name hname)) hopen
    -- no blank stands before the parenthesis, since the name has none
    have hnil : b = [] := by
      cases b with
      | nil => rfl
      | cons c b =>
          have hmem : c ∈ name.toList := hcut.1 ▸ List.mem_append_right _ List.mem_cons_self
          have hword := hnames name hname c hmem
          rw [Text.not_isWord_of_isBlank (hb c List.mem_cons_self)] at hword
          exact absurd hword Bool.false_ne_true
    obtain rfl : n = name := by
      have := hcut.1
      rw [hnil, List.append_nil] at this
      exact String.toList_injective this.symm
    rw [hnil, List.nil_append, ← hcut.2, h] at hread
    exact (Option.some.inj hread).symm
  cases hfound : oneOf names next (name.toList ++ '(' :: rest) with
  | some found => rw [hunique found hfound]
  | none =>
      have hnone := List.findSome?_eq_none_iff.mp hfound name hname
      rw [literal_append, h] at hnone
      exact absurd hnone (by simp)

end ApiAtlas.Resolver.Textual
