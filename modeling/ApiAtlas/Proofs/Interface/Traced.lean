import ApiAtlas.Proofs.Interface.Block
import ApiAtlas.Proofs.Interface.Opaque
set_option autoImplicit false

/-!
# Interface: what is read lies in blocks

A method is read where its declaration stands, at a word start in the body of a block.  So
everything that is read from a definition can be traced to a block of its stripped text, and a block
that never closes, which the only warning names, contributes nothing, nor does the text behind its
head.
-/

namespace ApiAtlas.Interface

/-! ## Methods -/

/-- The text is the declaration of a method: the keyword, blanks, the name, the input in
parentheses, the keyword before the result, and the output in parentheses; blanks may stand before
each parenthesis that opens and before the second keyword. -/
def IsDeclaration (s : Signature) (text : List Char) : Prop :=
  ∃ gap₁ gap₂ gap₃ gap₄,
    text = "rpc".toList ++ (gap₁ ++ (s.name ++ (gap₂ ++ '(' :: (s.input ++ ')' ::
      (gap₃ ++ ("returns".toList ++ (gap₄ ++ '(' :: (s.output ++ [')'])))))))) ∧
    gap₁ ≠ [] ∧ Text.Blank gap₁ ∧ Text.Blank gap₂ ∧ Text.Blank gap₃ ∧ Text.Blank gap₄ ∧
    (s.name ≠ [] ∧ ∀ c ∈ s.name, Text.isWord c = true) ∧
    (s.input ≠ [] ∧ ')' ∉ s.input) ∧ s.output ≠ [] ∧ ')' ∉ s.output

/-- A declaration of a method in a text. -/
structure Declared where
  /-- All of the text before the declaration. -/
  front : List Char
  here : List Char
  signature : Signature
  /-- All of the text behind the declaration. -/
  after : List Char
  wordStart : WordStart front
  isDeclaration : IsDeclaration signature here

/-- The text that the declaration stands in. -/
def Declared.text (d : Declared) : List Char := d.front ++ (d.here ++ d.after)

theorem inParentheses?_eq_some {text inside after : List Char}
    (h : inParentheses? text = some (inside, after)) :
    ∃ gap, text = gap ++ '(' :: (inside ++ ')' :: after) ∧ Text.Blank gap ∧ inside ≠ [] ∧
      ')' ∉ inside := by
  rw [inParentheses?_eq] at h
  obtain ⟨rest, hmark, henclosed⟩ := Option.bind_eq_some_iff.mp h
  obtain ⟨gap, rfl, hgap⟩ := behindMark?_eq_some hmark
  by_cases hclosed : ')' ∈ rest
  · obtain ⟨inside', after', rfl, hinside⟩ := exists_first_parenthesis hclosed
    rw [enclosed?_append hinside] at henclosed
    split at henclosed
    · cases henclosed
    · next hne =>
      obtain ⟨rfl, rfl⟩ := Prod.mk.inj (Option.some.inj henclosed)
      exact ⟨gap, rfl, hgap, by simpa using hne, hinside⟩
  · rw [enclosed?_eq_none hclosed] at henclosed
    cases henclosed

/-- What is read as a method is its declaration. -/
theorem methodHere?_eq_some {text after : List Char} {s : Signature}
    (h : methodHere? text = some (s, after)) :
    ∃ here, IsDeclaration s here ∧ text = here ++ after := by
  unfold methodHere? at h
  simp only [Option.bind_eq_bind, Option.bind_eq_some_iff] at h
  obtain ⟨r₁, hkeyword, r₂, hblanks, ⟨name, r₃⟩, hword, ⟨input, r₄⟩, hinput, r₅, hreturns,
    ⟨output, r₆⟩, houtput, hresult⟩ := h
  obtain ⟨rfl, rfl⟩ := Prod.mk.inj (Option.some.inj hresult)
  obtain ⟨gap₁, rfl, hgap₁⟩ := behindBlanks?_eq_some hblanks
  obtain ⟨rfl, hname⟩ := word?_eq_some hword
  obtain ⟨gap₂, rfl, hgap₂, hin⟩ := inParentheses?_eq_some hinput
  obtain ⟨gap₃, rfl, hgap₃⟩ := behindKeyword?_eq_some hreturns
  obtain ⟨gap₄, rfl, hgap₄, hout⟩ := inParentheses?_eq_some houtput
  refine ⟨_, ⟨gap₁, gap₂, gap₃, gap₄, rfl, behindBlanks?_ne_nil hblanks, hgap₁, hgap₂, hgap₃,
    hgap₄, ⟨word?_ne_nil hword, hname⟩, hin, hout⟩, ?_⟩
  rw [Text.dropHead?_eq_some_iff.mp hkeyword]
  simp

theorem IsDeclaration.getLast? {s : Signature} {here : List Char} (h : IsDeclaration s here)
    (front : List Char) : (front ++ here).getLast? = some ')' := by
  obtain ⟨gap₁, gap₂, gap₃, gap₄, rfl, _⟩ := h
  simp [List.getLast?_append, List.getLast?_cons]

/-- Every method that is read from a place on is declared in the text. -/
theorem methodsFrom_declared {front rest : List Char} {s : Signature}
    (h : s ∈ methodsFrom front.getLast? rest) :
    ∃ d : Declared, d.text = front ++ rest ∧ d.signature = s := by
  induction hlength : rest.length using Nat.strongRecOn generalizing front rest with
  | _ length ih =>
      cases rest with
      | nil => cases h
      | cons c rest =>
          rw [methodsFrom_cons] at h
          split at h
          · next s' after hfound =>
            split at hfound
            · cases hfound
            · next hword =>
              obtain ⟨here, hdeclared, htext⟩ := methodHere?_eq_some hfound
              rcases List.mem_cons.mp h with rfl | hmore
              · exact ⟨⟨front, here, s, after, Bool.eq_false_iff.mpr hword, hdeclared⟩,
                  by rw [Declared.text, htext], rfl⟩
              · have hshort := methodHere?_length hfound
                rw [← hdeclared.getLast? front] at hmore
                obtain ⟨d, hd, hs⟩ := ih _ (hlength ▸ hshort) hmore rfl
                exact ⟨d, by rw [hd, htext, List.append_assoc], hs⟩
          · rw [← List.getLast?_concat (l := front) (a := c)] at h
            obtain ⟨d, hd, hs⟩ := ih _ (hlength ▸ Nat.lt_succ_self _) h rfl
            exact ⟨d, by rw [hd, concat_append], hs⟩

theorem methodsOf_declared {body : List Char} {s : Signature} (h : s ∈ methodsOf body) :
    ∃ d : Declared, d.text = body ∧ d.signature = s :=
  @methodsFrom_declared [] body s h

/-! ## Definitions -/

/-- **The services of a definition are its blocks.**  The search ends by itself, whatever the text.
What it reads are blocks that lie one behind the other in the stripped text, each closed by the
first brace that can close it; no head outside of them is passed over.  Every method is declared in
the body of the block that gives it its service.  There is a warning only for a block that never
closes, and everything that is read lies before the head of that block. -/
theorem read_scanned (file : SourceFile) :
    let text := stripComments file.content.toList
    (∀ fuel, text.length < fuel → servicesWithin fuel none text = services text) ∧
    ∃ (blocks : List Block) (unclosed : Option Opening), Scanned 0 text blocks unclosed ∧
      (read file).warnings =
        (unclosed.map fun u => unbalancedWarning file.path (String.ofList u.name)).toList ∧
      (read file).entities =
        blocks.flatMap (fun b =>
          (methodsOf b.body).map (method file.path (packageOf text) b.name)) ∧
      ∀ m ∈ (read file).entities, ∃ b ∈ blocks, ∃ d : Declared, d.text = b.body ∧
        m = method file.path (packageOf text) b.name d.signature := by
  intro text
  refine ⟨fun fuel hfuel => servicesWithin_eq none hfuel, ?_⟩
  obtain ⟨blocks, unclosed, hscanned, hservices⟩ := servicesFrom_scanned [] text
  have hfound : services text = (blocks.map Block.service, unclosed.map Opening.name) := hservices
  have hentities : (read file).entities = blocks.flatMap (fun b =>
      (methodsOf b.body).map (method file.path (packageOf text) b.name)) := by
    simp only [read]
    rw [hfound, List.flatMap_map]
    rfl
  refine ⟨blocks, unclosed, hscanned, ?_, hentities, ?_⟩
  · simp only [read]
    rw [hfound, Option.map_map]
    rfl
  · intro m hm
    rw [hentities] at hm
    obtain ⟨b, hb, hmethods⟩ := List.mem_flatMap.mp hm
    obtain ⟨s, hs, rfl⟩ := List.mem_map.mp hmethods
    obtain ⟨d, hd, rfl⟩ := methodsOf_declared hs
    exact ⟨b, hb, d, hd, rfl⟩

/-- A service with braces in its body, one that never closes, and one behind it. -/
def unbalancedFile : SourceFile :=
  { path := "a.proto"
    content := "service A \x7b option é = \x7b \x7d; rpc M(B) returns (C); \x7d /* service \x7b */ "
      ++ "service Open \x7b rpc N(B) returns (C); service Z \x7b rpc O(B) returns (C); \x7d"
    kind := .interfaceDefinition }

theorem read_scanned_unbalanced :
    (read unbalancedFile).entities.map (·.id) = ["grpc:A.M"] ∧
      servicesWithin 1000 none (stripComments unbalancedFile.content.toList) =
        services (stripComments unbalancedFile.content.toList) ∧
      ∃ blocks u, Scanned 0 (stripComments unbalancedFile.content.toList) blocks (some u) := by
  obtain ⟨hends, blocks, unclosed, hscanned, hwarnings, -⟩ := read_scanned unbalancedFile
  refine ⟨by decide +kernel, hends 1000 (by decide +kernel), ?_⟩
  cases unclosed with
  | none => exact absurd hwarnings (by decide +kernel)
  | some u => exact ⟨blocks, u, hscanned⟩

end ApiAtlas.Interface
