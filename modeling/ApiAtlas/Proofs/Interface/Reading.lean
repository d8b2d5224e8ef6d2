import ApiAtlas.Proofs.Interface.Layout
set_option autoImplicit false

/-!
# Interface: reading tokens between blanks

Each reader finds its tokens in a text that is tokens between blanks, and leaves a text that is the
other tokens between blanks.  What a name is does not matter: a keyword is recognised by its place,
so services, methods and types may be called like one.
-/

namespace ApiAtlas.Interface

/-! ## Visible tokens -/

/-- The token is not empty and has no blank. -/
def Visible (t : Token) : Prop := t ≠ [] ∧ ∀ c ∈ t, Text.isBlank c = false

instance (t : Token) : Decidable (Visible t) :=
  @instDecidableAnd _ _ inferInstance (List.decidableBAll _ t)

theorem Visible.stops {t : Token} (h : Visible t) (rest : List Char) :
    Text.Stops Text.isBlank (t ++ rest) :=
  .of_forall h.1 h.2 rest

theorem visible_word (name : Text.Word) : Visible name.chars :=
  ⟨name.ne_nil, fun c hc => Text.not_isBlank_of_isWord (name.isWord c hc)⟩

theorem DottedName.visible (name : DottedName) : Visible name.chars :=
  ⟨name.ne_nil, fun c hc => not_isBlank_of_isPackagePart (name.isPart c hc)⟩

/-! ## What readers take -/

theorem blank_takeWhile (text : List Char) : Text.Blank (text.takeWhile Text.isBlank) := by
  intro c hc
  exact List.mem_takeWhile_imp hc

theorem behindBlanks?_eq_some {text rest : List Char} (h : behindBlanks? text = some rest) :
    ∃ b, text = b ++ rest ∧ Text.Blank b := by
  cases text with
  | nil => simp [behindBlanks?] at h
  | cons c text =>
      by_cases hc : Text.isBlank c = true
      · simp only [behindBlanks?, hc, if_true, Option.some.injEq] at h
        subst h
        refine ⟨c :: text.takeWhile Text.isBlank, ?_, ?_⟩
        · rw [List.cons_append, List.takeWhile_append_dropWhile]
        · intro d hd
          rcases List.mem_cons.mp hd with rfl | hd
          · exact hc
          · exact blank_takeWhile text d hd
      · simp [behindBlanks?, hc] at h

theorem word?_eq_some {text word rest : List Char} (h : word? text = some (word, rest)) :
    text = word ++ rest ∧ ∀ c ∈ word, Text.isWord c = true := by
  simp only [word?] at h
  split at h
  · exact absurd h (by simp)
  · simp only [Option.some.injEq, Prod.mk.injEq] at h
    obtain ⟨rfl, rfl⟩ := h
    exact ⟨List.takeWhile_append_dropWhile.symm, fun c hc => List.mem_takeWhile_imp hc⟩

theorem behindMark?_eq_some {mark : Char} {text rest : List Char}
    (h : behindMark? mark text = some rest) : ∃ b, text = b ++ mark :: rest ∧ Text.Blank b := by
  unfold behindMark? at h
  split at h
  · next c more hdrop =>
    split at h
    · next hmark =>
      obtain rfl := beq_iff_eq.mp hmark
      obtain rfl := Option.some.inj h
      refine ⟨text.takeWhile Text.isBlank, ?_, blank_takeWhile text⟩
      rw [← hdrop, List.takeWhile_append_dropWhile]
    · exact absurd h (by simp)
  · exact absurd h (by simp)

theorem behindKeyword?_eq_some {keyword : String} {text rest : List Char}
    (h : behindKeyword? keyword text = some rest) :
    ∃ b, text = b ++ (keyword.toList ++ rest) ∧ Text.Blank b := by
  unfold behindKeyword? at h
  refine ⟨text.takeWhile Text.isBlank, ?_, blank_takeWhile text⟩
  rw [← Text.dropHead?_eq_some_iff.mp h, List.takeWhile_append_dropWhile]

/-- A service head: its keyword, blanks, its name, and blanks before the brace. -/
theorem serviceHere?_eq_some {text name body : List Char}
    (h : serviceHere? text = some (name, body)) :
    ∃ b b', text = "service".toList ++ (b ++ (name ++ (b' ++ '{' :: body))) ∧
      Text.Blank b ∧ Text.Blank b' ∧ ∀ c ∈ name, Text.isWord c = true := by
  unfold serviceHere? at h
  simp only [Option.bind_eq_bind, Option.bind_eq_some_iff] at h
  obtain ⟨r₁, hkeyword, r₂, hblanks, ⟨word, r₃⟩, hword, r₄, hmark, hresult⟩ := h
  obtain ⟨rfl, rfl⟩ : word = name ∧ r₄ = body := by simpa using hresult
  obtain ⟨b, rfl, hb⟩ := behindBlanks?_eq_some hblanks
  obtain ⟨rfl, hname⟩ := word?_eq_some hword
  obtain ⟨b', rfl, hb'⟩ := behindMark?_eq_some hmark
  exact ⟨b, b', Text.dropHead?_eq_some_iff.mp hkeyword, hb, hb', hname⟩

/-- A package declaration: a name, and blanks before the semicolon. -/
theorem packageHere?_eq_some {text name : List Char} (h : packageHere? text = some name) :
    ∃ front b rest, text = front ++ (name ++ (b ++ ';' :: rest)) ∧ Text.Blank b ∧ name ≠ [] ∧
      ∀ c ∈ name, isPackagePart c = true := by
  unfold packageHere? at h
  simp only [Option.bind_eq_bind, Option.bind_eq_some_iff] at h
  obtain ⟨r₁, hkeyword, r₂, hblanks, hname⟩ := h
  split at hname
  · exact absurd hname (by simp)
  · next hne =>
    obtain ⟨r₃, hmark, hresult⟩ := Option.bind_eq_some_iff.mp hname
    obtain rfl : r₂.takeWhile isPackagePart = name := by simpa using hresult
    obtain ⟨b₀, rfl, _⟩ := behindKeyword?_eq_some hkeyword
    obtain ⟨b₁, rfl, _⟩ := behindBlanks?_eq_some hblanks
    obtain ⟨b, hdrop, hb⟩ := behindMark?_eq_some hmark
    refine ⟨b₀ ++ ("package".toList ++ b₁), b, r₃, ?_, hb, by simpa using hne,
      fun c hc => List.mem_takeWhile_imp hc⟩
    rw [← hdrop, List.takeWhile_append_dropWhile]
    simp

/-! ## Readers -/

/-- What a reader leaves: a rest of the text, with a blank ahead, that is the tokens still to be
read. -/
structure Leaves (ts : List Token) (text rest : List Char) : Prop where
  suffix : rest <:+ text
  ahead : BlankAhead rest
  spaced : Spaced ts rest

theorem Leaves.trans {ts us : List Token} {text mid rest : List Char} (h : Leaves us text mid)
    (h' : Leaves ts mid rest) : Leaves ts text rest :=
  ⟨h'.suffix.trans h.suffix, h'.ahead, h'.spaced⟩

theorem behindBlanks?_append {b rest : List Char} (hb : Text.Blank b) (hne : b ≠ [])
    (hrest : Text.Stops Text.isBlank rest) : behindBlanks? (b ++ rest) = some rest := by
  cases b with
  | nil => exact absurd rfl hne
  | cons c b =>
      have hc : Text.isBlank c = true := hb c List.mem_cons_self
      have hdrop := Text.dropWhile_run (fun d hd => hb d (List.mem_cons_of_mem c hd)) hrest
      simp [behindBlanks?, hc, hdrop]

namespace Spaced

variable {ts : List Token} {t : Token} {text : List Char}

/-- The first token with the blanks before it, of which there are some if there is one ahead. -/
theorem first (h : Spaced (t :: ts) text) (ht : Visible t) :
    ∃ b rest, text = b ++ (t ++ rest) ∧ Text.Blank b ∧ (BlankAhead text → b ≠ []) ∧
      text.dropWhile Text.isBlank = t ++ rest ∧ Leaves ts text rest := by
  obtain ⟨b, rest, hb, rfl, hahead, hrest⟩ := h.cons_inv
  refine ⟨b, rest, rfl, hb, ?_, Text.dropWhile_run hb (ht.stops rest), ⟨b ++ t, by simp⟩, hahead,
    hrest⟩
  rintro hblank rfl
  obtain ⟨hne, hvisible⟩ := ht
  cases t with
  | nil => exact hne rfl
  | cons c t =>
      have hc := hblank c rfl
      rw [hvisible c List.mem_cons_self] at hc
      exact Bool.false_ne_true hc

theorem behindBlanks (h : Spaced (t :: ts) text) (ht : Visible t) (hahead : BlankAhead text) :
    ∃ rest, behindBlanks? text = some (t ++ rest) ∧ Leaves ts text rest := by
  obtain ⟨b, rest, rfl, hb, hne, _, hleaves⟩ := h.first ht
  exact ⟨rest, behindBlanks?_append hb (hne hahead) (ht.stops rest), hleaves⟩

theorem behindKeyword {keyword : String} (h : Spaced (keyword.toList :: ts) text)
    (hkeyword : Visible keyword.toList) :
    ∃ rest, behindKeyword? keyword text = some rest ∧ Leaves ts text rest := by
  obtain ⟨b, rest, _, _, _, hdrop, hleaves⟩ := h.first hkeyword
  refine ⟨rest, ?_, hleaves⟩
  unfold behindKeyword?
  rw [hdrop, Text.dropHead?_append]

theorem behindMark {mark : Char} (h : Spaced ([mark] :: ts) text) (hmark : Visible [mark]) :
    ∃ rest, behindMark? mark text = some rest ∧ Leaves ts text rest := by
  obtain ⟨b, rest, _, _, _, hdrop, hleaves⟩ := h.first hmark
  refine ⟨rest, ?_, hleaves⟩
  unfold behindMark?
  rw [hdrop]
  simp

/-- A name behind a keyword. -/
theorem name {name : Text.Word} (h : Spaced (name.chars :: ts) text) (hahead : BlankAhead text) :
    ∃ here rest, behindBlanks? text = some here ∧ word? here = some (name.chars, rest) ∧
      Leaves ts text rest := by
  obtain ⟨rest, hblanks, hleaves⟩ := h.behindBlanks (visible_word name) hahead
  refine ⟨name.chars ++ rest, rest, hblanks, ?_, hleaves⟩
  have hstops := hleaves.ahead.stops
  unfold word?
  rw [Text.takeWhile_run name.isWord hstops, Text.dropWhile_run name.isWord hstops]
  simp [name.ne_nil]

end Spaced

/-! ## Types -/

theorem intercalate_singleton (sep word : List Char) : sep.intercalate [word] = word := by
  simp [List.intercalate]

/-- A name is no qualifier: nothing follows it. -/
theorem behindStream?_of_visible {text : List Char} (h : ∀ c ∈ text, Text.isBlank c = false) :
    behindStream? text = none := by
  have hrest : behindBlanks? (text.drop "stream".toList.length) = none := by
    unfold behindBlanks?
    split
    · next c rest hdrop =>
      have hc : c ∈ text := List.mem_of_mem_drop (hdrop ▸ List.mem_cons_self)
      simp [h c hc]
    · rfl
  simp only [behindStream?]
  split
  · exact hrest
  · rfl

theorem behindStream?_append {rest : List Char} :
    behindStream? ("stream".toList ++ rest) = behindBlanks? rest := by
  simp [behindStream?, isLetter]

theorem typeName_of_blank {front back : List Char} (hfront : Text.Blank front)
    (hback : Text.Blank back) (name : DottedName) :
    typeName (front ++ (name.chars ++ back)) = name.chars := by
  obtain ⟨hne, hvisible⟩ := name.visible
  have htrim : Text.trim (front ++ (name.chars ++ back)) = name.chars := by
    apply Text.trim_of_blank hfront hback _ _ hne
    · simpa using name.visible.stops []
    · have hreverse : Visible name.chars.reverse := ⟨by simp [hne], by simpa using hvisible⟩
      simpa using hreverse.stops []
  simp only [typeName]
  rw [htrim, behindStream?_of_visible hvisible, Option.getD_none,
    Text.words_of_visible hvisible hne, intercalate_singleton]

theorem typeName_of_stream {front gap back : List Char} (hfront : Text.Blank front)
    (hgap : Text.Blank gap) (hne : gap ≠ []) (hback : Text.Blank back) (name : DottedName) :
    typeName (front ++ ("stream".toList ++ (gap ++ (name.chars ++ back)))) = name.chars := by
  obtain ⟨hname, hvisible⟩ := name.visible
  have htrim : Text.trim (front ++ (("stream".toList ++ (gap ++ name.chars)) ++ back)) =
      "stream".toList ++ (gap ++ name.chars) := by
    apply Text.trim_of_blank hfront hback
    · exact Visible.stops (by decide) _
    · have hreverse : Visible name.chars.reverse := ⟨by simp [hname], by simpa using hvisible⟩
      simpa using hreverse.stops (gap.reverse ++ "stream".toList.reverse)
    · simp
  have hbehind : behindBlanks? (gap ++ name.chars) = some name.chars := by
    refine behindBlanks?_append hgap hne ?_
    simpa using name.visible.stops []
  have hraw : front ++ ("stream".toList ++ (gap ++ (name.chars ++ back))) =
      front ++ (("stream".toList ++ (gap ++ name.chars)) ++ back) := by simp
  simp only [typeName]
  rw [hraw, htrim, behindStream?_append, hbehind, Option.getD_some,
    Text.words_of_visible hvisible hname, intercalate_singleton]

namespace Spaced

variable {ts : List Token} {text : List Char}

/-- The text of a type up to the parenthesis behind it. -/
theorem type {t : TypeUse} (h : Spaced (t.tokens ++ [')'] :: ts) text) :
    ∃ raw rest, text = raw ++ ')' :: rest ∧ ')' ∉ raw ∧ raw ≠ [] ∧
      typeName raw = t.name.chars ∧ Leaves ts text rest := by
  have hblank : ∀ {b : List Char}, Text.Blank b → ')' ∉ b := fun hb => hb.not_mem (by decide)
  have hname : ')' ∉ t.name.chars := by
    intro hmem
    exact absurd (t.name.isPart _ hmem) (by decide)
  unfold TypeUse.tokens at h
  split at h
  · obtain ⟨b₁, r₁, rfl, hb₁, _, _, h₁⟩ := h.first (by decide)
    obtain ⟨b₂, r₂, rfl, hb₂, hne₂, _, h₂⟩ := h₁.spaced.first t.name.visible
    obtain ⟨b₃, r₃, rfl, hb₃, _, _, h₃⟩ := h₂.spaced.first (by decide)
    refine ⟨b₁ ++ ("stream".toList ++ (b₂ ++ (t.name.chars ++ b₃))), r₃, by simp, ?_, by simp,
      typeName_of_stream hb₁ hb₂ (hne₂ h₁.ahead) hb₃ t.name, (h₁.trans h₂).trans h₃⟩
    simp only [List.mem_append, not_or]
    exact ⟨hblank hb₁, by decide, hblank hb₂, hname, hblank hb₃⟩
  · obtain ⟨b₁, r₁, rfl, hb₁, _, _, h₁⟩ := h.first t.name.visible
    obtain ⟨b₂, r₂, rfl, hb₂, _, _, h₂⟩ := h₁.spaced.first (by decide)
    refine ⟨b₁ ++ (t.name.chars ++ b₂), r₂, by simp, ?_, by simp [t.name.ne_nil],
      typeName_of_blank hb₁ hb₂ t.name, h₁.trans h₂⟩
    simp only [List.mem_append, not_or]
    exact ⟨hblank hb₁, hname, hblank hb₂⟩

theorem inParentheses {t : TypeUse} (h : Spaced (['('] :: (t.tokens ++ [')'] :: ts)) text) :
    ∃ raw rest, inParentheses? text = some (raw, rest) ∧ typeName raw = t.name.chars ∧
      Leaves ts text rest := by
  obtain ⟨r₁, hmark, h₁⟩ := h.behindMark (by decide)
  obtain ⟨raw, rest, rfl, hraw, hne, htype, h₂⟩ := h₁.spaced.type
  refine ⟨raw, rest, ?_, htype, h₁.trans h₂⟩
  have hinside : ∀ c ∈ raw, (c != ')') = true := by
    intro c hc
    rw [bne_iff_ne]
    rintro rfl
    exact hraw hc
  have hstops : Text.Stops (· != ')') (')' :: rest) := Text.stops_cons.mpr (by simp)
  unfold inParentheses?
  simp only [hmark, Option.bind_eq_bind, Option.bind_some, Text.takeWhile_run hinside hstops,
    Text.dropWhile_run hinside hstops]
  simp [hne]

end Spaced

/-! ## Methods -/

/-- The signature is that of the declared method. -/
structure MethodDeclaration.Read (m : MethodDeclaration) (s : Signature) : Prop where
  name : s.name = m.name.chars
  input : typeName s.input = m.input.name.chars
  output : typeName s.output = m.output.name.chars

namespace Spaced

variable {ts : List Token} {text : List Char}

theorem method {m : MethodDeclaration} (h : Spaced (m.tokens ++ ts) text) :
    ∃ b here s rest, text = b ++ ("rpc".toList ++ here) ∧ Text.Blank b ∧
      methodHere? ("rpc".toList ++ here) = some (s, rest) ∧ m.Read s ∧
      Leaves ([';'] :: ts) here rest := by
  unfold MethodDeclaration.tokens MethodDeclaration.openTokens at h
  simp only [List.cons_append, List.append_assoc, List.nil_append] at h
  obtain ⟨b, here, htext, hb, _, _, h₁⟩ := h.first (by decide)
  obtain ⟨named, r₂, hblanks, hword, h₂⟩ := h₁.spaced.name h₁.ahead
  obtain ⟨input, r₃, hinput, hin, h₃⟩ := h₂.spaced.inParentheses
  obtain ⟨r₄, hreturns, h₄⟩ := h₃.spaced.behindKeyword (by decide)
  obtain ⟨output, r₅, houtput, hout, h₅⟩ := h₄.spaced.inParentheses
  refine ⟨b, here, ⟨m.name.chars, input, output⟩, r₅, htext, hb, ?_, ⟨rfl, hin, hout⟩,
    ((h₂.trans h₃).trans h₄).trans h₅⟩
  unfold methodHere?
  rw [Text.dropHead?_append]
  simp [hblanks, hword, hinput, hreturns, houtput]

end Spaced

/-! ## Services and packages -/

/-- A body without braces ends at the first one. -/
theorem bodyEnd?_append {body : List Char} (hopen : '{' ∉ body) (hclose : '}' ∉ body)
    (rest : List Char) : bodyEnd? 1 (body ++ '}' :: rest) = some (body, rest) := by
  induction body with
  | nil => rfl
  | cons c body ih =>
      rw [List.mem_cons, not_or] at hopen hclose
      have hrest := ih hopen.2 hclose.2
      simp [bodyEnd?, Ne.symm hopen.1, Ne.symm hclose.1, hrest]

namespace Spaced

variable {ts us : List Token} {text : List Char}

theorem service {d : ServiceDeclaration} (h : Spaced (d.tokens ++ ts) text) :
    ∃ b here rest, text = b ++ ("service".toList ++ here) ∧ Text.Blank b ∧
      serviceHere? ("service".toList ++ here) = some (d.name.chars, rest) ∧
      Leaves (d.methods.flatMap MethodDeclaration.tokens ++ ['}'] :: ts) here rest := by
  unfold ServiceDeclaration.tokens at h
  simp only [List.cons_append, List.append_assoc, List.nil_append] at h
  obtain ⟨b, here, htext, hb, _, _, h₁⟩ := h.first (by decide)
  obtain ⟨named, r₂, hblanks, hword, h₂⟩ := h₁.spaced.name h₁.ahead
  obtain ⟨r₃, hmark, h₃⟩ := h₂.spaced.behindMark (by decide)
  refine ⟨b, here, r₃, htext, hb, ?_, h₂.trans h₃⟩
  unfold serviceHere?
  rw [Text.dropHead?_append]
  simp [hblanks, hword, hmark]

/-- The tokens up to a brace are the body. -/
theorem body (h : Spaced (ts ++ ['}'] :: us) text) (hts : OfNames ['(', ')', ';'] ts) :
    ∃ body rest, bodyEnd? 1 text = some (body, rest) ∧ Spaced ts body ∧ Spaced us rest ∧
      rest.length < text.length := by
  obtain ⟨front, back, rfl, hfront, hback⟩ := h.split
  obtain ⟨b, rest, rfl, hb, _, _, hleaves⟩ := hback.first (by decide)
  have hbody : Spaced ts (front ++ b) := hfront.append_blank hb
  have hout : ∀ c, isPackagePart c = false → Text.isBlank c = false → c ∉ ['(', ')', ';'] →
      c ∉ front ++ b := by
    intro c hpart hblank hmarks hmem
    rcases hbody.mem hmem with hc | ⟨t, ht, hc⟩
    · rw [hblank] at hc
      exact Bool.false_ne_true hc
    · rcases hts t ht c hc with hc | hc
      · rw [hpart] at hc
        exact Bool.false_ne_true hc
      · exact hmarks hc
  refine ⟨front ++ b, rest, ?_, hbody, hleaves.spaced, by simp; omega⟩
  have hend := bodyEnd?_append (hout '{' (by decide) (by decide) (by decide))
    (hout '}' (by decide) (by decide) (by decide)) rest
  rw [← hend, List.append_assoc]
  rfl

/-- A package declaration at the front of the text, and where its semicolon stands. -/
theorem package {name : DottedName} (h : Spaced (packageTokens (some name) ++ ts) text) :
    packageHere? text = some name.chars ∧
      ∃ front rest, text = front ++ ';' :: rest ∧ '{' ∉ front ∧ Leaves ts text rest := by
  simp only [packageTokens, List.cons_append, List.nil_append] at h
  obtain ⟨b₀, r₀, rfl, hb₀, _, hdrop, h₀⟩ := h.first (by decide)
  obtain ⟨b₁, r₁, rfl, hb₁, hne₁, _, h₁⟩ := h₀.spaced.first name.visible
  obtain ⟨b₂, rest, rfl, hb₂, _, _, h₂⟩ := h₁.spaced.first (by decide)
  have hkeyword : behindKeyword? "package" (b₀ ++ ("package".toList
      ++ (b₁ ++ (name.chars ++ (b₂ ++ ([';'] ++ rest)))))) =
      some (b₁ ++ (name.chars ++ (b₂ ++ ([';'] ++ rest)))) := by
    unfold behindKeyword?
    rw [hdrop, Text.dropHead?_append]
  have hblanks := behindBlanks?_append hb₁ (hne₁ h₀.ahead)
    (name.visible.stops (b₂ ++ ([';'] ++ rest)))
  have hstops : Text.Stops isPackagePart (b₂ ++ ([';'] ++ rest)) := by
    intro c hc
    rw [← Bool.not_eq_true]
    intro hpart
    have hblank := h₁.ahead c hc
    rw [not_isBlank_of_isPackagePart hpart] at hblank
    exact Bool.false_ne_true hblank
  have hmark : behindMark? ';' (b₂ ++ ([';'] ++ rest)) = some rest := by
    unfold behindMark?
    rw [Text.dropWhile_run hb₂ (Visible.stops (by decide) rest)]
    rfl
  refine ⟨?_, b₀ ++ ("package".toList ++ (b₁ ++ (name.chars ++ b₂))), rest, by simp, ?_,
    (h₀.trans h₁).trans h₂⟩
  · unfold packageHere?
    simp only [hkeyword, hblanks, Option.bind_eq_bind, Option.bind_some,
      Text.takeWhile_run name.isPart hstops, Text.dropWhile_run name.isPart hstops, hmark]
    simp [name.ne_nil]
  · have hname : '{' ∉ name.chars := fun hmem => absurd (name.isPart _ hmem) (by decide)
    simp only [List.mem_append, not_or]
    exact ⟨hb₀.not_mem (by decide), by decide, hb₁.not_mem (by decide), hname,
      hb₂.not_mem (by decide)⟩

end Spaced

end ApiAtlas.Interface
