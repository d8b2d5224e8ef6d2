import Mathlib.Data.List.Forall2
import ApiAtlas.Proofs.Interface.Reading
set_option autoImplicit false

/-!
# Interface: reading what was written

A definition that is written in any layout is read back: every declared method is found once, in
order, with its service, its package and its types, and nothing is warned about.  Comments may hold
anything, since they are gone before anything is searched for; the searches pass over everything
that is not the head of a declaration, even where a name looks like one.
-/

namespace ApiAtlas.Interface

/-! ## Searching for methods -/

theorem methodHere?_eq_none {c : Char} (hc : c ≠ 'r') (rest : List Char) :
    methodHere? (c :: rest) = none := by
  have hhead : Text.dropHead? "rpc".toList (c :: rest) = none := by
    rw [Option.eq_none_iff_forall_ne_some]
    intro r hr
    have htext := Text.dropHead?_eq_some_iff.mp hr
    exact hc (List.cons.inj htext).1
  unfold methodHere?
  rw [hhead]
  rfl

/-- A search for methods passes over a part without word characters. -/
theorem methodsWithin_skip {front : List Char} (hfront : ∀ c ∈ front, Text.isWord c = false)
    (rest : List Char) : ∀ before : Option Char, before.any Text.isWord = false →
    ∃ last : Option Char, last.any Text.isWord = false ∧ ∀ fuel,
      methodsWithin (front.length + fuel) before (front ++ rest) =
        methodsWithin fuel last rest := by
  induction front with
  | nil =>
      intro before hbefore
      refine ⟨before, hbefore, fun fuel => ?_⟩
      rw [List.length_nil, Nat.zero_add, List.nil_append]
  | cons c front ih =>
      intro before hbefore
      have hc : Text.isWord c = false := hfront c List.mem_cons_self
      obtain ⟨last, hlast, hskip⟩ := ih (fun d hd => hfront d (List.mem_cons_of_mem c hd))
        (some c) (by simpa using hc)
      refine ⟨last, hlast, fun fuel => ?_⟩
      have hnone : methodHere? (c :: (front ++ rest)) = none := by
        apply methodHere?_eq_none
        rintro rfl
        exact absurd hc (by decide)
      have hlength : (c :: front).length + fuel = (front.length + fuel) + 1 := by
        rw [List.length_cons]
        omega
      rw [hlength, List.cons_append, methodsWithin]
      simp only [hbefore, hnone, ite_self]
      exact hskip fuel

theorem methodsWithin_here {fuel : Nat} {before : Option Char} {here rest : List Char}
    {s : Signature}
    (hbefore : before.any Text.isWord = false)
    (h : methodHere? ("rpc".toList ++ here) = some (s, rest)) :
    methodsWithin (fuel + 1) before ("rpc".toList ++ here) =
      s :: methodsWithin fuel (some ')') rest := by
  have htext : "rpc".toList ++ here = 'r' :: ('p' :: 'c' :: here) := rfl
  rw [htext] at h ⊢
  rw [methodsWithin]
  simp only [hbefore, h, Bool.false_eq_true, if_false]

/-- The methods of a body are those declared in it, in order. -/
theorem methodsWithin_spaced (methods : List MethodDeclaration) :
    ∀ (fuel : Nat) (before : Option Char) {text : List Char},
      Spaced (methods.flatMap MethodDeclaration.tokens) text → text.length ≤ fuel →
      before.any Text.isWord = false →
      List.Forall₂ MethodDeclaration.Read methods (methodsWithin fuel before text) := by
  have hblank : ∀ {b : List Char}, Text.Blank b → ∀ c ∈ b, Text.isWord c = false :=
    fun hb c hc => Text.not_isWord_of_isBlank (hb c hc)
  induction methods with
  | nil =>
      intro fuel before text h hfuel hbefore
      cases h with
      | nil hb =>
          obtain ⟨last, _, hskip⟩ := methodsWithin_skip (hblank hb) [] before hbefore
          have hnone := hskip (fuel - text.length)
          rw [Nat.add_sub_cancel' hfuel, List.append_nil] at hnone
          rw [hnone]
          cases fuel - text.length <;> exact .nil
  | cons m methods ih =>
      intro fuel before text h hfuel hbefore
      rw [List.flatMap_cons] at h
      obtain ⟨b, here, s, rest, rfl, hb, hhere, hread, hleaves⟩ := h.method
      obtain ⟨b', rest', rfl, hb', _, _, hnext⟩ := hleaves.spaced.first (by decide)
      have hend : ∀ c ∈ b' ++ [';'], Text.isWord c = false := by
        intro c hc
        rcases List.mem_append.mp hc with hc | hc
        · exact hblank hb' c hc
        · obtain rfl := List.mem_singleton.mp hc
          decide
      obtain ⟨last, hlast, hskip⟩ :=
        methodsWithin_skip (hblank hb) ("rpc".toList ++ here) before hbefore
      obtain ⟨last', hlast', hskip'⟩ := methodsWithin_skip hend rest' (some ')') (by decide)
      -- a step for each character that is passed over and one for the method
      obtain ⟨left, rfl, hleft⟩ : ∃ left,
          fuel = b.length + (((b' ++ [';']).length + left) + 1) ∧ rest'.length ≤ left := by
        have hlength := hleaves.suffix.length_le
        have hrpc : "rpc".toList.length = 3 := rfl
        simp only [List.length_append, List.length_singleton] at hfuel hlength ⊢
        exact ⟨fuel - b.length - b'.length - 2, by omega, by omega⟩
      rw [hskip, methodsWithin_here hlast hhere, ← List.append_assoc, hskip']
      exact .cons hread (ih left last' hnext.spaced hleft hlast')

/-! ## Searching for services -/

/-- No service head reaches over a character that is neither of a word nor a blank. -/
theorem serviceHere?_eq_none {front : List Char} {c : Char} (hbrace : '{' ∉ front) (hc : c ∈ front)
    (hword : Text.isWord c = false) (hblank : Text.isBlank c = false) (rest : List Char) :
    serviceHere? (front ++ rest) = none := by
  rw [Option.eq_none_iff_forall_ne_some]
  rintro ⟨name, body⟩ hsome
  obtain ⟨b, b', htext, hb, hb', hname⟩ := serviceHere?_eq_some hsome
  have hhead : c ∉ "service".toList ++ (b ++ (name ++ b')) := by
    have hkeyword : ∀ d ∈ "service".toList, Text.isWord d = true :=
      List.all_eq_true.mp (by decide)
    have hout : ∀ {word : List Char}, (∀ d ∈ word, Text.isWord d = true) → c ∉ word := by
      intro word hall hmem
      rw [hall c hmem] at hword
      exact Bool.false_ne_true hword.symm
    simp only [List.mem_append, not_or]
    exact ⟨hout hkeyword, hb.not_mem hblank, hout hname, hb'.not_mem hblank⟩
  have hwhole : front ++ rest = ("service".toList ++ (b ++ (name ++ b'))) ++ '{' :: body := by
    rw [htext]
    simp
  exact hhead (Text.mem_of_append_eq hwhole hbrace hc)

theorem serviceHere?_of_blank {b : List Char} (hb : Text.Blank b) (hne : b ≠ [])
    (rest : List Char) : serviceHere? (b ++ rest) = none := by
  rw [Option.eq_none_iff_forall_ne_some]
  rintro ⟨name, body⟩ hsome
  obtain ⟨_, _, htext, _⟩ := serviceHere?_eq_some hsome
  cases b with
  | nil => exact hne rfl
  | cons c b =>
      obtain ⟨rfl, _⟩ := List.cons.inj htext
      exact absurd (hb _ List.mem_cons_self) (by decide)

/-- A search for services passes over a part in which none starts. -/
theorem nextService?_skip {front rest : List Char} (hne : front ≠ [])
    (h : ∀ v, v <:+ front → v ≠ [] → serviceHere? (v ++ rest) = none) :
    ∀ before : Option Char,
      nextService? before (front ++ rest) = nextService? front.getLast? rest := by
  induction front with
  | nil => exact absurd rfl hne
  | cons c front ih =>
      intro before
      have hnone : serviceHere? (c :: (front ++ rest)) = none :=
        h (c :: front) List.suffix_rfl (List.cons_ne_nil c front)
      rw [List.cons_append, nextService?]
      simp only [hnone, ite_self]
      cases front with
      | nil => rfl
      | cons d front =>
          rw [List.getLast?_cons_cons]
          exact ih (List.cons_ne_nil d front) (fun v hv => h v (hv.trans (List.suffix_cons c _)))
            (some c)

theorem nextService?_blank {b : List Char} (hb : Text.Blank b) (rest : List Char)
    {before : Option Char} (hbefore : before.any Text.isWord = false) :
    ∃ last : Option Char, last.any Text.isWord = false ∧
      nextService? before (b ++ rest) = nextService? last rest := by
  by_cases hne : b = []
  · exact ⟨before, hbefore, by rw [hne, List.nil_append]⟩
  · refine ⟨b.getLast?, ?_, nextService?_skip hne ?_ before⟩
    · rw [List.getLast?_eq_some_getLast hne]
      exact Text.not_isWord_of_isBlank (hb _ (List.getLast_mem hne))
    · intro v hv hv'
      exact serviceHere?_of_blank (fun c hc => hb c (hv.subset hc)) hv' rest

theorem nextService?_here {before : Option Char} {here : List Char}
    {found : List Char × List Char} (hbefore : before.any Text.isWord = false)
    (h : serviceHere? ("service".toList ++ here) = some found) :
    nextService? before ("service".toList ++ here) = some found := by
  have htext : "service".toList ++ here = 's' :: ("ervice".toList ++ here) := rfl
  rw [htext] at h ⊢
  rw [nextService?]
  simp only [hbefore, h, Bool.false_eq_true, if_false]

/-- The service is the declared one, and its body holds the declared methods. -/
structure ServiceDeclaration.Read (d : ServiceDeclaration) (s : Service) : Prop where
  name : s.name = d.name.chars
  body : Spaced (d.methods.flatMap MethodDeclaration.tokens) s.body

/-- The services of a text are those declared in it, in order, and all of them are closed. -/
theorem servicesWithin_spaced (declared : List ServiceDeclaration) :
    ∀ (fuel : Nat) (before : Option Char) {text : List Char},
      Spaced (declared.flatMap ServiceDeclaration.tokens) text → text.length < fuel →
      before.any Text.isWord = false →
      ∃ found, servicesWithin fuel before text = (found, none) ∧
        List.Forall₂ ServiceDeclaration.Read declared found := by
  induction declared with
  | nil =>
      intro fuel before text h hfuel hbefore
      obtain ⟨fuel, rfl⟩ := Nat.exists_eq_add_one_of_ne_zero (Nat.ne_zero_of_lt hfuel)
      cases h with
      | nil hb =>
          obtain ⟨last, _, hnext⟩ := nextService?_blank hb [] hbefore
          rw [List.append_nil] at hnext
          refine ⟨[], ?_, .nil⟩
          rw [servicesWithin, hnext]
          rfl
  | cons d declared ih =>
      intro fuel before text h hfuel hbefore
      obtain ⟨fuel, rfl⟩ := Nat.exists_eq_add_one_of_ne_zero (Nat.ne_zero_of_lt hfuel)
      rw [List.flatMap_cons] at h
      obtain ⟨b, here, rest, rfl, hb, hhere, hleaves⟩ := h.service
      obtain ⟨body, after, hbody, hmethods, hafter, hlength⟩ :=
        hleaves.spaced.body (.flatMap MethodDeclaration.ofNames d.methods)
      obtain ⟨last, hlast, hnext⟩ := nextService?_blank hb ("service".toList ++ here) hbefore
      have hsuffix := hleaves.suffix.length_le
      have hleft : after.length < fuel := by
        simp only [List.length_append] at hfuel
        omega
      obtain ⟨found, hfound, hread⟩ := ih fuel (some '}') hafter hleft (by decide)
      refine ⟨⟨d.name.chars, body⟩ :: found, ?_, .cons ⟨rfl, hmethods⟩ hread⟩
      rw [servicesWithin, hnext, nextService?_here hlast hhere]
      simp only [hbody, hfound]

/-! ## Searching for a package -/

/-- Every semicolon stands behind a parenthesis, with blanks between the two. -/
def Closes (text : List Char) : Prop :=
  ∀ u v, text = u ++ ';' :: v → ∃ w b, u = w ++ ')' :: b ∧ Text.Blank b

theorem closes_of_not_mem {text : List Char} (h : ';' ∉ text) : Closes text := by
  rintro u v rfl
  exact absurd (List.mem_append_right u List.mem_cons_self) h

theorem Closes.append {a b : List Char} (ha : Closes a) (hb : Closes b) : Closes (a ++ b) := by
  intro u v htext
  rcases List.append_eq_append_iff.mp htext with ⟨more, rfl, hmore⟩ | ⟨more, hmore, hrest⟩
  · obtain ⟨w, c, rfl, hc⟩ := hb more v hmore
    exact ⟨a ++ w, c, by simp, hc⟩
  · cases more with
    | nil =>
        obtain ⟨w, c, hnil, _⟩ := hb [] v hrest.symm
        exact absurd hnil.symm (by simp)
    | cons d more =>
        obtain ⟨rfl, _⟩ := List.cons.inj hrest
        exact ha u more hmore

theorem closes_semicolon {b : List Char} (hb : Text.Blank b) : Closes ((')' :: b) ++ [';']) := by
  intro u v htext
  have hout : ';' ∉ ')' :: b := by
    rw [List.mem_cons, not_or]
    exact ⟨by decide, hb.not_mem (by decide)⟩
  refine ⟨[], b, ?_, hb⟩
  rcases List.append_eq_append_iff.mp htext with ⟨more, rfl, hmore⟩ | ⟨more, hmore, hrest⟩
  · cases more with
    | nil => simp
    | cons d more => exact absurd (List.cons.inj hmore).2.symm (by simp)
  · cases more with
    | nil => simpa using hmore.symm
    | cons d more =>
        obtain ⟨rfl, _⟩ := List.cons.inj hrest
        exact absurd (hmore ▸ List.mem_append_right u List.mem_cons_self) hout

/-- Tokens without a semicolon. -/
theorem Spaced.closes_of_not_mem {ts : List Token} {text : List Char} (h : Spaced ts text)
    (hts : ∀ t ∈ ts, ';' ∉ t) : Closes text := by
  apply Interface.closes_of_not_mem
  intro hmem
  rcases h.mem hmem with hblank | ⟨t, ht, hc⟩
  · exact absurd hblank (by decide)
  · exact hts t ht hc

theorem Spaced.closes_flatMap {α : Type} {tokens : α → List Token}
    (hitem : ∀ (a : α) {text : List Char}, Spaced (tokens a) text → Closes text)
    (items : List α) : ∀ {text : List Char}, Spaced (items.flatMap tokens) text → Closes text := by
  induction items with
  | nil =>
      intro text h
      exact h.closes_of_not_mem (by simp)
  | cons a items ih =>
      intro text h
      rw [List.flatMap_cons] at h
      obtain ⟨front, back, rfl, hfront, hback⟩ := h.split
      exact (hitem a hfront).append (ih hback)

theorem MethodDeclaration.closes (m : MethodDeclaration) {text : List Char}
    (h : Spaced m.tokens text) : Closes text := by
  unfold tokens at h
  obtain ⟨front, back, rfl, hfront, hback⟩ := h.split
  obtain ⟨b₁, r₁, rfl, hb₁, _, _, h₁⟩ := hback.first (by decide)
  obtain ⟨b₂, r₂, rfl, hb₂, _, _, h₂⟩ := h₁.spaced.first (by decide)
  have hopen : Closes front := by
    apply hfront.closes_of_not_mem
    intro t ht hc
    exact (m.ofNames_open t ht _ hc).elim (fun hpart => absurd hpart (by decide))
      fun hmark => absurd hmark (by decide)
  have hlead : Closes b₁ := closes_of_not_mem (hb₁.not_mem (by decide))
  have htail : Closes r₂ := h₂.spaced.closes_of_not_mem (by simp)
  have htext : front ++ (b₁ ++ ([')'] ++ (b₂ ++ ([';'] ++ r₂)))) =
      front ++ (b₁ ++ (((')' :: b₂) ++ [';']) ++ r₂)) := by simp
  rw [htext]
  exact hopen.append (hlead.append ((closes_semicolon hb₂).append htail))

/-- In a service every semicolon ends a method. -/
theorem ServiceDeclaration.closes (d : ServiceDeclaration) {text : List Char}
    (h : Spaced d.tokens text) : Closes text := by
  have hname : ';' ∉ d.name.chars := fun hmem => absurd (d.name.isWord _ hmem) (by decide)
  have htokens : d.tokens = ["service".toList, d.name.chars, ['{']]
      ++ (d.methods.flatMap MethodDeclaration.tokens ++ [['}']]) := rfl
  rw [htokens] at h
  obtain ⟨head, back, rfl, hhead, hback⟩ := h.split
  obtain ⟨body, brace, rfl, hbody, hbrace⟩ := hback.split
  have hopen : Closes head := by
    apply hhead.closes_of_not_mem
    simp only [List.forall_mem_cons]
    exact ⟨by decide, hname, by decide, by simp⟩
  exact hopen.append ((Spaced.closes_flatMap MethodDeclaration.closes d.methods hbody).append
    (hbrace.closes_of_not_mem (by simp)))

/-- The last visible character of a text is the same however the text is cut before it. -/
theorem last_visible {x y b b' : List Char} {c d : Char} (h : x ++ c :: b = y ++ d :: b')
    (hb : Text.Blank b) (hb' : Text.Blank b') (hc : Text.isBlank c = false)
    (hd : Text.isBlank d = false) : c = d := by
  have hlast : ∀ {z a : List Char} {e : Char}, Text.Blank a → Text.isBlank e = false →
      (z ++ e :: a).reverse.dropWhile Text.isBlank = e :: z.reverse := by
    intro z a e ha he
    have hreverse : ∀ c ∈ a.reverse, Text.isBlank c = true :=
      fun c hc => ha c (List.mem_reverse.mp hc)
    rw [List.reverse_append, List.reverse_cons, List.append_assoc]
    exact Text.dropWhile_run hreverse (Text.stops_cons.mpr he)
  have heq := hlast (z := x) hb hc
  rw [h, hlast hb' hd] at heq
  exact (List.cons.inj heq).1.symm

/-- No package is declared where every semicolon ends a method. -/
theorem packageHere?_of_closes {front text : List Char} (h : Closes (front ++ text)) :
    packageHere? text = none := by
  rw [Option.eq_none_iff_forall_ne_some]
  intro name hsome
  obtain ⟨u, b, v, rfl, hb, hne, hname⟩ := packageHere?_eq_some hsome
  obtain ⟨init, c, rfl⟩ := (List.eq_nil_or_concat name).resolve_left hne
  have hc : isPackagePart c = true := hname c (by simp)
  obtain ⟨w, b', htext, hb'⟩ := h (front ++ (u ++ (init ++ c :: b))) v (by simp)
  have hsame : c = ')' := by
    refine last_visible (x := front ++ (u ++ init)) (y := w) ?_ hb hb'
      (not_isBlank_of_isPackagePart hc) (by decide)
    simpa using htext
  rw [hsame] at hc
  exact absurd hc (by decide)

theorem packageFrom_of_closes (text : List Char) : ∀ (atLineStart : Bool) (front : List Char),
    Closes (front ++ text) → packageFrom atLineStart text = [] := by
  induction text with
  | nil =>
      intro atLineStart front _
      rfl
  | cons c text ih =>
      intro atLineStart front h
      have hrest : packageFrom (c == '\n') text = [] := ih _ (front ++ [c]) (by simpa using h)
      rw [packageFrom]
      simp only [packageHere?_of_closes h, ite_self, hrest]

/-! ## The whole definition -/

/-- The name of the package; empty if there is none. -/
def Definition.packageName (d : Definition) : List Char := (d.package.map (·.chars)).getD []

theorem packageOf_spaced {d : Definition} {text : List Char} (h : Spaced d.tokens text) :
    packageOf text = d.packageName := by
  obtain ⟨package, declared⟩ := d
  unfold Definition.tokens at h
  cases package with
  | none =>
      have hcloses := Spaced.closes_flatMap ServiceDeclaration.closes declared h
      exact packageFrom_of_closes text true [] hcloses
  | some name =>
      obtain ⟨hhere, front, rest, rfl, _, _⟩ := h.package
      unfold packageOf
      cases hfront : front ++ ';' :: rest with
      | nil => exact absurd hfront (by simp)
      | cons c more =>
          rw [hfront] at hhere
          rw [packageFrom]
          simp only [hhere, if_true]
          rfl

theorem services_spaced {d : Definition} {text : List Char} (h : Spaced d.tokens text) :
    ∃ found, services text = (found, none) ∧
      List.Forall₂ ServiceDeclaration.Read d.services found := by
  obtain ⟨package, declared⟩ := d
  unfold Definition.tokens at h
  unfold services
  cases package with
  | none => exact servicesWithin_spaced declared _ none h (Nat.lt_succ_self _) rfl
  | some name =>
      obtain ⟨_, front, rest, rfl, hbrace, hleaves⟩ := h.package
      -- no service starts in the package declaration, since none reaches over its semicolon
      have hskip : nextService? none (front ++ ';' :: rest) = nextService? (some ';') rest := by
        have hsplit : front ++ ';' :: rest = (front ++ [';']) ++ rest := by simp
        rw [hsplit, nextService?_skip (by simp), List.getLast?_concat]
        intro v hv hne
        have hlast : v.getLast? = some ';' := by
          obtain ⟨u, hu⟩ := hv
          rw [← List.getLast?_append_of_ne_nil u hne, hu, List.getLast?_concat]
        refine serviceHere?_eq_none ?_ (List.mem_of_getLast? hlast) (by decide) (by decide) rest
        intro hmem
        rcases List.mem_append.mp (hv.subset hmem) with hc | hc
        · exact hbrace hc
        · exact absurd hc (by decide)
      have hsame : servicesWithin ((front ++ ';' :: rest).length + 1) none (front ++ ';' :: rest) =
          servicesWithin ((front ++ ';' :: rest).length + 1) (some ';') rest := by
        rw [servicesWithin, servicesWithin, hskip]
      rw [hsame]
      have hlength := hleaves.suffix.length_le
      exact servicesWithin_spaced declared _ (some ';') hleaves.spaced
        (Nat.lt_succ_of_le hlength) (by decide)

/-- The methods that a definition in a file declares. -/
def Definition.rpcMethods (d : Definition) (file : RawText) : List RpcMethod :=
  d.services.flatMap fun s => s.methods.map fun m =>
    { id := "grpc:" ++ String.ofList s.name.chars ++ "." ++ String.ofList m.name.chars
      service := String.ofList s.name.chars
      name := String.ofList m.name.chars
      package := String.ofList d.packageName
      inputType := String.ofList m.input.name.chars
      outputType := String.ofList m.output.name.chars
      file }

theorem map_eq_of_forall₂ {α β γ : Type} {R : α → β → Prop} {f : α → γ} {g : β → γ}
    (h : ∀ a b, R a b → f a = g b) {as : List α} {bs : List β} (hab : List.Forall₂ R as bs) :
    as.map f = bs.map g := by
  rw [← List.forall₂_eq_eq_eq, List.forall₂_map_left_iff, List.forall₂_map_right_iff]
  exact hab.imp h

/-- **A definition is read back from every layout.** Whatever stands between its tokens, and
whatever its names are, each declared method is found once, in order, with its service, its package
and its types without the qualifier, and there is no warning. -/
theorem read_layout (d : Definition) (l : Layout) (file : SourceFile) :
    read { file with content := String.ofList (l.text d.tokens) } =
      ⟨d.rpcMethods file.path, []⟩ := by
  have hspaced := d.spaced l
  have hpackage := packageOf_spaced hspaced
  obtain ⟨found, hservices, hread⟩ := services_spaced hspaced
  have hmethods : ∀ (s : ServiceDeclaration) (t : Service), s.Read t →
      (s.methods.map fun m => RpcMethod.mk
          ("grpc:" ++ String.ofList s.name.chars ++ "." ++ String.ofList m.name.chars)
          (String.ofList s.name.chars) (String.ofList m.name.chars) (String.ofList d.packageName)
          (String.ofList m.input.name.chars) (String.ofList m.output.name.chars) file.path) =
        (methodsOf t.body).map (method file.path d.packageName t.name) := by
    intro s t hst
    refine map_eq_of_forall₂ ?_ (methodsWithin_spaced s.methods _ none hst.body le_rfl rfl)
    intro m signature hm
    simp only [method, Identifier.rpc, hst.name, hm.name, hm.input, hm.output]
  simp only [read, String.toList_ofList, hpackage, hservices]
  rw [Definition.rpcMethods, List.flatMap_def, List.flatMap_def, map_eq_of_forall₂ hmethods hread]
  rfl

/-- A service that is called like a keyword, with comments that look like declarations. -/
example :
    String.ofList (Layout.text
      ⟨[], fun _ => ⟨[.blank ' ' (by decide), .block "\" rpc".toList (by decide)], by decide⟩, []⟩
      (Definition.tokens
        ⟨none, [⟨⟨"rpc".toList, by decide, List.all_eq_true.mp (by decide)⟩, []⟩]⟩)) =
    "service /*\" rpc*/rpc /*\" rpc*/\x7b /*\" rpc*/\x7d" := by
  decide

end ApiAtlas.Interface
