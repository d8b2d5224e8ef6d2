import ApiAtlas.Proofs.Resolver.Textual
set_option autoImplicit false

/-!
# Resolvers: heads of classes and methods in text

Where a marked class or method stands at the front of a text, and where none does.  A head needs its
decorator, a parenthesis behind the decorator's name and the right words behind the arguments, so a
stretch of text without decorators has none, and neither has an argument that ends in a quote.
-/

namespace ApiAtlas

/-- Every name of a marker is made of word characters. -/
def Markers.Plain (markers : Markers) : Prop :=
  ∀ name ∈ markers.resolver ++ markers.query ++ markers.mutation ++ markers.resolveField,
    ∀ c ∈ name.toList, Text.isWord c = true

namespace Resolver.Textual

variable {markers : Markers}

/-! ## Class heads -/

/-- The name of a class, and the text behind it. -/
def className : Next (List Char × List Char) := fun rest =>
  let name := rest.takeWhile Text.isWord
  if name.isEmpty then none else some (name, rest.dropWhile Text.isWord)

/-- What is read behind the decorator of a class. -/
def classTail : Next (List Char × List Char) :=
  blanks <| modifier "export" <| modifier "default" <| modifier "abstract" <| literal "class" <|
    run1 Text.isBlank className

theorem className_append (name : Text.Word) {rest : List Char}
    (hrest : Text.Stops Text.isWord rest) :
    className (name.chars ++ rest) = some (name.chars, rest) := by
  have htake := Text.takeWhile_run name.isWord hrest
  have hdrop := Text.dropWhile_run name.isWord hrest
  unfold className
  simp only [htake, hdrop]
  simp [name.ne_nil]

theorem blank_space : ∀ c ∈ [' '], Text.isBlank c = true := List.all_eq_true.mp (by decide)

theorem modifier_append (keyword : String) {β : Type} {next : Next β} {rest : List Char}
    {result : β}
    (hrest : Text.Stops Text.isBlank rest) (h : next rest = some result) :
    modifier keyword next (keyword.toList ++ ' ' :: rest) = some result := by
  have hread : run1 Text.isBlank next (' ' :: rest) = some result :=
    run1_append (List.cons_ne_nil ' ' []) blank_space hrest h
  unfold modifier
  rw [literal_append, hread]
  rfl

theorem classTail_append (name : Text.Word) {rest : List Char}
    (hrest : Text.Stops Text.isWord rest) :
    classTail (" export class ".toList ++ (name.chars ++ rest)) = some (name.chars, rest) := by
  have hname : run1 Text.isBlank className (' ' :: (name.chars ++ rest)) =
      some (name.chars, rest) :=
    run1_append (List.cons_ne_nil ' ' []) blank_space (name.stops_isBlank rest)
      (className_append name hrest)
  have hclass : (modifier "default" <| modifier "abstract" <| literal "class" <|
      run1 Text.isBlank className) ("class".toList ++ ' ' :: (name.chars ++ rest)) =
        some (name.chars, rest) :=
    (literal_append "class" _ _).trans hname
  have hexport := modifier_append "export" (Text.stops_cons.mpr (by decide)) hclass
  have hvisible : Text.Stops Text.isBlank
      ("export".toList ++ ' ' :: ("class".toList ++ ' ' :: (name.chars ++ rest))) :=
    Text.Stops.of_any (by decide) (by decide) _
  have hread := run_append blank_space hvisible hexport
  exact hread

/-- Nothing but a class may stand behind the decorator. -/
theorem classTail_async (rest : List Char) : classTail (" async ".toList ++ rest) = none := rfl

theorem classHere?_eq (text : List Char) : classHere? markers text =
    literal "@" (oneOf (if markers.resolver.isEmpty then [""] else markers.resolver)
      fun _ => inParentheses fun _ => classTail) text := rfl

theorem isWord_of_resolver (hplain : markers.Plain) :
    ∀ name ∈ (if markers.resolver.isEmpty then [""] else markers.resolver),
      ∀ c ∈ name.toList, Text.isWord c = true := by
  intro name hname
  split at hname
  · rw [List.mem_singleton.mp hname]
    exact List.all_eq_true.mp (by decide)
  · exact hplain name (by simp [hname])

/-- A class head is a name, perhaps blanks, and parentheses with the rest of the head behind. -/
theorem classHere?_eq_some (hplain : markers.Plain) {text : List Char}
    {result : List Char × List Char} (h : classHere? markers text = some result) :
    ∃ name b inside args rest, text = '@' :: (name ++ (b ++ '(' :: inside)) ∧
      (∀ c ∈ name, Text.isWord c = true) ∧ Text.Blank b ∧
      arguments? (inside.length + 1) [] inside = some (args, rest) ∧
      classTail rest = some result := by
  rw [classHere?_eq] at h
  obtain ⟨behind, rfl, hone⟩ := literal_eq_some h
  obtain ⟨name, hname, tail, rfl, hread⟩ := oneOf_eq_some hone
  obtain ⟨b, inside, args, rest, rfl, hb, hargs, htail⟩ := inParentheses_eq_some hread
  exact ⟨name.toList, b, inside, args, rest, rfl, isWord_of_resolver hplain name hname, hb, hargs,
    htail⟩

theorem classHere?_append (hplain : markers.Plain) {marker : String}
    (hmarker : marker ∈ markers.resolver) (name : Text.Word) {rest : List Char}
    (hrest : Text.Stops Text.isWord rest) :
    classHere? markers ('@' :: (marker.toList ++ '(' :: ')' ::
      (" export class ".toList ++ (name.chars ++ rest)))) = some (name.chars, rest) := by
  have hmem : marker ∈ (if markers.resolver.isEmpty then [""] else markers.resolver) := by
    rw [if_neg (by simp [List.ne_nil_of_mem hmarker])]
    exact hmarker
  have hhead : inParentheses (fun _ => classTail)
      ('(' :: ([] ++ ')' :: (" export class ".toList ++ (name.chars ++ rest)))) =
        some (name.chars, rest) :=
    inParentheses_append (by simp) (classTail_append name hrest)
  have hone := oneOf_append (isWord_of_resolver hplain) hmem
    (fun _ _ hread => inParentheses_ne_none hread) hhead
  rw [classHere?_eq]
  exact (literal_append "@" _ _).trans hone

theorem classHere?_of_ne {c : Char} (hc : c ≠ '@') (rest : List Char) :
    classHere? markers (c :: rest) = none := by
  rw [classHere?_eq]
  exact literal_at_of_ne hc _ rest

/-- A mark that is neither of a name nor a blank keeps a decorator from its parenthesis. -/
theorem classHere?_of_mark (hplain : markers.Plain) {front : List Char} {mark : Char}
    (hmark : mark ∈ front) (hword : Text.isWord mark = false) (hblank : Text.isBlank mark = false)
    (hopen : '(' ∉ front) (rest : List Char) :
    classHere? markers ('@' :: (front ++ rest)) = none := by
  rw [Option.eq_none_iff_forall_ne_some]
  intro result hresult
  obtain ⟨name, b, inside, _, _, htext, hname, hb, _⟩ := classHere?_eq_some hplain hresult
  have hsame : front ++ rest = (name ++ b) ++ '(' :: inside := by
    rw [(List.cons.inj htext).2, List.append_assoc]
  rcases List.mem_append.mp (Text.mem_of_append_eq hsame hopen hmark) with hmem | hmem
  · rw [hname mark hmem] at hword
    exact Bool.false_ne_true hword.symm
  · exact hb.not_mem hblank hmem

/-- The decorator of a method heads no class, even if it has the name for that. -/
theorem classHere?_of_method (hplain : markers.Plain) {marker args : List Char}
    (hmarker : ∀ c ∈ marker, Text.isWord c = true) (hargs : ∀ c ∈ args, c ≠ '(' ∧ c ≠ ')')
    (rest : List Char) :
    classHere? markers ('@' :: (marker ++ '(' :: (args ++ ')' :: (" async ".toList ++ rest)))) =
      none := by
  rw [Option.eq_none_iff_forall_ne_some]
  intro result hresult
  obtain ⟨name, b, inside, _, _, htext, hname, hb, hread, htail⟩ :=
    classHere?_eq_some hplain hresult
  have hsame : marker ++ '(' :: (args ++ ')' :: (" async ".toList ++ rest)) =
      (name ++ b) ++ '(' :: inside := by
    rw [(List.cons.inj htext).2, List.append_assoc]
  have hopen : '(' ∉ name ++ b := by
    rw [List.mem_append, not_or]
    exact ⟨Text.not_mem_of_forall hname (by decide), hb.not_mem (by decide)⟩
  obtain ⟨-, rfl⟩ :=
    Text.append_cons_inj hsame (Text.not_mem_of_forall hmarker (by decide)) hopen
  rw [arguments?_append hargs _ _ _ (by rw [List.length_append]; omega)] at hread
  obtain ⟨-, rfl⟩ := Prod.mk.inj (Option.some.inj hread)
  rw [classTail_async] at htail
  exact absurd htail (by simp)

/-! ## Stretches without class heads -/

/-- No class head starts in a stretch of text. -/
def ClassFree (markers : Markers) (front rest : List Char) : Prop :=
  ∀ v, v <:+ front → v ≠ [] → classHere? markers (v ++ rest) = none

theorem ClassFree.cons {c : Char} {front rest : List Char}
    (hhere : classHere? markers (c :: (front ++ rest)) = none)
    (hfront : ClassFree markers front rest) : ClassFree markers (c :: front) rest := by
  intro v hv hne
  rcases List.suffix_cons_iff.mp hv with rfl | hinside
  · exact hhere
  · exact hfront v hinside hne

theorem ClassFree.append {front back rest : List Char}
    (hfront : ClassFree markers front (back ++ rest)) (hback : ClassFree markers back rest) :
    ClassFree markers (front ++ back) rest := by
  induction front with
  | nil => exact hback
  | cons c front ih =>
      refine ClassFree.cons ?_ (ih fun v hv => hfront v (List.suffix_cons_iff.mpr (.inr hv)))
      have := hfront (c :: front) List.suffix_rfl (List.cons_ne_nil c front)
      simpa using this

theorem ClassFree.of_not_mem {front : List Char} (h : '@' ∉ front) (rest : List Char) :
    ClassFree markers front rest := by
  intro v hv hne
  cases v with
  | nil => exact absurd rfl hne
  | cons c v =>
      refine classHere?_of_ne ?_ (v ++ rest)
      rintro rfl
      exact h (hv.subset List.mem_cons_self)

/-- A text that a mark ends may be full of decorators: none of them comes to its parenthesis. -/
theorem ClassFree.of_mark (hplain : markers.Plain) {front : List Char} {mark : Char}
    (hat : mark ≠ '@') (hword : Text.isWord mark = false) (hblank : Text.isBlank mark = false)
    (hopen : '(' ∉ front ++ [mark]) (rest : List Char) :
    ClassFree markers (front ++ [mark]) rest := by
  induction front with
  | nil => exact ClassFree.of_not_mem (fun hmem => hat (List.mem_singleton.mp hmem).symm) rest
  | cons c front ih =>
      have hinside : '(' ∉ front ++ [mark] := fun hmem => hopen (List.mem_cons_of_mem c hmem)
      refine ClassFree.cons ?_ (ih hinside)
      by_cases hc : c = '@'
      · rw [hc]
        exact classHere?_of_mark hplain (List.mem_append_right front List.mem_cons_self) hword
          hblank hinside rest
      · exact classHere?_of_ne hc (front ++ [mark] ++ rest)

/-- Text before the next class head belongs to the class before. -/
theorem classesWithin_append {front rest : List Char} (h : ClassFree markers front rest)
    (fuel : Nat) : classesWithin markers (front.length + fuel) (front ++ rest) =
      (front ++ (classesWithin markers fuel rest).1, (classesWithin markers fuel rest).2) := by
  induction front with
  | nil => simp
  | cons c front ih =>
      have hhere : classHere? markers (c :: (front ++ rest)) = none :=
        h (c :: front) List.suffix_rfl (List.cons_ne_nil c front)
      have hfuel : (c :: front).length + fuel = (front.length + fuel) + 1 := by
        rw [List.length_cons]
        omega
      have hfront := ih fun v hv => h v (List.suffix_cons_iff.mpr (.inr hv))
      rw [hfuel, List.cons_append, classesWithin]
      simp only [hhere, hfront]
      rfl

/-! ## Methods -/

/-- The name of a method, which ends what is read of it. -/
def methodEnd (marker : String) (args : List Char) : Next (MethodText × List Char) := fun rest =>
  (methodName? rest).map fun r => (⟨marker, args, r.1⟩, r.2)

/-- What is read behind the marker of a method. -/
def methodTail (marker : String) (args : List Char) : Next (MethodText × List Char) := fun behind =>
  decorators (blanks <| visibility <| modifier "async" <| methodEnd marker args) behind.length
    behind

theorem methodHere?_eq (text : List Char) : methodHere? markers text =
    literal "@" (oneOf
      (if (markers.query ++ markers.mutation ++ markers.resolveField).isEmpty then [""]
        else markers.query ++ markers.mutation ++ markers.resolveField)
      fun marker => inParentheses (methodTail marker)) text := rfl

theorem methodEnd_append (marker : String) (args : List Char) (name : Text.Word)
    (rest : List Char) :
    methodEnd marker args (name.chars ++ '(' :: rest) =
      some (⟨marker, args, name.chars⟩, rest) := by
  have hnone : ∀ c ∈ ([] : List Char), Text.isBlank c = true := by simp
  have hname : methodName? (name.chars ++ '(' :: rest) = some (name.chars, rest) := by
    refine run1_append name.ne_nil name.isWord (Text.stops_cons.mpr (by decide)) ?_
    refine run_append hnone (Text.stops_cons.mpr (by decide)) ?_
    refine (literal_append "(" _ rest).trans ?_
    simp
  unfold methodEnd
  rw [hname]
  rfl

theorem methodTail_append (marker : String) (args : List Char) (name : Text.Word)
    (rest : List Char) :
    methodTail marker args (" async ".toList ++ (name.chars ++ '(' :: rest)) =
      some (⟨marker, args, name.chars⟩, rest) := by
  have hasync := modifier_append "async" (name.stops_isBlank ('(' :: rest))
    (methodEnd_append marker args name rest)
  -- neither a visibility nor a further decorator starts like the modifier
  have hvisibility : visibility (modifier "async" (methodEnd marker args))
      ("async".toList ++ ' ' :: (name.chars ++ '(' :: rest)) =
        some (⟨marker, args, name.chars⟩, rest) := hasync
  have hvisible : Text.Stops Text.isBlank
      ("async".toList ++ ' ' :: (name.chars ++ '(' :: rest)) :=
    Text.Stops.of_any (by decide) (by decide) _
  have hread := run_append blank_space hvisible hvisibility
  exact hread

theorem methodHere?_append (hplain : markers.Plain) {marker : String}
    (hmarker : marker ∈ markers.query ++ markers.mutation ++ markers.resolveField)
    {args : List Char} (hargs : ∀ c ∈ args, c ≠ '(' ∧ c ≠ ')') (name : Text.Word)
    (rest : List Char) :
    methodHere? markers ('@' :: (marker.toList ++ '(' :: (args ++ ')' :: (" async ".toList
      ++ (name.chars ++ '(' :: rest))))) = some (⟨marker, args, name.chars⟩, rest) := by
  have hwords : ∀ n ∈ markers.query ++ markers.mutation ++ markers.resolveField,
      ∀ c ∈ n.toList, Text.isWord c = true := by
    intro n hn
    refine hplain n ?_
    simp only [List.mem_append] at hn ⊢
    tauto
  have hhead : inParentheses (methodTail marker)
      ('(' :: (args ++ ')' :: (" async ".toList ++ (name.chars ++ '(' :: rest)))) =
        some (⟨marker, args, name.chars⟩, rest) :=
    inParentheses_append hargs (methodTail_append marker args name rest)
  have hleads : ∀ n behind, inParentheses (methodTail n) behind ≠ none →
      ∃ b inside, behind = b ++ '(' :: inside ∧ Text.Blank b :=
    fun _ _ hread => inParentheses_ne_none hread
  have hone := oneOf_append hwords hmarker hleads hhead
  rw [methodHere?_eq, if_neg (by simpa using List.ne_nil_of_mem hmarker)]
  exact (literal_append "@" _ _).trans hone

theorem methodHere?_of_ne {c : Char} (hc : c ≠ '@') (rest : List Char) :
    methodHere? markers (c :: rest) = none := by
  rw [methodHere?_eq]
  exact literal_at_of_ne hc _ rest

/-- A stretch without decorators has no methods. -/
theorem methodsWithin_append (markers : Markers) {front : List Char} (h : '@' ∉ front) (fuel : Nat)
    (rest : List Char) : methodsWithin markers (front.length + fuel) (front ++ rest) =
      methodsWithin markers fuel rest := by
  induction front with
  | nil => simp
  | cons c front ih =>
      have hc : c ≠ '@' := fun hc => h (hc ▸ List.mem_cons_self)
      have hfront : '@' ∉ front := fun hmem => h (List.mem_cons_of_mem c hmem)
      have hfuel : (c :: front).length + fuel = (front.length + fuel) + 1 := by
        rw [List.length_cons]
        omega
      rw [hfuel, List.cons_append, methodsWithin]
      simp only [methodHere?_of_ne hc]
      exact ih hfront

end Resolver.Textual

end ApiAtlas
