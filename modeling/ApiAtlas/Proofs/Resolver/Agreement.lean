import ApiAtlas.Proofs.Resolver.Head
import ApiAtlas.Resolver.Scan
set_option autoImplicit false

/-!
# Resolvers: text and tree agree

A plain source is a list of marked classes with marked methods and nothing else.  It can be written
as text, where the decorators are searched for, and it is a tree, where they are simply there.  Both
ways find the same resolvers in the same order, whatever the markers are and however classes,
methods and exposed names are called.
-/

namespace ApiAtlas

namespace Resolver

/-! ## Plain sources -/

/-- A text in quotes in which nothing could end it, or the arguments around it. -/
structure QuotedText where
  quote : Char
  isQuote : quote = '\x27' ∨ quote = '"'
  content : List Char
  ne_nil : content ≠ []
  plain : ∀ c ∈ content, c ∉ ['\x27', '"', '\x60', '(', ')']

/-- A method with one marker, which may have a text as its argument. -/
structure MethodSource (markers : Markers) where
  marker : String
  marked : marker ∈ markers.query ++ markers.mutation ++ markers.resolveField
  argument : Option QuotedText
  name : Text.Word

/-- A class with one marker. -/
structure ClassSource (markers : Markers) where
  marker : String
  marked : marker ∈ markers.resolver
  name : Text.Word
  methods : List (MethodSource markers)

variable {markers : Markers}

/-- The argument of the marker as it is written. -/
def MethodSource.args (m : MethodSource markers) : List Char :=
  match m.argument with
  | some q => q.quote :: (q.content ++ [q.quote])
  | none => []

/-- `@M('x') async m() {} `. -/
def MethodSource.text (m : MethodSource markers) : List Char :=
  '@' :: (m.marker.toList ++ '(' :: (m.args ++ ')' :: (" async ".toList
    ++ (m.name.chars ++ '(' :: ") \x7b\x7d ".toList))))

/-- What follows the name of the class: its methods between braces. -/
def ClassSource.body (c : ClassSource markers) : List Char :=
  " \x7b ".toList ++ (c.methods.flatMap MethodSource.text ++ "\x7d ".toList)

/-- `@R() export class C { .. } `. -/
def ClassSource.text (c : ClassSource markers) : List Char :=
  '@' :: (c.marker.toList ++ '(' :: ')' :: (" export class ".toList ++ (c.name.chars ++ c.body)))

/-- The method in a tree. The text of its argument is what stands between the quotes. -/
def MethodSource.node (m : MethodSource markers) : Syntax.Node :=
  .method (String.ofList m.name.chars)
    [.mk m.marker (m.argument.map fun q => .text (String.ofList q.content)).toList] []

/-- The class in a tree. -/
def ClassSource.node (c : ClassSource markers) : Syntax.Node :=
  .classNode (some (String.ofList c.name.chars)) [.mk c.marker []] (c.methods.map MethodSource.node)

/-- What kind of field the method answers: a marker that stands for several stands for the first. -/
def MethodSource.kind (m : MethodSource markers) : ResolverKind :=
  if m.marker ∈ markers.query then .query
  else if m.marker ∈ markers.mutation then .mutation
  else .field

/-- The name of the field that the method answers. -/
def MethodSource.exposedName (m : MethodSource markers) : List Char :=
  match m.argument with
  | some q => q.content
  | none => m.name.chars

/-- The resolvers of the class in a file. -/
def ClassSource.resolvers (file : RawText) (c : ClassSource markers) : List Resolver :=
  c.methods.map fun m =>
    { id := "resolver:" ++ String.ofList c.name.chars ++ "." ++ String.ofList m.name.chars
      owner := String.ofList c.name.chars
      method := String.ofList m.name.chars
      kind := m.kind
      exposedName := String.ofList m.exposedName
      file
      outboundCalls := [] }

theorem MethodSource.kind?_marker (m : MethodSource markers) :
    markers.kind? m.marker = some m.kind := by
  have hmarked := m.marked
  simp only [List.mem_append] at hmarked
  unfold Markers.kind? MethodSource.kind
  simp only [List.contains_iff_mem]
  split
  · rfl
  · split
    · rfl
    · next hquery hmutation =>
      rw [if_pos (hmarked.resolve_left fun h => h.elim hquery hmutation)]

/-! ## In the tree -/

theorem MethodSource.marking?_decorator (m : MethodSource markers) (args : List Syntax.Node) :
    markers.marking? [.mk m.marker args] = some (m.kind, .mk m.marker args) := by
  have hname : (Syntax.Decorator.mk m.marker args).name = m.marker := rfl
  unfold Markers.marking?
  cases hkind : m.kind <;> simp [hname, m.kind?_marker, hkind]

theorem MethodSource.ofMember?_node (settings : ResolverSettings) (file : RawText) (owner : String)
    (m : MethodSource settings.markers) :
    ofMember? settings file owner m.node =
      some ⟨Identifier.resolver owner (String.ofList m.name.chars), owner,
        String.ofList m.name.chars, m.kind, String.ofList m.exposedName, file, []⟩ := by
  simp only [MethodSource.node, ofMember?, ofMethod?, m.marking?_decorator]
  cases hargument : m.argument with
  | none => simp only [MethodSource.exposedName, hargument]; rfl
  | some q => simp only [MethodSource.exposedName, hargument]; rfl

/-- A class is met and not entered. -/
theorem ClassSource.ofProgram_node (settings : ResolverSettings) (file : RawText)
    (classes : List (ClassSource settings.markers)) :
    ofProgram settings file (classes.map ClassSource.node) =
      classes.flatMap (ClassSource.resolvers file) := by
  induction classes with
  | nil => rfl
  | cons c classes ih =>
      have hmarked : ([Syntax.Decorator.mk c.marker []].any
          fun d => d.isAny settings.markers.resolver) = true := by
        simp [Syntax.Decorator.isAny, Syntax.Decorator.name, c.marked]
      have hvisit : ofVisit settings file (.classNode (some (String.ofList c.name.chars))
          [.mk c.marker []] (c.methods.map MethodSource.node)) = c.resolvers file := by
        simp only [ofVisit]
        rw [if_pos hmarked, List.filterMap_map]
        unfold ClassSource.resolvers
        rw [← List.filterMap_eq_map]
        refine List.filterMap_congr ?_
        intro m _
        exact m.ofMember?_node settings file _
      have hsplit : ofProgram settings file ((c :: classes).map ClassSource.node) =
          ofVisit settings file (.classNode (some (String.ofList c.name.chars))
            [.mk c.marker []] (c.methods.map MethodSource.node)) ++
          ofProgram settings file (classes.map ClassSource.node) := rfl
      rw [hsplit, hvisit, ih, List.flatMap_cons]

/-! ## In the text -/

theorem MethodSource.isWord_marker (hplain : markers.Plain) (m : MethodSource markers) :
    ∀ c ∈ m.marker.toList, Text.isWord c = true := by
  have hmarked := m.marked
  refine hplain m.marker ?_
  simp only [List.mem_append] at hmarked ⊢
  tauto

/-- A quote is a mark of its own: neither of a name, nor a blank, nor a mark of a decorator. -/
theorem QuotedText.quote_facts (q : QuotedText) : Text.isWord q.quote = false ∧
    Text.isBlank q.quote = false ∧ q.quote ∉ ['@', '(', ')'] := by
  rcases q.isQuote with h | h <;> rw [h] <;> decide

theorem QuotedText.parenthesis_not_mem (q : QuotedText) :
    ∀ c ∈ q.quote :: (q.content ++ [q.quote]), c ≠ '(' ∧ c ≠ ')' := by
  obtain ⟨-, -, hquote⟩ := q.quote_facts
  simp only [List.mem_cons, List.not_mem_nil, or_false, not_or] at hquote
  intro c hc
  simp only [List.mem_cons, List.mem_append, List.not_mem_nil, or_false] at hc
  rcases hc with rfl | hc | rfl
  · exact hquote.2
  · have hplain := q.plain c hc
    simp only [List.mem_cons, List.not_mem_nil, or_false, not_or] at hplain
    exact hplain.2.2.2
  · exact hquote.2

theorem MethodSource.parenthesis_not_mem (m : MethodSource markers) :
    ∀ c ∈ m.args, c ≠ '(' ∧ c ≠ ')' := by
  unfold MethodSource.args
  cases m.argument with
  | none => simp
  | some q => exact q.parenthesis_not_mem

theorem MethodSource.leadingText?_args (m : MethodSource markers) :
    (Textual.leadingText? m.args).getD m.name.chars = m.exposedName := by
  unfold MethodSource.args MethodSource.exposedName
  cases m.argument with
  | none => rfl
  | some q =>
      have hout : q.quote ∉ q.content := by
        intro hmem
        have hplain := q.plain q.quote hmem
        rcases q.isQuote with h | h <;> simp [h] at hplain
      have hcut : Text.cutAt? q.quote (q.content ++ [q.quote]) = some (q.content, []) :=
        Text.cutAt?_append hout []
      have hstart : (q.quote :: (q.content ++ [q.quote])).dropWhile Text.isBlank =
          q.quote :: (q.content ++ [q.quote]) :=
        Text.dropWhile_of_stops (Text.stops_cons.mpr q.quote_facts.2.1)
      have hquote : (q.quote == '\x27' || q.quote == '"' || q.quote == '\x60') = true := by
        rcases q.isQuote with h | h <;> rw [h] <;> decide
      simp only [Textual.leadingText?, hstart, hquote, hcut]
      simp [q.ne_nil]

theorem MethodSource.classFree_args (hplain : markers.Plain) (m : MethodSource markers)
    (rest : List Char) : Textual.ClassFree markers m.args rest := by
  unfold MethodSource.args
  cases m.argument with
  | none => exact Textual.ClassFree.of_not_mem (by simp) rest
  | some q =>
      obtain ⟨hword, hblank, hmarks⟩ := q.quote_facts
      have hat : q.quote ≠ '@' := fun h => hmarks (h ▸ List.mem_cons_self)
      have hopen : '(' ∉ (q.quote :: q.content) ++ [q.quote] := fun hmem =>
        (q.parenthesis_not_mem '(' hmem).1 rfl
      exact Textual.ClassFree.of_mark hplain hat hword hblank hopen rest

theorem MethodSource.classFree (hplain : markers.Plain) (m : MethodSource markers)
    (rest : List Char) : Textual.ClassFree markers m.text rest := by
  have hmarker := m.isWord_marker hplain
  have hhere : Textual.classHere? markers (m.text ++ rest) = none := by
    have := Textual.classHere?_of_method hplain hmarker m.parenthesis_not_mem
      (m.name.chars ++ '(' :: ") \x7b\x7d ".toList ++ rest)
    simpa [MethodSource.text] using this
  have hout : ∀ {name : List Char}, (∀ c ∈ name, Text.isWord c = true) → '@' ∉ name :=
    fun hname => Text.not_mem_of_forall hname (by decide)
  have hname : '@' ∉
      ')' :: (" async ".toList ++ (m.name.chars ++ '(' :: ") \x7b\x7d ".toList)) := by
    simp [hout m.name.isWord]
  have hfront : '@' ∉ m.marker.toList ++ ['('] := by
    simp [hout hmarker]
  have htail : Textual.ClassFree markers (m.marker.toList ++ ['('] ++ (m.args
      ++ ')' :: (" async ".toList ++ (m.name.chars ++ '(' :: ") \x7b\x7d ".toList)))) rest :=
    .append (.of_not_mem hfront _) (.append (m.classFree_args hplain _) (.of_not_mem hname _))
  refine .cons hhere ?_
  simpa using htail

theorem ClassSource.classFree_body (hplain : markers.Plain) (c : ClassSource markers)
    (rest : List Char) : Textual.ClassFree markers c.body rest := by
  have hmethods : ∀ (methods : List (MethodSource markers)) (rest : List Char),
      Textual.ClassFree markers (methods.flatMap MethodSource.text) rest := by
    intro methods
    induction methods with
    | nil => exact fun rest => .of_not_mem (by simp) rest
    | cons m methods ih => exact fun rest => .append (m.classFree hplain _) (ih rest)
  exact .append (.of_not_mem (by decide) _)
    (.append (hmethods c.methods _) (.of_not_mem (by decide) _))

/-- Each class is found with its own body, and nothing stands before the first. -/
theorem ClassSource.classesWithin_text (hplain : markers.Plain)
    (classes : List (ClassSource markers)) :
    ∀ fuel, (classes.flatMap ClassSource.text).length ≤ fuel →
      Textual.classesWithin markers fuel (classes.flatMap ClassSource.text) =
        ([], classes.map fun c => ⟨c.name.chars, c.body⟩) := by
  induction classes with
  | nil =>
      intro fuel _
      cases fuel <;> rfl
  | cons c classes ih =>
      intro fuel hfuel
      have hstops : Text.Stops Text.isWord (c.body ++ classes.flatMap ClassSource.text) :=
        Text.stops_cons.mpr (by decide)
      have hhere := Textual.classHere?_append hplain c.marked c.name hstops
      have htext : (c :: classes).flatMap ClassSource.text =
          '@' :: (c.marker.toList ++ '(' :: ')' :: (" export class ".toList ++ (c.name.chars
            ++ (c.body ++ classes.flatMap ClassSource.text)))) := by
        simp [ClassSource.text]
      rw [htext] at hfuel ⊢
      simp only [List.length_cons, List.length_append] at hfuel
      -- what the head leaves of the fuel is enough for the body and the classes behind it
      obtain ⟨left, rfl⟩ : ∃ left, fuel = (c.body.length + left) + 1 :=
        ⟨fuel - c.body.length - 1, by omega⟩
      have hrest := ih left (by omega)
      rw [Textual.classesWithin]
      simp only [hhere, Textual.classesWithin_append (c.classFree_body hplain _), hrest]
      simp

/-- Each method is found, with the text of its argument. -/
theorem MethodSource.methodsWithin_text (hplain : markers.Plain) {tail : List Char}
    (htail : '@' ∉ tail) (methods : List (MethodSource markers)) :
    ∀ fuel, (methods.flatMap MethodSource.text ++ tail).length ≤ fuel →
      Textual.methodsWithin markers fuel (methods.flatMap MethodSource.text ++ tail) =
        methods.map fun m => ⟨m.marker, m.args, m.name.chars⟩ := by
  induction methods with
  | nil =>
      intro fuel hfuel
      obtain ⟨left, rfl⟩ := Nat.exists_eq_add_of_le hfuel
      have hskip := Textual.methodsWithin_append markers htail left []
      rw [List.append_nil] at hskip
      rw [List.flatMap_nil, List.nil_append, hskip]
      cases left <;> rfl
  | cons m methods ih =>
      intro fuel hfuel
      have hhere := Textual.methodHere?_append hplain m.marked m.parenthesis_not_mem m.name
        (") \x7b\x7d ".toList ++ (methods.flatMap MethodSource.text ++ tail))
      have htext : (m :: methods).flatMap MethodSource.text ++ tail =
          '@' :: (m.marker.toList ++ '(' :: (m.args ++ ')' :: (" async ".toList ++ (m.name.chars ++
            '(' :: (") \x7b\x7d ".toList ++ (methods.flatMap MethodSource.text ++ tail)))))) := by
        simp [MethodSource.text]
      rw [htext] at hfuel ⊢
      simp only [List.length_cons, List.length_append] at hfuel
      obtain ⟨left, rfl⟩ : ∃ left, fuel = (") \x7b\x7d ".toList.length + left) + 1 :=
        ⟨fuel - ") \x7b\x7d ".toList.length - 1, by omega⟩
      have hrest := ih left (by rw [List.length_append]; omega)
      rw [Textual.methodsWithin]
      have hend : '@' ∉ ") \x7b\x7d ".toList := by decide
      simp only [hhere, Textual.methodsWithin_append markers hend, hrest]
      rfl

theorem ClassSource.methods_body (hplain : markers.Plain) (c : ClassSource markers) :
    Textual.methods markers c.body = c.methods.map fun m => ⟨m.marker, m.args, m.name.chars⟩ := by
  have hstart : '@' ∉ " \x7b ".toList := by decide
  have hskip := Textual.methodsWithin_append markers hstart
    (c.methods.flatMap MethodSource.text ++ "\x7d ".toList).length
    (c.methods.flatMap MethodSource.text ++ "\x7d ".toList)
  unfold Textual.methods ClassSource.body
  rw [List.length_append, hskip]
  exact MethodSource.methodsWithin_text hplain (by decide) c.methods _ (Nat.le_refl _)

theorem ClassSource.resolvers_text (hplain : markers.Plain) (file : RawText)
    (classes : List (ClassSource markers)) :
    Textual.resolvers markers file (classes.flatMap ClassSource.text) =
      classes.flatMap (ClassSource.resolvers file) := by
  have hmethod : ∀ (c : ClassSource markers) (m : MethodSource markers),
      Textual.resolver? markers file c.name.chars ⟨m.marker, m.args, m.name.chars⟩ =
        some ⟨Identifier.resolver (String.ofList c.name.chars) (String.ofList m.name.chars),
          String.ofList c.name.chars, String.ofList m.name.chars, m.kind,
          String.ofList m.exposedName, file, []⟩ := by
    intro c m
    simp only [Textual.resolver?, m.kind?_marker, m.leadingText?_args]
    rfl
  have hclass : ∀ c : ClassSource markers, (Textual.methods markers c.body).filterMap
      (Textual.resolver? markers file c.name.chars) = c.resolvers file := by
    intro c
    rw [c.methods_body hplain, List.filterMap_map]
    unfold ClassSource.resolvers
    rw [← List.filterMap_eq_map]
    refine List.filterMap_congr ?_
    intro m _
    exact hmethod c m
  unfold Textual.resolvers Textual.classes
  rw [ClassSource.classesWithin_text hplain classes _ (Nat.le_refl _), List.flatMap_map]
  exact congrArg (classes.flatMap ·) (funext hclass)

/-! ## Agreement -/

/-- **Text and tree of a plain source have the same resolvers**, namely one for each method of each
class, in order. -/
theorem resolvers_text_eq_ofProgram (settings : ResolverSettings) (file : RawText)
    (hplain : settings.markers.Plain) (classes : List (ClassSource settings.markers)) :
    Textual.resolvers settings.markers file (classes.flatMap ClassSource.text) =
      ofProgram settings file (classes.map ClassSource.node) ∧
    ofProgram settings file (classes.map ClassSource.node) =
      classes.flatMap (ClassSource.resolvers file) := by
  have htree := ClassSource.ofProgram_node settings file classes
  exact ⟨(ClassSource.resolvers_text hplain file classes).trans htree.symm, htree⟩

/-- A class of which one method has a marker among the texts it exposes, and the other none. -/
def shopClass : ClassSource {} where
  marker := "Resolver"
  marked := by decide
  name := ⟨"Shop".toList, by decide, List.all_eq_true.mp (by decide)⟩
  methods :=
    [{ marker := "Query"
       marked := by decide
       argument := some ⟨'\x27', .inl rfl, "@Resolver class".toList, by decide, by simp⟩
       name := ⟨"find".toList, by decide, List.all_eq_true.mp (by decide)⟩ },
     { marker := "ResolveField"
       marked := by decide
       argument := none
       name := ⟨"total".toList, by decide, List.all_eq_true.mp (by decide)⟩ }]

theorem resolvers_text_eq_ofProgram_shop :
    Markers.Plain {} ∧
    String.ofList shopClass.text = "@Resolver() export class Shop \x7b @Query('@Resolver class') "
      ++ "async find() \x7b\x7d @ResolveField() async total() \x7b\x7d \x7d " ∧
    Textual.resolvers {} "shop.ts" ([shopClass].flatMap ClassSource.text) =
      ofProgram {} "shop.ts" ([shopClass].map ClassSource.node) ∧
    ofProgram {} "shop.ts" ([shopClass].map ClassSource.node) =
      [⟨"resolver:Shop.find", "Shop", "find", .query, "@Resolver class", "shop.ts", []⟩,
       ⟨"resolver:Shop.total", "Shop", "total", .field, "total", "shop.ts", []⟩] := by
  have hnames : ["Resolver", "Query", "Mutation", "ResolveField"].all
      (fun name => name.toList.all Text.isWord) = true := by decide
  have hplain : Markers.Plain {} := fun name hname =>
    List.all_eq_true.mp (List.all_eq_true.mp hnames name hname)
  obtain ⟨htext, htree⟩ := resolvers_text_eq_ofProgram {} "shop.ts" hplain [shopClass]
  exact ⟨hplain, by decide, htext, htree.trans (by decide)⟩

end Resolver

end ApiAtlas
