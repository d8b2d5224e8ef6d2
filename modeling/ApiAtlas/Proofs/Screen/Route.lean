import ApiAtlas.Proofs.Path
import ApiAtlas.Screen.Route
set_option autoImplicit false

/-!
# Screen: routes segment by segment

A route is normalised as a text: the base path and the locales are compared with its front and cut
off character by character.  What this does to the segments of the route can be said without
characters, since a front of the text that ends with it or before a slash is a front of the list of
segments, whatever slashes the base path or the locale has inside or at its ends.
-/

namespace ApiAtlas.Route

/-! ## Pieces between slashes -/

/-- The pieces of a text between its slashes. -/
def pieces (text : List Char) : List String := (Text.splitBy '/' text).map String.ofList

/-- A name that can be a segment of a route. -/
structure IsSegment (name : String) : Prop where
  ne_empty : name ≠ ""
  no_slash : '/' ∉ name.toList

instance (name : String) : Decidable (IsSegment name) :=
  decidable_of_iff (name ≠ "" ∧ '/' ∉ name.toList)
    ⟨fun h => ⟨h.1, h.2⟩, fun h => ⟨h.ne_empty, h.no_slash⟩⟩

theorem joined_eq (names : List String) :
    joined names = '/' :: List.intercalate ['/'] (names.map String.toList) :=
  congrArg ('/' :: ·) String.toList_intercalate

theorem map_toList_pieces (text : List Char) :
    (pieces text).map String.toList = text.splitOn '/' := by
  rw [pieces, List.map_map, Text.splitBy_eq_splitOn]
  exact List.map_id'' (fun _ => String.toList_ofList) _

theorem pieces_ne_nil (text : List Char) : pieces text ≠ [] := by
  intro hnil
  have hmap := map_toList_pieces text
  rw [hnil] at hmap
  exact List.splitOn_ne_nil '/' text hmap.symm

/-- The pieces of a text, joined again, are the text. -/
theorem joined_pieces (text : List Char) : joined (pieces text) = '/' :: text := by
  rw [joined_eq, map_toList_pieces, List.intercalate_splitOn]

theorem pieces_append (head rest : List Char) :
    pieces (head ++ '/' :: rest) = pieces head ++ pieces rest := by
  have hsplit : (head ++ '/' :: rest).splitOn '/' = head.splitOn '/' ++ rest.splitOn '/' :=
    List.splitOnP_append_cons head rest rfl
  simp only [pieces, Text.splitBy_eq_splitOn, hsplit, List.map_append]

/-- Names that are joined are the pieces of the text behind its first slash. -/
theorem pieces_of_joined {names : List String} {text : List Char} (hne : names ≠ [])
    (hnames : ∀ n ∈ names, IsSegment n) (h : joined names = '/' :: text) :
    pieces text = names := by
  rw [joined_eq, List.cons.injEq] at h
  obtain ⟨-, rfl⟩ := h
  have hslash : ∀ l ∈ names.map String.toList, '/' ∉ l := by
    rw [List.forall_mem_map]
    exact fun n hn => (hnames n hn).no_slash
  have hmap : names.map String.toList ≠ [] := by simpa using hne
  rw [pieces, Text.splitBy_eq_splitOn, List.splitOn_intercalate '/' hslash hmap, List.map_map]
  exact List.map_id'' (fun _ => String.ofList_toList) _

theorem joined_append {front back : List String} (hfront : front ≠ []) (hback : back ≠ []) :
    joined (front ++ back) = joined front ++ joined back := by
  obtain ⟨b, bs, rfl⟩ := List.exists_cons_of_ne_nil hback
  simp only [joined_eq, List.cons_append, List.cons.injEq, true_and, List.map_append]
  induction front with
  | nil => exact absurd rfl hfront
  | cons a as ih =>
      cases as with
      | nil => simp [List.intercalate_cons_cons]
      | cons a' as =>
          have hrest := ih (List.cons_ne_nil a' as)
          simp only [List.map_cons, List.cons_append, List.intercalate_cons_cons] at hrest ⊢
          rw [hrest]
          simp

/-! ## Taking a front off -/

/-- **A front of the text is a front of the segments**: what is taken off a route is the list of its
pieces, if the segments start with them. -/
theorem without?_joined {names : List String} (hnames : ∀ n ∈ names, IsSegment n)
    (hne : names ≠ []) (head : List Char) :
    without? ('/' :: head) (joined names) = ((pieces head).isPrefixOf? names).map joined := by
  cases hrest : (pieces head).isPrefixOf? names with
  | some rest =>
      rw [List.isPrefixOf?_eq_some_iff_append_eq] at hrest
      subst hrest
      cases rest with
      | nil =>
          rw [List.append_nil, joined_pieces]
          simp [without?, joined]
      | cons r rs =>
          have hjoined : joined (pieces head ++ r :: rs) =
              ('/' :: head ++ ['/']) ++ (joined (r :: rs)).tail := by
            rw [joined_append (pieces_ne_nil head) (List.cons_ne_nil r rs), joined_pieces]
            simp [joined]
          have hlonger : joined (pieces head ++ r :: rs) ≠ '/' :: head := by
            intro heq
            have hlength := congrArg List.length (hjoined.symm.trans heq)
            simp only [List.length_append, List.length_cons, List.length_nil] at hlength
            omega
          rw [without?, if_neg (by simpa using hlonger), hjoined, Text.dropHead?_append]
          rfl
  | none =>
      have hprefix : ∀ rest, pieces head ++ rest ≠ names := by
        intro rest heq
        rw [List.isPrefixOf?_eq_some_iff_append_eq.mpr heq] at hrest
        exact Option.some_ne_none _ hrest
      have hwhole : joined names ≠ '/' :: head := by
        intro heq
        exact hprefix [] (by rw [List.append_nil, pieces_of_joined hne hnames heq])
      have hfront : Text.dropHead? ('/' :: head ++ ['/']) (joined names) = none := by
        rw [Option.eq_none_iff_forall_ne_some]
        intro rest heq
        rw [Text.dropHead?_eq_some_iff, List.append_assoc, List.cons_append] at heq
        have hpieces := pieces_of_joined hne hnames heq
        rw [List.singleton_append, pieces_append] at hpieces
        exact hprefix _ hpieces
      rw [without?, if_neg (by simpa using hwhole), hfront]
      rfl

/-- The names that are left when the first of them are the pieces of the base path, or else all. -/
def dropBase (base : Option String) (names : List String) : List String :=
  match base with
  | none => names
  | some text =>
      let trimmed := trimSlashes text.toList
      if trimmed.isEmpty then names else ((pieces trimmed).isPrefixOf? names).getD names

/-- The names that are left when the first of them are the pieces of a locale, by the first locale
for which they are, or else all. -/
def dropLocale (locales : List String) (names : List String) : List String :=
  (locales.findSome? fun l => (pieces l.toList).isPrefixOf? names).getD names

/-- The names that are left of a route without its base path and its locale. -/
def remaining (project : Project) (names : List String) : List String :=
  dropLocale project.locales (dropBase project.basePath names)

theorem isPrefixOf?_nil (text : List Char) : (pieces text).isPrefixOf? [] = none := by
  cases hpieces : pieces text with
  | nil => exact absurd hpieces (pieces_ne_nil text)
  | cons p ps => rfl

/-- Nothing but the slash is left of the root. -/
theorem eq_root_of_without? {head rest : List Char}
    (h : without? ('/' :: head) (joined []) = some rest) : rest = joined [] := by
  unfold without? at h
  split at h
  · exact (Option.some.inj h).symm
  · obtain ⟨more, hmore, rfl⟩ := Option.map_eq_some_iff.mp h
    have hlength := congrArg List.length (Text.dropHead?_eq_some_iff.mp hmore)
    simp [joined] at hlength

theorem withoutBase_joined (base : Option String) {names : List String}
    (hnames : ∀ n ∈ names, IsSegment n) :
    withoutBase base (joined names) = joined (dropBase base names) := by
  cases base with
  | none => rfl
  | some text =>
      simp only [withoutBase, dropBase]
      split
      · rfl
      · by_cases hne : names = []
        · subst hne
          rw [isPrefixOf?_nil]
          cases hwithout : without? ('/' :: trimSlashes text.toList) (joined []) with
          | none => rfl
          | some rest => exact eq_root_of_without? hwithout
        · rw [without?_joined hnames hne]
          cases (pieces (trimSlashes text.toList)).isPrefixOf? names <;> rfl

theorem withoutLocale_joined (locales : List String) {names : List String}
    (hnames : ∀ n ∈ names, IsSegment n) :
    withoutLocale locales (joined names) = joined (dropLocale locales names) := by
  simp only [withoutLocale, dropLocale]
  by_cases hne : names = []
  · subst hne
    have hnone : (locales.findSome? fun l => (pieces l.toList).isPrefixOf? []) = none :=
      List.findSome?_eq_none_iff.mpr fun l _ => isPrefixOf?_nil l.toList
    -- A locale may fit the root, as the empty one does, but then the root is left.
    have hroot : ∀ rest, (locales.findSome? fun l => without? ('/' :: l.toList) (joined [])) =
        some rest → rest = joined [] := by
      intro rest hrest
      obtain ⟨l, -, hl⟩ := List.exists_of_findSome?_eq_some hrest
      exact eq_root_of_without? hl
    cases hfound : locales.findSome? fun l => without? ('/' :: l.toList) (joined []) with
    | none => rw [hnone]; rfl
    | some rest => rw [hnone, hroot rest hfound]; rfl
  · simp only [without?_joined hnames hne]
    have hmap := List.map_findSome? (g := joined) (l := locales)
      (f := fun l => (pieces l.toList).isPrefixOf? names)
    rw [Function.comp_def] at hmap
    rw [← hmap]
    cases locales.findSome? fun l => (pieces l.toList).isPrefixOf? names <;> rfl

/-! ## The rest of the segments -/

theorem mem_of_isPrefixOf? {front names rest : List String} {n : String}
    (h : front.isPrefixOf? names = some rest) (hn : n ∈ rest) : n ∈ names := by
  rw [← List.isPrefixOf?_eq_some_iff_append_eq.mp h]
  exact List.mem_append_right front hn

theorem mem_of_mem_dropBase {base : Option String} {names : List String} {n : String}
    (h : n ∈ dropBase base names) : n ∈ names := by
  cases base with
  | none => exact h
  | some text =>
      simp only [dropBase] at h
      split at h
      · exact h
      · cases hrest : (pieces (trimSlashes text.toList)).isPrefixOf? names with
        | none =>
            rw [hrest] at h
            exact h
        | some rest =>
            rw [hrest] at h
            exact mem_of_isPrefixOf? hrest h

theorem mem_of_mem_dropLocale {locales names : List String} {n : String}
    (h : n ∈ dropLocale locales names) : n ∈ names := by
  unfold dropLocale at h
  cases hrest : locales.findSome? fun l => (pieces l.toList).isPrefixOf? names with
  | none =>
      rw [hrest] at h
      exact h
  | some rest =>
      rw [hrest] at h
      obtain ⟨l, -, hl⟩ := List.exists_of_findSome?_eq_some hrest
      exact mem_of_isPrefixOf? hl h

theorem isSegment_of_mem_remaining {project : Project} {names : List String}
    (hnames : ∀ n ∈ names, IsSegment n) : ∀ n ∈ remaining project names, IsSegment n :=
  fun n hn => hnames n (mem_of_mem_dropBase (mem_of_mem_dropLocale hn))

/-- The last of the names stands at the end of the text. -/
theorem joined_concat (front : List String) (last : String) :
    ∃ head, joined (front ++ [last]) = head ++ last.toList := by
  by_cases hfront : front = []
  · subst hfront
    exact ⟨['/'], by simp [joined_eq]⟩
  · refine ⟨joined front ++ ['/'], ?_⟩
    rw [joined_append hfront (List.cons_ne_nil last [])]
    simp [joined_eq]

/-- Segments that are joined have no slash at their end, unless there are none. -/
theorem withoutFinalSlashes_joined {names : List String} (hnames : ∀ n ∈ names, IsSegment n) :
    withoutFinalSlashes (joined names) = joined names := by
  rcases List.eq_nil_or_concat names with rfl | ⟨front, last, rfl⟩
  · rfl
  · rw [List.concat_eq_append] at hnames ⊢
    have hlast : IsSegment last := hnames last (by simp)
    have hne : last.toList.reverse ≠ [] := by simpa using hlast.ne_empty
    have hslash : ∀ c ∈ last.toList.reverse, (c == '/') = false := by
      intro c hc
      rw [beq_eq_false_iff_ne]
      rintro rfl
      exact hlast.no_slash (List.mem_reverse.mp hc)
    obtain ⟨head, hjoined⟩ := joined_concat front last
    have hkept : ((joined (front ++ [last])).reverse.dropWhile (· == '/')).reverse =
        joined (front ++ [last]) := by
      have hstops := Text.Stops.of_forall hne hslash head.reverse
      rw [hjoined, List.reverse_append, Text.dropWhile_of_stops hstops, ← List.reverse_append,
        List.reverse_reverse]
    rw [withoutFinalSlashes, hkept]
    rfl

/-- **Normalising a route is dropping segments.** -/
theorem normalize_joined (project : Project) {names : List String}
    (hnames : ∀ n ∈ names, IsSegment n) :
    normalize project (joined names) = joined (remaining project names) := by
  have hbase : ∀ n ∈ dropBase project.basePath names, IsSegment n :=
    fun n hn => hnames n (mem_of_mem_dropBase hn)
  rw [normalize, withoutBase_joined _ hnames, withoutLocale_joined _ hbase]
  exact withoutFinalSlashes_joined (isSegment_of_mem_remaining hnames)

/-! ## Places of files -/

theorem isSegment_of_mem_names {path : RawText} {n : String} (h : n ∈ Path.names path) :
    IsSegment n := by
  obtain ⟨hne, hslash⟩ := Path.ne_empty_and_no_slash_of_mem_names h
  exact ⟨hne, hslash⟩

theorem below?_eq_some_iff {anchor file : String} {path : RawText} {dirs : List String} :
    below? anchor path = some (dirs, file) ↔
      ∃ before, anchor ∉ before ∧ Path.names path = before ++ anchor :: (dirs ++ [file]) := by
  constructor
  · intro h
    have hsplit := (Path.names path).takeWhile_append_dropWhile (p := (· != anchor))
    have hbefore : anchor ∉ (Path.names path).takeWhile (· != anchor) := by
      intro hmem
      simpa using List.mem_takeWhile_imp hmem
    have hfirst := List.head?_dropWhile_not (· != anchor) (Path.names path)
    unfold below? at h
    split at h
    · exact absurd h (by simp)
    · next first rest hrest =>
      rw [hrest] at hsplit hfirst
      obtain rfl : first = anchor := by simpa using hfirst
      split at h
      · next last hlast =>
        simp only [Option.some.injEq, Prod.mk.injEq] at h
        obtain ⟨rfl, rfl⟩ := h
        obtain ⟨front, rfl⟩ := List.getLast?_eq_some_iff.mp hlast
        rw [List.dropLast_concat]
        exact ⟨_, hbefore, hsplit.symm⟩
      · exact absurd h (by simp)
  · rintro ⟨before, hbefore, hnames⟩
    have hfront : ∀ n ∈ before, (n != anchor) = true := by
      intro n hn
      rw [bne_iff_ne]
      rintro rfl
      exact hbefore hn
    have hdrop : (Path.names path).dropWhile (· != anchor) = anchor :: (dirs ++ [file]) := by
      rw [hnames, List.dropWhile_append_of_pos hfront, List.dropWhile_cons_of_neg (by simp)]
    simp [below?, hdrop]

theorem stem?_eq_some_iff {name : String} {stem : List Char} :
    stem? name = some stem ↔ ∃ ext ∈ extensions, name.toList = stem ++ '.' :: ext.toList := by
  have hdots : ∀ ext ∈ extensions, '.' ∉ ext.toList := by decide
  unfold stem?
  constructor
  · intro h
    obtain ⟨⟨stem', ext⟩, hcut, hext⟩ := Option.bind_eq_some_iff.mp h
    simp only at hext
    split at hext
    · next hmem =>
      obtain rfl := Option.some.inj hext
      refine ⟨String.ofList ext, by simpa using hmem, ?_⟩
      rw [String.toList_ofList]
      exact (Text.cutAtLast?_eq_some_iff.mp hcut).1
    · exact absurd hext (by simp)
  · rintro ⟨ext, hext, hname⟩
    have hcut := Text.cutAtLast?_eq_some_iff.mpr ⟨hname, hdots ext hext⟩
    simp [hcut, hext]

/-- The path leads to a file with this stem and an extension of screens, in the directories `dirs`
below the first name `anchor`. Steps up and names that are no text do not count. -/
def Placed (anchor : String) (path : RawText) (dirs : List String) (stem : String) : Prop :=
  ∃ before, ∃ ext ∈ extensions,
    anchor ∉ before ∧ Path.names path = before ++ anchor :: (dirs ++ [stem ++ "." ++ ext])

theorem placed_iff {anchor stem : String} {path : RawText} {dirs : List String} :
    Placed anchor path dirs stem ↔
      ∃ file, below? anchor path = some (dirs, file) ∧ stem? file = some stem.toList := by
  simp only [below?_eq_some_iff, stem?_eq_some_iff]
  constructor
  · rintro ⟨before, ext, hext, hbefore, hnames⟩
    exact ⟨_, ⟨before, hbefore, hnames⟩, ext, hext, by simp⟩
  · rintro ⟨file, ⟨before, hbefore, hnames⟩, ext, hext, hfile⟩
    have hname : file = stem ++ "." ++ ext := String.toList_inj.mp (by simp [hfile])
    exact ⟨before, ext, hext, hbefore, hname ▸ hnames⟩

theorem Placed.isSegment_dirs {anchor stem : String} {path : RawText} {dirs : List String}
    (h : Placed anchor path dirs stem) : ∀ d ∈ dirs, IsSegment d := by
  obtain ⟨before, ext, -, -, hnames⟩ := h
  intro d hd
  have hmem : d ∈ Path.names path := by
    rw [hnames]
    simp [hd]
  exact isSegment_of_mem_names hmem

theorem Placed.no_slash_stem {anchor stem : String} {path : RawText} {dirs : List String}
    (h : Placed anchor path dirs stem) : '/' ∉ stem.toList := by
  obtain ⟨before, ext, -, -, hnames⟩ := h
  have hmem : stem ++ "." ++ ext ∈ Path.names path := by
    rw [hnames]
    simp
  intro hslash
  exact (isSegment_of_mem_names hmem).no_slash (by simp [hslash])

/-! ## Routes of files -/

/-- The route is a slash and the segments with slashes between them. -/
structure Spells (route : String) (segments : List String) : Prop where
  text_eq : route = "/" ++ String.intercalate "/" segments
  isSegment : ∀ s ∈ segments, IsSegment s

theorem ofList_joined (names : List String) :
    String.ofList (joined names) = "/" ++ String.intercalate "/" names := by
  rw [← String.toList_inj, String.toList_ofList, String.toList_append]
  rfl

/-- The route that a list of names normalises to is spelled by what remains of them. -/
theorem spells_normalize_iff {project : Project} {names : List String} {route : String}
    (hnames : ∀ n ∈ names, IsSegment n) :
    String.ofList (normalize project (joined names)) = route ↔
      Spells route (remaining project names) := by
  rw [normalize_joined project hnames, ofList_joined]
  exact ⟨fun h => ⟨h.symm, isSegment_of_mem_remaining hnames⟩, fun h => h.text_eq.symm⟩

/-- Either the path leads to a file below the anchor, or it has no such file or no stem. -/
theorem placed_or (anchor : String) (path : RawText) :
    (∃ dirs stem, Placed anchor path dirs stem) ∨ below? anchor path = none ∨
      ∃ dirs file, below? anchor path = some (dirs, file) ∧ stem? file = none := by
  cases hbelow : below? anchor path with
  | none => exact .inr (.inl rfl)
  | some place =>
      obtain ⟨dirs, file⟩ := place
      cases hstem : stem? file with
      | none => exact .inr (.inr ⟨dirs, file, rfl, hstem⟩)
      | some stem =>
          refine .inl ⟨dirs, String.ofList stem, placed_iff.mpr ⟨file, hbelow, ?_⟩⟩
          rw [String.toList_ofList, hstem]

theorem app?_of_placed {path : RawText} {stem : String} {dirs : List String} (project : Project)
    (h : Placed "app" path dirs stem) :
    app? project path =
      if stem = "page" then
        some (String.ofList (normalize project (joined (dirs.filter fun d => !isGroup d))))
      else none := by
  obtain ⟨file, hbelow, hstem⟩ := placed_iff.mp h
  simp only [app?, hbelow, hstem, bind, Option.bind, bne_iff_ne, ne_eq, String.toList_inj]
  split <;> simp_all

theorem pages?_of_placed {path : RawText} {stem : String} {dirs : List String} (project : Project)
    (h : Placed "pages" path dirs stem) :
    pages? project path =
      if isPrivate stem.toList || dirs.any fun d => isPrivate d.toList then none
      else if dirs.head? = some "api" then none
      else
        let kept := if stem = "index" then dirs else dirs ++ [stem]
        some (String.ofList (normalize project (joined kept))) := by
  obtain ⟨file, hbelow, hstem⟩ := placed_iff.mp h
  simp only [pages?, hbelow, hstem, bind, Option.bind, beq_iff_eq, String.toList_inj]
  split
  · rfl
  · split <;> simp_all

theorem exists_placed_of_app? {project : Project} {path : RawText} {route : String}
    (h : app? project path = some route) : ∃ dirs stem, Placed "app" path dirs stem := by
  rcases placed_or "app" path with hplaced | hbelow | ⟨dirs, file, hbelow, hstem⟩
  · exact hplaced
  · rw [app?, hbelow] at h
    exact absurd h (Option.some_ne_none route).symm
  · simp only [app?, hbelow, hstem, bind, Option.bind, reduceCtorEq] at h

theorem exists_placed_of_pages? {project : Project} {path : RawText} {route : String}
    (h : pages? project path = some route) : ∃ dirs stem, Placed "pages" path dirs stem := by
  rcases placed_or "pages" path with hplaced | hbelow | ⟨dirs, file, hbelow, hstem⟩
  · exact hplaced
  · rw [pages?, hbelow] at h
    exact absurd h (Option.some_ne_none route).symm
  · simp only [pages?, hbelow, hstem, bind, Option.bind, reduceCtorEq] at h

theorem app?_eq_some_iff {project : Project} {path : RawText} {route : String} :
    app? project path = some route ↔
      ∃ dirs, Placed "app" path dirs "page" ∧
        Spells route (remaining project (dirs.filter fun d => !isGroup d)) := by
  have hroute : ∀ {dirs}, Placed "app" path dirs "page" →
      (app? project path = some route ↔
        Spells route (remaining project (dirs.filter fun d => !isGroup d))) := by
    intro dirs hplaced
    have hkept : ∀ d ∈ dirs.filter fun d => !isGroup d, IsSegment d :=
      fun d hd => hplaced.isSegment_dirs d (List.mem_of_mem_filter hd)
    rw [app?_of_placed project hplaced, if_pos rfl, Option.some.injEq,
      spells_normalize_iff hkept]
  constructor
  · intro h
    obtain ⟨dirs, stem, hplaced⟩ := exists_placed_of_app? h
    obtain rfl : stem = "page" := by
      rw [app?_of_placed project hplaced] at h
      by_contra hstem
      rw [if_neg hstem] at h
      exact Option.some_ne_none _ h.symm
    exact ⟨dirs, hplaced, (hroute hplaced).mp h⟩
  · rintro ⟨dirs, hplaced, hspells⟩
    exact (hroute hplaced).mpr hspells

/-- Neither the file nor a directory is private, and the directories do not start with `api`. -/
def IsPublic (dirs : List String) (stem : String) : Prop :=
  (∀ name ∈ stem :: dirs, isPrivate name.toList = false) ∧ dirs.head? ≠ some "api"

instance (dirs : List String) (stem : String) : Decidable (IsPublic dirs stem) :=
  inferInstanceAs (Decidable (_ ∧ _))

theorem pages?_eq_some_iff {project : Project} {path : RawText} {stem route : String}
    {dirs : List String} (hplaced : Placed "pages" path dirs stem) (hstem : stem ≠ "") :
    pages? project path = some route ↔
      IsPublic dirs stem ∧
        Spells route (remaining project (if stem = "index" then dirs else dirs ++ [stem])) := by
  have hkept : ∀ n ∈ if stem = "index" then dirs else dirs ++ [stem], IsSegment n := by
    intro n hn
    split at hn
    · exact hplaced.isSegment_dirs n hn
    · rcases List.mem_append.mp hn with hn | hn
      · exact hplaced.isSegment_dirs n hn
      · obtain rfl := List.mem_singleton.mp hn
        exact ⟨hstem, hplaced.no_slash_stem⟩
  have hpublic : IsPublic dirs stem ↔
      ¬ (isPrivate stem.toList || dirs.any fun d => isPrivate d.toList) = true ∧
        ¬ dirs.head? = some "api" := by
    simp [IsPublic]
  rw [pages?_of_placed project hplaced, hpublic]
  split
  · next hprivate => simp [hprivate]
  · next hprivate =>
    split
    · next hapi => simp [hapi]
    · next hapi =>
      rw [Option.some.injEq, spells_normalize_iff hkept]
      exact ⟨fun h => ⟨⟨hprivate, hapi⟩, h⟩, fun h => h.2⟩

/-- **Routes are made of whole segments.**  A `page` file below `app` has the route that the
directories between spell without groups, and a file below `pages` the one that its directories and
its stem spell, unless the stem is `index`; from these names the pieces of the base path and then
those of the first locale that fits are dropped as a front of the list, or not at all.  The path is
any row of bytes; of its components those are taken that are names and texts. -/
theorem routes_by_segments (project : Project) (path : RawText) :
    (∀ route, app? project path = some route ↔
      ∃ dirs, Placed "app" path dirs "page" ∧
        Spells route (remaining project (dirs.filter fun d => !isGroup d))) ∧
    (∀ route, pages? project path = some route → ∃ dirs stem, Placed "pages" path dirs stem) ∧
    ∀ dirs stem, Placed "pages" path dirs stem → stem ≠ "" →
      ∀ route, pages? project path = some route ↔
        IsPublic dirs stem ∧
          Spells route (remaining project (if stem = "index" then dirs else dirs ++ [stem])) :=
  ⟨fun _ => app?_eq_some_iff, fun _ => exists_placed_of_pages?,
    fun _ _ hplaced hstem _ => pages?_eq_some_iff hplaced hstem⟩

/-- A front end whose base path and locales have slashes in all places. -/
def storeProject : Project :=
  { kind := .frontEnd, path := "apps/web", basePath := some "//shop/"
    locales := ["", "/en", "en/", "en/us", "en"] }

theorem routes_by_segments_store :
    app? storeProject "src/app/(site)/shop/@modal/en/us/page.tsx" = some "/" ∧
    (∃ dirs, Placed "app" "src/app/(site)/shop/@modal/en/us/page.tsx" dirs "page" ∧
      Spells "/" (remaining storeProject (dirs.filter fun d => !isGroup d))) ∧
    Placed "pages" "./pages/shop//en/blog/../post.en.jsx" ["shop", "en", "blog"] "post.en" ∧
    "post.en" ≠ "" ∧
    pages? storeProject "./pages/shop//en/blog/../post.en.jsx" = some "/blog/post.en" ∧
    Spells "/blog/post.en" (remaining storeProject ["shop", "en", "blog", "post.en"]) := by
  have happ : app? storeProject "src/app/(site)/shop/@modal/en/us/page.tsx" = some "/" := by
    decide +kernel
  have hplaced : Placed "pages" "./pages/shop//en/blog/../post.en.jsx" ["shop", "en", "blog"]
      "post.en" := ⟨[], "jsx", by decide, by decide, by decide +kernel⟩
  have hpages : pages? storeProject "./pages/shop//en/blog/../post.en.jsx" =
      some "/blog/post.en" := by decide +kernel
  have hstem : "post.en" ≠ "" := by decide
  refine ⟨happ, (routes_by_segments storeProject _).1 "/" |>.mp happ, hplaced, hstem, hpages, ?_⟩
  exact ((routes_by_segments storeProject _).2.2 _ _ hplaced hstem _ |>.mp hpages).2

/-- **Not every component is a segment**: a step up and a name that is no text are passed over, as
if the path were written without them. -/
theorem app?_passes_over :
    Path.components "app/cart/../page.tsx" =
        [.name "app", .name "cart", .up, .name "page.tsx"] ∧
      app? { kind := .frontEnd, path := "" } "app/cart/../page.tsx" = some "/cart" ∧
    Path.components (.joined ["app", ⟨[0xff]⟩, "page.tsx"]) =
        [.name "app", .name ⟨[0xff]⟩, .name "page.tsx"] ∧
      app? { kind := .frontEnd, path := "" } (.joined ["app", ⟨[0xff]⟩, "page.tsx"]) =
        some "/" := by
  decide +kernel

end ApiAtlas.Route
