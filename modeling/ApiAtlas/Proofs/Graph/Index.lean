import Mathlib.Data.List.Basic
import ApiAtlas.Graph.Index
import ApiAtlas.Proofs.Layer
set_option autoImplicit false

/-!
# The index is exact

The index is filled by one walk over the edges and one over the nodes.  What a table holds under a
key after the walk is what the walk entered under that key, in order; a key without values is not
there.  From this follow what the two lookups return, that they are each other's converse, and what
the groups of routes are.  Nothing is asked of nodes and edges: edges may repeat or end nowhere, and
identifiers may repeat as well.
-/

namespace ApiAtlas

/-! ## Pieces of a text -/

namespace Text

/-- The piece is the first that is not empty: separators stand before it, none in it, and one right
behind it unless the text ends there. -/
def IsFirstPiece (sep : Char) (text piece : List Char) : Prop :=
  ∃ front rest, text = front ++ (piece ++ rest) ∧ (∀ c ∈ front, c = sep) ∧ piece ≠ [] ∧
    sep ∉ piece ∧ ∀ c ∈ rest.head?, c = sep

theorem not_isFirstPiece_nil (sep : Char) (piece : List Char) : ¬ IsFirstPiece sep [] piece := by
  rintro ⟨front, rest, htext, _, hpiece, _⟩
  have hnil := List.append_eq_nil_iff.mp htext.symm
  exact hpiece (List.append_eq_nil_iff.mp hnil.2).1

theorem isFirstPiece_sep (sep : Char) (text piece : List Char) :
    IsFirstPiece sep (sep :: text) piece ↔ IsFirstPiece sep text piece := by
  constructor
  · rintro ⟨front, rest, htext, hfront, hpiece, hsep, hrest⟩
    cases front with
    | nil =>
        -- the piece itself would begin with a separator
        cases piece with
        | nil => exact absurd rfl hpiece
        | cons c tail =>
            have hc : sep = c := (List.cons.inj htext).1
            exact absurd (hc ▸ List.mem_cons_self) hsep
    | cons c front =>
        refine ⟨front, rest, (List.cons.inj htext).2, ?_, hpiece, hsep, hrest⟩
        intro d hd
        exact hfront d (List.mem_cons_of_mem c hd)
  · rintro ⟨front, rest, htext, hfront, hpiece, hsep, hrest⟩
    refine ⟨sep :: front, rest, congrArg (List.cons sep) htext, ?_, hpiece, hsep, hrest⟩
    intro d hd
    rcases List.mem_cons.mp hd with rfl | hd
    · rfl
    · exact hfront d hd

theorem isFirstPiece_cons {sep c : Char} (hc : c ≠ sep) (text piece : List Char) :
    IsFirstPiece sep (c :: text) piece ↔ piece = c :: text.takeWhile (· != sep) := by
  constructor
  · rintro ⟨front, rest, htext, hfront, hpiece, hsep, hrest⟩
    cases front with
    | cons d front =>
        exact absurd ((List.cons.inj htext).1.trans (hfront d List.mem_cons_self)) hc
    | nil =>
        cases piece with
        | nil => exact absurd rfl hpiece
        | cons d tail =>
            obtain ⟨rfl, hrest'⟩ := List.cons.inj htext
            have hwhole : text = tail ++ rest := hrest'
            have htail : ∀ a ∈ tail, (a != sep) = true := by
              intro a ha
              rw [bne_iff_ne]
              rintro rfl
              exact hsep (List.mem_cons_of_mem c ha)
            have hstop : rest.takeWhile (· != sep) = [] := by
              cases rest with
              | nil => rfl
              | cons a _ => simp [hrest a rfl]
            rw [hwhole, List.takeWhile_append_of_pos htail, hstop, List.append_nil]
  · rintro rfl
    refine ⟨[], text.dropWhile (· != sep), ?_, ?_, List.cons_ne_nil _ _, ?_, ?_⟩
    · rw [List.nil_append, List.cons_append, List.takeWhile_append_dropWhile]
    · intro d hd
      exact absurd hd List.not_mem_nil
    · intro hmem
      rcases List.mem_cons.mp hmem with rfl | hmem
      · exact hc rfl
      · have hall := List.all_eq_true.mp List.all_takeWhile sep hmem
        rw [bne_self_eq_false] at hall
        exact Bool.false_ne_true hall
    · intro d hd
      have hstop := List.head?_dropWhile_not (· != sep) text
      rw [Option.mem_def.mp hd] at hstop
      simpa using hstop

theorem splitBy_eq_cons (sep : Char) (text : List Char) :
    ∃ pieces, splitBy sep text = text.takeWhile (· != sep) :: pieces := by
  induction text with
  | nil => exact ⟨[], rfl⟩
  | cons c rest ih =>
      obtain ⟨pieces, hpieces⟩ := ih
      by_cases hc : c = sep
      · exact ⟨splitBy sep rest, by simp [splitBy, hc]⟩
      · exact ⟨pieces, by simp [splitBy, hc, hpieces]⟩

/-- Cutting a text and looking for the first piece with something in it finds the first piece. -/
theorem find?_splitBy_eq_some_iff {sep : Char} {text piece : List Char} :
    (splitBy sep text).find? (!·.isEmpty) = some piece ↔ IsFirstPiece sep text piece := by
  induction text with
  | nil => simp [splitBy, not_isFirstPiece_nil]
  | cons c rest ih =>
      by_cases hc : c = sep
      · subst hc
        rw [isFirstPiece_sep, ← ih]
        simp [splitBy]
      · obtain ⟨pieces, hpieces⟩ := splitBy_eq_cons sep rest
        have hsplit : splitBy sep (c :: rest) = (c :: rest.takeWhile (· != sep)) :: pieces := by
          simp [splitBy, hc, hpieces]
        rw [isFirstPiece_cons hc, hsplit, List.find?_cons_of_pos rfl, Option.some_inj]
        exact eq_comm

end Text

namespace GraphIndex

/-! ## Kinds and direct uses -/

/-- The identifier has the kind: the last node that carries it is of that kind. -/
def HasKind (nodes : List GraphNode) (id : String) (kind : NodeKind) : Prop :=
  ∃ front n back, nodes = front ++ n :: back ∧ n.id = id ∧ n.kind = kind ∧ ∀ m ∈ back, m.id ≠ id

theorem kindOf?_eq_some_iff {nodes : List GraphNode} {id : String} {kind : NodeKind} :
    kindOf? nodes id = some kind ↔ HasKind nodes id kind := by
  unfold kindOf? HasKind
  rw [Option.map_eq_some_iff]
  constructor
  · rintro ⟨n, hfound, hkind⟩
    obtain ⟨hid, back, front, hnodes, hback⟩ := List.find?_eq_some_iff_append.mp hfound
    refine ⟨front.reverse, n, back.reverse, ?_, beq_iff_eq.mp hid, hkind, ?_⟩
    · rw [← List.reverse_reverse nodes, hnodes]
      simp
    · intro m hm
      simpa using hback m (List.mem_reverse.mp hm)
  · rintro ⟨front, n, back, rfl, hid, hkind, hback⟩
    refine ⟨n, List.find?_eq_some_iff_append.mpr ⟨beq_iff_eq.mpr hid, back.reverse, front.reverse,
      by simp, ?_⟩, hkind⟩
    intro m hm
    simpa using hback m (List.mem_reverse.mp hm)

/-- The edge goes from a screen to an operation or a gRPC method. -/
def DirectUse (nodes : List GraphNode) (e : GraphEdge) : Prop :=
  HasKind nodes e.source .screen ∧
    (HasKind nodes e.target .operation ∨ HasKind nodes e.target .rpc)

theorem isDirectUse_iff {nodes : List GraphNode} {e : GraphEdge} :
    isDirectUse nodes e = true ↔ DirectUse nodes e := by
  unfold DirectUse
  rw [← kindOf?_eq_some_iff, ← kindOf?_eq_some_iff, ← kindOf?_eq_some_iff]
  unfold isDirectUse
  rcases kindOf? nodes e.source with _ | (_ | _ | _ | _) <;>
    rcases kindOf? nodes e.target with _ | (_ | _ | _ | _) <;> simp [NodeKind.isApi]

instance (nodes : List GraphNode) : DecidablePred (DirectUse nodes) :=
  fun _ => decidable_of_iff _ isDirectUse_iff

/-- The segment is the first of the route that is not empty. -/
def FirstSegment (route segment : String) : Prop :=
  Text.IsFirstPiece '/' route.toList segment.toList

instance (route segment : String) : Decidable (FirstSegment route segment) :=
  decidable_of_iff _ Text.find?_splitBy_eq_some_iff

example : FirstSegment "//products/[id]" "products" ∧ ¬ FirstSegment "/" "" := by decide +kernel

/-- The key of the screens whose routes begin with a segment. -/
def groupKey (segment : String) : String := "screen:/" ++ segment ++ "/*"

theorem groupKey_injective {a b : String} (h : groupKey a = groupKey b) : a = b := by
  unfold groupKey at h
  exact (String.append_right_inj _).mp ((String.append_left_inj _).mp h)

theorem routeGroup?_eq_some_iff {route key : String} :
    routeGroup? route = some key ↔
      ∃ segment, FirstSegment route segment ∧ key = groupKey segment := by
  unfold routeGroup? FirstSegment groupKey
  rw [Option.map_eq_some_iff]
  constructor
  · rintro ⟨piece, hpiece, rfl⟩
    refine ⟨String.ofList piece, ?_, rfl⟩
    rw [String.toList_ofList]
    exact Text.find?_splitBy_eq_some_iff.mp hpiece
  · rintro ⟨segment, hsegment, rfl⟩
    refine ⟨segment.toList, Text.find?_splitBy_eq_some_iff.mpr hsegment, ?_⟩
    rw [String.ofList_toList]

theorem routeGroup?_eq_groupKey_iff {route segment : String} :
    routeGroup? route = some (groupKey segment) ↔ FirstSegment route segment := by
  rw [routeGroup?_eq_some_iff]
  constructor
  · rintro ⟨other, hother, hkey⟩
    exact groupKey_injective hkey ▸ hother
  · intro h
    exact ⟨segment, h, rfl⟩

/-! ## Tables of lists -/

/-- What a table holds for the values of a key: a key without values is not there. -/
def held (values : List String) : Option (List String) := if values = [] then none else some values

theorem getD_held (values : List String) : (held values).getD [] = values := by
  unfold held
  split
  · next hnil => exact hnil.symm
  · rfl

theorem held_eq_some_iff {values list : List String} :
    held values = some list ↔ values ≠ [] ∧ list = values := by
  unfold held
  split
  · next hnil => simp [hnil]
  · next hne => simp [hne, eq_comm]

/-- The walk over the items, when each step adds a value to the list of one key or does nothing. -/
theorem get?_foldl {α : Type} {step : Dict (List String) → α → Dict (List String)}
    (key? : α → Option String) (value : α → String) (add : List String → String → List String)
    (hadd : ∀ list x, add list x ≠ [])
    (hstep : ∀ table a key, (step table a).get? key =
      if key? a = some key then some (add ((table.get? key).getD []) (value a))
      else table.get? key)
    (items : List α) (key : String) :
    (items.foldl step .empty).get? key =
      held (((items.filter fun a => key? a = some key).map value).foldl add []) := by
  -- from the back, since the last item is the last to be added to its list
  induction items using List.reverseRecOn with
  | nil => exact Dict.get?_empty key
  | append_singleton rest a ih =>
      rw [List.foldl_append, List.foldl_cons, List.foldl_nil, hstep, ih, getD_held,
        List.filter_append, List.map_append, List.foldl_append]
      by_cases hkey : key? a = some key
      · have hlast : [a].filter (fun a => key? a = some key) = [a] := by simp [hkey]
        rw [if_pos hkey, hlast]
        exact (held_eq_some_iff.mpr ⟨hadd _ _, rfl⟩).symm
      · have hlast : [a].filter (fun a => key? a = some key) = [] := by simp [hkey]
        rw [if_neg hkey, hlast]
        rfl

theorem pushUnique_ne_nil (list : List String) (x : String) : pushUnique list x ≠ [] := by
  unfold pushUnique
  split
  · next hmem =>
    rintro rfl
    exact absurd hmem (by simp)
  · simp

theorem foldl_pushUnique (items : List String) : items.foldl pushUnique [] = items.eraseDups :=
  Text.distinct_eq_eraseDups items

theorem get?_enter (table : Dict (List String)) (key value other : String) :
    (enter table key value).get? other =
      if some key = some other then some (pushUnique ((table.get? other).getD []) value)
      else table.get? other := by
  unfold enter
  rw [Dict.get?_alter]
  by_cases h : other = key
  · rw [if_pos h, if_pos (congrArg some h.symm), h]
  · rw [if_neg h, if_neg fun hsome => h (Option.some.inj hsome).symm]

theorem get?_enterRoute (table : Dict (List String)) (n : GraphNode) (key : String) :
    (enterRoute table n).get? key =
      if routeGroup? n.label = some key then some ((table.get? key).getD [] ++ [n.id])
      else table.get? key := by
  unfold enterRoute
  split
  · next group hgroup =>
    rw [hgroup, Dict.get?_alter]
    by_cases h : key = group
    · rw [if_pos h, if_pos (congrArg some h.symm), h]
    · rw [if_neg h, if_neg fun hsome => h (Option.some.inj hsome).symm]
  · next hnone => rw [hnone, if_neg (by simp)]

/-- The table of one direction: under a key stand the values of the direct uses with that key. -/
theorem get?_uses (nodes : List GraphNode) (edges : List GraphEdge) (key value : GraphEdge → String)
    (k : String) :
    ((edges.filter (isDirectUse nodes)).foldl (fun t e => enter t (key e) (value e))
        .empty).get? k =
      held ((edges.filter fun e => DirectUse nodes e ∧ key e = k).map value).eraseDups := by
  have hfilter : (edges.filter (isDirectUse nodes)).filter (fun e => some (key e) = some k) =
      edges.filter fun e => DirectUse nodes e ∧ key e = k := by
    rw [List.filter_filter]
    refine List.filter_congr fun e _ => ?_
    rw [Bool.eq_iff_iff, Bool.and_eq_true, isDirectUse_iff, decide_eq_true_iff,
      decide_eq_true_iff, Option.some_inj]
    exact and_comm
  rw [get?_foldl (fun e => some (key e)) value pushUnique pushUnique_ne_nil
    fun table e other => get?_enter table (key e) (value e) other, hfilter, foldl_pushUnique]

theorem get?_routeGroups (nodes : List GraphNode) (key : String) :
    ((nodes.filter (·.kind == .screen)).foldl enterRoute .empty).get? key =
      held (((nodes.filter (·.kind == .screen)).filter
        fun n => routeGroup? n.label = some key).map (·.id)) := by
  have hconcat : ∀ items : List String, items.foldl (fun list x => list ++ [x]) [] = items := by
    intro items
    rw [List.foldl_append_eq_append, ← List.flatMap_def, List.flatMap_singleton', List.nil_append]
  have hwalk := get?_foldl (fun n => routeGroup? n.label) GraphNode.id (fun list x => list ++ [x])
    (fun list x => List.append_ne_nil_of_right_ne_nil list (List.cons_ne_nil x [])) get?_enterRoute
    (nodes.filter (·.kind == .screen)) key
  rw [hconcat] at hwalk
  exact hwalk

/-! ## The index -/

/-- What the index of nodes and edges says. -/
structure Exact (nodes : List GraphNode) (edges : List GraphEdge) (index : GraphIndex) : Prop where
  /-- The screens of an interface, in the order in which edges first lead there from them. -/
  screens : ∀ api, index.screensFor api =
    ((edges.filter fun e => DirectUse nodes e ∧ e.target = api).map (·.source)).eraseDups
  /-- The interfaces of a screen, in the order in which edges first lead there. -/
  apis : ∀ screen, index.apisFor screen =
    ((edges.filter fun e => DirectUse nodes e ∧ e.source = screen).map (·.target)).eraseDups
  screens_nodup : ∀ api, (index.screensFor api).Nodup
  apis_nodup : ∀ screen, (index.apisFor screen).Nodup
  /-- A screen uses an interface exactly if an edge leads from the one to the other. -/
  mem_screens : ∀ screen api, screen ∈ index.screensFor api ↔
    ∃ e ∈ edges, e.source = screen ∧ e.target = api ∧ HasKind nodes screen .screen ∧
      (HasKind nodes api .operation ∨ HasKind nodes api .rpc)
  /-- The two lookups are each other's converse. -/
  converse : ∀ screen api, screen ∈ index.screensFor api ↔ api ∈ index.apisFor screen
  /-- No key stands for an empty list. -/
  nonempty : ∀ table ∈ [index.apiToScreens, index.screenToApis, index.routeGroups],
    ∀ entry ∈ table.entries, entry.2 ≠ []
  /-- The groups of routes are the screens by first segment, in order, and there are no others. -/
  groups : ∀ key ids, index.routeGroups.get? key = some ids ↔
    ∃ segment, key = "screen:/" ++ segment ++ "/*" ∧
      (∃ n ∈ nodes, n.kind = .screen ∧ FirstSegment n.label segment) ∧
      ids = (nodes.filter fun n => n.kind = .screen ∧ FirstSegment n.label segment).map (·.id)

theorem screensFor_build (nodes : List GraphNode) (edges : List GraphEdge) (api : String) :
    (build nodes edges).screensFor api =
      ((edges.filter fun e => DirectUse nodes e ∧ e.target = api).map (·.source)).eraseDups := by
  unfold screensFor build
  rw [get?_uses nodes edges (·.target) (·.source), getD_held]

theorem apisFor_build (nodes : List GraphNode) (edges : List GraphEdge) (screen : String) :
    (build nodes edges).apisFor screen =
      ((edges.filter fun e => DirectUse nodes e ∧ e.source = screen).map (·.target)).eraseDups := by
  unfold apisFor build
  rw [get?_uses nodes edges (·.source) (·.target), getD_held]

theorem mem_eraseDups_uses {nodes : List GraphNode} {edges : List GraphEdge}
    {key value : GraphEdge → String} {k x : String} :
    x ∈ ((edges.filter fun e => DirectUse nodes e ∧ key e = k).map value).eraseDups ↔
      ∃ e ∈ edges, DirectUse nodes e ∧ key e = k ∧ value e = x := by
  simp only [List.mem_eraseDups, List.mem_map, List.mem_filter, decide_eq_true_iff, and_assoc]

/-- A group holds the screens of its segment; there is a group for each segment of a screen. -/
theorem get?_routeGroups_build {nodes : List GraphNode} {edges : List GraphEdge} {key : String}
    {ids : List String} :
    (build nodes edges).routeGroups.get? key = some ids ↔
      ∃ segment, key = groupKey segment ∧
        (∃ n ∈ nodes, n.kind = .screen ∧ FirstSegment n.label segment) ∧
        ids = (nodes.filter fun n => n.kind = .screen ∧ FirstSegment n.label segment).map
          (·.id) := by
  have hmembers : ∀ segment, (nodes.filter (·.kind == .screen)).filter
      (fun n => routeGroup? n.label = some (groupKey segment)) =
        nodes.filter fun n => n.kind = .screen ∧ FirstSegment n.label segment := by
    intro segment
    rw [List.filter_filter]
    refine List.filter_congr fun n _ => ?_
    rw [Bool.eq_iff_iff, Bool.and_eq_true, beq_iff_eq, decide_eq_true_iff, decide_eq_true_iff,
      routeGroup?_eq_groupKey_iff]
    exact and_comm
  have hget := get?_routeGroups nodes key
  unfold build
  rw [hget, held_eq_some_iff]
  constructor
  · rintro ⟨hne, rfl⟩
    -- some screen is in the group, and its first segment gives the key
    obtain ⟨id, hid⟩ := List.exists_mem_of_ne_nil _ hne
    obtain ⟨n, hn, _⟩ := List.mem_map.mp hid
    obtain ⟨hscreen, hgroup⟩ := List.mem_filter.mp hn
    obtain ⟨hmem, hkind⟩ := List.mem_filter.mp hscreen
    obtain ⟨segment, hsegment, rfl⟩ := routeGroup?_eq_some_iff.mp (decide_eq_true_iff.mp hgroup)
    exact ⟨segment, rfl, ⟨n, hmem, beq_iff_eq.mp hkind, hsegment⟩, by rw [hmembers]⟩
  · rintro ⟨segment, rfl, ⟨n, hn, hkind, hsegment⟩, rfl⟩
    rw [hmembers]
    refine ⟨?_, rfl⟩
    exact List.ne_nil_of_mem (List.mem_map_of_mem
      (List.mem_filter.mpr ⟨hn, decide_eq_true_iff.mpr ⟨hkind, hsegment⟩⟩))

theorem ne_nil_of_get?_eq_held {table : Dict (List String)}
    (h : ∀ key, ∃ values, table.get? key = held values) :
    ∀ entry ∈ table.entries, entry.2 ≠ [] := by
  intro entry hentry
  obtain ⟨values, hvalues⟩ := h entry.1
  rw [Dict.get?_eq_some_iff.mpr hentry, eq_comm, held_eq_some_iff] at hvalues
  exact hvalues.2 ▸ hvalues.1

/-- **The index is exact**, for all nodes and edges. -/
theorem build_exact (nodes : List GraphNode) (edges : List GraphEdge) :
    Exact nodes edges (build nodes edges) where
  screens := screensFor_build nodes edges
  apis := apisFor_build nodes edges
  screens_nodup api := by
    rw [screensFor_build, ← Text.distinct_eq_eraseDups]
    exact Text.nodup_distinct _
  apis_nodup screen := by
    rw [apisFor_build, ← Text.distinct_eq_eraseDups]
    exact Text.nodup_distinct _
  mem_screens screen api := by
    rw [screensFor_build, mem_eraseDups_uses]
    constructor
    · rintro ⟨e, he, ⟨hscreen, hapi⟩, rfl, rfl⟩
      exact ⟨e, he, rfl, rfl, hscreen, hapi⟩
    · rintro ⟨e, he, rfl, rfl, hscreen, hapi⟩
      exact ⟨e, he, ⟨hscreen, hapi⟩, rfl, rfl⟩
  converse screen api := by
    rw [screensFor_build, apisFor_build, mem_eraseDups_uses, mem_eraseDups_uses]
    constructor
    · rintro ⟨e, he, huse, htarget, hsource⟩
      exact ⟨e, he, huse, hsource, htarget⟩
    · rintro ⟨e, he, huse, hsource, htarget⟩
      exact ⟨e, he, huse, htarget, hsource⟩
  nonempty table htable := by
    apply ne_nil_of_get?_eq_held
    intro key
    simp only [List.mem_cons, List.not_mem_nil, or_false] at htable
    rcases htable with rfl | rfl | rfl
    · exact ⟨_, get?_uses nodes edges (·.target) (·.source) key⟩
    · exact ⟨_, get?_uses nodes edges (·.source) (·.target) key⟩
    · exact ⟨_, get?_routeGroups nodes key⟩
  groups _ _ := get?_routeGroups_build

end GraphIndex

end ApiAtlas
