import Mathlib.Data.List.DropRight
import ApiAtlas.Proofs.Graph.Assembly
import ApiAtlas.Proofs.Identifier.Key
import ApiAtlas.Proofs.Screen.Route
set_option autoImplicit false

/-!
# Screens: which of them are one node

Of the entities with one identifier a graph keeps the first, so what must not be merged must have
different identifiers.  Routes start with a slash, whatever they are normalised from; so the first
slash of an identifier starts the route, unless the namespace has a slash itself.  Nothing keeps
slashes out of the namespaces of settings, and with them two screens can be one node.
-/

namespace ApiAtlas

/-! ## Routes start with a slash -/

namespace Route

theorem head?_rooted (route : List Char) : (rooted route).head? = some '/' := by
  unfold rooted
  split <;> rfl

theorem head?_withoutFinalSlashes {route : List Char} (h : route.head? = some '/') :
    (withoutFinalSlashes route).head? = some '/' := by
  unfold withoutFinalSlashes
  split
  · rw [List.head?_take, if_neg Nat.one_ne_zero, h]
  · next hkept =>
    have hprefix : (route.reverse.dropWhile (· == '/')).reverse <+: route :=
      List.rdropWhile_prefix (· == '/') route
    obtain ⟨rest, hrest⟩ := hprefix
    rw [← hrest, List.head?_append_of_ne_nil _ hkept] at h
    exact h

theorem head?_normalize (project : Project) (route : List Char) :
    (normalize project route).head? = some '/' :=
  head?_withoutFinalSlashes (head?_rooted _)

theorem head?_app? {project : Project} {path : RawText} {route : String}
    (h : app? project path = some route) : route.toList.head? = some '/' := by
  obtain ⟨dirs, stem, hplaced⟩ := exists_placed_of_app? h
  rw [app?_of_placed project hplaced] at h
  split at h
  · rw [← Option.some.inj h, String.toList_ofList]
    exact head?_normalize project _
  · cases h

theorem head?_pages? {project : Project} {path : RawText} {route : String}
    (h : pages? project path = some route) : route.toList.head? = some '/' := by
  obtain ⟨dirs, stem, hplaced⟩ := exists_placed_of_pages? h
  rw [pages?_of_placed project hplaced] at h
  split at h
  · cases h
  · split at h
    · cases h
    · rw [← Option.some.inj h, String.toList_ofList]
      exact head?_normalize project _

end Route

namespace Screen

/-- What the identifier of a screen is made from. -/
def key (s : Screen) : Identifier.Key := .screen s.space s.route

theorem head?_ofFile? {project : Project} {file : SourceFile} {s : Screen}
    (h : ofFile? project file = some s) : s.route.toList.head? = some '/' := by
  simp only [ofFile?] at h
  split at h
  · next route happ =>
    obtain rfl := Option.some.inj h
    split at happ
    · exact Route.head?_app? happ
    · cases happ
  · obtain ⟨route, hpages, rfl⟩ := Option.map_eq_some_iff.mp h
    split at hpages
    · exact Route.head?_pages? hpages
    · cases hpages

end Screen

namespace Layers

variable {settings : Settings} {files : List SourceFile} {s t : Screen}

theorem id_eq_text_key (h : s ∈ (screensOf settings files).entities) : s.id = s.key.text := by
  obtain ⟨_, _, _, hid⟩ := screen_origin h
  exact hid

theorem head?_route (h : s ∈ (screensOf settings files).entities) :
    s.route.toList.head? = some '/' := by
  obtain ⟨_, _, _, _, _, hfile⟩ := mem_screensOf.mp h
  exact Screen.head?_ofFile? hfile

/-- Screens with one identifier have one route and, but for slashes, one namespace. -/
theorem key_normal_eq_of_id_eq (hs : s ∈ (screensOf settings files).entities)
    (ht : t ∈ (screensOf settings files).entities)
    (hspace : s.space = t.space ∨
      '/' ∉ (s.space.getD "").toList ∧ '/' ∉ (t.space.getD "").toList)
    (hid : s.id = t.id) : s.key.normal = t.key.normal := by
  rw [id_eq_text_key hs, id_eq_text_key ht] at hid
  rcases hspace with hspace | ⟨hslash, hslash'⟩
  · have hroute : s.route = t.route := by
      rw [Screen.key, Screen.key, hspace] at hid
      exact Identifier.screen_route_inj.mp hid
    rw [Screen.key, Screen.key, hspace, hroute]
  · have hsep : s.key.Separable := ⟨hslash, head?_route hs⟩
    have hsep' : t.key.Separable := ⟨hslash', head?_route ht⟩
    exact (Identifier.Key.text_inj hsep hsep').mp hid

/-- A screen is kept for each of the two, and not the same one. -/
def KeepsApart (layers : Layers) (s t : Screen) : Prop :=
  ∃ m ∈ layers.keptScreens, ∃ n ∈ layers.keptScreens, m.id = s.id ∧ n.id = t.id ∧ m.id ≠ n.id

theorem extract_keepsApart (engine : RegexEngine) (hs : s ∈ (screensOf settings files).entities)
    (ht : t ∈ (screensOf settings files).entities)
    (hspace : s.space = t.space ∨
      '/' ∉ (s.space.getD "").toList ∧ '/' ∉ (t.space.getD "").toList)
    (hkeys : s.key.normal ≠ t.key.normal) : (extract engine settings files).KeepsApart s t := by
  obtain ⟨m, hm, hsid⟩ := exists_mem_firstById Screen.id hs
  obtain ⟨n, hn, htid⟩ := exists_mem_firstById Screen.id ht
  refine ⟨m, hm, n, hn, hsid, htid, fun hmn => hkeys ?_⟩
  exact key_normal_eq_of_id_eq hs ht hspace (by rw [← hsid, hmn, htid])

end Layers

namespace Graph

/-- The graph has a node for each of the screens, and not the same one. -/
def KeepsApart (g : Graph) (s t : Screen) : Prop :=
  ∃ m ∈ g.nodes, ∃ n ∈ g.nodes, m.id = s.id ∧ n.id = t.id ∧ m.id ≠ n.id

theorem keepsApart_of_layers {settings : Settings} {chain : MatcherChain} {layers : Layers}
    {files : List SourceFile} {s t : Screen} (h : layers.KeepsApart s t) {g : Graph}
    (hg : assemble settings chain layers files = .ok g) : g.KeepsApart s t := by
  obtain ⟨-, rfl⟩ := assemble_eq_ok_iff.mp hg
  obtain ⟨m, hm, n, hn, hsid, htid, hne⟩ := h
  exact ⟨.shownScreen m, Layers.shownScreen_mem_nodes hm, .shownScreen n,
    Layers.shownScreen_mem_nodes hn, hsid, htid, hne⟩

end Graph

/-- **Identifiers can be read back.**  Those of different layers never coincide.  Those of separable
keys coincide only for one key, up to an empty namespace.  The service of a method is the segment
before the dot.  Hence screens that differ in their routes alone, or in namespaces without slashes,
are kept apart when the first of each identifier is kept, and in every graph that results. -/
theorem Identifier.keys_kept_apart :
    (∀ a b : Key, a.kind ≠ b.kind → a.text ≠ b.text) ∧
    (∀ a b : Key, a.Separable → b.Separable → (a.text = b.text ↔ a.normal = b.normal)) ∧
    (∀ service method : String, service ≠ "" → '.' ∉ service.toList →
      serviceSegment? (rpc service method) = some service) ∧
    ∀ (engine : RegexEngine) (settings : Settings) (files : List SourceFile),
      ∀ s ∈ (Layers.screensOf settings files).entities,
      ∀ t ∈ (Layers.screensOf settings files).entities,
        (s.space = t.space ∨ '/' ∉ (s.space.getD "").toList ∧ '/' ∉ (t.space.getD "").toList) →
        s.key.normal ≠ t.key.normal →
          (Layers.extract engine settings files).KeepsApart s t ∧
          ∀ chain g, Graph.assemble settings chain (.extract engine settings files) files = .ok g →
            g.KeepsApart s t := by
  refine ⟨?_, ?_, ?_, ?_⟩
  · intro a b hkind htext
    exact hkind (Key.kind_eq_of_text_eq htext)
  · intro a b ha hb
    exact Key.text_inj ha hb
  · intro service method hne hdot
    exact serviceSegment?_rpc hne hdot method
  · intro engine settings files s hs t ht hspace hkeys
    have hapart := Layers.extract_keepsApart engine hs ht hspace hkeys
    exact ⟨hapart, fun chain g hg => Graph.keepsApart_of_layers hapart hg⟩

/-- Two front ends with a namespace each. -/
def Graph.twoFrontEnds (first second : String) : Settings :=
  { apps := .ofList
      [("one", { kind := .frontEnd, path := "one", space := some first }),
       ("two", { kind := .frontEnd, path := "two", space := some second })] }

/-- A page in each of the front ends. -/
def Graph.pageInEach : List SourceFile :=
  [⟨"one/pages/c.tsx", "", .script, none⟩, ⟨"two/pages/b:/c.tsx", "", .script, none⟩]

theorem Identifier.keys_kept_apart_colons :
    (Key.screen (some "a:b") "/c").Separable ∧ (Key.screen (some "a") "/b:/c").Separable ∧
      (Key.screen (some "a:b") "/c").text ≠ (Key.screen (some "a") "/b:/c").text ∧
      serviceSegment? (rpc "a:B" "c.d") = some "a:B" ∧
      ∃ s ∈ (Layers.screensOf (Graph.twoFrontEnds "a:b" "a") Graph.pageInEach).entities,
      ∃ t ∈ (Layers.screensOf (Graph.twoFrontEnds "a:b" "a") Graph.pageInEach).entities,
        (Graph.build .roomy (Graph.twoFrontEnds "a:b" "a") .standard
          Graph.pageInEach).KeepsApart s t := by
  have hfirst : (Key.screen (some "a:b") "/c").Separable := ⟨by decide, by decide⟩
  have hsecond : (Key.screen (some "a") "/b:/c").Separable := ⟨by decide, by decide⟩
  have hs : ⟨"screen:a:b:/c", "/c", "one/pages/c.tsx", some "a:b", .pages⟩ ∈
      (Layers.screensOf (Graph.twoFrontEnds "a:b" "a") Graph.pageInEach).entities := by
    decide +kernel
  have ht : ⟨"screen:a:/b:/c", "/b:/c", "two/pages/b:/c.tsx", some "a", .pages⟩ ∈
      (Layers.screensOf (Graph.twoFrontEnds "a:b" "a") Graph.pageInEach).entities := by
    decide +kernel
  have hwritable : (Layers.extract .roomy (Graph.twoFrontEnds "a:b" "a")
      Graph.pageInEach).Writable := by decide +kernel
  obtain ⟨-, hinjective, hsegment, hkept⟩ := keys_kept_apart
  refine ⟨hfirst, hsecond, fun h => ?_, hsegment "a:B" "c.d" (by decide) (by decide), _, hs, _, ht,
    (hkept .roomy _ _ _ hs _ ht (.inr ⟨by decide, by decide⟩) (by decide)).2 .standard _ ?_⟩
  · exact absurd ((hinjective _ _ hfirst hsecond).mp h) (by decide)
  · exact Graph.assemble_eq_ok_iff.mpr ⟨hwritable, Graph.build_of_writable hwritable⟩

/-- With a slash in a namespace, screens of different namespaces and different routes are merged:
the first of them is the only node. -/
theorem Graph.screens_merged_by_slash :
    ((Layers.screensOf (twoFrontEnds "a:/b" "a") pageInEach).entities.map Screen.key =
        [.screen (some "a:/b") "/c", .screen (some "a") "/b:/c"] ∧
      (build .roomy (twoFrontEnds "a:/b" "a") .standard pageInEach).nodes.map (·.id) =
        ["screen:a:/b:/c"]) ∧
    ¬ ∀ s ∈ (Layers.screensOf (twoFrontEnds "a:/b" "a") pageInEach).entities,
      ∀ t ∈ (Layers.screensOf (twoFrontEnds "a:/b" "a") pageInEach).entities,
        s.key.normal ≠ t.key.normal →
          (build .roomy (twoFrontEnds "a:/b" "a") .standard pageInEach).KeepsApart s t := by
  refine ⟨⟨by decide +kernel, by decide +kernel⟩, fun h => ?_⟩
  have hs : ⟨"screen:a:/b:/c", "/c", "one/pages/c.tsx", some "a:/b", .pages⟩ ∈
      (Layers.screensOf (twoFrontEnds "a:/b" "a") pageInEach).entities := by decide +kernel
  have ht : ⟨"screen:a:/b:/c", "/b:/c", "two/pages/b:/c.tsx", some "a", .pages⟩ ∈
      (Layers.screensOf (twoFrontEnds "a:/b" "a") pageInEach).entities := by decide +kernel
  obtain ⟨m, -, n, -, hm, hn, hne⟩ := h _ hs _ ht (by decide)
  exact hne (hm.trans hn.symm)

end ApiAtlas
