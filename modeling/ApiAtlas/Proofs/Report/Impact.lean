import ApiAtlas.Proofs.Graph.Chain
import ApiAtlas.Report.Impact
set_option autoImplicit false

/-!
# The impact of a change is exact

Which screens an interface has is looked up in the index; the path to show for a screen is its
chain, which knows nothing of the index.  On built graphs the list is exact.  A path arrives at the
interface exactly if the first edge of the screen leads there: behind the first step it is one layer
too low to meet the interface again.
-/

namespace ApiAtlas

namespace Graph

section Indexed

variable {g : Graph} (hg : g.WellFormed) (hindex : g.index = .build g.nodes g.edges)
include hg hindex

/-- The screens of an interface stand in the order of the first uses. -/
theorem WellFormed.screensFor_eq (api : String) :
    g.index.screensFor api =
      ((g.edges.filter fun e => e.kind = .uses ∧ e.target = api).map (·.source)).eraseDups := by
  have huses : g.edges.filter (fun e => GraphIndex.DirectUse g.nodes e ∧ e.target = api) =
      g.edges.filter fun e => e.kind = .uses ∧ e.target = api := by
    refine List.filter_congr fun e he => ?_
    rw [decide_eq_decide, hg.directUse_iff he]
  rw [hindex, GraphIndex.screensFor_build, huses]

/-- The first interface of a screen is where its first edge leads. -/
theorem WellFormed.head?_apisFor {s b : String} (hs : g.HasNode .screen s)
    (hfirst : g.FirstEdge s b) : (g.index.apisFor s).head? = some b := by
  obtain ⟨front, e, back, hedges, rfl, rfl, hfront⟩ := hfirst
  have he : e ∈ g.edges := by
    rw [hedges]
    exact List.mem_append_right front List.mem_cons_self
  have huse : GraphIndex.DirectUse g.nodes e :=
    (hg.directUse_iff he).mpr (hg.kind_of_screen_source he hs)
  have hnone :
      front.filter (fun f => GraphIndex.DirectUse g.nodes f ∧ f.source = e.source) = [] := by
    rw [List.filter_eq_nil_iff]
    intro f hf hboth
    exact hfront f hf (of_decide_eq_true hboth).2
  rw [hindex, GraphIndex.apisFor_build, hedges, List.filter_append, hnone, List.nil_append,
    List.filter_cons, if_pos (decide_eq_true ⟨huse, rfl⟩), List.map_cons, List.eraseDups_cons]
  rfl

/-- The chain from a screen toward an interface that it uses arrives there exactly if the interface
is the first that it uses. -/
theorem WellFormed.getLast?_chain_iff {s api : String}
    (huse : ∃ e ∈ g.edges, e.kind = .uses ∧ e.source = s ∧ e.target = api) :
    (g.chain s api).getLast? = some api ↔ (g.index.apisFor s).head? = some api := by
  obtain ⟨e, he, huses, hsource, htarget⟩ := huse
  have hs : g.HasNode .screen s := by
    have h := hg.sources e he
    rwa [huses, hsource] at h
  have hapi : g.HasNode .operation api := by
    have h := hg.targets e he
    rwa [huses, htarget] at h
  have hfollows := (hg.chain_descends hs api).follows
  -- a screen is no interface, and an edge leaves it, so the chain makes a first step
  generalize g.chain s api = path at hfollows ⊢
  cases hfollows with
  | arrived => exact absurd (hg.kind_unique hs hapi) (by decide)
  | stranded _ hnone => exact absurd hsource (hnone e he)
  | @step _ b rest hne hfirst hrest =>
      obtain ⟨f, hf, hfs, hfb⟩ := hfirst.exists_mem
      have hb : g.HasNode .operation b := by
        have h := hg.targets f hf
        rwa [hg.kind_of_screen_source hf (hfs ▸ hs), hfb] at h
      rw [hg.head?_apisFor hindex hs hfirst, Option.some_inj]
      constructor
      · intro hlast
        -- the interface is met behind the first step, in the layer where that step ends
        have hmem : api ∈ rest := by
          cases rest with
          | nil => exact absurd hrest.head? (by simp)
          | cons c more =>
              rw [List.getLast?_cons_cons] at hlast
              exact List.mem_of_getLast? hlast
        exact (hg.eq_start_of_follows hrest hb hmem hapi).symm
      · rintro rfl
        rw [hrest.eq_singleton]
        rfl

end Indexed

end Graph

namespace Impact

/-- What the impact of an interface says without a filter. -/
structure Exact (g : Graph) (api : String) (i : Impact) : Prop where
  /-- The screens that use the interface, each once, in the order of their first uses. -/
  screens : i.screens.map (·.id) =
    ((g.edges.filter fun e => e.kind = .uses ∧ e.target = api).map (·.source)).eraseDups
  /-- Each of them is shown as the node it is, with its chain toward the interface. -/
  nodes : ∀ s ∈ i.screens, ∃ n ∈ g.nodes, n.kind = .screen ∧
    s = ⟨n.id, n.label, n.file?, g.chain n.id api⟩
  filteredOut : i.filteredOut = 0
  /-- A path arrives at the interface exactly if that is the first interface of the screen. -/
  arrives : ∀ s ∈ i.screens,
    s.path.getLast? = some api ↔ (g.index.apisFor s.id).head? = some api

section Listing

variable {g : Graph} (hg : g.WellFormed) (hindex : g.index = .build g.nodes g.edges)
include hg

theorem listed?_eq (api : String) {n : GraphNode} (hn : n ∈ g.nodes) :
    listed? g api none n.id = some ⟨n.id, n.label, n.file?, g.chain n.id api⟩ := by
  unfold listed?
  rw [hg.node?_eq hn]
  rfl

include hindex

/-- Every indexed screen is listed under its identifier. -/
theorem listed?_of_indexed {api id : String} (hid : id ∈ g.index.screensFor api) :
    ∃ n ∈ g.nodes, n.kind = .screen ∧ n.id = id ∧
      listed? g api none id = some ⟨n.id, n.label, n.file?, g.chain n.id api⟩ := by
  obtain ⟨e, he, hkind, rfl, _⟩ := (hg.mem_screensFor hindex).mp hid
  have hsource := hg.sources e he
  rw [hkind] at hsource
  obtain ⟨n, hn, hscreen, hnid⟩ := hsource
  exact ⟨n, hn, hscreen, hnid, hnid ▸ listed?_eq hg api hn⟩

theorem map_id_screens (api : String) :
    (of g api none).screens.map (·.id) = g.index.screensFor api := by
  have hids : ∀ id ∈ g.index.screensFor api,
      (listed? g api none id).map ImpactedScreen.id = some id := by
    intro id hid
    obtain ⟨n, _, _, hnid, hlisted⟩ := listed?_of_indexed hg hindex hid
    rw [hlisted, Option.map_some, hnid]
  unfold of
  rw [List.map_filterMap, List.filterMap_congr hids, List.filterMap_some]

theorem of_exact (api : String) : Exact g api (of g api none) := by
  have hids := map_id_screens hg hindex api
  have hmem : ∀ s ∈ (of g api none).screens, ∃ id ∈ g.index.screensFor api,
      listed? g api none id = some s := fun s hs => List.mem_filterMap.mp hs
  refine ⟨hids.trans (hg.screensFor_eq hindex api), ?_, ?_, ?_⟩
  · intro s hs
    obtain ⟨id, hid, hs⟩ := hmem s hs
    obtain ⟨n, hn, hkind, _, hlisted⟩ := listed?_of_indexed hg hindex hid
    exact ⟨n, hn, hkind, Option.some.inj (hs.symm.trans hlisted)⟩
  · have hlength := congrArg List.length hids
    rw [List.length_map] at hlength
    show (g.index.screensFor api).length - (of g api none).screens.length = 0
    omega
  · intro s hs
    obtain ⟨id, hid, hs⟩ := hmem s hs
    obtain ⟨n, hn, _, rfl, hlisted⟩ := listed?_of_indexed hg hindex hid
    obtain rfl := Option.some.inj (hs.symm.trans hlisted)
    exact hg.getLast?_chain_iff hindex ((hg.mem_screensFor hindex).mp hid)

end Listing

open ApiAtlas.Graph

/-- **Chains and impacts of built graphs.** From any node a chain follows first edges, down from
layer to layer and so over at most four nodes, until it arrives or no edge leads on.  The impact of
an interface lists exactly the screens that use it, and the path of a screen arrives there exactly
if the interface is the first that the screen uses. -/
theorem of_build_exact (engine : RegexEngine) (settings : Settings) (chain : MatcherChain)
    (hchain : chain.Selective) (files : List SourceFile) :
    (∀ kind start, (build engine settings chain files).HasNode kind start → ∀ target,
      (build engine settings chain files).Descends target start
        ((build engine settings chain files).chain start target)) ∧
    ∀ api, Exact (build engine settings chain files) api
      (of (build engine settings chain files) api none) := by
  have hg := wellFormed_of_selective engine settings hchain files
  exact ⟨fun kind start hstart target => hg.chain_descends hstart target,
    fun api => of_exact hg (index_build engine settings chain files) api⟩

theorem of_build_exact_shop :
    MatcherChain.standard.Selective ∧
      (build .roomy shopSettings .standard shopFiles).HasNode .screen "screen:/cart" ∧
      (build .roomy shopSettings .standard shopFiles).chain "screen:/cart" "gql:query.stock" =
        ["screen:/cart", "gql:query.cart", "resolver:CartResolver.cart",
          "grpc:CartService.Load"] ∧
      (build .roomy shopSettings .standard shopFiles).Descends "gql:query.stock" "screen:/cart"
        ((build .roomy shopSettings .standard shopFiles).chain "screen:/cart" "gql:query.stock") ∧
      (of (build .roomy shopSettings .standard shopFiles) "gql:query.stock" none).screens.map
        (·.id) = ["screen:/cart"] ∧
      Exact (build .roomy shopSettings .standard shopFiles) "gql:query.stock"
        (of (build .roomy shopSettings .standard shopFiles) "gql:query.stock" none) := by
  have hscreen :
      (build .roomy shopSettings .standard shopFiles).HasNode .screen "screen:/cart" := by
    unfold HasNode
    decide +kernel
  have hexact := of_build_exact .roomy shopSettings .standard MatcherChain.standard_selective
    shopFiles
  exact ⟨MatcherChain.standard_selective, hscreen, by decide +kernel,
    hexact.1 _ _ hscreen _, by decide +kernel, hexact.2 _⟩

end Impact

end ApiAtlas
