import Mathlib.Data.List.Nodup
import ApiAtlas.Proofs.Graph.Assembly
import ApiAtlas.Proofs.Matching
set_option autoImplicit false

/-!
# Well-formed graphs

A built graph is well formed whatever the settings and files, also if it has no nodes because its
assembly broke off: identifiers name one node each, edges are numbered in order, both ends of every
edge are nodes of the layers its kind joins, and the kinds of edges follow each other in the order
of the passes.  Nothing checks that identifiers of different
layers differ, nor that a link of the second or third pass ends in a node; both follow from how
entities are named and where links come from.
-/

namespace ApiAtlas

/-! ## Matchers that select -/

/-- Every matcher of the chain finds methods among those it is given only. -/
def MatcherChain.Selective (chain : MatcherChain) : Prop :=
  ∀ m ∈ chain.exact :: chain.guesses, ∀ candidate methods found,
    m.find candidate methods = some found → found ∈ methods

/-- A selective chain resolves a candidate to a declared method or to none. -/
theorem MatcherChain.Selective.resolve_mem {chain : MatcherChain} (h : chain.Selective)
    {candidate : String} {methods : List RpcMethod} {found : RpcMethod}
    (hfound : (chain.resolve candidate methods).method? = some found) : found ∈ methods := by
  cases hresolve : chain.resolve candidate methods with
  | exact m =>
      rw [hresolve] at hfound
      cases hfound
      exact h chain.exact List.mem_cons_self _ _ _ (resolve_eq_exact_iff.mp hresolve)
  | guessed m name =>
      rw [hresolve] at hfound
      cases hfound
      obtain ⟨earlier, matcher, later, _, hsplit, _, hm, houtcome⟩ :=
        guess?_eq_some_iff.mp (resolve_eq_guessed_iff.mp hresolve).2
      cases houtcome
      have hmatcher : matcher ∈ chain.exact :: chain.guesses := by
        rw [hsplit]
        exact List.mem_cons_of_mem _ (List.mem_append_right _ List.mem_cons_self)
      exact h matcher hmatcher _ _ _ hm
  | unmatched =>
      rw [hresolve] at hfound
      cases hfound

theorem MatcherChain.standard_selective : standard.Selective := by
  intro m hm candidate methods found hfound
  simp only [standard, strict, withGuess, List.mem_cons, List.mem_mergeSort, List.nil_append,
    List.not_mem_nil, or_false] at hm
  rcases hm with rfl | rfl
  · exact List.mem_of_find?_eq_some hfound
  · simp only [Matcher.serviceSubstring, Option.bind_eq_bind, Option.bind_eq_some_iff] at hfound
    obtain ⟨segment, _, hsegment⟩ := hfound
    exact List.mem_of_find?_eq_some hsegment

/-! ## Well-formedness -/

namespace EdgeKind

/-- The layer that edges of a kind start in. -/
def sourceKind : EdgeKind → NodeKind
  | .uses => .screen
  | .resolves => .operation
  | .calls => .resolver

/-- The layer that edges of a kind end in. -/
def targetKind : EdgeKind → NodeKind
  | .uses => .operation
  | .resolves => .resolver
  | .calls => .rpc

/-- The pass that infers edges of a kind. -/
def pass : EdgeKind → Nat
  | .uses => 1
  | .resolves => 2
  | .calls => 3

end EdgeKind

/-- The identifier is that of a node of the kind. -/
def Graph.HasNode (g : Graph) (kind : NodeKind) (id : String) : Prop :=
  ∃ n ∈ g.nodes, n.kind = kind ∧ n.id = id

/-- What holds of every graph that was built from files. -/
structure Graph.WellFormed (g : Graph) : Prop where
  /-- No two nodes share an identifier. -/
  ids_nodup : (g.nodes.map (·.id)).Nodup
  /-- Edges are numbered from one in their order. -/
  edge_ids : ∀ (k : Nat) (h : k < g.edges.length), (g.edges[k]).id = "e" ++ toString (k + 1)
  /-- Edges start in a node of the layer that their kind demands. -/
  sources : ∀ e ∈ g.edges, g.HasNode e.kind.sourceKind e.source
  /-- Edges end in a node of the layer that their kind demands. -/
  targets : ∀ e ∈ g.edges, g.HasNode e.kind.targetKind e.target
  /-- Edges of an earlier pass stand before those of a later one. -/
  passes : g.edges.Pairwise fun a b => a.kind.pass ≤ b.kind.pass

/-- In a well-formed graph an identifier finds its node. -/
theorem Graph.WellFormed.node?_eq {g : Graph} (hg : g.WellFormed) {n : GraphNode}
    (hn : n ∈ g.nodes) : g.node? n.id = some n := by
  unfold node?
  cases hfound : g.nodes.find? (·.id == n.id) with
  | none => exact absurd (beq_self_eq_true n.id) (List.find?_eq_none.mp hfound n hn)
  | some m =>
      have hm : m ∈ g.nodes := List.mem_of_find?_eq_some hfound
      have hid : m.id = n.id := by simpa using List.find?_some hfound
      rw [List.inj_on_of_nodup_map hg.ids_nodup hm hn hid]

/-! ## The links of the three passes -/

namespace Link

variable {settings : Settings} {chain : MatcherChain} {layers : Layers}
  {files : List SourceFile} {l : Link}

/-- Every link starts in a node of the layer that its kind demands. -/
theorem inferred_source (h : l ∈ inferred settings chain layers files) :
    ∃ n ∈ layers.nodes, n.kind = l.kind.sourceKind ∧ n.id = l.source := by
  simp only [inferred, List.mem_append, mem_allUses, mem_resolutions, mem_allCalls] at h
  rcases h with (⟨s, hs, _, _, _, _, rfl⟩ | ⟨op, hop, _, _, rfl⟩) | ⟨r, hr, _, _, _, _, rfl⟩
  · exact ⟨.shownScreen s, Layers.shownScreen_mem_nodes hs, rfl, rfl⟩
  · exact ⟨.shownOperation op, Layers.shownOperation_mem_nodes hop, rfl, rfl⟩
  · exact ⟨.shownResolver r, Layers.shownResolver_mem_nodes hr, rfl, rfl⟩

/-- Every known link ends in a node of the layer that its kind demands.  Links of the first pass
may end nowhere, so for them it matters that the end is known and named like an operation; the
others end in a node because resolvers and matchers choose among the nodes. -/
theorem inferred_target (hnamed : layers.Named) (hchain : chain.Selective)
    (h : l ∈ inferred settings chain layers files) (hknown : l.isKnown layers.nodes = true) :
    ∃ n ∈ layers.nodes, n.kind = l.kind.targetKind ∧ n.id = l.target := by
  simp only [inferred, List.mem_append, mem_allUses, mem_resolutions, mem_allCalls] at h
  rcases h with (⟨s, _, f, _, id, hid, rfl⟩ | ⟨op, _, r, hr, rfl⟩) | ⟨r, _, _, _, m, hm, rfl⟩
  · obtain ⟨n, hn, hnid⟩ := (isKnown_iff.mp hknown).2
    have hkind : n.kind = .operation := by
      refine NodeKind.eq_of_names (hnamed n hn) ?_
      rw [hnid]
      exact ApiOperation.dependencies_names hid
    exact ⟨n, hn, hkind, hnid⟩
  · have hmem : r ∈ layers.keptResolvers := List.mem_of_find?_eq_some hr
    exact ⟨.shownResolver r, Layers.shownResolver_mem_nodes hmem, rfl, rfl⟩
  · have hmem : m ∈ layers.keptMethods := hchain.resolve_mem hm
    exact ⟨.shownRpc m, Layers.shownRpc_mem_nodes hmem, rfl, rfl⟩

/-- The links of the passes follow each other. -/
theorem inferred_passes (settings : Settings) (chain : MatcherChain) (layers : Layers)
    (files : List SourceFile) :
    (inferred settings chain layers files).Pairwise fun a b => a.kind.pass ≤ b.kind.pass := by
  have huses : ∀ l ∈ allUses settings.analysis.graphql layers.keptScreens files,
      l.kind = .uses := fun _ => kind_of_mem_allUses
  have hresolutions : ∀ l ∈ resolutions layers, l.kind = .resolves :=
    fun _ => kind_of_mem_resolutions
  have hcalls : ∀ l ∈ allCalls chain layers, l.kind = .calls := fun _ => kind_of_mem_allCalls
  have hsame : ∀ {links : List Link} {kind : EdgeKind}, (∀ l ∈ links, l.kind = kind) →
      links.Pairwise fun a b => a.kind.pass ≤ b.kind.pass := by
    intro links kind hkind
    refine List.pairwise_of_forall_mem_list fun a ha b hb => ?_
    exact Nat.le_of_eq (by rw [hkind a ha, hkind b hb])
  simp only [inferred, List.pairwise_append, List.mem_append]
  refine ⟨⟨hsame huses, hsame hresolutions, ?_⟩, hsame hcalls, ?_⟩
  · intro a ha b hb
    rw [huses a ha, hresolutions b hb]
    decide
  · intro a ha b hb
    rw [hcalls b hb]
    rcases ha with ha | ha
    · rw [huses a ha]
      decide
    · rw [hresolutions a ha]
      decide

end Link

/-! ## Assembled and built graphs -/

namespace Graph

theorem mem_edges_assembled {settings : Settings} {chain : MatcherChain} {layers : Layers}
    {files : List SourceFile} {e : GraphEdge}
    (h : e ∈ (assembled settings chain layers files).edges) :
    e.link ∈ Link.inferred settings chain layers files ∧ e.link.isKnown layers.nodes = true := by
  have hlink : e.link ∈ (assembled settings chain layers files).edges.map GraphEdge.link :=
    List.mem_map_of_mem h
  rw [links_assembled] at hlink
  exact List.mem_filter.mp hlink

/-- Layers whose entities are named like their layer make a well-formed graph. -/
theorem assembled_wellFormed (settings : Settings) {chain : MatcherChain} {layers : Layers}
    (files : List SourceFile) (hchain : chain.Selective) (hnamed : layers.Named) :
    (assembled settings chain layers files).WellFormed where
  ids_nodup := Layers.nodes_nodup hnamed
  edge_ids := edge_id_assembled settings chain layers files
  sources e he := Link.inferred_source (mem_edges_assembled he).1
  targets e he :=
    Link.inferred_target hnamed hchain (mem_edges_assembled he).1 (mem_edges_assembled he).2
  passes := by
    have hlinks : ((assembled settings chain layers files).edges.map GraphEdge.link).Pairwise
        fun a b => a.kind.pass ≤ b.kind.pass := by
      rw [links_assembled]
      exact (Link.inferred_passes settings chain layers files).sublist List.filter_sublist
    exact List.Pairwise.of_map GraphEdge.link (fun _ _ h => h) hlinks

/-- A graph without nodes and edges is well formed. -/
theorem failed_wellFormed (settings : Settings) (reason : String) :
    (failed settings reason).WellFormed where
  ids_nodup := List.nodup_nil
  edge_ids k h := absurd h (Nat.not_lt_zero k)
  sources _ he := absurd he List.not_mem_nil
  targets _ he := absurd he List.not_mem_nil
  passes := List.Pairwise.nil

theorem wellFormed_of_selective (engine : RegexEngine) (settings : Settings)
    {chain : MatcherChain} (hchain : chain.Selective) (files : List SourceFile) :
    (build engine settings chain files).WellFormed := by
  apply build_induction
  · exact assembled_wellFormed settings files hchain (Layers.extract_named engine settings files)
  · exact failed_wellFormed settings _

/-- **Every built graph is well formed**, for all settings, files and selective chains. -/
theorem build_wellFormed (engine : RegexEngine) (settings : Settings) (chain : MatcherChain)
    (hchain : chain.Selective) (files : List SourceFile) :
    (build engine settings chain files).WellFormed :=
  wellFormed_of_selective engine settings hchain files

open Syntax in
/-- A repository with a page that uses two operations, a resolver that answers one of them, and the
service that the resolver calls. -/
def shopFiles : List SourceFile :=
  [⟨"web/app/cart/page.tsx", "", .script,
      some [.call (.identifier "useQuery") [.identifier "cart"],
        .call (.identifier "useQuery") [.identifier "stock"]]⟩,
   ⟨"bff/cart.resolver.ts", "", .script,
      some [.classNode (some "CartResolver") [.mk "Resolver" []]
        [.method "cart" [.mk "Query" []]
          [.call (.member (.member .self "cartClient") "load") []]]]⟩,
   ⟨"protos/cart.proto", "service CartService \x7b rpc Load (A) returns (B); \x7d",
      .interfaceDefinition, none⟩]

/-- The settings of that repository. -/
def shopSettings : Settings :=
  { apps := .ofList [("web", { kind := .frontEnd, path := "web" })]
    packages := .ofList [("bff", { kind := .backEnd, path := "bff" })]
    protos := ⟨"protos"⟩ }

theorem build_wellFormed_shop :
    MatcherChain.standard.Selective ∧
      (build .roomy shopSettings .standard shopFiles).WellFormed ∧
      (build .roomy shopSettings .standard shopFiles).edges.map (·.kind) =
        [.uses, .uses, .resolves, .calls] :=
  ⟨MatcherChain.standard_selective,
    build_wellFormed .roomy shopSettings .standard MatcherChain.standard_selective shopFiles,
    by decide +kernel⟩

end Graph

end ApiAtlas
