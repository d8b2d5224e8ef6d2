import ApiAtlas.Proofs.Graph.Account
import ApiAtlas.Proofs.Graph.Uses
set_option autoImplicit false

/-!
# Missing layers

A layer that could not be extracted costs its own nodes, the edges at them, and one warning in the
place of its own.  Everything else is as if nothing had happened: the nodes of the other layers and
the edges between them stay, in order.  This rests on names.  A link of the first pass that lost its
operation would become an edge again if the operation had the name of a node of another layer, and a
matcher that makes up methods could find some where none are left.
-/

namespace ApiAtlas

namespace Layers

variable {α : Type}

/-- A layer, or the fault that replaces it. -/
def orFault (fault? : Option LayerFault) (result : LayerResult α) : LayerResult α :=
  match fault? with
  | some fault => .error fault
  | none => result

/-- The layers with some of them replaced by faults. -/
def failing (layers : Layers) (faults : NodeKind → Option LayerFault) : Layers where
  screens := orFault (faults .screen) layers.screens
  operations := orFault (faults .operation) layers.operations
  resolvers := orFault (faults .resolver) layers.resolvers
  rpcMethods := orFault (faults .rpc) layers.rpcMethods

/-- The nodes of one layer. -/
def nodesOf (layers : Layers) : NodeKind → List GraphNode
  | .screen => layers.keptScreens.map .shownScreen
  | .operation => layers.keptOperations.map .shownOperation
  | .resolver => layers.keptResolvers.map .shownResolver
  | .rpc => layers.keptMethods.map .shownRpc

theorem nodes_eq_flatMap (layers : Layers) :
    layers.nodes = NodeKind.all.flatMap layers.nodesOf := by
  simp [nodes, NodeKind.all, nodesOf]

theorem kind_of_mem_nodesOf {layers : Layers} {kind : NodeKind} {n : GraphNode}
    (h : n ∈ layers.nodesOf kind) : n.kind = kind := by
  cases kind <;> obtain ⟨_, _, rfl⟩ := List.mem_map.mp h <;> rfl

theorem filter_kind_nodes (layers : Layers) (kind : NodeKind) :
    layers.nodes.filter (·.kind == kind) = layers.nodesOf kind := by
  have hpart : ∀ other, (layers.nodesOf other).filter (·.kind == kind) =
      if other == kind then layers.nodesOf other else [] :=
    fun other => filter_of_key (fun _ => kind_of_mem_nodesOf) (· == kind)
  rw [nodes_eq_flatMap, List.filter_flatMap]
  simp only [hpart]
  cases kind <;> simp [NodeKind.all]

/-! ## What is left of the layers -/

variable (layers : Layers) (faults : NodeKind → Option LayerFault)

theorem firstById_orFault (id : α → String) (fault? : Option LayerFault)
    (result : LayerResult α) :
    firstById id (settled (orFault fault? result)).entities =
      if fault?.isNone then firstById id (settled result).entities else [] := by
  cases fault? <;> rfl

theorem keptScreens_failing : (layers.failing faults).keptScreens =
    if (faults .screen).isNone then layers.keptScreens else [] :=
  firstById_orFault _ _ _

theorem keptOperations_failing : (layers.failing faults).keptOperations =
    if (faults .operation).isNone then layers.keptOperations else [] :=
  firstById_orFault _ _ _

theorem keptResolvers_failing : (layers.failing faults).keptResolvers =
    if (faults .resolver).isNone then layers.keptResolvers else [] :=
  firstById_orFault _ _ _

theorem keptMethods_failing : (layers.failing faults).keptMethods =
    if (faults .rpc).isNone then layers.keptMethods else [] :=
  firstById_orFault _ _ _

theorem nodesOf_failing (kind : NodeKind) : (layers.failing faults).nodesOf kind =
    if (faults kind).isNone then layers.nodesOf kind else [] := by
  cases kind <;> simp only [nodesOf, keptScreens_failing, keptOperations_failing,
    keptResolvers_failing, keptMethods_failing] <;> split <;> rfl

theorem reports_failing (kind : NodeKind) : (layers.failing faults).reports kind =
    match faults kind with
    | some fault => [fault.message]
    | none => layers.reports kind := by
  cases kind <;> simp only [reports, failing, orFault] <;> split <;> rfl

theorem failing_named {layers : Layers} (h : layers.Named) : (layers.failing faults).Named := by
  intro n hn
  rw [nodes_eq_flatMap] at hn
  obtain ⟨kind, hkind, hn⟩ := List.mem_flatMap.mp hn
  rw [nodesOf_failing] at hn
  split at hn
  · apply h
    rw [nodes_eq_flatMap]
    exact List.mem_flatMap.mpr ⟨kind, hkind, hn⟩
  · exact absurd hn List.not_mem_nil

/-- Layers whose files are all texts lose none of that with some of them missing. -/
theorem failing_writable {layers : Layers} (h : layers.Writable) :
    (layers.failing faults).Writable := by
  have hpart : ∀ {β : Type} {kept : List β} {file : β → RawText} (left : Bool),
      (∀ b ∈ kept, (file b).IsText) → ∀ b ∈ if left then kept else [], (file b).IsText := by
    intro β kept file left hkept b hb
    cases left with
    | true => exact hkept b hb
    | false => exact absurd hb List.not_mem_nil
  obtain ⟨hscreens, hoperations, hresolvers, hmethods⟩ := writable_iff.mp h
  rw [writable_iff, keptScreens_failing, keptOperations_failing, keptResolvers_failing,
    keptMethods_failing]
  exact ⟨hpart _ hscreens, hpart _ hoperations, hpart _ hresolvers, hpart _ hmethods⟩

end Layers

/-! ## What is left of the links -/

namespace Link

variable {layers : Layers} (faults : NodeKind → Option LayerFault)

/-- Both layers that edges of the kind join are left. -/
def joinsLeft (kind : EdgeKind) : Bool :=
  (faults kind.sourceKind).isNone && (faults kind.targetKind).isNone

/-- A link of the first pass is kept exactly if it leads to an operation. -/
theorem isKnown_allUses (hnamed : layers.Named) {settings : GraphqlSettings}
    {files : List SourceFile} {l : Link} (h : l ∈ allUses settings layers.keptScreens files) :
    l.isKnown layers.nodes = (layers.keptOperations.map ApiOperation.id).contains l.target := by
  obtain ⟨s, hs, f, _, id, hid, rfl⟩ := mem_allUses.mp h
  have hsource : ∃ n ∈ layers.nodes, n.id = s.id :=
    ⟨.shownScreen s, Layers.shownScreen_mem_nodes hs, rfl⟩
  rw [Bool.eq_iff_iff, isKnown_iff, List.contains_iff_mem, List.mem_map,
    Layers.mem_ids_iff_operation hnamed (ApiOperation.dependencies_names hid)]
  constructor
  · rintro ⟨_, n, hn, hkind, hnid⟩
    have hmem : n ∈ layers.nodesOf .operation := by
      rw [← Layers.filter_kind_nodes]
      exact List.mem_filter.mpr ⟨hn, beq_iff_eq.mpr hkind⟩
    obtain ⟨op, hop, rfl⟩ := List.mem_map.mp hmem
    exact ⟨op, hop, hnid⟩
  · rintro ⟨op, hop, hopid⟩
    exact ⟨hsource, .shownOperation op, Layers.shownOperation_mem_nodes hop, rfl, hopid⟩

/-- Without screens the first pass infers nothing; without operations nothing it infers is kept. -/
theorem allUses_failing (hnamed : layers.Named) (settings : GraphqlSettings)
    (files : List SourceFile) :
    (allUses settings (layers.failing faults).keptScreens files).filter
        (isKnown (layers.failing faults).nodes) =
      if joinsLeft faults .uses then
        (allUses settings layers.keptScreens files).filter (isKnown layers.nodes) else [] := by
  rw [List.filter_congr fun _ hl => isKnown_allUses (Layers.failing_named faults hnamed) hl,
    List.filter_congr fun _ hl => isKnown_allUses hnamed hl,
    Layers.keptScreens_failing, Layers.keptOperations_failing]
  unfold joinsLeft EdgeKind.sourceKind EdgeKind.targetKind
  cases hscreens : (faults .screen).isNone with
  | false => rfl
  | true =>
      cases hoperations : (faults .operation).isNone with
      | false =>
          rw [List.filter_eq_nil_iff.mpr]
          · rfl
          · intro l _
            exact Bool.false_ne_true
      | true => rfl

/-- Without operations or resolvers the second pass infers nothing. -/
theorem resolutions_failing :
    resolutions (layers.failing faults) =
      if joinsLeft faults .resolves then resolutions layers else [] := by
  unfold joinsLeft EdgeKind.sourceKind EdgeKind.targetKind resolutions
  rw [Layers.keptOperations_failing, Layers.keptResolvers_failing]
  cases hoperations : (faults .operation).isNone with
  | false => rfl
  | true =>
      cases hresolvers : (faults .resolver).isNone with
      | false => exact List.flatMap_eq_nil_iff.mpr fun op _ => rfl
      | true => rfl

/-- Without resolvers or methods the third pass infers nothing. -/
theorem allCalls_failing {chain : MatcherChain} (hchain : chain.Selective) :
    allCalls chain (layers.failing faults) =
      if joinsLeft faults .calls then allCalls chain layers else [] := by
  unfold joinsLeft EdgeKind.sourceKind EdgeKind.targetKind
  cases hresolvers : (faults .resolver).isNone with
  | false =>
      unfold allCalls
      rw [Layers.keptResolvers_failing, hresolvers]
      rfl
  | true =>
      cases hmethods : (faults .rpc).isNone with
      | false =>
          -- a selective chain finds nothing among no methods
          rw [Bool.and_false, if_neg Bool.false_ne_true, List.eq_nil_iff_forall_not_mem]
          intro l hl
          obtain ⟨_, _, candidate, _, m, hm, _⟩ := mem_allCalls.mp hl
          have hmem := hchain.resolve_mem hm
          rw [Layers.keptMethods_failing, hmethods] at hmem
          exact absurd hmem List.not_mem_nil
      | true =>
          unfold allCalls
          rw [Layers.keptResolvers_failing, Layers.keptMethods_failing, hresolvers, hmethods]
          rfl

end Link

namespace Graph

/-- The layer that an identifier belongs to in the graph. -/
def layerOf? (g : Graph) (id : String) : Option NodeKind := (g.node? id).map (·.kind)

/-- In a well-formed graph an identifier belongs to the layer of any node that carries it. -/
theorem WellFormed.layerOf?_eq {g : Graph} (hg : g.WellFormed) {kind : NodeKind} {id : String}
    (h : g.HasNode kind id) : g.layerOf? id = some kind := by
  obtain ⟨n, hn, rfl, rfl⟩ := h
  rw [layerOf?, hg.node?_eq hn, Option.map_some]

/-- The layers of both ends of the edge are left. -/
def joinsLeft (g : Graph) (faults : NodeKind → Option LayerFault) (e : GraphEdge) : Bool :=
  (g.layerOf? e.source).any (fun kind => (faults kind).isNone) &&
    (g.layerOf? e.target).any (fun kind => (faults kind).isNone)

theorem WellFormed.joinsLeft_eq {g : Graph} (hg : g.WellFormed)
    (faults : NodeKind → Option LayerFault) {e : GraphEdge} (he : e ∈ g.edges) :
    g.joinsLeft faults e = Link.joinsLeft faults e.kind := by
  unfold joinsLeft Link.joinsLeft
  rw [hg.layerOf?_eq (hg.sources e he), hg.layerOf?_eq (hg.targets e he)]
  rfl

section Assembled

variable (settings : Settings) {chain : MatcherChain} (hchain : chain.Selective)
  {layers : Layers} (files : List SourceFile)

theorem nodesOf_assembled (kind : NodeKind) :
    (assembled settings chain layers files).nodesOf kind = layers.nodesOf kind :=
  Layers.filter_kind_nodes layers kind

include hchain in
/-- The edges of an assembled graph, one kind behind the other. -/
theorem links_assembled_kinds :
    (assembled settings chain layers files).edges.map GraphEdge.link =
      (assembled settings chain layers files).linksOf .uses
        ++ (assembled settings chain layers files).linksOf .resolves
        ++ (assembled settings chain layers files).linksOf .calls := by
  rw [links_assembled_passes settings hchain, linksOf_assembled settings hchain,
    linksOf_assembled settings hchain, linksOf_assembled settings hchain]

include hchain in
/-- Edges of a kind are left as they were if both of its layers are left, and gone otherwise. -/
theorem linksOf_failing (hnamed : layers.Named) (faults : NodeKind → Option LayerFault)
    (kind : EdgeKind) :
    (assembled settings chain (layers.failing faults) files).linksOf kind =
      ((assembled settings chain layers files).linksOf kind).filter
        fun l => Link.joinsLeft faults l.kind := by
  have hkind : ∀ l ∈ (assembled settings chain layers files).linksOf kind, l.kind = kind := by
    intro l hl
    rw [linksOf_eq] at hl
    exact beq_iff_eq.mp (List.mem_filter.mp hl).2
  rw [filter_of_key hkind (Link.joinsLeft faults), linksOf_assembled settings hchain,
    linksOf_assembled settings hchain]
  cases kind with
  | uses => exact Link.allUses_failing faults hnamed settings.analysis.graphql files
  | resolves => exact Link.resolutions_failing faults
  | calls => exact Link.allCalls_failing faults hchain

end Assembled

/-- What is left of a graph when some layers are replaced by faults. -/
structure Isolates (faults : NodeKind → Option LayerFault) (chain : MatcherChain)
    (layers : Layers) (whole left : Graph) : Prop where
  /-- The other layers keep their nodes. -/
  kept : ∀ kind, faults kind = none → left.nodesOf kind = whole.nodesOf kind
  /-- A replaced layer has no nodes. -/
  gone : ∀ kind, faults kind ≠ none → left.nodesOf kind = []
  /-- The edges are those between layers that are left, in order. -/
  edges : left.edges.map GraphEdge.link =
    (whole.edges.filter (whole.joinsLeft faults)).map GraphEdge.link
  /-- The warnings of the whole graph begin with those of its layers. -/
  warned : whole.about.warnings = NodeKind.all.flatMap layers.reports
    ++ (Link.resolutionAccounts layers).flatMap (·.warnings)
    ++ (Link.callAccounts chain layers).flatMap (·.warnings)
  /-- A fault is one warning in the place of those of its layer. -/
  faulted : left.about.warnings =
    (NodeKind.all.flatMap fun kind =>
      match faults kind with
      | some fault => [fault.message]
      | none => layers.reports kind)
    ++ (Link.resolutionAccounts (layers.failing faults)).flatMap (·.warnings)
    ++ (Link.callAccounts chain (layers.failing faults)).flatMap (·.warnings)

theorem assembled_isolates (settings : Settings) {chain : MatcherChain}
    (hchain : chain.Selective) {layers : Layers} (hnamed : layers.Named)
    (files : List SourceFile) (faults : NodeKind → Option LayerFault) :
    Isolates faults chain layers (assembled settings chain layers files)
      (assembled settings chain (layers.failing faults) files) where
  kept kind hleft := by
    rw [nodesOf_assembled, Layers.nodesOf_failing, hleft, nodesOf_assembled]
    rfl
  gone kind hfault := by
    rw [nodesOf_assembled, Layers.nodesOf_failing, if_neg]
    rw [Option.isNone_iff_eq_none]
    exact hfault
  edges := by
    have hwhole : (assembled settings chain layers files).WellFormed :=
      assembled_wellFormed settings files hchain hnamed
    rw [List.filter_congr fun e he => hwhole.joinsLeft_eq faults he]
    rw [links_assembled_kinds settings hchain, linksOf_failing settings hchain files hnamed,
      linksOf_failing settings hchain files hnamed, linksOf_failing settings hchain files hnamed,
      ← List.filter_append, ← List.filter_append, ← links_assembled_kinds settings hchain,
      List.filter_map]
    rfl
  warned := warnings_assembled settings _ files
  faulted := by
    rw [warnings_assembled]
    congr 3
    funext kind
    exact Layers.reports_failing _ faults kind

/-- **A missing layer costs its own nodes and the edges at them, and nothing else.** Whatever the
settings and files, any of the four layers may be replaced by faults: if there is a graph of all
layers then there is one of those that are left; these keep their nodes, the edges between them
stay in order, no edge is added, and each fault is one warning where the warnings of its layer
stood. -/
theorem build_isolates (engine : RegexEngine) (settings : Settings) (chain : MatcherChain)
    (hchain : chain.Selective) (files : List SourceFile)
    (faults : NodeKind → Option LayerFault) (whole : Graph)
    (hwhole : assemble settings chain (.extract engine settings files) files = .ok whole) :
    ∃ left, assemble settings chain ((Layers.extract engine settings files).failing faults) files =
        .ok left ∧
      Isolates faults chain (.extract engine settings files) whole left := by
  obtain ⟨hwritable, rfl⟩ := assemble_eq_ok_iff.mp hwhole
  refine ⟨_, assemble_eq_ok_iff.mpr ⟨Layers.failing_writable faults hwritable, rfl⟩, ?_⟩
  exact assembled_isolates settings hchain (Layers.extract_named engine settings files) files faults

/-- The extraction of operations broke off. -/
def withoutOperations : NodeKind → Option LayerFault
  | .operation => some (.panicked "GraphQL" "out of range")
  | _ => none

theorem build_isolates_shop :
    MatcherChain.standard.Selective ∧
      ∃ whole left,
        assemble shopSettings .standard (.extract .roomy shopSettings shopFiles) shopFiles =
          .ok whole ∧
        assemble shopSettings .standard
          ((Layers.extract .roomy shopSettings shopFiles).failing withoutOperations) shopFiles =
          .ok left ∧
        Isolates withoutOperations .standard (.extract .roomy shopSettings shopFiles) whole left ∧
        left.edges.map GraphEdge.link =
          [⟨"resolver:CartResolver.cart", "grpc:CartService.Load", .calls⟩] ∧
        left.about.warnings = ["GraphQL extraction panicked: out of range"] := by
  have hchain := MatcherChain.standard_selective
  have hwritable : (Layers.extract .roomy shopSettings shopFiles).Writable := by decide +kernel
  have hwhole := assemble_eq_ok_iff.mpr ⟨hwritable,
    Eq.refl (assembled shopSettings .standard (.extract .roomy shopSettings shopFiles) shopFiles)⟩
  obtain ⟨left, hleft, hisolates⟩ := build_isolates .roomy shopSettings .standard hchain shopFiles
    withoutOperations _ hwhole
  refine ⟨hchain, _, left, hwhole, hleft, hisolates, ?_⟩
  obtain ⟨-, rfl⟩ := assemble_eq_ok_iff.mp hleft
  exact ⟨by decide +kernel, by decide +kernel⟩

end Graph

end ApiAtlas
