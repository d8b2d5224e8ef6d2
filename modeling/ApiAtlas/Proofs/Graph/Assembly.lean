import ApiAtlas.Proofs.Graph.Nodes
set_option autoImplicit false

/-!
# Assembly: nodes, links and numbers

An assembled graph is determined by its nodes, the links inferred between the entities they were
made of, and the numbers that the surviving links get.  This module names the links, says that the
edges of the graph are the known links in order, and that the k-th edge carries the number k.  A
built graph is either assembled so, or it has no nodes, because the file of an entity is no text.
-/

namespace ApiAtlas

/-- Of items that share a key, a condition on the key keeps all or none. -/
theorem filter_of_key {α κ : Type} {key : α → κ} {items : List α} {k : κ}
    (h : ∀ a ∈ items, key a = k) (p : κ → Bool) :
    items.filter (fun a => p (key a)) = if p k then items else [] := by
  rw [List.filter_congr fun a ha => by rw [h a ha]]
  cases p k <;> simp

/-! ## Links -/

/-- The method of an outcome, exact or guessed. -/
def MatchOutcome.method? : MatchOutcome → Option RpcMethod
  | .exact method => some method
  | .guessed method _ => some method
  | .unmatched => none

/-- What an edge connects, without its number. -/
def GraphEdge.link (e : GraphEdge) : Link := ⟨e.source, e.target, e.kind⟩

namespace Link

/-- Both ends of the link are nodes. -/
def isKnown (nodes : List GraphNode) (l : Link) : Bool :=
  (nodes.map (·.id)).contains l.source && (nodes.map (·.id)).contains l.target

/-- The links of one screen. -/
def usesOf (settings : GraphqlSettings) (files : List SourceFile) (s : Screen) : List Link :=
  match fileAt? files s.file with
  | some file => (ApiOperation.dependencies settings file).map fun id => ⟨s.id, id, .uses⟩
  | none => []

/-- Which operations the screens use. -/
def allUses (settings : GraphqlSettings) (screens : List Screen) (files : List SourceFile) :
    List Link :=
  screens.flatMap (usesOf settings files)

/-- Which resolvers answer the operations. -/
def resolutions (layers : Layers) : List Link :=
  layers.keptOperations.flatMap fun op => (resolution layers.keptResolvers op).entities

/-- Which methods the resolvers call. -/
def allCalls (chain : MatcherChain) (layers : Layers) : List Link :=
  layers.keptResolvers.flatMap fun r => (calls chain layers.keptMethods r).entities

/-- All links in the order of the three passes. -/
def inferred (settings : Settings) (chain : MatcherChain) (layers : Layers)
    (files : List SourceFile) : List Link :=
  allUses settings.analysis.graphql layers.keptScreens files ++ resolutions layers
    ++ allCalls chain layers

theorem isKnown_iff {nodes : List GraphNode} {l : Link} :
    l.isKnown nodes = true ↔
      (∃ n ∈ nodes, n.id = l.source) ∧ ∃ n ∈ nodes, n.id = l.target := by
  simp [isKnown]

/-- No search for uses breaks off, so there are only links. -/
theorem uses_eq (settings : GraphqlSettings) (screens : List Screen) (files : List SourceFile) :
    uses settings screens files = ⟨allUses settings screens files, []⟩ := by
  have hone : ∀ s,
      usesIn (fun file => .ok (ApiOperation.dependencies settings file)) files s =
        ⟨usesOf settings files s, []⟩ := by
    intro s
    unfold usesIn usesOf
    cases fileAt? files s.file with
    | none => rfl
    | some file => rfl
  have hentities : (uses settings screens files).entities = allUses settings screens files := by
    simp only [uses, hone, Layer.join_entities, List.flatMap_map]
    rfl
  have hwarnings : (uses settings screens files).warnings = [] := by
    simp [uses, hone]
  rw [← hentities, ← hwarnings]

theorem mem_allUses {settings : GraphqlSettings} {screens : List Screen}
    {files : List SourceFile} {l : Link} :
    l ∈ allUses settings screens files ↔
      ∃ s ∈ screens, ∃ f, fileAt? files s.file = some f ∧
        ∃ id ∈ ApiOperation.dependencies settings f, l = ⟨s.id, id, .uses⟩ := by
  simp only [allUses, usesOf, List.mem_flatMap]
  constructor
  · rintro ⟨s, hs, hl⟩
    split at hl
    · next f hf =>
      obtain ⟨id, hid, rfl⟩ := List.mem_map.mp hl
      exact ⟨s, hs, f, hf, id, hid, rfl⟩
    · exact absurd hl List.not_mem_nil
  · rintro ⟨s, hs, f, hf, id, hid, rfl⟩
    refine ⟨s, hs, ?_⟩
    rw [hf]
    exact List.mem_map_of_mem hid

theorem mem_resolutions {layers : Layers} {l : Link} :
    l ∈ resolutions layers ↔
      ∃ op ∈ layers.keptOperations, ∃ r, resolverFor? layers.keptResolvers op = some r ∧
        l = ⟨op.id, r.id, .resolves⟩ := by
  simp only [resolutions, List.mem_flatMap]
  constructor
  · rintro ⟨op, hop, hl⟩
    unfold resolution at hl
    split at hl
    · next r hr => exact ⟨op, hop, r, hr, List.mem_singleton.mp hl⟩
    · exact absurd hl List.not_mem_nil
  · rintro ⟨op, hop, r, hr, rfl⟩
    refine ⟨op, hop, ?_⟩
    simp [resolution, hr]

theorem mem_allCalls {chain : MatcherChain} {layers : Layers} {l : Link} :
    l ∈ allCalls chain layers ↔
      ∃ r ∈ layers.keptResolvers, ∃ candidate ∈ r.outboundCalls, ∃ m,
        (chain.resolve candidate layers.keptMethods).method? = some m ∧
          l = ⟨r.id, m.id, .calls⟩ := by
  simp only [allCalls, calls, Layer.join_entities, List.flatMap_map, List.mem_flatMap]
  constructor
  · rintro ⟨r, hr, candidate, hcandidate, hl⟩
    refine ⟨r, hr, candidate, hcandidate, ?_⟩
    unfold call at hl
    split at hl
    · next m hm => exact ⟨m, by rw [hm]; rfl, List.mem_singleton.mp hl⟩
    · next m _ hm => exact ⟨m, by rw [hm]; rfl, List.mem_singleton.mp hl⟩
    · exact absurd hl List.not_mem_nil
  · rintro ⟨r, hr, candidate, hcandidate, m, hm, rfl⟩
    refine ⟨r, hr, candidate, hcandidate, ?_⟩
    unfold call
    cases houtcome : chain.resolve candidate layers.keptMethods with
    | exact found =>
        rw [houtcome] at hm
        cases hm
        exact List.mem_singleton_self _
    | guessed found name =>
        rw [houtcome] at hm
        cases hm
        exact List.mem_singleton_self _
    | unmatched =>
        rw [houtcome] at hm
        exact absurd hm (by simp [MatchOutcome.method?])

theorem kind_of_mem_allUses {settings : GraphqlSettings} {screens : List Screen}
    {files : List SourceFile} {l : Link} (h : l ∈ allUses settings screens files) :
    l.kind = .uses := by
  obtain ⟨_, _, _, _, _, _, rfl⟩ := mem_allUses.mp h
  rfl

theorem kind_of_mem_resolutions {layers : Layers} {l : Link} (h : l ∈ resolutions layers) :
    l.kind = .resolves := by
  obtain ⟨_, _, _, _, rfl⟩ := mem_resolutions.mp h
  rfl

theorem kind_of_mem_allCalls {chain : MatcherChain} {layers : Layers} {l : Link}
    (h : l ∈ allCalls chain layers) : l.kind = .calls := by
  obtain ⟨_, _, _, _, _, _, rfl⟩ := mem_allCalls.mp h
  rfl

/-- The edges have the links they were made from. -/
theorem map_link_numbered (first : Nat) (links : List Link) :
    (numbered first links).map GraphEdge.link = links := by
  induction links generalizing first with
  | nil => rfl
  | cons l rest ih => simp [numbered, GraphEdge.link, ih]

theorem id_getElem_numbered (first : Nat) (links : List Link) (k : Nat)
    (h : k < (numbered first links).length) :
    ((numbered first links)[k]).id = "e" ++ toString (first + k) := by
  induction links generalizing first k with
  | nil => exact absurd h (Nat.not_lt_zero k)
  | cons l rest ih =>
      cases k with
      | zero => rfl
      | succ k =>
          simp only [numbered, List.getElem_cons_succ]
          rw [ih (first + 1) k]
          congr 2
          omega

end Link

namespace Graph

/-- The graph of layers if their nodes can be made. -/
def assembled (settings : Settings) (chain : MatcherChain) (layers : Layers)
    (files : List SourceFile) : Graph :=
  linked settings chain layers files layers.nodes

/-- **The assembly breaks off exactly if a file is no text.** -/
theorem assemble_eq (settings : Settings) (chain : MatcherChain) (layers : Layers)
    (files : List SourceFile) :
    assemble settings chain layers files =
      if layers.Writable then .ok (assembled settings chain layers files)
      else .error GraphNode.unwritablePath := by
  rw [assemble, Layers.makeNodes_eq]
  split
  · rfl
  · rfl

theorem assemble_eq_ok_iff {settings : Settings} {chain : MatcherChain} {layers : Layers}
    {files : List SourceFile} {g : Graph} :
    assemble settings chain layers files = .ok g ↔
      layers.Writable ∧ g = assembled settings chain layers files := by
  rw [assemble_eq]
  by_cases h : layers.Writable
  · rw [if_pos h, Except.ok.injEq, eq_comm]
    exact (and_iff_right h).symm
  · rw [if_neg h]
    exact iff_of_false (fun hg => nomatch hg) fun hg => h hg.1

section Build

variable {engine : RegexEngine} {settings : Settings} {chain : MatcherChain}
  {files : List SourceFile}

theorem build_of_writable (h : (Layers.extract engine settings files).Writable) :
    build engine settings chain files =
      assembled settings chain (.extract engine settings files) files := by
  rw [build, assemble_eq, if_pos h]

theorem build_of_not_writable (h : ¬(Layers.extract engine settings files).Writable) :
    build engine settings chain files = failed settings GraphNode.unwritablePath.message := by
  rw [build, assemble_eq, if_neg h]

/-- What holds of assembled graphs and of those without nodes holds of built graphs. -/
theorem build_induction {P : Graph → Prop} (engine : RegexEngine) (settings : Settings)
    (chain : MatcherChain) (files : List SourceFile)
    (hassembled : P (assembled settings chain (.extract engine settings files) files))
    (hfailed : P (failed settings GraphNode.unwritablePath.message)) :
    P (build engine settings chain files) := by
  by_cases h : (Layers.extract engine settings files).Writable
  · rw [build_of_writable h]
    exact hassembled
  · rw [build_of_not_writable h]
    exact hfailed

/-- The index of a built graph is that of its nodes and edges. -/
theorem index_build (engine : RegexEngine) (settings : Settings) (chain : MatcherChain)
    (files : List SourceFile) :
    (build engine settings chain files).index =
      .build (build engine settings chain files).nodes (build engine settings chain files).edges :=
  build_induction (P := fun g => g.index = .build g.nodes g.edges) engine settings chain files
    rfl rfl

end Build

theorem nodes_assembled (settings : Settings) (chain : MatcherChain) (layers : Layers)
    (files : List SourceFile) : (assembled settings chain layers files).nodes = layers.nodes := rfl

theorem edges_assembled (settings : Settings) (chain : MatcherChain) (layers : Layers)
    (files : List SourceFile) :
    (assembled settings chain layers files).edges =
      Link.numbered 1
        ((Link.inferred settings chain layers files).filter (Link.isKnown layers.nodes)) := by
  have huses : (Link.uses settings.analysis.graphql layers.keptScreens files).entities =
      Link.allUses settings.analysis.graphql layers.keptScreens files := by rw [Link.uses_eq]
  have hresolutions : (Layer.join (layers.keptOperations.map
      (Link.resolution layers.keptResolvers))).entities = Link.resolutions layers := by
    rw [Layer.join_entities, List.flatMap_map]
    rfl
  have hcalls : (Layer.join (layers.keptResolvers.map
      (Link.calls chain layers.keptMethods))).entities = Link.allCalls chain layers := by
    rw [Layer.join_entities, List.flatMap_map]
    rfl
  unfold Link.inferred
  rw [← huses, ← hresolutions, ← hcalls]
  rfl

/-- The edges of a graph are the known links in the order of the passes. -/
theorem links_assembled (settings : Settings) (chain : MatcherChain) (layers : Layers)
    (files : List SourceFile) :
    (assembled settings chain layers files).edges.map GraphEdge.link =
      (Link.inferred settings chain layers files).filter (Link.isKnown layers.nodes) := by
  rw [edges_assembled, Link.map_link_numbered]

/-- The k-th edge, counted from one, carries the number k. -/
theorem edge_id_assembled (settings : Settings) (chain : MatcherChain) (layers : Layers)
    (files : List SourceFile) (k : Nat)
    (h : k < (assembled settings chain layers files).edges.length) :
    ((assembled settings chain layers files).edges[k]).id = "e" ++ toString (k + 1) := by
  simp only [edges_assembled, Link.id_getElem_numbered]
  rw [Nat.add_comm]

end Graph

end ApiAtlas
