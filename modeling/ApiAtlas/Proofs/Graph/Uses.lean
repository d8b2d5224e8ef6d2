import Mathlib.Data.List.Nodup
import ApiAtlas.Proofs.Graph.WellFormed
set_option autoImplicit false

/-!
# What a screen uses

The file of a screen is read twice: once when the operations of all files are collected, and once
when edges are inferred.  Between the two, operations and screens are cut down to the first of each
identifier, and edges to those whose ends are nodes.  Nothing a screen uses is lost on the way: the
edges that leave it go to what its file depends on, in order, as far as that is an operation of the
graph; and an operation that the file itself holds always is.
-/

namespace ApiAtlas

/-- No two files lie at the same place. -/
def SourceFile.Apart (files : List SourceFile) : Prop :=
  (files.map fun f => Path.components f.path).Nodup

namespace Link

/-- The file that is read again for a screen is the one it was found in. -/
theorem fileAt?_of_mem {files : List SourceFile} (hfiles : SourceFile.Apart files)
    {f : SourceFile} (hf : f ∈ files) : fileAt? files f.path = some f := by
  unfold fileAt?
  cases hfound : files.reverse.find? fun g => Path.same g.path f.path with
  | none =>
      rw [List.find?_eq_none] at hfound
      exact absurd (by simp [Path.same]) (hfound f (List.mem_reverse.mpr hf))
  | some g =>
      have hg : g ∈ files := List.mem_reverse.mp (List.mem_of_find?_eq_some hfound)
      have hsame : Path.components g.path = Path.components f.path := by
        simpa [Path.same] using List.find?_some hfound
      rw [List.inj_on_of_nodup_map hfiles hg hf hsame]

theorem source_usesOf {settings : GraphqlSettings} {files : List SourceFile} {s : Screen}
    {l : Link} (h : l ∈ usesOf settings files s) : l.source = s.id := by
  unfold usesOf at h
  split at h
  · obtain ⟨_, _, rfl⟩ := List.mem_map.mp h
    rfl
  · exact absurd h List.not_mem_nil

/-- Among the links of screens with distinct identifiers, those that start in one screen are the
links of that screen. -/
theorem filter_source_allUses {settings : GraphqlSettings} {files : List SourceFile}
    {screens : List Screen} (hscreens : (screens.map Screen.id).Nodup) {s : Screen}
    (hs : s ∈ screens) :
    (allUses settings screens files).filter (·.source == s.id) = usesOf settings files s := by
  unfold allUses
  induction screens with
  | nil => exact absurd hs List.not_mem_nil
  | cons first rest ih =>
      rw [List.map_cons, List.nodup_cons] at hscreens
      rw [List.flatMap_cons, List.filter_append]
      rcases List.mem_cons.mp hs with rfl | hrest
      · have hown : (usesOf settings files s).filter (·.source == s.id)
            = usesOf settings files s := by
          rw [List.filter_eq_self]
          intro l hl
          simp [source_usesOf hl]
        have hothers : (rest.flatMap (usesOf settings files)).filter (·.source == s.id) = [] := by
          rw [List.filter_eq_nil_iff]
          intro l hl hsource
          obtain ⟨other, hother, hlink⟩ := List.mem_flatMap.mp hl
          have hid : other.id = s.id := by
            rw [← source_usesOf hlink]
            simpa using hsource
          exact hscreens.1 (hid ▸ List.mem_map_of_mem hother)
        rw [hown, hothers, List.append_nil]
      · have hfirst : (usesOf settings files first).filter (·.source == s.id) = [] := by
          rw [List.filter_eq_nil_iff]
          intro l hl hsource
          have hid : first.id = s.id := by
            rw [← source_usesOf hl]
            simpa using hsource
          exact hscreens.1 (hid ▸ List.mem_map_of_mem hrest)
        rw [hfirst, List.nil_append, ih hscreens.2 hrest]

end Link

namespace Layers

variable {layers : Layers}

/-- The screens of the graph are the nodes of the kept screens. -/
theorem screen_of_mem_nodes {n : GraphNode} (hn : n ∈ layers.nodes) (hkind : n.kind = .screen) :
    ∃ s ∈ layers.keptScreens, n = GraphNode.shownScreen s := by
  rcases mem_nodes.mp hn with ⟨s, hs, rfl⟩ | ⟨_, _, rfl⟩ | ⟨_, _, rfl⟩ | ⟨_, _, rfl⟩
  · exact ⟨s, hs, rfl⟩
  all_goals exact NodeKind.noConfusion hkind

/-- An identifier that is named like an operation is that of a node exactly if it is that of an
operation. -/
theorem mem_ids_iff_operation (hnamed : layers.Named) {id : String}
    (hid : NodeKind.operation.Names id) :
    (∃ n ∈ layers.nodes, n.id = id) ↔ ∃ n ∈ layers.nodes, n.kind = .operation ∧ n.id = id := by
  constructor
  · rintro ⟨n, hn, rfl⟩
    exact ⟨n, hn, NodeKind.eq_of_names (hnamed n hn) hid, rfl⟩
  · rintro ⟨n, hn, _, rfl⟩
    exact ⟨n, hn, rfl⟩

end Layers

theorem GraphNode.file?_shownScreen (s : Screen) :
    (GraphNode.shownScreen s).file? = some s.file.display := by
  simp [GraphNode.file?, shownScreen, screenIn, Dict.ofList, Dict.get?_insert]

namespace Graph

/-- What the edges of a screen lead to, in the order of the edges. -/
def usedBy (g : Graph) (screen : String) : List String :=
  (g.edges.filter fun e => e.kind == .uses && e.source == screen).map (·.target)

/-- The identifier is that of an operation of the graph. -/
def hasOperation (g : Graph) (id : String) : Bool := (g.nodesOf .operation).any (·.id == id)

theorem hasOperation_iff {g : Graph} {id : String} :
    g.hasOperation id = true ↔ ∃ n ∈ g.nodes, n.kind = .operation ∧ n.id = id := by
  simp [hasOperation, nodesOf]

/-- The edges of a screen are its own links, as far as they are known. -/
theorem usedBy_assembled (settings : Settings) (chain : MatcherChain) {layers : Layers}
    (files : List SourceFile) {s : Screen} (hs : s ∈ layers.keptScreens) :
    (assembled settings chain layers files).usedBy s.id =
      ((Link.usesOf settings.analysis.graphql files s).filter
        (Link.isKnown layers.nodes)).map (·.target) := by
  have hlinks : (assembled settings chain layers files).usedBy s.id =
      (((assembled settings chain layers files).edges.map GraphEdge.link).filter
        fun l => l.kind == .uses && l.source == s.id).map (·.target) := by
    rw [List.filter_map, List.map_map]
    rfl
  have huses : ∀ l ∈ Link.allUses settings.analysis.graphql layers.keptScreens files,
      (l.kind == .uses && l.source == s.id) = (l.source == s.id) := by
    intro l hl
    obtain ⟨_, _, _, _, _, _, rfl⟩ := Link.mem_allUses.mp hl
    rfl
  have hresolutions : (Link.resolutions layers).filter
      (fun l => l.kind == .uses && l.source == s.id) = [] := by
    rw [List.filter_eq_nil_iff]
    intro l hl
    obtain ⟨_, _, _, _, rfl⟩ := Link.mem_resolutions.mp hl
    exact Bool.false_ne_true
  have hcalls : (Link.allCalls chain layers).filter
      (fun l => l.kind == .uses && l.source == s.id) = [] := by
    rw [List.filter_eq_nil_iff]
    intro l hl
    obtain ⟨_, _, _, _, _, _, rfl⟩ := Link.mem_allCalls.mp hl
    exact Bool.false_ne_true
  have hown : (Link.inferred settings chain layers files).filter
      (fun l => l.kind == .uses && l.source == s.id) =
        Link.usesOf settings.analysis.graphql files s := by
    rw [Link.inferred, List.filter_append, List.filter_append, hresolutions, hcalls,
      List.append_nil, List.append_nil, List.filter_congr huses]
    exact Link.filter_source_allUses (Layers.firstById_nodup _ _) hs
  rw [hlinks, links_assembled, List.filter_comm, hown]

/-- What a screen uses is what its file depends on, as far as that is an operation. -/
theorem usedBy_of_file {settings : Settings} {chain : MatcherChain} {layers : Layers}
    {files : List SourceFile} (hfiles : SourceFile.Apart files) (hnamed : layers.Named)
    {s : Screen} (hs : s ∈ layers.keptScreens) {f : SourceFile} (hf : f ∈ files)
    (hpath : s.file = f.path) :
    (assembled settings chain layers files).usedBy s.id =
      (ApiOperation.dependencies settings.analysis.graphql f).filter
        (assembled settings chain layers files).hasOperation := by
  have hlinks : Link.usesOf settings.analysis.graphql files s =
      (ApiOperation.dependencies settings.analysis.graphql f).map
        fun id => ⟨s.id, id, .uses⟩ := by
    unfold Link.usesOf
    rw [hpath, Link.fileAt?_of_mem hfiles hf]
  rw [usedBy_assembled settings chain files hs, hlinks, List.filter_map, List.map_map]
  have hknown : ∀ id ∈ ApiOperation.dependencies settings.analysis.graphql f,
      (Link.isKnown layers.nodes ∘ fun id => ⟨s.id, id, .uses⟩) id =
        (assembled settings chain layers files).hasOperation id := by
    intro id hid
    have hsource : ∃ n ∈ layers.nodes, n.id = s.id :=
      ⟨.shownScreen s, Layers.shownScreen_mem_nodes hs, rfl⟩
    rw [Bool.eq_iff_iff, hasOperation_iff, Function.comp_apply, Link.isKnown_iff]
    rw [nodes_assembled, ← Layers.mem_ids_iff_operation hnamed
      (ApiOperation.dependencies_names hid)]
    exact and_iff_right hsource
  rw [List.filter_congr hknown]
  exact List.map_id _

/-- An operation that a script among the files holds is an operation of their graph. -/
theorem hasOperation_of_mem_ofScript {engine : RegexEngine} {settings : Settings}
    {chain : MatcherChain} {files : List SourceFile} {f : SourceFile} (hf : f ∈ files)
    (hkind : f.kind = .script) {op : ApiOperation}
    (hop : op ∈ ApiOperation.ofScript settings.analysis.graphql f) :
    (assembled settings chain (.extract engine settings files) files).hasOperation op.id =
      true := by
  have hfound : op ∈ (ApiOperation.ofFiles settings.analysis.graphql files).entities :=
    ApiOperation.mem_ofFiles.mpr ⟨f, hf, .inr ⟨hkind, hop⟩⟩
  obtain ⟨kept, hkept, hid⟩ := Layers.exists_mem_firstById ApiOperation.id hfound
  exact hasOperation_iff.mpr ⟨.shownOperation kept,
    Layers.shownOperation_mem_nodes hkept, rfl, hid⟩

/-- **The edges of a screen are exact.** When no two files lie at the same place, a screen of a
built graph has one file among them; its edges lead, in order, to what that file depends on as far
as it is an operation of the graph; and if the file is a script, each operation in it is the end of
exactly one of them. -/
theorem usedBy_build (engine : RegexEngine) (settings : Settings) (chain : MatcherChain)
    (files : List SourceFile) (hfiles : SourceFile.Apart files) (n : GraphNode)
    (hn : n ∈ (build engine settings chain files).nodesOf .screen) :
    ∃ f ∈ files, ∃ path : String, n.file? = some path ∧ f.path = path ∧
      (build engine settings chain files).usedBy n.id =
        (ApiOperation.dependencies settings.analysis.graphql f).filter
          (build engine settings chain files).hasOperation ∧
      (f.kind = .script → ∀ op ∈ ApiOperation.ofScript settings.analysis.graphql f,
        ((build engine settings chain files).usedBy n.id).count op.id = 1) := by
  by_cases hwritable : (Layers.extract engine settings files).Writable
  case neg =>
    rw [build_of_not_writable hwritable] at hn
    exact absurd hn List.not_mem_nil
  rw [build_of_writable hwritable] at hn ⊢
  obtain ⟨hmem, hkind⟩ := List.mem_filter.mp hn
  obtain ⟨s, hs, rfl⟩ := Layers.screen_of_mem_nodes hmem (by simpa using hkind)
  obtain ⟨f, hf, hpath, _⟩ := Layers.screen_origin (Layers.mem_of_mem_firstById hs)
  have htext : s.file.IsText := (Layers.writable_iff.mp hwritable).1 s hs
  have hused : (assembled settings chain (.extract engine settings files) files).usedBy s.id =
      (ApiOperation.dependencies settings.analysis.graphql f).filter
        (assembled settings chain (.extract engine settings files) files).hasOperation :=
    usedBy_of_file hfiles (Layers.extract_named engine settings files) hs hf hpath
  refine ⟨f, hf, s.file.display, GraphNode.file?_shownScreen s, ?_, hused, ?_⟩
  · rw [← hpath, htext.ofText_display]
  intro hscript op hop
  have hid : op.id ∈ ApiOperation.dependencies settings.analysis.graphql f :=
    Text.mem_distinct.mpr (List.mem_map.mpr ⟨.operation op, ApiOperation.mem_ofScript.mp hop, rfl⟩)
  show ((assembled settings chain (.extract engine settings files) files).usedBy s.id).count
    op.id = 1
  rw [hused]
  refine List.count_eq_one_of_mem ?_ ?_
  · exact (Text.nodup_distinct _).filter _
  · exact List.mem_filter.mpr ⟨hid, hasOperation_of_mem_ofScript hf hscript hop⟩

/-- The node of the page of the sample repository. -/
def cartNode : GraphNode :=
  .screenIn "web/app/cart/page.tsx" ⟨"screen:/cart", "/cart", "web/app/cart/page.tsx", none, .app⟩

theorem usedBy_build_shop :
    SourceFile.Apart shopFiles ∧
      cartNode ∈ (build .roomy shopSettings .standard shopFiles).nodesOf .screen ∧
      (build .roomy shopSettings .standard shopFiles).usedBy cartNode.id =
        ["gql:query.cart", "gql:query.stock"] ∧
      ∃ f ∈ shopFiles, ∃ path : String, cartNode.file? = some path ∧ f.path = path ∧
        (build .roomy shopSettings .standard shopFiles).usedBy cartNode.id =
          (ApiOperation.dependencies shopSettings.analysis.graphql f).filter
            (build .roomy shopSettings .standard shopFiles).hasOperation ∧
        (f.kind = .script → ∀ op ∈ ApiOperation.ofScript shopSettings.analysis.graphql f,
          ((build .roomy shopSettings .standard shopFiles).usedBy cartNode.id).count op.id =
            1) := by
  have hfiles : SourceFile.Apart shopFiles := by
    unfold SourceFile.Apart
    decide +kernel
  have hnode : cartNode ∈ (build .roomy shopSettings .standard shopFiles).nodesOf .screen := by
    decide +kernel
  exact ⟨hfiles, hnode, by decide +kernel,
    usedBy_build .roomy shopSettings .standard shopFiles hfiles cartNode hnode⟩

end Graph

end ApiAtlas
