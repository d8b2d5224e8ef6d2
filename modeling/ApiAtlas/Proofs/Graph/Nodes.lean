import ApiAtlas.Proofs.Graph.Extraction
set_option autoImplicit false

/-!
# Nodes: what is made of the kept entities

A node holds the path of its file as a text.  If the file of every kept entity has one, each entity
becomes a node, one layer behind the other, and no two nodes share an identifier.  If one has none,
it does not matter where it stands: nothing is made at all.
-/

namespace ApiAtlas

/-! ## Paths that are texts -/

namespace RawText

/-- The bytes encode a text. -/
def IsText (raw : RawText) : Prop := raw.text?.isSome = true

instance (raw : RawText) : Decidable raw.IsText := inferInstanceAs (Decidable (_ = true))

theorem isText_iff {raw : RawText} : raw.IsText ↔ ∃ text : String, raw = text := by
  simp only [IsText, Option.isSome_iff_exists, text?_eq_some_iff]

@[simp] theorem isText_ofText (text : String) : (ofText text).IsText := isText_iff.mpr ⟨text, rfl⟩

/-- A path that is a text is shown as that text. -/
theorem IsText.ofText_display {raw : RawText} (h : raw.IsText) : ofText raw.display = raw := by
  obtain ⟨text, rfl⟩ := isText_iff.mp h
  rw [display_ofText]

end RawText

namespace GraphNode

theorem written_eq (path : RawText) :
    written path = if path.IsText then .ok path.display else .error unwritablePath := by
  unfold written
  cases htext : path.text? with
  | none => simp [RawText.IsText, htext]
  | some text => simp [RawText.IsText, RawText.display, htext]

/-- A node is made of each entity exactly if the file of each has a text. -/
theorem mapM_written {α : Type} (file : α → RawText) (node : String → α → GraphNode)
    (entities : List α) :
    entities.mapM (fun a => do return node (← written (file a)) a) =
      if ∀ a ∈ entities, (file a).IsText then
        Except.ok (entities.map fun a => node (file a).display a)
      else .error unwritablePath := by
  induction entities with
  | nil => rfl
  | cons a rest ih =>
      rw [List.mapM_cons, ih, written_eq]
      simp only [List.forall_mem_cons, ite_and]
      split
      · split
        · rfl
        · rfl
      · rfl

/-- The node of a screen, with the path of its file as it is shown. -/
def shownScreen (s : Screen) : GraphNode := screenIn s.file.display s

/-- The node of an operation, with the path of its file as it is shown. -/
def shownOperation (op : ApiOperation) : GraphNode := operationIn op.file.display op

/-- The node of a resolver, with the path of its file as it is shown. -/
def shownResolver (r : Resolver) : GraphNode := resolverIn r.file.display r

/-- The node of a gRPC method, with the path of its file as it is shown. -/
def shownRpc (m : RpcMethod) : GraphNode := rpcIn m.file.display m

end GraphNode

/-! ## Nodes of layers -/

namespace Layers

/-- The nodes of the layers, one layer behind the other. -/
def nodes (layers : Layers) : List GraphNode :=
  layers.keptScreens.map .shownScreen ++ layers.keptOperations.map .shownOperation
    ++ layers.keptResolvers.map .shownResolver ++ layers.keptMethods.map .shownRpc

/-- Every node is named like the layer it belongs to. -/
def Named (layers : Layers) : Prop := ∀ n ∈ layers.nodes, n.kind.Names n.id

theorem mem_nodes {layers : Layers} {n : GraphNode} :
    n ∈ layers.nodes ↔
      (∃ s ∈ layers.keptScreens, GraphNode.shownScreen s = n) ∨
      (∃ op ∈ layers.keptOperations, GraphNode.shownOperation op = n) ∨
      (∃ r ∈ layers.keptResolvers, GraphNode.shownResolver r = n) ∨
      ∃ m ∈ layers.keptMethods, GraphNode.shownRpc m = n := by
  simp only [nodes, List.mem_append, List.mem_map, or_assoc]

theorem shownScreen_mem_nodes {layers : Layers} {s : Screen} (h : s ∈ layers.keptScreens) :
    GraphNode.shownScreen s ∈ layers.nodes :=
  mem_nodes.mpr (.inl ⟨s, h, rfl⟩)

theorem shownOperation_mem_nodes {layers : Layers} {op : ApiOperation}
    (h : op ∈ layers.keptOperations) : GraphNode.shownOperation op ∈ layers.nodes :=
  mem_nodes.mpr (.inr (.inl ⟨op, h, rfl⟩))

theorem shownResolver_mem_nodes {layers : Layers} {r : Resolver} (h : r ∈ layers.keptResolvers) :
    GraphNode.shownResolver r ∈ layers.nodes :=
  mem_nodes.mpr (.inr (.inr (.inl ⟨r, h, rfl⟩)))

theorem shownRpc_mem_nodes {layers : Layers} {m : RpcMethod} (h : m ∈ layers.keptMethods) :
    GraphNode.shownRpc m ∈ layers.nodes :=
  mem_nodes.mpr (.inr (.inr (.inr ⟨m, h, rfl⟩)))

/-- Whatever is extracted is named like its layer. -/
theorem extract_named (engine : RegexEngine) (settings : Settings) (files : List SourceFile) :
    (extract engine settings files).Named := by
  intro n hn
  rcases mem_nodes.mp hn with ⟨s, hs, rfl⟩ | ⟨op, hop, rfl⟩ | ⟨r, hr, rfl⟩ | ⟨m, hm, rfl⟩
  · obtain ⟨_, _, _, hid⟩ := screen_origin (mem_of_mem_firstById hs)
    show NodeKind.screen.Names s.id
    rw [hid]
    exact Identifier.screen_names _ _
  · obtain ⟨_, _, hread⟩ := ApiOperation.exists_readFrom (mem_of_mem_firstById hop)
    show NodeKind.operation.Names op.id
    rw [hread.id_eq]
    exact Identifier.operation_names _ _
  · obtain ⟨_, _, hread⟩ := resolver_origin (mem_of_mem_firstById hr)
    show NodeKind.resolver.Names r.id
    rw [hread.id_eq]
    exact Identifier.resolver_names _ _
  · obtain ⟨_, _, _, hid⟩ := Interface.rpc_origin (mem_of_mem_firstById hm)
    show NodeKind.rpc.Names m.id
    rw [hid]
    exact Identifier.rpc_names _ _

/-- Nodes of different layers never share an identifier. -/
theorem nodup_append_of_kinds {xs ys : List GraphNode}
    (hnamed : ∀ n ∈ xs ++ ys, n.kind.Names n.id)
    (hx : (xs.map (·.id)).Nodup) (hy : (ys.map (·.id)).Nodup)
    (hkinds : ∀ m ∈ xs, ∀ n ∈ ys, m.kind ≠ n.kind) : ((xs ++ ys).map (·.id)).Nodup := by
  rw [List.map_append, List.nodup_append]
  refine ⟨hx, hy, ?_⟩
  intro a ha b hb hab
  obtain ⟨m, hm, rfl⟩ := List.mem_map.mp ha
  obtain ⟨n, hn, rfl⟩ := List.mem_map.mp hb
  have hmn : n.kind.Names m.id := hab ▸ hnamed n (List.mem_append_right _ hn)
  exact hkinds m hm n hn
    (NodeKind.eq_of_names (hnamed m (List.mem_append_left _ hm)) hmn)

theorem nodup_map_ids {α : Type} {id : α → String} {node : α → GraphNode}
    (hnode : ∀ a, (node a).id = id a) (entities : List α) :
    (((firstById id entities).map node).map (·.id)).Nodup := by
  have hids : ((firstById id entities).map node).map (·.id) = (firstById id entities).map id := by
    rw [List.map_map]
    exact List.map_congr_left fun a _ => hnode a
  rw [hids]
  exact firstById_nodup id entities

/-- Nodes of one layer have distinct identifiers because only the first of each is kept, nodes of
different layers because they are named differently. -/
theorem nodes_nodup {layers : Layers} (h : layers.Named) :
    (layers.nodes.map (·.id)).Nodup := by
  have hleft : ∀ {xs ys : List GraphNode}, (∀ n ∈ xs ++ ys, n.kind.Names n.id) →
      ∀ n ∈ xs, n.kind.Names n.id := fun hnamed n hn => hnamed n (List.mem_append_left _ hn)
  refine nodup_append_of_kinds h (nodup_append_of_kinds (hleft h)
    (nodup_append_of_kinds (hleft (hleft h)) ?_ ?_ ?_) ?_ ?_) ?_ ?_
  · exact nodup_map_ids (fun _ => rfl) _
  · exact nodup_map_ids (fun _ => rfl) _
  · simp only [List.mem_map]
    rintro m ⟨s, _, rfl⟩ n ⟨op, _, rfl⟩
    exact NodeKind.noConfusion
  · exact nodup_map_ids (fun _ => rfl) _
  · simp only [List.mem_append, List.mem_map]
    rintro m (⟨s, _, rfl⟩ | ⟨op, _, rfl⟩) n ⟨r, _, rfl⟩ <;> exact NodeKind.noConfusion
  · exact nodup_map_ids (fun _ => rfl) _
  · simp only [List.mem_append, List.mem_map]
    rintro m ((⟨s, _, rfl⟩ | ⟨op, _, rfl⟩) | ⟨r, _, rfl⟩) n ⟨p, _, rfl⟩ <;>
      exact NodeKind.noConfusion

/-- The files of the kept entities. -/
def paths (layers : Layers) : List RawText :=
  layers.keptScreens.map (·.file) ++ layers.keptOperations.map (·.file)
    ++ layers.keptResolvers.map (·.file) ++ layers.keptMethods.map (·.file)

/-- The file of every kept entity is a text. -/
def Writable (layers : Layers) : Prop := ∀ path ∈ layers.paths, path.IsText

instance (layers : Layers) : Decidable layers.Writable :=
  inferInstanceAs (Decidable (∀ path ∈ layers.paths, path.IsText))

theorem writable_iff {layers : Layers} :
    layers.Writable ↔
      (∀ s ∈ layers.keptScreens, s.file.IsText) ∧ (∀ op ∈ layers.keptOperations, op.file.IsText) ∧
        (∀ r ∈ layers.keptResolvers, r.file.IsText) ∧ ∀ m ∈ layers.keptMethods, m.file.IsText := by
  simp only [Writable, paths, List.forall_mem_append, List.forall_mem_map, and_assoc]

/-- **The nodes are made exactly if every file is a text**, and else none is. -/
theorem makeNodes_eq (layers : Layers) :
    layers.makeNodes =
      if layers.Writable then .ok layers.nodes else .error GraphNode.unwritablePath := by
  have hscreens : layers.keptScreens.mapM GraphNode.ofScreen =
      if ∀ s ∈ layers.keptScreens, s.file.IsText then
        .ok (layers.keptScreens.map GraphNode.shownScreen)
      else .error GraphNode.unwritablePath :=
    GraphNode.mapM_written Screen.file GraphNode.screenIn _
  have hoperations : layers.keptOperations.mapM GraphNode.ofOperation =
      if ∀ op ∈ layers.keptOperations, op.file.IsText then
        .ok (layers.keptOperations.map GraphNode.shownOperation)
      else .error GraphNode.unwritablePath :=
    GraphNode.mapM_written ApiOperation.file GraphNode.operationIn _
  have hresolvers : layers.keptResolvers.mapM GraphNode.ofResolver =
      if ∀ r ∈ layers.keptResolvers, r.file.IsText then
        .ok (layers.keptResolvers.map GraphNode.shownResolver)
      else .error GraphNode.unwritablePath :=
    GraphNode.mapM_written Resolver.file GraphNode.resolverIn _
  have hmethods : layers.keptMethods.mapM GraphNode.ofRpc =
      if ∀ m ∈ layers.keptMethods, m.file.IsText then
        .ok (layers.keptMethods.map GraphNode.shownRpc)
      else .error GraphNode.unwritablePath :=
    GraphNode.mapM_written RpcMethod.file GraphNode.rpcIn _
  rw [makeNodes, hscreens, hoperations, hresolvers, hmethods]
  simp only [writable_iff, ite_and]
  split
  · split
    · split
      · split
        · rfl
        · rfl
      · rfl
    · rfl
  · rfl

end Layers

end ApiAtlas
