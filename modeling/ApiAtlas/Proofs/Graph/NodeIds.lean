import Mathlib.Data.Set.Lattice
import ApiAtlas.Proofs.Graph.WellFormed
set_option autoImplicit false

/-!
# Which nodes a repository has

Every extraction goes file by file: what it finds in a list of files is what it finds in each of
them alone.  Restricting an extraction to a directory and joining those of several projects keep
this property, so it holds of all four layers.  Keeping the first of each identifier loses entities
but no identifiers.  The identifiers of a graph are therefore the union over its files, whatever
their order and however broken some of them are, as long as the file of each kept entity is a text.
If one is not, the graph has no nodes, whatever the other files hold.
-/

namespace ApiAtlas

/-! ## Extractions that go file by file -/

namespace Layers

variable {α β : Type}

/-- What the extraction finds in files it finds in one of them alone, and conversely. -/
def FileByFile (extraction : List SourceFile → Layer α) : Prop :=
  ∀ files a, a ∈ (extraction files).entities ↔ ∃ f ∈ files, a ∈ (extraction [f]).entities

/-- An extraction goes file by file if a condition on single files decides what it finds. -/
theorem FileByFile.of_forall {extraction : List SourceFile → Layer α}
    (found : SourceFile → α → Prop)
    (h : ∀ files a, a ∈ (extraction files).entities ↔ ∃ f ∈ files, found f a) :
    FileByFile extraction := by
  intro files a
  simp only [h, List.mem_singleton, exists_eq_left]

theorem FileByFile.under {extraction : List SourceFile → Layer α} (h : FileByFile extraction)
    (dir : String) : FileByFile fun files => extraction (filesUnder dir files) := by
  refine .of_forall (fun f a =>
    (isWholeTree dir || Path.isUnder dir f.path) = true ∧ a ∈ (extraction [f]).entities) ?_
  intro files a
  rw [h (filesUnder dir files) a]
  unfold filesUnder
  constructor
  · rintro ⟨f, hf, ha⟩
    obtain ⟨hmem, hunder⟩ := List.mem_filter.mp hf
    exact ⟨f, hmem, hunder, ha⟩
  · rintro ⟨f, hmem, hunder, ha⟩
    exact ⟨f, List.mem_filter.mpr ⟨hmem, hunder⟩, ha⟩

theorem FileByFile.join {extraction : β → List SourceFile → Layer α}
    (h : ∀ b, FileByFile (extraction b)) (parts : List β) :
    FileByFile fun files => .join (parts.map fun b => extraction b files) := by
  refine .of_forall (fun f a => ∃ b ∈ parts, a ∈ (extraction b [f]).entities) ?_
  intro files a
  simp only [Layer.join_entities, List.flatMap_map, List.mem_flatMap]
  constructor
  · rintro ⟨b, hb, ha⟩
    obtain ⟨f, hf, hfound⟩ := (h b files a).mp ha
    exact ⟨f, hf, b, hb, hfound⟩
  · rintro ⟨f, hf, b, hb, hfound⟩
    exact ⟨b, hb, (h b files a).mpr ⟨f, hf, hfound⟩⟩

theorem screensOf_fileByFile (settings : Settings) : FileByFile (screensOf settings) := by
  have hproject : ∀ p : String × Project, FileByFile (Screen.ofProject p.2) := by
    intro p
    have hfiles : FileByFile fun files =>
        (⟨files.filterMap (Screen.ofFile? p.2), []⟩ : Layer Screen) :=
      .of_forall (fun f s => Screen.ofFile? p.2 f = some s) fun _ _ => List.mem_filterMap
    exact hfiles.under p.2.path
  exact .join hproject _

theorem operations_fileByFile (settings : GraphqlSettings) :
    FileByFile (ApiOperation.ofFiles settings) :=
  .of_forall _ fun _ _ => ApiOperation.mem_ofFiles

theorem resolversOf_fileByFile (engine : RegexEngine) (settings : Settings) :
    FileByFile (resolversOf engine settings) := by
  have hproject : ∀ p : String × Project, FileByFile fun files =>
      ofProject "package" p.1
        (.ok (Resolver.extract engine settings.analysis.resolvers files)) := by
    intro p
    refine .of_forall (fun f r => Resolver.Compiles engine settings.analysis.resolvers ∧
      f.kind = .script ∧ r ∈ Resolver.ofFile settings.analysis.resolvers f) ?_
    intro files r
    simp only [mem_ofProject_extract, Resolver.ofFiles, List.mem_flatMap, List.mem_filter,
      beq_iff_eq, and_assoc]
    constructor
    · rintro ⟨hcompiles, f, hf, hkind, hr⟩
      exact ⟨f, hf, hcompiles, hkind, hr⟩
    · rintro ⟨f, hf, hcompiles, hkind, hr⟩
      exact ⟨hcompiles, f, hf, hkind, hr⟩
  exact .join (fun p : String × Project => (hproject p).under p.2.path) _

theorem rpcMethods_fileByFile (settings : Settings) :
    FileByFile fun files => Interface.ofFiles (filesUnder settings.protos.path files) :=
  FileByFile.under (.of_forall _ fun _ _ => Interface.mem_ofFiles) settings.protos.path

theorem FileByFile.mem_map_iff {extraction : List SourceFile → Layer α}
    (h : FileByFile extraction) (key : α → β) (files : List SourceFile) (x : β) :
    x ∈ ((extraction files).entities).map key ↔
      ∃ f ∈ files, x ∈ ((extraction [f]).entities).map key := by
  simp only [List.mem_map, h files]
  constructor
  · rintro ⟨a, ⟨f, hf, ha⟩, hkey⟩
    exact ⟨f, hf, a, ha, hkey⟩
  · rintro ⟨f, hf, a, ha, hkey⟩
    exact ⟨a, ⟨f, hf, ha⟩, hkey⟩

/-! ## Identifiers and the files they come from -/

/-- The identifier and the file of each entity of the layers. -/
def entries (layers : Layers) : List (String × RawText) :=
  (settled layers.screens).entities.map (fun s => (s.id, s.file))
    ++ (settled layers.operations).entities.map (fun op => (op.id, op.file))
    ++ (settled layers.resolvers).entities.map (fun r => (r.id, r.file))
    ++ (settled layers.rpcMethods).entities.map (fun m => (m.id, m.file))

/-- The identifier and the file of each entity that is kept. -/
def keptEntries (layers : Layers) : List (String × RawText) :=
  layers.keptScreens.map (fun s => (s.id, s.file))
    ++ layers.keptOperations.map (fun op => (op.id, op.file))
    ++ layers.keptResolvers.map (fun r => (r.id, r.file))
    ++ layers.keptMethods.map (fun m => (m.id, m.file))

theorem keptEntries_sublist (layers : Layers) : layers.keptEntries.Sublist layers.entries := by
  refine ((List.Sublist.append ?_ ?_).append ?_).append ?_
  all_goals exact (firstById_sublist _ _).map _

/-- An identifier that is found is kept, perhaps from another file. -/
theorem exists_mem_keptEntries {layers : Layers} {x : String} {path : RawText}
    (h : (x, path) ∈ layers.entries) : ∃ kept, (x, kept) ∈ layers.keptEntries := by
  have hpart : ∀ {γ : Type} (id : γ → String) (file : γ → RawText) {found : List γ},
      (x, path) ∈ found.map (fun a => (id a, file a)) →
        ∃ kept, (x, kept) ∈ (firstById id found).map fun a => (id a, file a) := by
    intro γ id file found hmem
    obtain ⟨a, ha, hpair⟩ := List.mem_map.mp hmem
    obtain ⟨b, hb, hid⟩ := exists_mem_firstById id ha
    refine ⟨file b, List.mem_map.mpr ⟨b, hb, ?_⟩⟩
    rw [hid, (Prod.mk.inj hpair).1]
  simp only [entries, keptEntries, List.mem_append] at h ⊢
  rcases h with ((h | h) | h) | h
  · obtain ⟨kept, hkept⟩ := hpart _ _ h
    exact ⟨kept, .inl (.inl (.inl hkept))⟩
  · obtain ⟨kept, hkept⟩ := hpart _ _ h
    exact ⟨kept, .inl (.inl (.inr hkept))⟩
  · obtain ⟨kept, hkept⟩ := hpart _ _ h
    exact ⟨kept, .inl (.inr hkept)⟩
  · obtain ⟨kept, hkept⟩ := hpart _ _ h
    exact ⟨kept, .inr hkept⟩

theorem writable_iff_keptEntries {layers : Layers} :
    layers.Writable ↔ ∀ entry ∈ layers.keptEntries, entry.2.IsText := by
  have hpaths : layers.paths = layers.keptEntries.map (·.2) := by
    simp only [paths, keptEntries, List.map_append, List.map_map]
    rfl
  rw [Writable, hpaths, List.forall_mem_map]

/-- The identifiers of the nodes are those of all entities, kept or not. -/
theorem mem_nodeIds (layers : Layers) (x : String) :
    x ∈ layers.nodes.map (·.id) ↔ ∃ path, (x, path) ∈ layers.entries := by
  have hmap : layers.nodes.map (·.id) = layers.keptEntries.map (·.1) := by
    simp only [nodes, keptEntries, List.map_append, List.map_map]
    rfl
  rw [hmap, List.mem_map]
  constructor
  · rintro ⟨⟨_, path⟩, hentry, rfl⟩
    exact ⟨path, layers.keptEntries_sublist.subset hentry⟩
  · rintro ⟨path, hentry⟩
    obtain ⟨kept, hkept⟩ := exists_mem_keptEntries hentry
    exact ⟨(x, kept), hkept, rfl⟩

variable {engine : RegexEngine} {settings : Settings} {files : List SourceFile}

theorem exists_path_of_mem_entries {x : String} {path : RawText}
    (h : (x, path) ∈ (extract engine settings files).entries) : ∃ f ∈ files, path = f.path := by
  simp only [entries, List.mem_append, List.mem_map, Prod.mk.injEq] at h
  rcases h with ((⟨s, hs, -, rfl⟩ | ⟨op, hop, -, rfl⟩) | ⟨r, hr, -, rfl⟩) | ⟨m, hm, -, rfl⟩
  · obtain ⟨f, hf, hpath, _⟩ := screen_origin hs
    exact ⟨f, hf, hpath⟩
  · obtain ⟨f, hf, hread⟩ := ApiOperation.exists_readFrom hop
    exact ⟨f, hf, hread.file_eq⟩
  · obtain ⟨f, hf, hread⟩ := resolver_origin hr
    exact ⟨f, hf, hread.file_eq⟩
  · obtain ⟨f, hf, hpath, _⟩ := Interface.rpc_origin hm
    exact ⟨f, (List.mem_filter.mp hf).1, hpath⟩

/-- What is extracted from files is extracted from one of them alone, and conversely. -/
theorem mem_entries_extract {entry : String × RawText} :
    entry ∈ (extract engine settings files).entries ↔
      ∃ f ∈ files, entry ∈ (extract engine settings [f]).entries := by
  have hlayers : ∀ files, entry ∈ (extract engine settings files).entries ↔
      entry ∈ (screensOf settings files).entities.map (fun s => (s.id, s.file)) ∨
      entry ∈ (ApiOperation.ofFiles settings.analysis.graphql files).entities.map
        (fun op => (op.id, op.file)) ∨
      entry ∈ (resolversOf engine settings files).entities.map (fun r => (r.id, r.file)) ∨
      entry ∈ (Interface.ofFiles (filesUnder settings.protos.path files)).entities.map
        (fun m => (m.id, m.file)) := by
    intro files
    simp only [entries, List.mem_append, or_assoc]
    rfl
  simp only [hlayers]
  rw [(screensOf_fileByFile settings).mem_map_iff,
    (operations_fileByFile settings.analysis.graphql).mem_map_iff,
    (resolversOf_fileByFile engine settings).mem_map_iff,
    (rpcMethods_fileByFile settings).mem_map_iff]
  simp only [← exists_or, ← and_or_left]

/-- Files whose paths are texts have no other entities. -/
theorem writable_of_isText (h : ∀ f ∈ files, f.path.IsText) :
    (extract engine settings files).Writable := by
  rw [writable_iff_keptEntries]
  rintro ⟨x, path⟩ hentry
  obtain ⟨f, hf, rfl⟩ := exists_path_of_mem_entries ((keptEntries_sublist _).subset hentry)
  exact h f hf

end Layers

/-! ## The identifiers of a built graph -/

namespace Graph

/-- The identifiers of the nodes. -/
def nodeIds (g : Graph) : Set String := {x | x ∈ g.nodes.map (·.id)}

section Build

variable {engine : RegexEngine} {settings : Settings} {chain : MatcherChain}

theorem mem_nodeIds_build {files : List SourceFile} {x : String} :
    x ∈ (build engine settings chain files).nodeIds ↔
      (Layers.extract engine settings files).Writable ∧
        ∃ path, (x, path) ∈ (Layers.extract engine settings files).entries := by
  by_cases h : (Layers.extract engine settings files).Writable
  · rw [build_of_writable h, and_iff_right h]
    exact Layers.mem_nodeIds _ x
  · rw [build_of_not_writable h]
    exact iff_of_false List.not_mem_nil fun hboth => h hboth.1

/-- More files have more nodes, if their entities can be written down. -/
theorem nodeIds_build_subset {files more : List SourceFile} (h : files ⊆ more)
    (hmore : (Layers.extract engine settings more).Writable) :
    (build engine settings chain files).nodeIds ⊆ (build engine settings chain more).nodeIds := by
  intro x hx
  obtain ⟨_, path, hentry⟩ := mem_nodeIds_build.mp hx
  obtain ⟨f, hf, hfound⟩ := Layers.mem_entries_extract.mp hentry
  exact mem_nodeIds_build.mpr ⟨hmore, path, Layers.mem_entries_extract.mpr ⟨f, h hf, hfound⟩⟩

/-- A node of all files is a node of one of them alone: of the one that its entity was kept from,
the path of which is a text. -/
theorem exists_mem_nodeIds_build {files : List SourceFile} {x : String}
    (h : x ∈ (build engine settings chain files).nodeIds) :
    ∃ f ∈ files, x ∈ (build engine settings chain [f]).nodeIds := by
  obtain ⟨hwritable, _, hentry⟩ := mem_nodeIds_build.mp h
  obtain ⟨path, hkept⟩ := Layers.exists_mem_keptEntries hentry
  have htext : path.IsText := Layers.writable_iff_keptEntries.mp hwritable _ hkept
  obtain ⟨f, hf, hfound⟩ :=
    Layers.mem_entries_extract.mp ((Layers.keptEntries_sublist _).subset hkept)
  obtain ⟨_, hsingle, rfl⟩ := Layers.exists_path_of_mem_entries hfound
  rw [List.mem_singleton.mp hsingle] at htext hfound
  have halone : (Layers.extract engine settings [f]).Writable :=
    Layers.writable_of_isText (List.forall_mem_singleton.mpr htext)
  exact ⟨f, hf, mem_nodeIds_build.mpr ⟨halone, _, hfound⟩⟩

end Build

/-- **The nodes of a repository are the union over its files** exactly if the file of every kept
entity is a text, or no file alone has a node.  Otherwise the graph has no nodes and one warning,
and says nothing of the files that are in order.  Where all paths are texts it always is the union:
neither the order of the files nor repeating one matters, and adding a file, valid or broken,
removes no node. -/
theorem nodeIds_build (engine : RegexEngine) (settings : Settings) (chain : MatcherChain) :
    (∀ files, ((build engine settings chain files).nodeIds =
        ⋃ f ∈ files, (build engine settings chain [f]).nodeIds) ↔
      (Layers.extract engine settings files).Writable ∨
        ∀ f ∈ files, (build engine settings chain [f]).nodeIds = ∅) ∧
    (∀ files, ¬(Layers.extract engine settings files).Writable →
      build engine settings chain files = failed settings GraphNode.unwritablePath.message) ∧
    (∀ files, (∀ f ∈ files, f.path.IsText) → (Layers.extract engine settings files).Writable) ∧
    (∀ files other, (∀ f, f ∈ files ↔ f ∈ other) →
      (Layers.extract engine settings files).Writable →
      (Layers.extract engine settings other).Writable →
      (build engine settings chain files).nodeIds = (build engine settings chain other).nodeIds) ∧
    ∀ files more, files ⊆ more → (Layers.extract engine settings more).Writable →
      (build engine settings chain files).nodeIds ⊆
        (build engine settings chain more).nodeIds := by
  refine ⟨fun files => ?_, fun files h => build_of_not_writable h,
    fun files h => Layers.writable_of_isText h, ?_, fun files more h => nodeIds_build_subset h⟩
  · by_cases hwritable : (Layers.extract engine settings files).Writable
    · refine iff_of_true (Set.Subset.antisymm ?_ ?_) (.inl hwritable)
      · intro x hx
        obtain ⟨f, hf, hfound⟩ := exists_mem_nodeIds_build hx
        exact Set.mem_iUnion₂.mpr ⟨f, hf, hfound⟩
      · refine Set.iUnion₂_subset fun f hf => nodeIds_build_subset ?_ hwritable
        exact List.cons_subset.mpr ⟨hf, List.nil_subset files⟩
    · have hempty : (build engine settings chain files).nodeIds = ∅ := by
        rw [build_of_not_writable hwritable]
        exact Set.eq_empty_of_forall_notMem fun x => List.not_mem_nil
      rw [hempty, eq_comm]
      simp only [Set.iUnion_eq_empty]
      exact ⟨.inr, fun h => h.resolve_left hwritable⟩
  · intro files other hsame hfiles hother
    exact Set.Subset.antisymm (nodeIds_build_subset (fun f => (hsame f).mp) hother)
      (nodeIds_build_subset (fun f => (hsame f).mpr) hfiles)

theorem nodeIds_build_shop :
    (∀ f ∈ shopFiles, f.path.IsText) ∧ shopFiles ⊆ shopFiles.reverse ∧
      (build .roomy shopSettings .standard shopFiles).nodeIds =
        (build .roomy shopSettings .standard shopFiles.reverse).nodeIds ∧
      (build .roomy shopSettings .standard shopFiles).nodeIds =
        ⋃ f ∈ shopFiles, (build .roomy shopSettings .standard [f]).nodeIds ∧
      "grpc:CartService.Load" ∈ (build .roomy shopSettings .standard shopFiles).nodeIds := by
  obtain ⟨hunion, _, hwritable, hsame, _⟩ := nodeIds_build .roomy shopSettings .standard
  have htexts : ∀ f ∈ shopFiles, f.path.IsText := by decide +kernel
  have hreverse : ∀ f, f ∈ shopFiles ↔ f ∈ shopFiles.reverse := fun f => List.mem_reverse.symm
  have hfiles := hwritable shopFiles htexts
  have hother := hwritable shopFiles.reverse fun f hf => htexts f ((hreverse f).mpr hf)
  refine ⟨htexts, fun f => (hreverse f).mp, hsame _ _ hreverse hfiles hother,
    (hunion shopFiles).mpr (.inl hfiles), ?_⟩
  show "grpc:CartService.Load" ∈ (build .roomy shopSettings .standard shopFiles).nodes.map (·.id)
  decide +kernel

open Syntax in
/-- A page, and a resolver in a directory whose name is no text. -/
def strayFiles : List SourceFile :=
  [⟨"web/app/cart/page.tsx", "", .script, some []⟩,
   ⟨.joined ["bff", ⟨[0xff]⟩, "cart.resolver.ts"], "", .script,
      some [.classNode (some "CartResolver") [.mk "Resolver" []]
        [.method "cart" [.mk "Query" []] []]]⟩]

/-- **A file can remove all nodes**: the page has a node by itself, and with the resolver there is
none, and one warning. -/
theorem nodeIds_build_stray :
    (strayFiles.take 1) ⊆ strayFiles ∧
      (build .roomy shopSettings .standard (strayFiles.take 1)).nodes.map (·.id) =
        ["screen:/cart"] ∧
      (build .roomy shopSettings .standard strayFiles).nodes = [] ∧
      (build .roomy shopSettings .standard strayFiles).about.warnings =
        ["Analysis failed: " ++ GraphNode.unwritablePath.message] := by
  exact ⟨List.take_subset 1 strayFiles, by decide +kernel, by decide +kernel, by decide +kernel⟩

end Graph

end ApiAtlas
