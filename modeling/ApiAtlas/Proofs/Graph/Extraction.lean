import ApiAtlas.Proofs.Identifier
import ApiAtlas.Proofs.Layer
set_option autoImplicit false

/-!
# Extraction: where entities come from and how they are named

Each layer is put together from single files.  The statements here trace an entity back to the file
it was read from, and show that whatever is read, from trees, documents, texts or interface
definitions, is named like its layer.
-/

namespace ApiAtlas

/-! ## Screens -/

namespace Screen

theorem ofFile?_eq_some {project : Project} {file : SourceFile} {s : Screen}
    (h : ofFile? project file = some s) :
    ∃ style route, s = ofRoute project file style route := by
  simp only [ofFile?] at h
  split at h
  · next route _ => exact ⟨.app, route, (Option.some.inj h).symm⟩
  · obtain ⟨route, _, hs⟩ := Option.map_eq_some_iff.mp h
    exact ⟨.pages, route, hs.symm⟩

end Screen

namespace Layers

theorem mem_screensOf {settings : Settings} {files : List SourceFile} {s : Screen} :
    s ∈ (screensOf settings files).entities ↔
      ∃ p ∈ settings.projects, p.2.kind = .frontEnd ∧
        ∃ f ∈ filesUnder p.2.path files, Screen.ofFile? p.2 f = some s := by
  simp only [screensOf, Layer.join_entities, List.mem_flatMap, List.mem_map, List.mem_filter,
    beq_iff_eq]
  constructor
  · rintro ⟨_, ⟨p, ⟨hp, hkind⟩, rfl⟩, hs⟩
    exact ⟨p, hp, hkind, List.mem_filterMap.mp hs⟩
  · rintro ⟨p, hp, hkind, hs⟩
    exact ⟨_, ⟨p, ⟨hp, hkind⟩, rfl⟩, List.mem_filterMap.mpr hs⟩

/-- A screen is read from one of the files and named by its route. -/
theorem screen_origin {settings : Settings} {files : List SourceFile} {s : Screen}
    (h : s ∈ (screensOf settings files).entities) :
    ∃ f ∈ files, s.file = f.path ∧ s.id = Identifier.screen s.space s.route := by
  obtain ⟨p, _, _, f, hf, hs⟩ := mem_screensOf.mp h
  obtain ⟨style, route, rfl⟩ := Screen.ofFile?_eq_some hs
  exact ⟨f, (List.mem_filter.mp hf).1, rfl, rfl⟩

end Layers

/-! ## Operations -/

namespace ApiOperation

/-- The operation comes from the file and is named by its kind and field. -/
structure ReadFrom (file : RawText) (op : ApiOperation) : Prop where
  file_eq : op.file = file
  id_eq : op.id = Identifier.operation op.kind op.field

theorem ofDefinition?_readFrom {file : RawText} {source : String} {d : Document.Operation}
    {op : ApiOperation} (h : ofDefinition? file source d = some op) : op.ReadFrom file := by
  simp only [ofDefinition?, Option.bind_eq_bind, Option.bind_eq_some_iff] at h
  obtain ⟨field, _, h⟩ := h
  split at h
  · exact absurd h (by simp)
  · simp only [Option.pure_def, Option.some.injEq] at h
    subst h
    exact ⟨rfl, rfl⟩

theorem ofSlice_readFrom {file : RawText} {source : String} {d : List Char}
    {ops : List ApiOperation} (h : ofSlice file source d = .ok ops) :
    ∀ op ∈ ops, op.ReadFrom file := by
  intro op hop
  simp only [ofSlice] at h
  split at h
  · cases hparse : Document.parse (d ++ fragmentCompanion.toList) with
    | error fault => rw [hparse] at h; cases h
    | ok found =>
        rw [hparse] at h
        cases h
        exact absurd hop List.not_mem_nil
  · split at h
    · cases h
      exact absurd hop List.not_mem_nil
    · cases hparse : Document.parse d with
      | error fault => rw [hparse] at h; cases h
      | ok found =>
          rw [hparse] at h
          cases h
          obtain ⟨_, _, hd⟩ := List.mem_filterMap.mp hop
          exact ofDefinition?_readFrom hd

theorem ofSlices_readFrom {file : RawText} {source : String} {ds : List (List Char)}
    {ops : List ApiOperation} (h : ofSlices file source ds = .ok ops) :
    ∀ op ∈ ops, op.ReadFrom file := by
  induction ds generalizing ops with
  | nil =>
      cases h
      intro op hop
      exact absurd hop List.not_mem_nil
  | cons d rest ih =>
      simp only [ofSlices] at h
      cases hd : ofSlice file source d with
      | error fault => rw [hd] at h; cases h
      | ok first =>
          cases hrest : ofSlices file source rest with
          | error fault => rw [hd, hrest] at h; cases h
          | ok more =>
              rw [hd, hrest] at h
              cases h
              intro op hop
              rcases List.mem_append.mp hop with hop | hop
              · exact ofSlice_readFrom hd op hop
              · exact ih hrest op hop

theorem ofDocument_readFrom {file : SourceFile} {ops : List ApiOperation}
    (h : ofDocument file = .ok ops) : ∀ op ∈ ops, op.ReadFrom file.path := by
  simp only [ofDocument] at h
  split at h
  · next found hfound =>
    cases h
    exact ofSlices_readFrom hfound
  · cases h

theorem embedded?_readFrom {file : RawText} {text : String} {op : ApiOperation}
    (h : embedded? file text = some op) : op.ReadFrom file := by
  unfold embedded? at h
  split at h
  · exact ofDefinition?_readFrom h
  · exact absurd h (by simp)

/-- What a visit contributes is named like an operation, be it an operation or a reference. -/
theorem findings_names {settings : GraphqlSettings} {file : RawText} {v : Syntax.Visit}
    {f : Finding} (h : f ∈ findings settings file v) :
    NodeKind.operation.Names f.id ∧ ∀ op, f = .operation op → op.ReadFrom file := by
  have ofOp : ∀ op : ApiOperation, op.ReadFrom file → f = .operation op →
      NodeKind.operation.Names f.id ∧ ∀ op, f = .operation op → op.ReadFrom file := by
    rintro op hop rfl
    refine ⟨?_, fun other hother => Finding.operation.inj hother ▸ hop⟩
    rw [Finding.id, hop.id_eq]
    exact Identifier.operation_names _ _
  cases v with
  | template tag quasis expressions =>
      cases htag : tag.identifier? with
      | none => simp [findings, htag] at h
      | some name =>
          simp only [findings, htag, List.mem_ite_nil_right] at h
          obtain ⟨op, hop, rfl⟩ := Option.map_eq_some_iff.mp (Option.mem_toList.mp h.2)
          exact ofOp op (embedded?_readFrom hop) rfl
  | call callee args =>
      simp only [findings] at h
      split at h
      · split at h
        · exact ofOp (ofHook file _ _) ⟨rfl, rfl⟩ (List.mem_singleton.mp h)
        · exact absurd h List.not_mem_nil
      · exact absurd h List.not_mem_nil
  | importing source specifiers =>
      simp only [findings] at h
      split at h
      · obtain ⟨id, hid, rfl⟩ := List.mem_map.mp h
        obtain ⟨specifier, _, hspecifier⟩ := List.mem_filterMap.mp hid
        refine ⟨?_, fun op hop => Finding.noConfusion hop⟩
        cases specifier with
        | default bound => exact Option.some.inj hspecifier ▸ Identifier.operation_names _ _
        | named imported bound => exact Option.some.inj hspecifier ▸ Identifier.operation_names _ _
        | all bound => exact absurd hspecifier (by simp [ofSpecifier?])
      · exact absurd h List.not_mem_nil
  | classNode | method | decorator | member => exact absurd h List.not_mem_nil

theorem mem_allFindings {settings : GraphqlSettings} {file : SourceFile} {f : Finding} :
    f ∈ allFindings settings file ↔
      ∃ program, file.tree = some program ∧
        ∃ v ∈ Syntax.Program.visits program, f ∈ findings settings file.path v := by
  cases htree : file.tree with
  | none => simp [allFindings, htree]
  | some program => simp [allFindings, htree]

theorem mem_ofScript {settings : GraphqlSettings} {file : SourceFile} {op : ApiOperation} :
    op ∈ ofScript settings file ↔ Finding.operation op ∈ allFindings settings file := by
  simp only [ofScript, List.mem_filterMap]
  constructor
  · rintro ⟨f, hf, hop⟩
    cases f with
    | operation found => exact Option.some.inj hop ▸ hf
    | reference id => exact absurd hop (by simp)
  · intro h
    exact ⟨_, h, rfl⟩

theorem ofScript_readFrom {settings : GraphqlSettings} {file : SourceFile}
    {op : ApiOperation} (h : op ∈ ofScript settings file) : op.ReadFrom file.path := by
  obtain ⟨_, _, _, _, hfound⟩ := mem_allFindings.mp (mem_ofScript.mp h)
  exact (findings_names hfound).2 op rfl

/-- What a file depends on is named like an operation. -/
theorem dependencies_names {settings : GraphqlSettings} {file : SourceFile} {id : String}
    (h : id ∈ dependencies settings file) : NodeKind.operation.Names id := by
  obtain ⟨f, hf, rfl⟩ := List.mem_map.mp (Text.mem_distinct.mp h)
  obtain ⟨_, _, _, _, hfound⟩ := mem_allFindings.mp hf
  exact (findings_names hfound).1

/-- Every operation of the files is found in a document or in a script. -/
theorem mem_ofFiles {settings : GraphqlSettings} {files : List SourceFile} {op : ApiOperation} :
    op ∈ (ofFiles settings files).entities ↔
      ∃ f ∈ files, (f.kind = .document ∧ op ∈ Layer.resultEntities (ofDocument f)) ∨
        (f.kind = .script ∧ op ∈ ofScript settings f) := by
  simp only [ofFiles, Layer.collect_entities, List.mem_flatMap, List.mem_filterMap]
  constructor
  · rintro ⟨result, ⟨f, hf, hresult⟩, hop⟩
    refine ⟨f, hf, ?_⟩
    split at hresult
    · next hkind => exact .inl ⟨hkind, Option.some.inj hresult ▸ hop⟩
    · next hkind =>
      rw [← Option.some.inj hresult] at hop
      exact .inr ⟨hkind, hop⟩
    · exact absurd hresult (by simp)
  · rintro ⟨f, hf, ⟨hkind, hop⟩ | ⟨hkind, hop⟩⟩
    · exact ⟨ofDocument f, ⟨f, hf, by rw [hkind]⟩, hop⟩
    · exact ⟨.ok (ofScript settings f), ⟨f, hf, by rw [hkind]⟩, hop⟩

/-- An operation is read from one of the files. -/
theorem exists_readFrom {settings : GraphqlSettings} {files : List SourceFile}
    {op : ApiOperation} (h : op ∈ (ofFiles settings files).entities) :
    ∃ f ∈ files, op.ReadFrom f.path := by
  obtain ⟨f, hf, ⟨_, hop⟩ | ⟨_, hop⟩⟩ := mem_ofFiles.mp h
  · refine ⟨f, hf, ?_⟩
    cases hdoc : ofDocument f with
    | error warning =>
        rw [hdoc] at hop
        exact absurd hop List.not_mem_nil
    | ok ops =>
        rw [hdoc] at hop
        exact ofDocument_readFrom hdoc op hop
  · exact ⟨f, hf, ofScript_readFrom hop⟩

end ApiOperation

/-! ## Resolvers -/

namespace Resolver

/-- The resolver comes from the file and is named by its class and method. -/
structure ReadFrom (file : RawText) (r : Resolver) : Prop where
  file_eq : r.file = file
  id_eq : r.id = Identifier.resolver r.owner r.method

/-- What is read from a tree: a method with the calls of its body. -/
theorem eq_of_mem_ofProgram {settings : ResolverSettings} {file : RawText}
    {program : Syntax.Program} {r : Resolver} (h : r ∈ ofProgram settings file program) :
    ∃ owner method kind exposed body, r = ⟨Identifier.resolver owner method, owner, method, kind,
      exposed, file, callsOf settings body⟩ := by
  obtain ⟨v, _, hv⟩ := List.mem_flatMap.mp h
  unfold ofVisit at hv
  split at hv
  · obtain ⟨_, hv⟩ := List.mem_ite_nil_right.mp hv
    obtain ⟨member, _, hmember⟩ := List.mem_filterMap.mp hv
    unfold ofMember? at hmember
    split at hmember
    · simp only [ofMethod?, Option.bind_eq_bind, Option.bind_eq_some_iff, Option.pure_def,
        Option.some.injEq] at hmember
      obtain ⟨marking, _, rfl⟩ := hmember
      exact ⟨_, _, marking.1, _, _, rfl⟩
    · exact absurd hmember (by simp)
  · exact absurd hv List.not_mem_nil

/-- What is read from a text: a method without calls. -/
theorem eq_of_mem_textual {markers : Markers} {file : RawText} {text : List Char}
    {r : Resolver} (h : r ∈ Textual.resolvers markers file text) :
    ∃ owner method kind exposed,
      r = ⟨Identifier.resolver owner method, owner, method, kind, exposed, file, []⟩ := by
  obtain ⟨c, _, hc⟩ := List.mem_flatMap.mp h
  obtain ⟨m, _, hm⟩ := List.mem_filterMap.mp hc
  simp only [Textual.resolver?, Option.bind_eq_bind, Option.bind_eq_some_iff, Option.pure_def,
    Option.some.injEq] at hm
  obtain ⟨kind, _, rfl⟩ := hm
  exact ⟨_, _, kind, _, rfl⟩

/-- A resolver is read from one of the files. -/
theorem exists_readFrom {settings : ResolverSettings} {files : List SourceFile} {r : Resolver}
    (h : r ∈ (ofFiles settings files).entities) : ∃ f ∈ files, r.ReadFrom f.path := by
  obtain ⟨f, hf, hr⟩ := List.mem_flatMap.mp h
  refine ⟨f, (List.mem_filter.mp hf).1, ?_⟩
  unfold ofFile at hr
  split at hr
  · obtain ⟨_, _, _, _, _, rfl⟩ := eq_of_mem_ofProgram hr
    exact ⟨rfl, rfl⟩
  · obtain ⟨_, _, _, _, rfl⟩ := eq_of_mem_textual hr
    exact ⟨rfl, rfl⟩

end Resolver

/-- The engine takes both patterns for texts. -/
def Resolver.Compiles (engine : RegexEngine) (settings : ResolverSettings) : Prop :=
  engine.admits (Textual.classPattern settings.markers) = true ∧
    engine.admits (Textual.methodPattern settings.markers) = true

instance (engine : RegexEngine) (settings : ResolverSettings) :
    Decidable (Resolver.Compiles engine settings) :=
  inferInstanceAs (Decidable (_ ∧ _))

/-- What a project contributes to the resolvers: all of its scripts, or none. -/
theorem Layers.mem_ofProject_extract {engine : RegexEngine} {settings : ResolverSettings}
    {files : List SourceFile} {what name : String} {r : Resolver} :
    r ∈ (ofProject what name (.ok (Resolver.extract engine settings files))).entities ↔
      Resolver.Compiles engine settings ∧ r ∈ (Resolver.ofFiles settings files).entities := by
  by_cases h : Resolver.Compiles engine settings
  · have hextract : Resolver.extract engine settings files =
        .ok (Resolver.ofFiles settings files) := if_pos (Bool.and_eq_true_iff.mpr h)
    rw [hextract]
    exact (and_iff_right h).symm
  · have hextract : Resolver.extract engine settings files =
        .error (.failed "resolver" RegexEngine.refusal) :=
      if_neg fun hboth => h (Bool.and_eq_true_iff.mp hboth)
    rw [hextract]
    exact ⟨fun hr => absurd hr List.not_mem_nil, fun hr => absurd hr.1 h⟩

theorem Layers.mem_resolversOf {engine : RegexEngine} {settings : Settings}
    {files : List SourceFile} {r : Resolver} :
    r ∈ (resolversOf engine settings files).entities ↔
      Resolver.Compiles engine settings.analysis.resolvers ∧
        ∃ p ∈ settings.projects, p.2.kind = .backEnd ∧
          r ∈ (Resolver.ofFiles settings.analysis.resolvers
            (filesUnder p.2.path files)).entities := by
  simp only [resolversOf, Layer.join_entities, List.mem_flatMap, List.mem_map, List.mem_filter,
    beq_iff_eq]
  constructor
  · rintro ⟨_, ⟨p, ⟨hp, hkind⟩, rfl⟩, hr⟩
    obtain ⟨hcompiles, hfound⟩ := mem_ofProject_extract.mp hr
    exact ⟨hcompiles, p, hp, hkind, hfound⟩
  · rintro ⟨hcompiles, p, hp, hkind, hr⟩
    exact ⟨_, ⟨p, ⟨hp, hkind⟩, rfl⟩, mem_ofProject_extract.mpr ⟨hcompiles, hr⟩⟩

theorem Layers.resolver_origin {engine : RegexEngine} {settings : Settings}
    {files : List SourceFile} {r : Resolver}
    (h : r ∈ (resolversOf engine settings files).entities) :
    ∃ f ∈ files, r.ReadFrom f.path := by
  obtain ⟨_, p, _, _, hr⟩ := mem_resolversOf.mp h
  obtain ⟨f, hf, hread⟩ := Resolver.exists_readFrom hr
  exact ⟨f, (List.mem_filter.mp hf).1, hread⟩

/-! ## gRPC methods -/

namespace Interface

theorem mem_ofFiles {files : List SourceFile} {m : RpcMethod} :
    m ∈ (ofFiles files).entities ↔
      ∃ f ∈ files, f.kind = .interfaceDefinition ∧ m ∈ (read f).entities := by
  simp only [ofFiles, Layer.foldl_append_entities, List.nil_append, List.mem_flatMap,
    List.mem_map, List.mem_filter, beq_iff_eq]
  constructor
  · rintro ⟨_, ⟨f, ⟨hf, hkind⟩, rfl⟩, hm⟩
    exact ⟨f, hf, hkind, hm⟩
  · rintro ⟨f, hf, hkind, hm⟩
    exact ⟨_, ⟨f, ⟨hf, hkind⟩, rfl⟩, hm⟩

/-- A method is read from one of the files and named by its service. -/
theorem rpc_origin {files : List SourceFile} {m : RpcMethod} (h : m ∈ (ofFiles files).entities) :
    ∃ f ∈ files, m.file = f.path ∧ m.id = Identifier.rpc m.service m.name := by
  obtain ⟨f, hf, _, hm⟩ := mem_ofFiles.mp h
  obtain ⟨s, _, hs⟩ := List.mem_flatMap.mp hm
  obtain ⟨signature, _, rfl⟩ := List.mem_map.mp hs
  exact ⟨f, hf, rfl, rfl⟩

end Interface

end ApiAtlas
