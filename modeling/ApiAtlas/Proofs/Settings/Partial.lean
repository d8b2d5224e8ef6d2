import ApiAtlas.Proofs.Json.Pruning
import ApiAtlas.Proofs.Settings.Codec
set_option autoImplicit false

/-!
# Settings from a part of their JSON

Settings are read over their defaults.  Whatever members of sections and projects are taken out of
written settings, the settings that are read have the default of each field whose member is gone and
keep all others; only the kind and the place of a project have no default, and a project that stays
without one of them is refused.
-/

namespace ApiAtlas

open Json (Record Decoder Pruning Draft Origin)
open Json.Decoder
open Json.Record (Sets)

/-- The dictionary with `f` applied to every entry. -/
def Dict.mapEntries {α β : Type} (f : String → α → β) (d : Dict α) : Dict β :=
  ⟨d.entries.map fun e => (e.1, f e.1 e.2), by simpa [List.pairwise_map] using d.sorted⟩

/-! ## Defaults for what is gone -/

/-- The project with the default for each field that is gone; its kind and place have none. -/
def Project.reset (gone : Pruning) (p : Project) : Project where
  kind := p.kind
  path := p.path
  space := gone.keep "namespace" none p.space
  routing := gone.keep "routing" .both p.routing
  basePath := gone.keep "basePath" none p.basePath
  locales := gone.keep "locales" [] p.locales

/-- The projects with the defaults for what is gone inside them. -/
def Project.resetAll (gone : Pruning) (projects : Dict Project) : Dict Project :=
  projects.mapEntries fun name p => p.reset (gone.below name)

/-- The place of interface definitions with its default if it is gone. -/
def InterfaceSettings.reset (gone : Pruning) (s : InterfaceSettings) : InterfaceSettings where
  path := gone.keep "path" ({} : InterfaceSettings).path s.path

/-- The GraphQL settings with the defaults for what is gone. -/
def GraphqlSettings.reset (gone : Pruning) (s : GraphqlSettings) : GraphqlSettings where
  tagNames := gone.keep "tagNames" ({} : GraphqlSettings).tagNames s.tagNames
  documentExtensions :=
    gone.keep "documentExtensions" ({} : GraphqlSettings).documentExtensions s.documentExtensions

/-- The markers with the defaults for what is gone. -/
def Markers.reset (gone : Pruning) (s : Markers) : Markers where
  resolver := gone.keep "resolver" ({} : Markers).resolver s.resolver
  query := gone.keep "query" ({} : Markers).query s.query
  mutation := gone.keep "mutation" ({} : Markers).mutation s.mutation
  resolveField := gone.keep "resolveField" ({} : Markers).resolveField s.resolveField

/-- The resolver settings with the defaults for what is gone. -/
def ResolverSettings.reset (gone : Pruning) (s : ResolverSettings) : ResolverSettings where
  markers := gone.keep "decorators" {} (s.markers.reset (gone.below "decorators"))
  callHints := gone.keep "callHints" ({} : ResolverSettings).callHints s.callHints
  serviceLookup := gone.keep "serviceLookup" ({} : ResolverSettings).serviceLookup s.serviceLookup

/-- The analysis settings with the defaults for what is gone. -/
def AnalysisSettings.reset (gone : Pruning) (s : AnalysisSettings) : AnalysisSettings where
  includePatterns :=
    gone.keep "includePatterns" ({} : AnalysisSettings).includePatterns s.includePatterns
  excludePatterns :=
    gone.keep "excludePatterns" ({} : AnalysisSettings).excludePatterns s.excludePatterns
  maxFileSize := gone.keep "maxFileSize" ({} : AnalysisSettings).maxFileSize s.maxFileSize
  graphql := gone.keep "graphql" {} (s.graphql.reset (gone.below "graphql"))
  resolvers := gone.keep "nestjs" {} (s.resolvers.reset (gone.below "nestjs"))

/-- The output settings with the defaults for what is gone. -/
def OutputSettings.reset (gone : Pruning) (s : OutputSettings) : OutputSettings where
  anonymize := gone.keep "anonymize" ({} : OutputSettings).anonymize s.anonymize

/-- The settings with the default for each field that is gone, and for all of a section that is
gone. -/
def Settings.reset (gone : Pruning) (s : Settings) : Settings where
  rootDir := gone.keep "rootDir" ({} : Settings).rootDir s.rootDir
  apps := gone.keep "apps" .empty (Project.resetAll (gone.below "apps") s.apps)
  packages := gone.keep "packages" .empty (Project.resetAll (gone.below "packages") s.packages)
  protos := gone.keep "protos" {} (s.protos.reset (gone.below "protos"))
  analysis := gone.keep "analysis" {} (s.analysis.reset (gone.below "analysis"))
  output := gone.keep "output" {} (s.output.reset (gone.below "output"))

/-! ## Sections -/

section Sections

variable (gone : Pruning) (origin : Origin)

theorem InterfaceSettings.decode_prune (s : InterfaceSettings) :
    InterfaceSettings.record.decode origin (Draft.ofJson (s.toJson.prune gone)) =
      .ok (s.reset gone) := by
  refine Sets.decode_of_free ?_ (by decide) rfl
  exact .kept (fun _ => rfl) rfl <| .nil _

theorem GraphqlSettings.decode_prune (s : GraphqlSettings) :
    GraphqlSettings.record.decode origin (Draft.ofJson (s.toJson.prune gone)) =
      .ok (s.reset gone) := by
  refine Sets.decode_of_free ?_ (by decide) rfl
  exact .kept (fun _ => (texts_restores _).decodes origin) rfl <|
    .kept (fun _ => (texts_restores _).decodes origin) rfl <| .nil _

theorem Markers.decode_prune (s : Markers) :
    Markers.record.decode origin (Draft.ofJson (s.toJson.prune gone)) = .ok (s.reset gone) := by
  refine Sets.decode_of_free ?_ (by decide) rfl
  exact .kept (fun _ => (texts_restores _).decodes origin) rfl <|
    .kept (fun _ => (texts_restores _).decodes origin) rfl <|
    .kept (fun _ => (texts_restores _).decodes origin) rfl <|
    .kept (fun _ => (texts_restores _).decodes origin) rfl <| .nil _

theorem ResolverSettings.decode_prune (s : ResolverSettings) :
    ResolverSettings.record.decode origin (Draft.ofJson (s.toJson.prune gone)) =
      .ok (s.reset gone) := by
  refine Sets.decode_of_free ?_ (by decide) rfl
  exact .kept (fun _ => s.markers.decode_prune _ origin) rfl <|
    .kept (fun _ => (texts_restores _).decodes origin) rfl <|
    .kept (fun _ => rfl) rfl <| .nil _

theorem AnalysisSettings.decode_prune {s : AnalysisSettings}
    (h : s.maxFileSize < 0x10000000000000000) :
    AnalysisSettings.record.decode origin (Draft.ofJson (s.toJson.prune gone)) =
      .ok (s.reset gone) := by
  refine Sets.decode_of_free ?_ (by decide) rfl
  exact .kept (fun _ => (texts_restores _).decodes origin) rfl <|
    .kept (fun _ => (texts_restores _).decodes origin) rfl <|
    .kept (fun _ => (nat64_restores h).decodes origin) rfl <|
    .kept (fun _ => s.graphql.decode_prune _ origin) rfl <|
    .kept (fun _ => s.resolvers.decode_prune _ origin) rfl <| .nil _

theorem OutputSettings.decode_prune (s : OutputSettings) :
    OutputSettings.record.decode origin (Draft.ofJson (s.toJson.prune gone)) =
      .ok (s.reset gone) := by
  refine Sets.decode_of_free ?_ (by decide) rfl
  exact .kept (fun _ => rfl) rfl <| .nil _

end Sections

/-! ## Projects -/

/-- A text that may be absent is left out when it is, as if it were gone. -/
theorem Json.Record.Sets.keptOptional {σ : Type} {gone : Pruning} {origin : Origin} {key : String}
    {update : σ → Option String → σ} {fields : List (Json.Field σ)} {s : σ} {value : Option String}
    {members : List (String × Json)} {result : Except Json.Fault σ} (hnone : update s none = s)
    (hrest : Sets origin fields (update s (gone.keep key none value))
      (Json.pruneMembers gone members) result) :
    Sets origin (Json.Field.of key .defaulted (.optional .text) update :: fields) s
      (Json.pruneMembers gone (Json.memberOf key (value.map .text) ++ members)) result := by
  cases value with
  | none =>
      rw [Pruning.keep, ite_self, hnone] at hrest
      exact .absent hrest
  | some t => exact .kept (fun _ => rfl) hnone hrest

namespace Project

/-- The members of a project that have no default. -/
def requiredKeys : List String := ["type", "path"]

/-- An empty list of locales is left out, as if it were gone. -/
theorem sets_locales (gone : Pruning) (origin : Origin) (locales : List String) {s : Project}
    (hs : s.locales = []) :
    Sets origin
      [Json.Field.of "locales" .defaulted (.list .text)
        fun (s : Project) locales => { s with locales }]
      s (Json.pruneMembers gone
        (if locales.isEmpty then [] else [("locales", Json.texts locales)]))
      (.ok { s with locales := gone.keep "locales" [] locales }) := by
  have hnone : { s with locales := [] } = s := by rw [← hs]
  cases locales with
  | nil =>
      rw [Pruning.keep, ite_self, hnone]
      exact .absent (.nil s)
  | cons l locales => exact .kept (fun _ => (texts_restores _).decodes origin) hnone (.nil _)

/-- The members that stay set all fields but the kind and the place, if these are gone. -/
theorem sets_prune (gone : Pruning) (origin : Origin) (p : Project) :
    ∃ members, p.toJson = .object members ∧
      (∀ key ∈ requiredKeys, key ∈ members.map Prod.fst) ∧
      Sets origin record.fields record.start (Json.pruneMembers gone members)
        (.ok { p.reset gone with
          kind := gone.keep "type" .frontEnd p.kind
          path := gone.keep "path" "" p.path }) := by
  refine ⟨_, p.toJson_eq, by simp [requiredKeys], ?_⟩
  exact .kept (fun _ => p.kind.restores.decodes origin) rfl <| .kept (fun _ => rfl) rfl <|
    .keptOptional rfl <| .kept (fun _ => p.routing.restores.decodes origin) rfl <|
    .keptOptional rfl <| sets_locales gone origin p.locales rfl

/-- What a project lacks are the members without a default that are gone. -/
theorem lacks_prune_iff {gone : Pruning} {members : List (String × Json)}
    (hmembers : ∀ key ∈ requiredKeys, key ∈ members.map Prod.fst) {f : Json.Field Project}
    (hf : f ∈ record.fields) :
    Record.Lacks (Json.pruneMembers gone members) f ↔
      f.key ∈ requiredKeys ∧ gone [f.key] = true := by
  have hrequired : f.presence = .required ↔ f.key ∈ requiredKeys := by
    simp only [record, List.mem_cons, List.not_mem_nil, or_false] at hf
    rcases hf with rfl | rfl | rfl | rfl | rfl | rfl <;> simp [Json.Field.of, requiredKeys]
  rw [Record.Lacks, hrequired, Json.mem_keys_pruneMembers]
  refine and_congr_right fun hkey => ?_
  simp [hmembers f.key hkey]

/-- A project that keeps its kind and its place is read over the defaults. -/
theorem decode_prune (gone : Pruning) (origin : Origin) (p : Project)
    (h : ∀ key ∈ requiredKeys, gone [key] = false) :
    record.decode origin (Draft.ofJson (p.toJson.prune gone)) = .ok (p.reset gone) := by
  obtain ⟨members, hmembers, hkeys, hsets⟩ := p.sets_prune gone origin
  have hkind : gone ["type"] = false := h "type" (by decide)
  have hpath : gone ["path"] = false := h "path" (by decide)
  rw [Pruning.keep, Pruning.keep, if_neg (by simp [hkind]), if_neg (by simp [hpath])] at hsets
  rw [hmembers]
  refine hsets.decode (by decide) fun f hf hlacks => ?_
  obtain ⟨hkey, hgone⟩ := (lacks_prune_iff hkeys hf).mp hlacks
  exact Bool.false_ne_true ((h f.key hkey).symm.trans hgone)

/-- A project that has lost its kind or its place is refused. -/
theorem decode_prune_lacks (gone : Pruning) (origin : Origin) (p : Project)
    (h : ∃ key ∈ requiredKeys, gone [key] = true) :
    ∃ key ∈ requiredKeys, gone [key] = true ∧
      record.decode origin (Draft.ofJson (p.toJson.prune gone)) =
        .error (.mismatch (.missingField key)) := by
  obtain ⟨members, hmembers, hkeys, hsets⟩ := p.sets_prune gone origin
  have hfields : ∀ key ∈ requiredKeys, ∃ f ∈ record.fields, f.key = key := by
    simp [requiredKeys, record, Json.Field.of]
  have hlacks : ∃ f ∈ record.fields, Record.Lacks (Json.pruneMembers gone members) f := by
    obtain ⟨key, hkey, hgone⟩ := h
    obtain ⟨f, hf, rfl⟩ := hfields key hkey
    exact ⟨f, hf, (lacks_prune_iff hkeys hf).mpr ⟨hkey, hgone⟩⟩
  obtain ⟨f, hf, hlack, hdecode⟩ := hsets.decode_lacks (by decide) hlacks
  obtain ⟨hkey, hgone⟩ := (lacks_prune_iff hkeys hf).mp hlack
  refine ⟨f.key, hkey, hgone, ?_⟩
  rw [hmembers]
  exact hdecode

/-! ## Dictionaries of projects -/

/-- Projects whose names stay are pruned one by one. -/
theorem prune_toJson {gone : Pruning} (hnames : ∀ name, gone [name] = false)
    (projects : Dict Project) :
    (projects.toJson toJson).prune gone =
      .object (projects.entries.map fun e => (e.1, e.2.toJson.prune (gone.below e.1))) := by
  rw [Dict.toJson, Json.prune, Json.pruneMembers_of_all_kept hnames, Dict.map, List.map_map]
  rfl

theorem decodeAll_prune (gone : Pruning) (origin : Origin) {projects : Dict Project}
    (hnames : ∀ name, gone [name] = false)
    (h : ∀ e ∈ projects.entries, ∀ key ∈ requiredKeys, gone [e.1, key] = false) :
    dict record.decode origin (Draft.ofJson ((projects.toJson toJson).prune gone)) =
      .ok (resetAll gone projects) := by
  rw [prune_toJson hnames]
  refine dict_decodes ?_
  rw [resetAll, Dict.mapEntries, List.forall₂_map_left_iff, List.forall₂_map_right_iff,
    List.forall₂_same]
  exact fun e he => ⟨rfl, e.2.decode_prune (gone.below e.1) origin (h e he)⟩

theorem decodeAll_prune_lacks (gone : Pruning) (origin : Origin) {projects : Dict Project}
    (hnames : ∀ name, gone [name] = false)
    (h : ∃ e ∈ projects.entries, ∃ key ∈ requiredKeys, gone [e.1, key] = true) :
    ∃ e ∈ projects.entries, ∃ key ∈ requiredKeys, gone [e.1, key] = true ∧
      dict record.decode origin (Draft.ofJson ((projects.toJson toJson).prune gone)) =
        .error (.mismatch (.missingField key)) := by
  rw [prune_toJson hnames]
  have hfail : ∃ m ∈ projects.entries.map fun e => (e.1, e.2.toJson.prune (gone.below e.1)),
      ∃ fault, record.decode origin (Draft.ofJson m.2) = .error fault := by
    obtain ⟨e, he, hlost⟩ := h
    obtain ⟨key, -, -, hdecode⟩ := e.2.decode_prune_lacks (gone.below e.1) origin hlost
    exact ⟨_, List.mem_map_of_mem he, _, hdecode⟩
  obtain ⟨m, hm, fault, hfault, hdict⟩ := dict_refuses hfail
  obtain ⟨e, he, rfl⟩ := List.mem_map.mp hm
  have hlost : ∃ key ∈ requiredKeys, gone.below e.1 [key] = true := by
    by_contra hkept
    have hdecode := e.2.decode_prune (gone.below e.1) origin fun key hkey => by
      rw [← Bool.not_eq_true]
      exact fun hgone => hkept ⟨key, hkey, hgone⟩
    exact absurd (hfault.symm.trans hdecode) (by simp)
  obtain ⟨key, hkey, hgone, hdecode⟩ := e.2.decode_prune_lacks (gone.below e.1) origin hlost
  obtain rfl := Except.error.inj (hfault.symm.trans hdecode)
  exact ⟨e, he, key, hkey, hgone, hdict⟩

end Project

/-! ## All settings -/

namespace Settings

/-- The groups of projects under their keys. -/
def groups (s : Settings) : List (String × Dict Project) :=
  [("apps", s.apps), ("packages", s.packages)]

/-- A project that stays in a group that stays has lost this member, which has no default. -/
def Loses (gone : Pruning) (s : Settings) (key : String) : Prop :=
  key ∈ Project.requiredKeys ∧ ∃ group ∈ s.groups, gone [group.1] = false ∧
    ∃ e ∈ group.2.entries, gone [group.1, e.1, key] = true

/-- The names of projects are no fields and stay. -/
def KeepsNames (gone : Pruning) : Prop :=
  ∀ name, gone ["apps", name] = false ∧ gone ["packages", name] = false

variable {gone : Pruning} {s : Settings}

/-- Settings that keep the kind and the place of every project are read over the defaults. -/
theorem decode_prune (origin : Origin) (hsize : s.analysis.maxFileSize < 0x10000000000000000)
    (hnames : KeepsNames gone) (h : ∀ key, ¬ s.Loses gone key) :
    record.decode origin (Draft.ofJson (s.toJson.prune gone)) = .ok (s.reset gone) := by
  have hkept : ∀ group ∈ s.groups, gone [group.1] = false → ∀ e ∈ group.2.entries,
      ∀ key ∈ Project.requiredKeys, gone [group.1, e.1, key] = false := by
    intro group hgroup hstays e he key hkey
    rw [← Bool.not_eq_true]
    exact fun hgone => h key ⟨hkey, group, hgroup, hstays, e, he, hgone⟩
  have happs := hkept ("apps", s.apps) (by simp [groups])
  have hpackages := hkept ("packages", s.packages) (by simp [groups])
  refine Sets.decode_of_free ?_ (by decide) rfl
  exact .kept (fun _ => rfl) rfl <|
    .kept (fun hstays => Project.decodeAll_prune (gone.below "apps") origin
      (fun name => (hnames name).1) (happs hstays)) rfl <|
    .kept (fun hstays => Project.decodeAll_prune (gone.below "packages") origin
      (fun name => (hnames name).2) (hpackages hstays)) rfl <|
    .kept (fun _ => s.protos.decode_prune _ origin) rfl <|
    .kept (fun _ => AnalysisSettings.decode_prune _ origin hsize) rfl <|
    .kept (fun _ => s.output.decode_prune _ origin) rfl <| .nil _

/-- Settings in which a project has lost its kind or its place are refused. -/
theorem decode_prune_lacks (origin : Origin) (hnames : KeepsNames gone)
    (h : ∃ key, s.Loses gone key) :
    ∃ key, s.Loses gone key ∧
      record.decode origin (Draft.ofJson (s.toJson.prune gone)) =
        .error (.mismatch (.missingField key)) := by
  by_cases happs : gone ["apps"] = false ∧
      ∃ e ∈ s.apps.entries, ∃ key ∈ Project.requiredKeys, gone ["apps", e.1, key] = true
  · obtain ⟨hstays, hlost⟩ := happs
    obtain ⟨e, he, key, hkey, hgone, hdict⟩ :=
      Project.decodeAll_prune_lacks (gone.below "apps") origin (fun name => (hnames name).1) hlost
    refine ⟨key, ⟨hkey, ("apps", s.apps), by simp [groups], hstays, e, he, hgone⟩, ?_⟩
    refine Sets.decode_of_free ?_ (by decide) rfl
    exact .kept (fun _ => rfl) rfl <| .stops hstays hdict
  · -- The apps are read, so the fault is in the packages.
    have hkept : gone ["apps"] = false → ∀ e ∈ s.apps.entries, ∀ key ∈ Project.requiredKeys,
        gone ["apps", e.1, key] = false := by
      intro hstays e he key hkey
      rw [← Bool.not_eq_true]
      exact fun hgone => happs ⟨hstays, e, he, key, hkey, hgone⟩
    obtain ⟨hstays, hlost⟩ : gone ["packages"] = false ∧
        ∃ e ∈ s.packages.entries, ∃ key ∈ Project.requiredKeys,
          gone ["packages", e.1, key] = true := by
      obtain ⟨key, hkey, group, hgroup, hstays, e, he, hgone⟩ := h
      simp only [groups, List.mem_cons, List.not_mem_nil, or_false] at hgroup
      rcases hgroup with rfl | rfl
      · exact absurd ⟨hstays, e, he, key, hkey, hgone⟩ happs
      · exact ⟨hstays, e, he, key, hkey, hgone⟩
    obtain ⟨e, he, key, hkey, hgone, hdict⟩ :=
      Project.decodeAll_prune_lacks (gone.below "packages") origin (fun name => (hnames name).2)
        hlost
    refine ⟨key, ⟨hkey, ("packages", s.packages), by simp [groups], hstays, e, he, hgone⟩, ?_⟩
    refine Sets.decode_of_free ?_ (by decide) rfl
    exact .kept (fun _ => rfl) rfl <|
      .kept (fun hstays => Project.decodeAll_prune (gone.below "apps") origin
        (fun name => (hnames name).1) (hkept hstays)) rfl <| .stops hstays hdict

/-- **Partial settings are read over the defaults, field by field.**  Take any members of sections
and projects out of written settings, at any depth.  If every project that stays has its kind and
its place, what is read are the settings with the default for each field whose member is gone;
otherwise they are refused for such a member that is missing. -/
theorem ofText_prune (hsize : s.analysis.maxFileSize < 0x10000000000000000)
    (hnames : KeepsNames gone) :
    Json.IsTextOf (s.toJson.prune gone).pretty (s.toJson.prune gone) ∧
    ∀ text, Json.IsTextOf text (s.toJson.prune gone) →
      ((∀ key, ¬ s.Loses gone key) → ofText text = .ok (s.reset gone)) ∧
      ((∃ key, s.Loses gone key) →
        ∃ key, s.Loses gone key ∧ ofText text = .error (.mismatch (.missingField key))) := by
  refine ⟨Json.read_pretty ((Settings.restores hsize).isExact.prune gone), fun text htext => ?_⟩
  unfold ofText
  rw [htext.decodeText_eq]
  exact ⟨decode_prune .text hsize hnames, decode_prune_lacks .text hnames⟩

/-- Settings with nothing at its default. -/
def customSettings : Settings where
  rootDir := "repo"
  apps := .ofList [("web", ⟨.frontEnd, "apps/web", some "web", .app, some "/shop", ["en"]⟩)]
  packages := .ofList [("bff", { kind := .backEnd, path := "packages/bff" })]
  protos := { path := "protos" }
  analysis :=
    { includePatterns := ["*.ts"], excludePatterns := [], maxFileSize := 18446744073709551615
      graphql := { tagNames := ["query"], documentExtensions := [] }
      resolvers :=
        { markers := ⟨["R"], ["Q"], ["M"], ["F"]⟩, callHints := ["rpc"], serviceLookup := "get" } }
  output := { anonymize := true }

/-- Takes out a section, members at several depths, and more if asked to. -/
def someGone (more : List (List String)) : Pruning := fun path =>
  ([["protos"], ["apps", "web", "namespace"], ["analysis", "graphql"], ["analysis", "maxFileSize"],
    ["analysis", "nestjs", "decorators", "mutation"]] ++ more).contains path

theorem ofText_prune_custom :
    customSettings.analysis.maxFileSize < 0x10000000000000000 ∧
    KeepsNames (someGone []) ∧ (∀ key, ¬ customSettings.Loses (someGone []) key) ∧
    ofText (customSettings.toJson.prune (someGone [])).pretty = .ok
      { customSettings with
        apps := .ofList [("web", ⟨.frontEnd, "apps/web", none, .app, some "/shop", ["en"]⟩)]
        protos := {}
        analysis :=
          { includePatterns := ["*.ts"], excludePatterns := []
            resolvers :=
              { markers := ⟨["R"], ["Q"], ["Mutation"], ["F"]⟩, callHints := ["rpc"]
                serviceLookup := "get" } } } ∧
    KeepsNames (someGone [["packages", "bff", "path"]]) ∧
    customSettings.Loses (someGone [["packages", "bff", "path"]]) "path" ∧
    ∃ key, customSettings.Loses (someGone [["packages", "bff", "path"]]) key ∧
      ofText (customSettings.toJson.prune (someGone [["packages", "bff", "path"]])).pretty =
        .error (.mismatch (.missingField key)) := by
  have hsize : customSettings.analysis.maxFileSize < 0x10000000000000000 := by decide
  have hnames : KeepsNames (someGone []) := by simp [KeepsNames, someGone]
  have hmore : KeepsNames (someGone [["packages", "bff", "path"]]) := by
    simp [KeepsNames, someGone]
  have hstay : ∀ key ∈ Project.requiredKeys, ∀ group ∈ customSettings.groups,
      ∀ e ∈ group.2.entries, someGone [] [group.1, e.1, key] = false := by decide +kernel
  have hkept : ∀ key, ¬ customSettings.Loses (someGone []) key := by
    rintro key ⟨hkey, group, hgroup, -, e, he, hgone⟩
    exact Bool.false_ne_true ((hstay key hkey group hgroup e he).symm.trans hgone)
  have hlost : customSettings.Loses (someGone [["packages", "bff", "path"]]) "path" :=
    ⟨by decide, ("packages", customSettings.packages), by simp [groups], by decide,
      ("bff", { kind := .backEnd, path := "packages/bff" }), by decide +kernel, by decide⟩
  obtain ⟨htext, hread⟩ := ofText_prune (s := customSettings) hsize hnames
  obtain ⟨htext', hread'⟩ := ofText_prune (s := customSettings) hsize hmore
  refine ⟨hsize, hnames, hkept, ?_, hmore, hlost, (hread' _ htext').2 ⟨"path", hlost⟩⟩
  exact ((hread _ htext).1 hkept).trans rfl

end Settings

end ApiAtlas
