import ApiAtlas.Proofs.Json.Decoding
import ApiAtlas.Settings.Codec
set_option autoImplicit false

/-!
# Settings are restored from JSON

Every section of the settings is restored from what is written of it.  An absent text and an empty
list of locales are left out, and are what a project has before anything is read.  The only number
is the largest size of a file, which has to fit into 64 bits.
-/

namespace ApiAtlas

open Json (Record Decoder Field)
open Json.Decoder
open Json.Record (Writes)

/-- A value that is left out when it is absent, over a record that does not have it yet. -/
theorem Json.Record.Writes.optional {α σ : Type} {key : String} {decode : Decoder α}
    {encode : α → Json} {update : σ → Option α → σ} {fields : List (Field σ)} {s u : σ}
    {value : Option α} {members : List (String × Json)}
    (hvalue : ∀ a ∈ value, Restores decode (encode a) a) (hnull : ∀ a, encode a ≠ .null)
    (hnone : update s none = s) (hrest : Writes fields (update s value) members u) :
    Writes (Field.of key .defaulted (.optional decode) update :: fields) s
      (Json.memberOf key (value.map encode) ++ members) u := by
  cases value with
  | none =>
      rw [hnone] at hrest
      exact .absent (by simp [Field.of]) hrest
  | some a => exact .field (optional_restores (hvalue a rfl) (hnull a)) hrest

theorem ProjectKind.restores (k : ProjectKind) :
    Restores (variant ProjectKind.words) (.text k.name) k :=
  variant_restores (by cases k <;> decide)

theorem Routing.restores (r : Routing) : Restores (variant Routing.words) (.text r.name) r :=
  variant_restores (by cases r <;> decide)

/-- The members of a project one behind the other. -/
theorem Project.toJson_eq (p : Project) :
    p.toJson = .object (("type", .text p.kind.name) :: ("path", .text p.path) ::
      (Json.memberOf "namespace" (p.space.map .text) ++ (("routing", .text p.routing.name) ::
        (Json.memberOf "basePath" (p.basePath.map .text)
          ++ (if p.locales.isEmpty then [] else [("locales", Json.texts p.locales)]))))) := by
  simp [Project.toJson]

theorem Project.restores (p : Project) : Restores Project.record.decode p.toJson p := by
  have hlocales : Writes
      [Field.of "locales" .defaulted (.list .text) fun (s : Project) locales => { s with locales }]
      { p with locales := [] }
      (if p.locales.isEmpty then [] else [("locales", Json.texts p.locales)]) p := by
    cases hp : p.locales with
    | nil =>
        have hsame : { p with locales := [] } = p := by rw [← hp]
        rw [hsame]
        exact .absent (by simp [Field.of]) (.nil p)
    | cons l locales =>
        have hsame : { p with locales := l :: locales } = p := by rw [← hp]
        refine .field (texts_restores (l :: locales)) ?_
        exact hsame ▸ .nil _
  rw [Project.toJson_eq]
  have hnull : ∀ t : String, Json.text t ≠ .null := by simp
  refine Record.restores ?_ (by decide)
  exact .field p.kind.restores <| .field (path_restores p.path) <|
    .optional (fun t _ => text_restores t) hnull rfl <| .field p.routing.restores <|
    .optional (fun t _ => text_restores t) hnull rfl hlocales

theorem InterfaceSettings.restores (s : InterfaceSettings) :
    Restores InterfaceSettings.record.decode s.toJson s :=
  Record.restores (.field (path_restores s.path) (.nil s)) (by decide)

theorem GraphqlSettings.restores (s : GraphqlSettings) :
    Restores GraphqlSettings.record.decode s.toJson s := by
  refine Record.restores ?_ (by decide)
  exact .field (texts_restores s.tagNames) <| .field (texts_restores s.documentExtensions) <| .nil s

theorem Markers.restores (s : Markers) : Restores Markers.record.decode s.toJson s := by
  refine Record.restores ?_ (by decide)
  exact .field (texts_restores s.resolver) <| .field (texts_restores s.query) <|
    .field (texts_restores s.mutation) <| .field (texts_restores s.resolveField) <| .nil s

theorem ResolverSettings.restores (s : ResolverSettings) :
    Restores ResolverSettings.record.decode s.toJson s := by
  refine Record.restores ?_ (by decide)
  exact .field s.markers.restores <| .field (texts_restores s.callHints) <|
    .field (text_restores s.serviceLookup) <| .nil s

theorem AnalysisSettings.restores {s : AnalysisSettings}
    (h : s.maxFileSize < 0x10000000000000000) :
    Restores AnalysisSettings.record.decode s.toJson s := by
  refine Record.restores ?_ (by decide)
  exact .field (texts_restores s.includePatterns) <| .field (texts_restores s.excludePatterns) <|
    .field (nat64_restores h) <| .field s.graphql.restores <| .field s.resolvers.restores <| .nil s

theorem OutputSettings.restores (s : OutputSettings) :
    Restores OutputSettings.record.decode s.toJson s :=
  Record.restores (.field (bool_restores s.anonymize) (.nil s)) (by decide)

/-- Settings are restored from JSON. -/
theorem Settings.restores {s : Settings} (h : s.analysis.maxFileSize < 0x10000000000000000) :
    Restores Settings.record.decode s.toJson s := by
  have happs : ∀ d : Dict Project,
      Restores (dict Project.record.decode) (d.toJson Project.toJson) d :=
    fun d => dict_restores fun e _ => e.2.restores
  refine Record.restores ?_ (by decide)
  exact .field (path_restores s.rootDir) <| .field (happs s.apps) <| .field (happs s.packages) <|
    .field s.protos.restores <| .field (AnalysisSettings.restores h) <|
    .field s.output.restores <| .nil s

end ApiAtlas
