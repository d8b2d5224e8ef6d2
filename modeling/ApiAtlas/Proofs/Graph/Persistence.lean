import ApiAtlas.Graph.Codec
import ApiAtlas.Proofs.Graph.WellFormed
import ApiAtlas.Proofs.Settings.Codec
set_option autoImplicit false

/-!
# Graphs survive their documents

Reading the document of a graph gives the graph back: nodes with their details, edges in order, the
three tables of the index, warnings, time and settings.  Nothing is asked of a graph but that its
details can be written without loss; the details of a built graph always can.
-/

namespace ApiAtlas

open Json (Record Decoder Field)
open Json.Decoder
open Json.Record (Writes)

/-! ## What a document can hold -/

/-- A detail that a document keeps: no number but integers of 64 bits, objects sorted by key, and
containers nested less deep than a reader of documents goes. -/
structure Json.Kept (v : Json) : Prop where
  isExact : v.Exact
  isCanonical : v.canonical = v
  isShallow : v.nesting < nestingLimit - detailDepth

instance (v : Json) : Decidable v.Kept :=
  decidable_of_iff (v.Exact ∧ v.canonical = v ∧ v.nesting < nestingLimit - detailDepth)
    ⟨fun h => ⟨h.1, h.2.1, h.2.2⟩, fun h => ⟨h.isExact, h.isCanonical, h.isShallow⟩⟩

/-- Everything in the graph can be written without loss. -/
structure Graph.Storable (g : Graph) : Prop where
  details : ∀ n ∈ g.nodes, ∀ e ∈ n.details.entries, e.2.Kept
  fileSize : ∀ s ∈ g.about.settings, s.analysis.maxFileSize < 0x10000000000000000

instance (g : Graph) : Decidable g.Storable :=
  decidable_of_iff ((∀ n ∈ g.nodes, ∀ e ∈ n.details.entries, e.2.Kept) ∧
      ∀ s ∈ g.about.settings, s.analysis.maxFileSize < 0x10000000000000000)
    ⟨fun h => ⟨h.1, h.2⟩, fun h => ⟨h.details, h.fileSize⟩⟩

/-! ## Parts of a graph -/

theorem NodeKind.restores (k : NodeKind) : Restores (variant NodeKind.words) (.text k.name) k :=
  variant_restores (by cases k <;> decide)

theorem EdgeKind.restores (k : EdgeKind) : Restores (variant EdgeKind.words) (.text k.name) k :=
  variant_restores (by cases k <;> decide)

theorem GraphNode.restores {n : GraphNode} (h : ∀ e ∈ n.details.entries, e.2.Kept) :
    Restores GraphNode.record.decode n.toJson n := by
  have hdetails : Restores (dict (any (nestingLimit - detailDepth)))
      (.object (n.details.entries.map fun e => (e.1, e.2))) n.details :=
    @dict_restores _ _ (fun v => v) n.details fun e he =>
      any_restores (h e he).isExact (h e he).isCanonical (h e he).isShallow
  have hentries : (n.details.entries.map fun e => (e.1, e.2)) = n.details.entries :=
    List.map_id n.details.entries
  rw [hentries] at hdetails
  refine Record.restores ?_ (by decide)
  exact .field (text_restores n.id) <| .field n.kind.restores <| .field (text_restores n.label) <|
    .field (text_restores n.group) <| .field hdetails <| .nil n

theorem GraphEdge.restores (e : GraphEdge) : Restores GraphEdge.record.decode e.toJson e := by
  refine Record.restores ?_ (by decide)
  exact .field (text_restores e.id) <| .field (text_restores e.source) <|
    .field (text_restores e.target) <| .field e.kind.restores <| .nil e

theorem GraphIndex.restores (i : GraphIndex) : Restores GraphIndex.record.decode i.toJson i := by
  have htable : ∀ d : Dict (List String), Restores (dict (list text)) (d.toJson Json.texts) d :=
    fun d => dict_restores fun e _ => texts_restores e.2
  refine Record.restores ?_ (by decide)
  exact .field (htable i.apiToScreens) <| .field (htable i.screenToApis) <|
    .field (htable i.routeGroups) <| .nil i

theorem GraphMeta.restores {m : GraphMeta}
    (h : ∀ s ∈ m.settings, s.analysis.maxFileSize < 0x10000000000000000) :
    Restores GraphMeta.record.decode m.toJson m := by
  have hmembers : m.toJson = .object (("warnings", Json.texts m.warnings) ::
      ("timestamp", .text m.timestamp) ::
        (Json.memberOf "config" (m.settings.map Settings.toJson) ++ [])) := by
    simp [GraphMeta.toJson]
  rw [hmembers]
  refine Record.restores ?_ (by decide)
  exact .field (texts_restores m.warnings) <| .field (text_restores m.timestamp) <|
    .optional (fun s hs => Settings.restores (h s hs)) (by simp [Settings.toJson]) rfl <| .nil m

namespace Graph

/-- A graph is restored from its JSON. -/
theorem Storable.restores {g : Graph} (h : g.Storable) : Restores record.decode g.toJson g := by
  have hnodes : Restores (list GraphNode.record.decode) (.array (g.nodes.map GraphNode.toJson))
      g.nodes := list_restores fun n hn => GraphNode.restores (h.details n hn)
  have hedges : Restores (list GraphEdge.record.decode) (.array (g.edges.map GraphEdge.toJson))
      g.edges := list_restores fun e _ => e.restores
  refine Record.restores ?_ (by decide)
  exact .field (text_restores g.version) <| .field hnodes <| .field hedges <|
    .field g.index.restores <| .field (GraphMeta.restores h.fileSize) <| .nil g

/-! ## Built graphs -/

theorem kept_text (t : String) : (Json.text t).Kept where
  isExact := trivial
  isCanonical := rfl
  isShallow := by
    change 0 < nestingLimit - detailDepth
    decide

theorem kept_ofOption (t : Option String) : (Json.ofOption (t.map .text)).Kept := by
  cases t with
  | none => exact ⟨trivial, rfl, by decide⟩
  | some t => exact kept_text t

/-- The details of an entity are texts, or null for a text that is absent. -/
theorem kept_details {layers : Layers} {n : GraphNode} (hn : n ∈ layers.nodes) :
    ∀ e ∈ n.details.entries, e.2.Kept := by
  have hall : ∀ {entries : List (String × Json)}, (∀ e ∈ entries, e.2.Kept) →
      ∀ e ∈ (Dict.ofList entries).entries, e.2.Kept :=
    fun h e he => h e (Dict.mem_of_mem_ofList he)
  rcases Layers.mem_nodes.mp hn with ⟨s, -, rfl⟩ | ⟨op, -, rfl⟩ | ⟨r, -, rfl⟩ | ⟨m, -, rfl⟩
  · exact hall (by simp [kept_text, kept_ofOption])
  · exact hall (by simp [kept_text, kept_ofOption])
  · exact hall (by simp [kept_text])
  · exact hall (by simp [kept_text])

theorem build_storable {settings : Settings}
    (h : settings.analysis.maxFileSize < 0x10000000000000000) (engine : RegexEngine)
    (chain : MatcherChain) (files : List SourceFile) (timestamp : String) :
    ((build engine settings chain files).stamped timestamp).Storable := by
  have hshown : ∀ s ∈ shownSettings settings, s.analysis.maxFileSize < 0x10000000000000000 := by
    intro s hs
    unfold shownSettings at hs
    split at hs
    · exact absurd hs (by simp)
    · obtain rfl := Option.some.inj hs
      exact h
  refine build_induction (P := fun g => (g.stamped timestamp).Storable) engine settings chain files
    ⟨fun n hn => kept_details hn, hshown⟩ ⟨fun n hn => absurd hn List.not_mem_nil, hshown⟩

/-! ## Documents -/

/-- **A graph is read back from its document**: every graph that can be written without loss, and so
every built graph, whatever its settings, files and time are. -/
theorem ofDocument_document :
    (∀ g : Graph, g.Storable → ofDocument g.document = .ok g) ∧
    ∀ (engine : RegexEngine) (settings : Settings) (chain : MatcherChain)
      (files : List SourceFile) (timestamp : String),
      settings.analysis.maxFileSize < 0x10000000000000000 →
        ofDocument ((build engine settings chain files).stamped timestamp).document =
          .ok ((build engine settings chain files).stamped timestamp) := by
  have hdocument : ∀ g : Graph, g.Storable → ofDocument g.document = .ok g :=
    fun g hg => Json.decodeText_pretty hg.restores
  refine ⟨hdocument, ?_⟩
  intro engine settings chain files timestamp hsize
  exact hdocument _ (build_storable hsize engine chain files timestamp)

/-- A graph with details of every shape, texts that need escapes, and settings. -/
def archive : Graph where
  nodes :=
    [{ id := "screen:/cart"
       kind := .screen
       label := "/cart\n\"quoted\" \\ \x01 \x1f"
       group := "screens"
       details := .ofList
         [("bounds", .array [.number (.integer (-9223372036854775808)),
            .number (.integer 18446744073709551615), .array [], .object []]),
          ("nested", .object [("a", .null), ("b", .bool true), ("é", .text "\t/")])] }]
  edges := [⟨"e1", "screen:/cart", "gql:query:cart", .uses⟩]
  index := { apiToScreens := .ofList [("gql:query:cart", ["screen:/cart"])] }
  about := { warnings := ["No resolver"], timestamp := "2024-01-01", settings := some shopSettings }

theorem ofDocument_document_archive :
    archive.Storable ∧ ofDocument archive.document = .ok archive ∧
    shopSettings.analysis.maxFileSize < 0x10000000000000000 ∧
    ofDocument ((build .roomy shopSettings .standard shopFiles).stamped "2024-01-01").document =
      .ok ((build .roomy shopSettings .standard shopFiles).stamped "2024-01-01") := by
  have hstorable : archive.Storable := by decide +kernel
  have hsize : shopSettings.analysis.maxFileSize < 0x10000000000000000 := by decide
  exact ⟨hstorable, ofDocument_document.1 archive hstorable, hsize,
    ofDocument_document.2 .roomy shopSettings .standard shopFiles "2024-01-01" hsize⟩

end Graph

end ApiAtlas
