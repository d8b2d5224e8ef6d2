import Mathlib.Data.List.Nodup
import ApiAtlas.Proofs.Graph.Account
import ApiAtlas.Proofs.Graph.Uses
set_option autoImplicit false

/-!
# No dependency is repeated

Nothing compares the edges of a graph with each other.  That none is repeated comes from four places
where repetitions are dropped earlier: entities by identifier, what a file depends on, the outbound
calls of a resolver, and the one resolver taken for an operation.  For the third pass it also
matters that an exact match has the identifier that was asked for; a guess may take two calls of one
resolver to the same method.
-/

namespace ApiAtlas

/-- Pieces of items with distinct keys, each without repetition and telling its item by the key,
are without repetition one behind the other. -/
theorem nodup_flatMap_of_key {α β κ : Type} {items : List α} {pieces : α → List β} (key : α → κ)
    (owner : β → κ) (hkeys : (items.map key).Nodup) (hpieces : ∀ a ∈ items, (pieces a).Nodup)
    (howner : ∀ a ∈ items, ∀ b ∈ pieces a, owner b = key a) : (items.flatMap pieces).Nodup := by
  refine List.nodup_flatMap.mpr ⟨hpieces, ?_⟩
  refine (List.pairwise_map.mp hkeys).imp_of_mem ?_
  intro a c ha hc hne b hba hbc
  exact hne ((howner a ha b hba).symm.trans (howner c hc b hbc))

/-! ## Outbound calls -/

namespace Resolver

/-- A resolver names each method that it calls once, however it was read. -/
theorem nodup_outboundCalls {settings : ResolverSettings} {files : List SourceFile}
    {r : Resolver} (h : r ∈ (ofFiles settings files).entities) : r.outboundCalls.Nodup := by
  obtain ⟨f, _, hf⟩ := List.mem_flatMap.mp h
  unfold ofFile at hf
  split at hf
  · obtain ⟨_, _, _, _, _, rfl⟩ := eq_of_mem_ofProgram hf
    exact Text.nodup_distinct _
  · obtain ⟨_, _, _, _, rfl⟩ := eq_of_mem_textual hf
    exact List.nodup_nil

end Resolver

/-- An exact match has the identifier that was asked for. -/
theorem MatcherChain.id_of_strict {candidate : String} {methods : List RpcMethod}
    {found : RpcMethod} (h : (strict.resolve candidate methods).method? = some found) :
    found.id = candidate := by
  unfold resolve at h
  split at h
  · next method hmethod =>
    cases h
    simpa using List.find?_some hmethod
  · exact absurd h (by simp [strict, guess?, MatchOutcome.method?])

/-! ## The links of the three passes -/

namespace Link

theorem nodup_usesOf (settings : GraphqlSettings) (files : List SourceFile) (s : Screen) :
    (usesOf settings files s).Nodup := by
  unfold usesOf
  split
  · next file _ =>
    refine (Text.nodup_distinct _).map ?_
    intro a b hab
    exact (Link.mk.inj hab).2.1
  · exact List.nodup_nil

theorem nodup_allUses (settings : GraphqlSettings) {screens : List Screen}
    (hscreens : (screens.map Screen.id).Nodup) (files : List SourceFile) :
    (allUses settings screens files).Nodup :=
  nodup_flatMap_of_key Screen.id Link.source hscreens
    (fun s _ => nodup_usesOf settings files s) fun _ _ _ => source_usesOf

theorem nodup_resolutions (layers : Layers) : (resolutions layers).Nodup := by
  refine nodup_flatMap_of_key ApiOperation.id Link.source (Layers.firstById_nodup _ _) ?_ ?_
  · intro op _
    unfold resolution
    split
    · exact List.nodup_singleton _
    · exact List.nodup_nil
  · intro op _ l hl
    unfold resolution at hl
    split at hl
    · rw [List.mem_singleton.mp hl]
    · exact absurd hl List.not_mem_nil

/-- A call that is matched exactly contributes at most one link, to the method that it names. -/
theorem call_strict (methods : List RpcMethod) (r : Resolver) (candidate : String) :
    (call .strict methods r candidate).entities = [⟨r.id, candidate, .calls⟩] ∨
      (call .strict methods r candidate).entities = [] := by
  have hid : ∀ found, (MatcherChain.strict.resolve candidate methods).method? = some found →
      found.id = candidate := fun _ => MatcherChain.id_of_strict
  unfold call
  split
  · next m hm =>
    rw [hm] at hid
    rw [hid m rfl]
    exact .inl rfl
  · next m _ hm =>
    rw [hm] at hid
    rw [hid m rfl]
    exact .inl rfl
  · exact .inr rfl

theorem nodup_calls_strict (methods : List RpcMethod) {r : Resolver}
    (hcalls : r.outboundCalls.Nodup) : (calls .strict methods r).entities.Nodup := by
  unfold calls
  rw [Layer.join_entities, List.flatMap_map]
  refine nodup_flatMap_of_key (fun candidate => candidate) Link.target ?_ ?_ ?_
  · rwa [List.map_id_fun']
  · intro candidate _
    rcases call_strict methods r candidate with h | h
    · rw [h]
      exact List.nodup_singleton _
    · rw [h]
      exact List.nodup_nil
  · intro candidate _ l hl
    rcases call_strict methods r candidate with h | h
    · rw [h] at hl
      rw [List.mem_singleton.mp hl]
    · rw [h] at hl
      exact absurd hl List.not_mem_nil

theorem source_calls {chain : MatcherChain} {methods : List RpcMethod} {r : Resolver} {l : Link}
    (h : l ∈ (calls chain methods r).entities) : l.source = r.id := by
  unfold calls at h
  rw [Layer.join_entities, List.flatMap_map] at h
  obtain ⟨candidate, _, hl⟩ := List.mem_flatMap.mp h
  unfold call at hl
  split at hl
  · rw [List.mem_singleton.mp hl]
  · rw [List.mem_singleton.mp hl]
  · exact absurd hl List.not_mem_nil

theorem nodup_allCalls_strict {layers : Layers}
    (hcalls : ∀ r ∈ layers.keptResolvers, r.outboundCalls.Nodup) :
    (allCalls .strict layers).Nodup :=
  nodup_flatMap_of_key Resolver.id Link.source (Layers.firstById_nodup _ _)
    (fun r hr => nodup_calls_strict layers.keptMethods (hcalls r hr)) fun _ _ _ => source_calls

/-- The links of the pass that infers links of a kind. -/
def ofPass (settings : Settings) (chain : MatcherChain) (layers : Layers)
    (files : List SourceFile) : EdgeKind → List Link
  | .uses => allUses settings.analysis.graphql layers.keptScreens files
  | .resolves => resolutions layers
  | .calls => allCalls chain layers

theorem filter_kind_inferred (settings : Settings) (chain : MatcherChain) (layers : Layers)
    (files : List SourceFile) (kind : EdgeKind) :
    (inferred settings chain layers files).filter (·.kind == kind) =
      ofPass settings chain layers files kind := by
  rw [inferred, List.filter_append, List.filter_append,
    filter_of_key (fun _ => kind_of_mem_allUses) (· == kind),
    filter_of_key (fun _ => kind_of_mem_resolutions) (· == kind),
    filter_of_key (fun _ => kind_of_mem_allCalls) (· == kind)]
  cases kind <;> simp [ofPass]

end Link

/-! ## Edges -/

/-- The edges connect the same identifiers. -/
def GraphEdge.SameEnds (a b : GraphEdge) : Prop := a.source = b.source ∧ a.target = b.target

namespace Graph

/-- If a pass repeats no link, no two edges of its kind share their ends. -/
theorem edgesOf_distinct {settings : Settings} {chain : MatcherChain} {layers : Layers}
    {files : List SourceFile} {kind : EdgeKind}
    (h : (Link.ofPass settings chain layers files kind).Nodup) :
    ((assembled settings chain layers files).edgesOf kind).Pairwise fun a b => ¬ a.SameEnds b := by
  have hlinks : ((assembled settings chain layers files).linksOf kind).Nodup := by
    rw [linksOf_eq, links_assembled, List.filter_comm, Link.filter_kind_inferred]
    exact h.filter _
  refine (List.pairwise_map.mp hlinks).imp_of_mem ?_
  intro a b ha hb hne hsame
  have hkind : a.kind = b.kind := by
    rw [beq_iff_eq.mp (List.mem_filter.mp ha).2, beq_iff_eq.mp (List.mem_filter.mp hb).2]
  apply hne
  unfold GraphEdge.link
  rw [hsame.1, hsame.2, hkind]

theorem edgesOf_build_distinct {engine : RegexEngine} {settings : Settings}
    {chain : MatcherChain} {files : List SourceFile} {kind : EdgeKind}
    (h : (Link.ofPass settings chain (.extract engine settings files) files kind).Nodup) :
    ((build engine settings chain files).edgesOf kind).Pairwise fun a b => ¬ a.SameEnds b :=
  build_induction (P := fun g => (g.edgesOf kind).Pairwise fun a b => ¬ a.SameEnds b)
    engine settings chain files (edgesOf_distinct h) List.Pairwise.nil

/-- Edges that differ among their own kind differ in ends or kind from all others. -/
theorem edges_distinct {g : Graph}
    (h : ∀ kind, (g.edgesOf kind).Pairwise fun a b => ¬ a.SameEnds b) :
    g.edges.Pairwise fun a b => ¬ (a.SameEnds b ∧ a.kind = b.kind) := by
  rw [List.pairwise_iff_forall_sublist]
  intro a b hsub hsame
  have hpairs := List.pairwise_filter.mp (h a.kind)
  rw [List.pairwise_iff_forall_sublist] at hpairs
  exact hpairs hsub (beq_self_eq_true _) (beq_iff_eq.mpr hsame.2.symm) hsame.1

/-- **No built graph repeats a dependency.** Whatever the matchers, no two edges from screens share
both ends, and no two edges to resolvers; with exact matching only, no two edges of the graph are
alike in their ends and their kind. -/
theorem build_edges_distinct (engine : RegexEngine) (settings : Settings)
    (files : List SourceFile) :
    (∀ chain : MatcherChain,
      ((build engine settings chain files).edgesOf .uses).Pairwise (fun a b => ¬ a.SameEnds b) ∧
        ((build engine settings chain files).edgesOf .resolves).Pairwise
          fun a b => ¬ a.SameEnds b) ∧
    (build engine settings .strict files).edges.Pairwise
      fun a b => ¬ (a.SameEnds b ∧ a.kind = b.kind) := by
  have huses : ∀ chain, ((build engine settings chain files).edgesOf .uses).Pairwise
      fun a b => ¬ a.SameEnds b := fun chain =>
    edgesOf_build_distinct (Link.nodup_allUses _ (Layers.firstById_nodup _ _) files)
  have hresolves : ∀ chain, ((build engine settings chain files).edgesOf .resolves).Pairwise
      fun a b => ¬ a.SameEnds b := fun chain =>
    edgesOf_build_distinct (Link.nodup_resolutions _)
  have hcalls : ((build engine settings .strict files).edgesOf .calls).Pairwise
      fun a b => ¬ a.SameEnds b := by
    refine edgesOf_build_distinct (Link.nodup_allCalls_strict fun r hr => ?_)
    obtain ⟨_, _, _, _, hfound⟩ := Layers.mem_resolversOf.mp (Layers.mem_of_mem_firstById hr)
    exact Resolver.nodup_outboundCalls hfound
  refine ⟨fun chain => ⟨huses chain, hresolves chain⟩, edges_distinct fun kind => ?_⟩
  cases kind with
  | uses => exact huses .strict
  | resolves => exact hresolves .strict
  | calls => exact hcalls

/-- A guess may take two calls of one resolver to one method. -/
example : (Link.calls .standard [⟨"grpc:CartService.Load", "CartService", "Load", "", "A", "B", ""⟩]
    ⟨"resolver:R.cart", "R", "cart", .query, "cart", "",
      ["grpc:CartService.Get", "grpc:CartService.Put"]⟩).entities =
    [⟨"resolver:R.cart", "grpc:CartService.Load", .calls⟩,
      ⟨"resolver:R.cart", "grpc:CartService.Load", .calls⟩] := by
  decide +kernel

end Graph

end ApiAtlas
