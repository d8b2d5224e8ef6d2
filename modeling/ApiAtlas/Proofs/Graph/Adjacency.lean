import Mathlib.Data.List.Nodup
import ApiAtlas.Proofs.Graph.Index
import ApiAtlas.Proofs.Graph.Reachability
import ApiAtlas.Proofs.Graph.WellFormed
set_option autoImplicit false

/-!
# Index and walks agree

What a screen uses directly can be looked up in the index or found by a walk of one step.  The two
share no code: the index keeps the edges from screens to interfaces, a walk takes any edge in either
direction.  They agree on built graphs because of the layers: an edge at a screen always leaves it
for an operation, and an edge between a screen and an interface is never of another kind.
-/

namespace ApiAtlas

namespace Graph

/-! ## Walks of one step -/

/-- A walk of one step from a node reaches the node and whatever an edge joins it to. -/
theorem mem_reachable_one {g : Graph} {id x : String} (hid : id ∈ g.ids) :
    x ∈ g.reachable [id] 1 ↔ x = id ∨ Adjacent g.links id x := by
  rw [mem_reachable, within_succ, adjacent_links]
  simp only [within_zero, List.mem_singleton, List.mem_map, ← mem_ids]
  constructor
  · rintro (⟨rfl, _⟩ | ⟨w, ⟨rfl, _⟩, hstep⟩)
    · exact .inl rfl
    · exact .inr hstep
  · rintro (rfl | hstep)
    · exact .inl ⟨rfl, hid⟩
    · exact .inr ⟨id, ⟨rfl, hid⟩, hstep⟩

/-! ## The layers of a well-formed graph -/

section Layered

variable {g : Graph} (hg : g.WellFormed)

theorem HasNode.mem_ids {kind : NodeKind} {id : String} (h : g.HasNode kind id) : id ∈ g.ids := by
  obtain ⟨n, hn, _, hid⟩ := h
  exact Graph.mem_ids.mpr ⟨n, hn, hid⟩

include hg

/-- No edge ends outside of the graph, so a walk may take all of them. -/
theorem WellFormed.links_eq : g.links = g.edges := by
  unfold links
  refine List.filter_eq_self.mpr fun e he => ?_
  have hsource : e.source ∈ g.ids := (hg.sources e he).mem_ids
  have htarget : e.target ∈ g.ids := (hg.targets e he).mem_ids
  simp [hsource, htarget]

/-- An identifier belongs to one layer. -/
theorem WellFormed.kind_unique {a b : NodeKind} {id : String} (ha : g.HasNode a id)
    (hb : g.HasNode b id) : a = b := by
  obtain ⟨n, hn, rfl, hid⟩ := ha
  obtain ⟨m, hm, rfl, hmid⟩ := hb
  rw [List.inj_on_of_nodup_map hg.ids_nodup hn hm (hid.trans hmid.symm)]

/-- The last node that carries an identifier is the only one. -/
theorem WellFormed.hasKind_iff {id : String} {kind : NodeKind} :
    GraphIndex.HasKind g.nodes id kind ↔ g.HasNode kind id := by
  constructor
  · rintro ⟨front, n, back, hnodes, hid, hkind, _⟩
    exact ⟨n, hnodes ▸ List.mem_append_right front List.mem_cons_self, hkind, hid⟩
  · rintro ⟨n, hn, hkind, hid⟩
    obtain ⟨front, back, hnodes⟩ := List.append_of_mem hn
    refine ⟨front, n, back, hnodes, hid, hkind, ?_⟩
    have hapart := hg.ids_nodup
    rw [hnodes, List.map_append, List.map_cons, List.nodup_append] at hapart
    intro m hm hsame
    exact (List.nodup_cons.mp hapart.2.1).1 (List.mem_map.mpr ⟨m, hm, hsame.trans hid.symm⟩)

/-- Only uses leave a screen. -/
theorem WellFormed.kind_of_screen_source {e : GraphEdge} (he : e ∈ g.edges)
    (hscreen : g.HasNode .screen e.source) : e.kind = .uses := by
  have hkind : e.kind.sourceKind = .screen := hg.kind_unique (hg.sources e he) hscreen
  cases h : e.kind with
  | uses => rfl
  | resolves => simp [h, EdgeKind.sourceKind] at hkind
  | calls => simp [h, EdgeKind.sourceKind] at hkind

/-- No edge ends in a screen. -/
theorem WellFormed.not_screen_target {e : GraphEdge} (he : e ∈ g.edges) :
    ¬ g.HasNode .screen e.target := by
  intro hscreen
  have hkind : e.kind.targetKind = .screen := hg.kind_unique (hg.targets e he) hscreen
  cases h : e.kind <;> simp [h, EdgeKind.targetKind] at hkind

theorem WellFormed.directUse_iff {e : GraphEdge} (he : e ∈ g.edges) :
    GraphIndex.DirectUse g.nodes e ↔ e.kind = .uses := by
  unfold GraphIndex.DirectUse
  rw [hg.hasKind_iff, hg.hasKind_iff, hg.hasKind_iff]
  constructor
  · intro huse
    exact hg.kind_of_screen_source he huse.1
  · intro hkind
    have hsource := hg.sources e he
    have htarget := hg.targets e he
    rw [hkind] at hsource htarget
    exact ⟨hsource, .inl htarget⟩

/-- What is adjacent to a screen is what the screen uses. -/
theorem WellFormed.adjacent_screen_iff {s x : String} (hs : g.HasNode .screen s) :
    Adjacent g.edges s x ↔ ∃ e ∈ g.edges, e.kind = .uses ∧ e.source = s ∧ e.target = x := by
  constructor
  · rintro ⟨e, he, ⟨rfl, htarget⟩ | ⟨rfl, _⟩⟩
    · exact ⟨e, he, hg.kind_of_screen_source he hs, rfl, htarget⟩
    · exact absurd hs (hg.not_screen_target he)
  · rintro ⟨e, he, _, hsource, htarget⟩
    exact ⟨e, he, .inl ⟨hsource, htarget⟩⟩

end Layered

/-! ## Looking up and walking -/

section Indexed

variable {g : Graph} (hg : g.WellFormed) (hindex : g.index = .build g.nodes g.edges)
include hg hindex

theorem WellFormed.mem_apisFor {s x : String} :
    x ∈ g.index.apisFor s ↔ ∃ e ∈ g.edges, e.kind = .uses ∧ e.source = s ∧ e.target = x := by
  rw [hindex, GraphIndex.apisFor_build, GraphIndex.mem_eraseDups_uses]
  refine exists_congr fun e => and_congr_right fun he => ?_
  rw [hg.directUse_iff he]

theorem WellFormed.mem_screensFor {a x : String} :
    x ∈ g.index.screensFor a ↔ ∃ e ∈ g.edges, e.kind = .uses ∧ e.source = x ∧ e.target = a := by
  rw [hindex, GraphIndex.screensFor_build, GraphIndex.mem_eraseDups_uses]
  refine exists_congr fun e => and_congr_right fun he => ?_
  rw [hg.directUse_iff he, and_comm (a := e.target = a)]

theorem WellFormed.reachable_screen {s x : String} (hs : g.HasNode .screen s) :
    x ∈ g.reachable [s] 1 ↔ x = s ∨ x ∈ g.index.apisFor s := by
  rw [mem_reachable_one hs.mem_ids, hg.links_eq, hg.adjacent_screen_iff hs,
    hg.mem_apisFor hindex]

theorem WellFormed.reachable_api {a x : String} {kind : NodeKind} (ha : g.HasNode kind a)
    (hkind : kind ≠ .screen) :
    g.HasNode .screen x ∧ x ∈ g.reachable [a] 1 ↔ x ∈ g.index.screensFor a := by
  rw [mem_reachable_one ha.mem_ids, hg.links_eq, hg.mem_screensFor hindex]
  constructor
  · rintro ⟨hx, rfl | hadjacent⟩
    · exact absurd (hg.kind_unique ha hx) hkind
    · -- seen from the screen, the edge is one of its uses
      have hback : Adjacent g.edges x a := by
        obtain ⟨e, he, hends⟩ := hadjacent
        exact ⟨e, he, hends.symm.imp And.symm And.symm⟩
      exact (hg.adjacent_screen_iff hx).mp hback
  · rintro ⟨e, he, huses, rfl, rfl⟩
    have hx := hg.sources e he
    rw [huses] at hx
    exact ⟨hx, .inr ⟨e, he, .inr ⟨rfl, rfl⟩⟩⟩

end Indexed

/-- **The index and walks of one step agree on every built graph.** From a screen, a step reaches
the screen and the interfaces that the index has for it; the screens that a step from an interface
reaches are those that the index has for the interface. -/
theorem reachable_one_build (engine : RegexEngine) (settings : Settings) (chain : MatcherChain)
    (hchain : chain.Selective) (files : List SourceFile) :
    (∀ s, (build engine settings chain files).HasNode .screen s →
      ∀ x, x ∈ (build engine settings chain files).reachable [s] 1 ↔
        x = s ∨ x ∈ (build engine settings chain files).index.apisFor s) ∧
    ∀ a, ((build engine settings chain files).HasNode .operation a ∨
        (build engine settings chain files).HasNode .rpc a) →
      ∀ x, ((build engine settings chain files).HasNode .screen x ∧
          x ∈ (build engine settings chain files).reachable [a] 1) ↔
        x ∈ (build engine settings chain files).index.screensFor a := by
  have hg := wellFormed_of_selective engine settings hchain files
  have hindex := index_build engine settings chain files
  refine ⟨fun s hs x => hg.reachable_screen hindex hs, ?_⟩
  rintro a (ha | ha) x
  · exact hg.reachable_api hindex ha (by decide)
  · exact hg.reachable_api hindex ha (by decide)

theorem reachable_one_build_shop :
    MatcherChain.standard.Selective ∧
      (build .roomy shopSettings .standard shopFiles).HasNode .screen "screen:/cart" ∧
      (build .roomy shopSettings .standard shopFiles).reachable ["screen:/cart"] 1 =
        ["screen:/cart", "gql:query.cart", "gql:query.stock"] ∧
      (∀ x, x ∈ (build .roomy shopSettings .standard shopFiles).reachable ["screen:/cart"] 1 ↔
        x = "screen:/cart" ∨
          x ∈ (build .roomy shopSettings .standard shopFiles).index.apisFor "screen:/cart") ∧
      (build .roomy shopSettings .standard shopFiles).HasNode .operation "gql:query.cart" ∧
      ∀ x, ((build .roomy shopSettings .standard shopFiles).HasNode .screen x ∧
          x ∈ (build .roomy shopSettings .standard shopFiles).reachable ["gql:query.cart"] 1) ↔
        x ∈ (build .roomy shopSettings .standard shopFiles).index.screensFor "gql:query.cart" := by
  have hscreen :
      (build .roomy shopSettings .standard shopFiles).HasNode .screen "screen:/cart" := by
    unfold HasNode
    decide +kernel
  have hoperation :
      (build .roomy shopSettings .standard shopFiles).HasNode .operation "gql:query.cart" := by
    unfold HasNode
    decide +kernel
  have hagree := reachable_one_build .roomy shopSettings .standard
    MatcherChain.standard_selective shopFiles
  exact ⟨MatcherChain.standard_selective, hscreen, by decide +kernel, hagree.1 _ hscreen,
    hoperation, hagree.2 _ (.inl hoperation)⟩

end Graph

end ApiAtlas
