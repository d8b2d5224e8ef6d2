import Mathlib.Data.Finset.Card
import Mathlib.Order.Monotone.Basic
import ApiAtlas.Graph.Walk
import ApiAtlas.Proofs.Layer
set_option autoImplicit false

/-!
# What a search reaches

A search sees each identifier once and notes with it the number of steps taken at that moment.  That
the number is never too large rests on the order of the queue: it holds identifiers of at most two
consecutive depths, the smaller ones in front.  The invariant `Layered` says so, and one more thing:
whatever lies within the smaller depth was either looked around from or still stands in front.  From
it follows that a search with a limit sees exactly what a walk of so many steps leads to.  Nothing
is asked of the graph: identifiers may repeat, edges may end nowhere or form cycles, seeds may be
unknown.
-/

namespace ApiAtlas

namespace Graph

/-! ## Walks -/

/-- An edge joins the two identifiers, in the one direction or the other. -/
def Adjacent (edges : List GraphEdge) (a b : String) : Prop :=
  ∃ e ∈ edges, (e.source = a ∧ e.target = b) ∨ (e.target = a ∧ e.source = b)

/-- One step: an edge of the graph joins two identifiers of nodes. -/
def Step (g : Graph) (a b : String) : Prop :=
  a ∈ g.nodes.map (·.id) ∧ b ∈ g.nodes.map (·.id) ∧ Adjacent g.edges a b

/-- A walk of so many steps that starts at `a`. -/
inductive Walk (g : Graph) (a : String) : Nat → String → Prop
  | start : Walk g a 0 a
  | step {n : Nat} {b c : String} : Walk g a n b → g.Step b c → Walk g a (n + 1) c

/-- A walk of at most `hops` steps leads there from a seed that is the identifier of a node. -/
def Within (g : Graph) (seeds : List String) (hops : Nat) (v : String) : Prop :=
  ∃ u ∈ seeds, u ∈ g.nodes.map (·.id) ∧ ∃ n ≤ hops, g.Walk u n v

section Walks

variable {g : Graph} {seeds : List String} {h k : Nat} {v : String}

theorem within_zero : g.Within seeds 0 v ↔ v ∈ seeds ∧ v ∈ g.nodes.map (·.id) := by
  constructor
  · rintro ⟨u, hu, hnode, n, hn, hwalk⟩
    obtain rfl : n = 0 := Nat.le_zero.mp hn
    cases hwalk
    exact ⟨hu, hnode⟩
  · rintro ⟨hv, hnode⟩
    exact ⟨v, hv, hnode, 0, Nat.le_refl 0, .start⟩

theorem Within.mono (hle : h ≤ k) (hv : g.Within seeds h v) : g.Within seeds k v := by
  obtain ⟨u, hu, hnode, n, hn, hwalk⟩ := hv
  exact ⟨u, hu, hnode, n, hn.trans hle, hwalk⟩

theorem Within.mono_seeds {others : List String} (hseeds : seeds ⊆ others)
    (hv : g.Within seeds h v) : g.Within others h v := by
  obtain ⟨u, hu, hwalk⟩ := hv
  exact ⟨u, hseeds hu, hwalk⟩

theorem Within.step {w : String} (hw : g.Within seeds h w) (hstep : g.Step w v) :
    g.Within seeds (h + 1) v := by
  obtain ⟨u, hu, hnode, n, hn, hwalk⟩ := hw
  exact ⟨u, hu, hnode, n + 1, Nat.succ_le_succ hn, hwalk.step hstep⟩

/-- One step more leads to what was near already or to what is one step from there. -/
theorem within_succ :
    g.Within seeds (h + 1) v ↔
      g.Within seeds h v ∨ ∃ w, g.Within seeds h w ∧ g.Step w v := by
  constructor
  · rintro ⟨u, hu, hnode, n, hn, hwalk⟩
    cases hwalk with
    | start => exact .inl ⟨v, hu, hnode, 0, Nat.zero_le h, .start⟩
    | step hwalk hstep =>
        exact .inr ⟨_, ⟨u, hu, hnode, _, Nat.le_of_succ_le_succ hn, hwalk⟩, hstep⟩
  · rintro (hv | ⟨w, hw, hstep⟩)
    · exact hv.mono (Nat.le_succ h)
    · exact hw.step hstep

/-- A walk never leaves the nodes. -/
theorem Within.mem_nodes (hv : g.Within seeds h v) : v ∈ g.nodes.map (·.id) := by
  obtain ⟨u, _, hnode, n, _, hwalk⟩ := hv
  cases hwalk with
  | start => exact hnode
  | step _ hstep => exact hstep.2.1

end Walks

theorem mem_ids {g : Graph} {x : String} : x ∈ g.ids ↔ ∃ n ∈ g.nodes, n.id = x := by
  unfold ids
  rw [Text.mem_distinct, List.mem_map]

theorem mem_neighbours {links : List GraphEdge} {id x : String} :
    x ∈ neighbours links id ↔ Adjacent links id x := by
  have hend : ∀ a b : String, x ∈ (if a == id then [b] else []) ↔ a = id ∧ b = x := by
    intro a b
    by_cases h : a = id
    · simp [h, eq_comm (a := x)]
    · simp [h]
  unfold neighbours Adjacent
  simp only [List.mem_flatMap, List.mem_append, hend]

/-- The links are the edges that steps can take. -/
theorem adjacent_links {g : Graph} {a b : String} : Adjacent g.links a b ↔ g.Step a b := by
  have hlink : ∀ e, e ∈ g.links ↔
      e ∈ g.edges ∧ e.source ∈ g.nodes.map (·.id) ∧ e.target ∈ g.nodes.map (·.id) := by
    intro e
    simp only [links, List.mem_filter, Bool.and_eq_true, List.contains_iff_mem, mem_ids,
      List.mem_map]
  constructor
  · rintro ⟨e, he, hends⟩
    obtain ⟨hedge, hsource, htarget⟩ := (hlink e).mp he
    rcases hends with ⟨rfl, rfl⟩ | ⟨rfl, rfl⟩
    · exact ⟨hsource, htarget, e, hedge, .inl ⟨rfl, rfl⟩⟩
    · exact ⟨htarget, hsource, e, hedge, .inr ⟨rfl, rfl⟩⟩
  · rintro ⟨ha, hb, e, hedge, ⟨rfl, rfl⟩ | ⟨rfl, rfl⟩⟩
    · exact ⟨e, (hlink e).mpr ⟨hedge, ha, hb⟩, .inl ⟨rfl, rfl⟩⟩
    · exact ⟨e, (hlink e).mpr ⟨hedge, hb, ha⟩, .inr ⟨rfl, rfl⟩⟩

/-! ## Searching -/

namespace Search

/-- Seeing several identifiers adds the new ones among them, each once, to what was seen and, with
the steps, to the back of the queue. -/
theorem foldl_see (steps : Nat) (found : List String) (s : Search) :
    ∃ fresh : List String, fresh.Nodup ∧ (∀ x, x ∈ fresh ↔ x ∈ found ∧ x ∉ s.seen) ∧
      found.foldl (see steps) s = ⟨s.seen ++ fresh, s.queue ++ fresh.map (·, steps)⟩ := by
  induction found generalizing s with
  | nil => exact ⟨[], List.nodup_nil, by simp, by simp⟩
  | cons a rest ih =>
      obtain ⟨fresh, hnodup, hfresh, hrest⟩ := ih (s.see steps a)
      rw [List.foldl_cons, hrest]
      by_cases ha : a ∈ s.seen
      · rw [see_of_mem ha] at hfresh ⊢
        refine ⟨fresh, hnodup, fun x => ?_, rfl⟩
        rw [hfresh, List.mem_cons]
        constructor
        · exact fun ⟨hx, hnew⟩ => ⟨.inr hx, hnew⟩
        · rintro ⟨rfl | hx, hnew⟩
          · exact absurd ha hnew
          · exact ⟨hx, hnew⟩
      · rw [see_of_not_mem ha] at hfresh ⊢
        refine ⟨a :: fresh, ?_, fun x => ?_, by simp⟩
        · refine List.nodup_cons.mpr ⟨fun hmem => ?_, hnodup⟩
          exact ((hfresh a).mp hmem).2 (by simp)
        · rw [List.mem_cons, List.mem_cons, hfresh, List.mem_append, List.mem_singleton]
          by_cases hx : x = a
          · simp [hx, ha]
          · simp [hx]

/-- The queue holds identifiers of a depth and of the next, the smaller depth in front. -/
structure Spans (depth : Nat) (queue : List (String × Nat)) : Prop where
  ordered : queue.Pairwise fun p q => p.2 ≤ q.2
  span : ∀ p ∈ queue, p.2 = depth ∨ p.2 = depth + 1

/-- Identifiers of the next depth are rightly put behind the queue. -/
theorem Spans.append {depth : Nat} {queue : List (String × Nat)} (h : Spans depth queue)
    (fresh : List String) : Spans depth (queue ++ fresh.map (·, depth + 1)) := by
  have hnext : ∀ p ∈ fresh.map (·, depth + 1), p.2 = depth + 1 := by
    intro p hp
    obtain ⟨x, _, rfl⟩ := List.mem_map.mp hp
    rfl
  constructor
  · refine List.pairwise_append.mpr ⟨h.ordered, ?_, ?_⟩
    · refine List.pairwise_of_forall_mem_list fun p hp q hq => ?_
      rw [hnext p hp, hnext q hq]
    · intro p hp q hq
      have hspan := h.span p hp
      rw [hnext q hq]
      omega
  · intro p hp
    rcases List.mem_append.mp hp with hp | hp
    · exact h.span p hp
    · exact .inr (hnext p hp)

theorem Spans.tail {depth : Nat} {p : String × Nat} {queue : List (String × Nat)}
    (h : Spans depth (p :: queue)) : Spans depth queue :=
  ⟨(List.pairwise_cons.mp h.ordered).2, fun q hq => h.span q (List.mem_cons_of_mem p hq)⟩

/-- The search has seen what lies within `depth` steps, and is about to look around from there. -/
structure Layered (g : Graph) (seeds : List String) (hops depth : Nat) (s : Search) : Prop where
  spans : Spans depth s.queue
  /-- The steps noted with an identifier lead there. -/
  sound : ∀ p ∈ s.queue, g.Within seeds p.2 p.1
  bounded : ∀ x ∈ s.seen, g.Within seeds hops x
  complete : ∀ x, g.Within seeds depth x → x ∈ s.seen
  /-- What lies farther away was seen from this depth, and waits at the back. -/
  farther : ∀ x ∈ s.seen, g.Within seeds depth x ∨ (x, depth + 1) ∈ s.queue
  /-- Everything around what lies within the depth was seen, unless it waits in front. -/
  around : ∀ x, g.Within seeds depth x → (x, depth) ∈ s.queue ∨ ∀ y, g.Step x y → y ∈ s.seen

section Run

variable {g : Graph} {seeds : List String} {hops depth : Nat} {s : Search}

/-- Once nothing of the depth is left in front, the search has arrived at the next depth. -/
theorem Layered.advance (h : Layered g seeds hops depth s) (hspent : ∀ p ∈ s.queue, p.2 ≠ depth) :
    Layered g seeds hops (depth + 1) s := by
  have haround : ∀ x, g.Within seeds depth x → ∀ y, g.Step x y → y ∈ s.seen := by
    intro x hx
    exact (h.around x hx).resolve_left fun hqueued => hspent _ hqueued rfl
  have hcomplete : ∀ x, g.Within seeds (depth + 1) x → x ∈ s.seen := by
    intro x hx
    rcases within_succ.mp hx with hx | ⟨w, hw, hstep⟩
    · exact h.complete x hx
    · exact haround w hw x hstep
  have hnext : ∀ p ∈ s.queue, p.2 = depth + 1 := by
    intro p hp
    exact (h.spans.span p hp).resolve_left (hspent p hp)
  refine ⟨⟨h.spans.ordered, fun p hp => .inl (hnext p hp)⟩, h.sound, h.bounded, hcomplete, ?_, ?_⟩
  · intro x hx
    rcases h.farther x hx with hnear | hqueued
    · exact .inl (hnear.mono (Nat.le_succ depth))
    · exact .inl (h.sound _ hqueued)
  · intro x hx
    rcases h.farther x (hcomplete x hx) with hnear | hqueued
    · exact .inr (haround x hnear)
    · exact .inl hqueued

/-- The depth of a search is that of the front of its queue. -/
theorem Layered.at_front {id : String} {steps : Nat} {rest : List (String × Nat)}
    {seen : List String} (h : Layered g seeds hops depth ⟨seen, (id, steps) :: rest⟩) :
    Layered g seeds hops steps ⟨seen, (id, steps) :: rest⟩ := by
  rcases h.spans.span (id, steps) List.mem_cons_self with heq | heq
  · obtain rfl : steps = depth := heq
    exact h
  · obtain rfl : steps = depth + 1 := heq
    refine h.advance fun p hp => ?_
    -- the front has the next depth already, and the rest is no nearer
    have hle : depth + 1 ≤ p.2 := by
      rcases List.mem_cons.mp hp with rfl | hp
      · exact Nat.le_refl _
      · exact (List.pairwise_cons.mp h.spans.ordered).1 p hp
    omega

/-- Looking around from the front of the queue keeps the search layered. -/
theorem Layered.expand {id : String} {rest : List (String × Nat)} {seen : List String}
    (h : Layered g seeds hops depth ⟨seen, (id, depth) :: rest⟩) (hdepth : depth < hops) :
    Layered g seeds hops depth
      ((neighbours g.links id).foldl (see (depth + 1)) ⟨seen, rest⟩) := by
  obtain ⟨fresh, _, hfresh, hfold⟩ := foldl_see (depth + 1) (neighbours g.links id) ⟨seen, rest⟩
  have hnew : ∀ x ∈ fresh, g.Within seeds (depth + 1) x := by
    intro x hx
    have hstep : g.Step id x := adjacent_links.mp (mem_neighbours.mp ((hfresh x).mp hx).1)
    exact (h.sound (id, depth) List.mem_cons_self).step hstep
  have hseen : ∀ y, g.Step id y → y ∈ seen ++ fresh := by
    intro y hstep
    by_cases hy : y ∈ seen
    · exact List.mem_append_left _ hy
    · refine List.mem_append_right _ ((hfresh y).mpr ⟨?_, hy⟩)
      exact mem_neighbours.mpr (adjacent_links.mpr hstep)
  rw [hfold]
  refine ⟨h.spans.tail.append fresh, ?_, ?_, ?_, ?_, ?_⟩
  · intro p hp
    rcases List.mem_append.mp hp with hp | hp
    · exact h.sound p (List.mem_cons_of_mem _ hp)
    · obtain ⟨x, hx, rfl⟩ := List.mem_map.mp hp
      exact hnew x hx
  · intro x hx
    rcases List.mem_append.mp hx with hx | hx
    · exact h.bounded x hx
    · exact (hnew x hx).mono hdepth
  · exact fun x hx => List.mem_append_left _ (h.complete x hx)
  · intro x hx
    rcases List.mem_append.mp hx with hx | hx
    · refine (h.farther x hx).imp_right fun hqueued => List.mem_append_left _ ?_
      -- the front was of the smaller depth, so it was not this entry
      refine (List.mem_cons.mp hqueued).resolve_left fun heq => ?_
      exact Nat.succ_ne_self depth (Prod.mk.inj heq).2
    · exact .inr (List.mem_append_right _ (List.mem_map.mpr ⟨x, hx, rfl⟩))
  · intro x hx
    rcases h.around x hx with hqueued | haround
    · rcases List.mem_cons.mp hqueued with heq | hqueued
      · obtain rfl : x = id := (Prod.mk.inj heq).1
        exact .inr hseen
      · exact .inl (List.mem_append_left _ hqueued)
    · exact .inr fun y hstep => List.mem_append_left _ (haround y hstep)

/-- Identifiers at the limit are taken from the queue without looking around. -/
theorem run_of_spent (links : List GraphEdge) (hspent : ∀ p ∈ s.queue, hops ≤ p.2) :
    run links hops s = s.seen := by
  fun_induction run links hops s with
  | case1 seen => rfl
  | case2 seen id steps rest hlt ih =>
      exact absurd hlt (Nat.not_lt.mpr (hspent (id, steps) List.mem_cons_self))
  | case3 seen id steps rest hlt ih => exact ih fun p hp => hspent p (List.mem_cons_of_mem _ hp)

/-- A layered search that has nothing left to do has seen everything near enough. -/
theorem Layered.mem_seen_of_empty {seen : List String}
    (h : Layered g seeds hops depth ⟨seen, []⟩) {v : String} (hv : g.Within seeds hops v) :
    v ∈ seen := by
  have hdeeper : ∀ k, Layered g seeds hops (depth + k) ⟨seen, []⟩ := by
    intro k
    induction k with
    | zero => exact h
    | succ k ih => exact ih.advance fun p hp => absurd hp List.not_mem_nil
  exact (hdeeper hops).complete v (hv.mono (Nat.le_add_left hops depth))

/-- A layered search ends with exactly what lies within its limit. -/
theorem Layered.mem_run (h : Layered g seeds hops depth s) {v : String} :
    v ∈ run g.links hops s ↔ g.Within seeds hops v := by
  fun_induction run g.links hops s generalizing depth with
  | case1 seen => exact ⟨h.bounded v, h.mem_seen_of_empty⟩
  | case2 seen id steps rest hlt ih => exact ih (h.at_front.expand hlt)
  | case3 seen id steps rest hlt ih =>
      have hfront := h.at_front
      have hlimit : hops ≤ steps := Nat.not_lt.mp hlt
      have hspent : ∀ p ∈ rest, hops ≤ p.2 := fun p hp =>
        hlimit.trans ((List.pairwise_cons.mp h.spans.ordered).1 p hp)
      rw [run_of_spent g.links (s := ⟨seen, rest⟩) hspent]
      exact ⟨h.bounded v, fun hv => hfront.complete v (hv.mono hlimit)⟩

theorem nodup_run (links : List GraphEdge) (hs : s.seen.Nodup) : (run links hops s).Nodup := by
  fun_induction run links hops s with
  | case1 seen => exact hs
  | case2 seen id steps rest hlt ih =>
      obtain ⟨fresh, hnodup, hfresh, hfold⟩ :=
        foldl_see (steps + 1) (neighbours links id) ⟨seen, rest⟩
      refine ih ?_
      rw [hfold]
      refine List.nodup_append.mpr ⟨hs, hnodup, ?_⟩
      rintro x hx y hy rfl
      exact ((hfresh x).mp hy).2 hx
  | case3 seen id steps rest hlt ih => exact ih hs

end Run

end Search

/-! ## What is reachable -/

section Reachable

variable {g : Graph} {seeds : List String} {hops : Nat}

/-- The search starts at the seeds that are nodes, in depth zero. -/
theorem layered_start (g : Graph) (seeds : List String) (hops : Nat) :
    Search.Layered g seeds hops 0
      ((seeds.filter g.ids.contains).foldl (Search.see 0) {}) := by
  obtain ⟨fresh, _, hfresh, hfold⟩ := Search.foldl_see 0 (seeds.filter g.ids.contains) {}
  have hmem : ∀ x, x ∈ fresh ↔ g.Within seeds 0 x := by
    intro x
    rw [hfresh, within_zero, List.mem_filter, List.contains_iff_mem, mem_ids, List.mem_map]
    exact and_iff_left List.not_mem_nil
  have hqueue : ∀ p ∈ fresh.map (·, 0), p.2 = 0 ∧ g.Within seeds 0 p.1 := by
    intro p hp
    obtain ⟨x, hx, rfl⟩ := List.mem_map.mp hp
    exact ⟨rfl, (hmem x).mp hx⟩
  rw [hfold]
  refine ⟨⟨?_, fun p hp => .inl (hqueue p hp).1⟩, ?_, ?_, fun x hx => (hmem x).mpr hx, ?_, ?_⟩
  · refine List.pairwise_of_forall_mem_list fun p hp q hq => ?_
    rw [(hqueue p hp).1, (hqueue q hq).1]
  · intro p hp
    rw [(hqueue p hp).1]
    exact (hqueue p hp).2
  · intro x hx
    exact ((hmem x).mp hx).mono (Nat.zero_le hops)
  · intro x hx
    exact .inl ((hmem x).mp hx)
  · intro x hx
    exact .inl (List.mem_map.mpr ⟨x, (hmem x).mpr hx, rfl⟩)

/-- What is reachable is what a short enough walk leads to. -/
theorem mem_reachable {v : String} : v ∈ g.reachable seeds hops ↔ g.Within seeds hops v :=
  (layered_start g seeds hops).mem_run

theorem nodup_reachable (g : Graph) (seeds : List String) (hops : Nat) :
    (g.reachable seeds hops).Nodup := by
  refine Search.nodup_run g.links ?_
  obtain ⟨fresh, hnodup, _, hfold⟩ := Search.foldl_see 0 (seeds.filter g.ids.contains) {}
  rw [hfold]
  exact hnodup

/-- What is reachable, as a set. -/
def ball (g : Graph) (seeds : List String) (hops : Nat) : Finset String :=
  (g.reachable seeds hops).toFinset

theorem mem_ball {v : String} : v ∈ g.ball seeds hops ↔ g.Within seeds hops v := by
  rw [ball, List.mem_toFinset, mem_reachable]

theorem ball_mono (g : Graph) (seeds : List String) : Monotone (g.ball seeds) := by
  intro h k hle v hv
  rw [mem_ball] at hv ⊢
  exact hv.mono hle

theorem ball_subset_nodes : g.ball seeds hops ⊆ (g.nodes.map (·.id)).toFinset := by
  intro v hv
  exact List.mem_toFinset.mpr (mem_ball.mp hv).mem_nodes

/-- What one step more does not add, no further step adds. -/
theorem ball_stable (h : g.ball seeds (hops + 1) ⊆ g.ball seeds hops) :
    g.ball seeds (hops + 2) ⊆ g.ball seeds (hops + 1) := by
  intro v hv
  rw [mem_ball] at hv ⊢
  rcases within_succ.mp hv with hv | ⟨w, hw, hstep⟩
  · exact hv
  · have hnear : g.Within seeds hops w := mem_ball.mp (h (mem_ball.mpr hw))
    exact hnear.step hstep

/-- Two balls of one size, one step apart, are followed by a third of that size. -/
theorem card_ball_stable (h : (g.ball seeds hops).card = (g.ball seeds (hops + 1)).card) :
    (g.ball seeds (hops + 1)).card = (g.ball seeds (hops + 2)).card := by
  have heq : g.ball seeds hops = g.ball seeds (hops + 1) :=
    Finset.eq_of_subset_of_card_le (ball_mono g seeds (Nat.le_succ hops)) h.ge
  have hgrows := ball_mono g seeds (Nat.le_succ (hops + 1))
  have hstops := ball_stable heq.ge
  rw [hgrows.antisymm hstops]

/-- More steps than there are nodes reach nothing new: balls grow, none is larger than the set of
identifiers, and one that does not grow once never grows again. -/
theorem mem_reachable_of_card_le {v : String} (hcard : (g.nodes.map (·.id)).toFinset.card ≤ hops) :
    v ∈ g.reachable seeds hops ↔
      v ∈ g.reachable seeds (g.nodes.map (·.id)).toFinset.card := by
  have hsize : (g.ball seeds hops).card =
      (g.ball seeds (g.nodes.map (·.id)).toFinset.card).card :=
    Nat.stabilises_of_monotone (f := fun k => (g.ball seeds k).card)
      (fun _ _ hle => Finset.card_le_card (ball_mono g seeds hle))
      (fun _ => Finset.card_le_card ball_subset_nodes) (fun _ => card_ball_stable) hcard
  have heq := Finset.eq_of_subset_of_card_le (ball_mono g seeds hcard) hsize.le
  rw [mem_reachable, mem_reachable, ← mem_ball, ← mem_ball, heq]

/-- **Bounded reachability is the ball around the seeds**, in every graph: what is reachable with a
limit is, without repetition, what a walk of at most so many steps leads to from a seed that is a
node.  It grows with the limit, and not beyond the number of identifiers. -/
theorem reachable_eq_ball (g : Graph) (seeds : List String) :
    (∀ hops v, v ∈ g.reachable seeds hops ↔
      ∃ u ∈ seeds, u ∈ g.nodes.map (·.id) ∧ ∃ n ≤ hops, g.Walk u n v) ∧
    (∀ hops, (g.reachable seeds hops).Nodup) ∧
    (∀ h k, h ≤ k → g.reachable seeds h ⊆ g.reachable seeds k) ∧
    ∀ hops, (g.nodes.map (·.id)).toFinset.card ≤ hops → ∀ v,
      v ∈ g.reachable seeds hops ↔
        v ∈ g.reachable seeds (g.nodes.map (·.id)).toFinset.card := by
  refine ⟨fun hops v => mem_reachable, nodup_reachable g seeds, ?_, ?_⟩
  · intro h k hle v hv
    exact mem_reachable.mpr ((mem_reachable.mp hv).mono hle)
  · exact fun hops hcard v => mem_reachable_of_card_le hcard

/-- A cycle with a tail that ends nowhere, and one node listed twice. -/
def loopGraph : Graph where
  nodes := ["a", "b", "c", "d", "b"].map fun id => ⟨id, .resolver, id, "", .empty⟩
  edges := [⟨"e1", "a", "b", .calls⟩, ⟨"e2", "b", "c", .calls⟩, ⟨"e3", "c", "a", .calls⟩,
    ⟨"e4", "c", "d", .calls⟩, ⟨"e5", "d", "x", .calls⟩]

theorem reachable_eq_ball_loop :
    loopGraph.reachable ["z", "a"] 1 = ["a", "b", "c"] ∧
      (∀ v, v ∈ loopGraph.reachable ["z", "a"] 1 ↔
        ∃ u ∈ ["z", "a"], u ∈ loopGraph.nodes.map (·.id) ∧ ∃ n ≤ 1, loopGraph.Walk u n v) ∧
      loopGraph.reachable ["z", "a"] 1 ⊆ loopGraph.reachable ["z", "a"] 2 ∧
      (loopGraph.nodes.map (·.id)).toFinset.card = 4 ∧
      ∀ v, v ∈ loopGraph.reachable ["z", "a"] 9 ↔
        v ∈ loopGraph.reachable ["z", "a"] (loopGraph.nodes.map (·.id)).toFinset.card := by
  have hball := reachable_eq_ball loopGraph ["z", "a"]
  have hcard : (loopGraph.nodes.map (·.id)).toFinset.card = 4 := by decide
  exact ⟨by decide +kernel, hball.1 1, hball.2.2.1 1 2 (by decide), hcard,
    hball.2.2.2 9 (by rw [hcard]; decide)⟩

end Reachable

end Graph

end ApiAtlas
