import Mathlib.Data.List.Forall2
import Mathlib.Data.List.Nodup
import ApiAtlas.Proofs.Graph.WellFormed
set_option autoImplicit false

/-!
# Accounts of operations and calls

The second pass looks for the resolver of each operation, the third for the method of each outbound
call.  Each operation and each call leaves an account: the link that was found for it and the
warning that was raised over it.  The links of all accounts are edges of the graph, none is dropped
afterwards, and the warnings of all accounts stand behind those of the layers, in order.  Nothing is
asked of the layers here: identifiers may repeat, and entities of different layers may share them.
Only if the file of a kept entity is no text is there no graph to tell of them.
-/

namespace ApiAtlas

/-! ## Accounts -/

/-- The resolver can answer the operation: it is of a kind that answers such operations and exposes
the name of the field. -/
def Resolver.Answers (r : Resolver) (op : ApiOperation) : Prop :=
  r.kind.answers op.kind = true ∧ r.exposedName = op.field

namespace Link

/-- The account of an operation: the link to the first resolver that answers it, or one warning if
there is none. -/
inductive Resolved (resolvers : List Resolver) (op : ApiOperation) : Layer Link → Prop
  | answered (earlier later : List Resolver) (r : Resolver) :
      resolvers = earlier ++ r :: later → (∀ q ∈ earlier, ¬ q.Answers op) → r.Answers op →
      Resolved resolvers op ⟨[⟨op.id, r.id, .resolves⟩], []⟩
  | unanswered :
      (∀ r ∈ resolvers, ¬ r.Answers op) → Resolved resolvers op ⟨[], [noResolverWarning op]⟩

/-- The account of an outbound call: the link to the method that the exact matcher finds; or else
the link to the one that the first successful guess finds, with one warning; or only one warning if
no matcher finds a method. -/
inductive Called (chain : MatcherChain) (methods : List RpcMethod) (r : Resolver)
    (candidate : String) : Layer Link → Prop
  | exact (m : RpcMethod) :
      m ∈ methods → chain.exact.find candidate methods = some m →
      Called chain methods r candidate ⟨[⟨r.id, m.id, .calls⟩], []⟩
  | guessed (earlier later : List Matcher) (matcher : Matcher) (m : RpcMethod) :
      m ∈ methods → chain.exact.find candidate methods = none →
      chain.guesses = earlier ++ matcher :: later →
      (∀ other ∈ earlier, other.find candidate methods = none) →
      matcher.find candidate methods = some m →
      Called chain methods r candidate ⟨[⟨r.id, m.id, .calls⟩], [guessWarning candidate m]⟩
  | unmatched :
      (∀ matcher ∈ chain.exact :: chain.guesses, matcher.find candidate methods = none) →
      Called chain methods r candidate ⟨[], [noServiceWarning candidate]⟩

theorem resolution_resolved (resolvers : List Resolver) (op : ApiOperation) :
    Resolved resolvers op (resolution resolvers op) := by
  have hanswers : ∀ r : Resolver,
      (r.kind.answers op.kind && r.exposedName == op.field) = true ↔ r.Answers op := by
    intro r
    rw [Bool.and_eq_true, beq_iff_eq]
    exact Iff.rfl
  unfold resolution
  split
  · next r hr =>
    obtain ⟨hfound, earlier, later, hsplit, hearlier⟩ := List.find?_eq_some_iff_append.mp hr
    refine .answered earlier later r hsplit ?_ ((hanswers r).mp hfound)
    intro q hq hq'
    have hfalse := hearlier q hq
    rw [(hanswers q).mpr hq'] at hfalse
    exact absurd hfalse (by decide)
  · next hnone =>
    refine .unanswered ?_
    intro r hr hr'
    exact List.find?_eq_none.mp hnone r hr ((hanswers r).mpr hr')

theorem call_called {chain : MatcherChain} (hchain : chain.Selective) (methods : List RpcMethod)
    (r : Resolver) (candidate : String) :
    Called chain methods r candidate (call chain methods r candidate) := by
  unfold call
  cases hresolve : chain.resolve candidate methods with
  | exact m =>
      have hexact := MatcherChain.resolve_eq_exact_iff.mp hresolve
      exact .exact m (hchain chain.exact List.mem_cons_self _ _ _ hexact) hexact
  | guessed m name =>
      obtain ⟨hexact, hguess⟩ := MatcherChain.resolve_eq_guessed_iff.mp hresolve
      obtain ⟨earlier, matcher, later, found, hsplit, hearlier, hfound, houtcome⟩ :=
        MatcherChain.guess?_eq_some_iff.mp hguess
      cases houtcome
      have hmatcher : matcher ∈ chain.exact :: chain.guesses := by
        rw [hsplit]
        exact List.mem_cons_of_mem _ (List.mem_append_right _ List.mem_cons_self)
      exact .guessed earlier later matcher m (hchain matcher hmatcher _ _ _ hfound) hexact hsplit
        hearlier hfound
  | unmatched => exact .unmatched (MatcherChain.resolve_eq_unmatched_iff.mp hresolve)

end Link

/-! ## The passes as lists of accounts -/

namespace Layers

/-- The warnings that a layer reports; a missing layer reports its fault. -/
def reported {α : Type} : LayerResult α → List String
  | .ok layer => layer.warnings
  | .error fault => [fault.message]

/-- The warnings of each layer. -/
def reports (layers : Layers) : NodeKind → List String
  | .screen => reported layers.screens
  | .operation => reported layers.operations
  | .resolver => reported layers.resolvers
  | .rpc => reported layers.rpcMethods

theorem settled_warnings {α : Type} (result : LayerResult α) :
    (settled result).warnings = reported result := by
  cases result <;> rfl

/-- The outbound calls of the resolvers, each with the resolver that makes it. -/
def outboundCalls (layers : Layers) : List (Resolver × String) :=
  layers.keptResolvers.flatMap fun r => r.outboundCalls.map fun candidate => (r, candidate)

end Layers

namespace Link

/-- The accounts of the operations. -/
def resolutionAccounts (layers : Layers) : List (Layer Link) :=
  layers.keptOperations.map (resolution layers.keptResolvers)

/-- The accounts of the outbound calls. -/
def callAccounts (chain : MatcherChain) (layers : Layers) : List (Layer Link) :=
  layers.outboundCalls.map fun c => call chain layers.keptMethods c.1 c.2

theorem entities_resolutionAccounts (layers : Layers) :
    (resolutionAccounts layers).flatMap (·.entities) = resolutions layers := by
  rw [resolutionAccounts, List.flatMap_map, resolutions]

/-- What the calls of the resolvers contribute, resolver by resolver, is what the accounts
contribute one by one. -/
theorem flatMap_callAccounts {β : Type} (chain : MatcherChain) (layers : Layers)
    (part : Layer Link → List β) :
    (callAccounts chain layers).flatMap part =
      layers.keptResolvers.flatMap fun r =>
        (r.outboundCalls.map (call chain layers.keptMethods r)).flatMap part := by
  simp only [callAccounts, Layers.outboundCalls, List.flatMap_map, List.flatMap_assoc]

theorem entities_callAccounts (chain : MatcherChain) (layers : Layers) :
    (callAccounts chain layers).flatMap (·.entities) = allCalls chain layers := by
  simp only [flatMap_callAccounts, allCalls, calls, Layer.join_entities]

theorem resolutionAccounts_resolved (layers : Layers) :
    List.Forall₂ (Resolved layers.keptResolvers) layers.keptOperations
      (resolutionAccounts layers) := by
  rw [resolutionAccounts, List.forall₂_map_right_iff, List.forall₂_same]
  intro op _
  exact resolution_resolved layers.keptResolvers op

theorem callAccounts_called {chain : MatcherChain} (hchain : chain.Selective) (layers : Layers) :
    List.Forall₂ (fun c => Called chain layers.keptMethods c.1 c.2) layers.outboundCalls
      (callAccounts chain layers) := by
  rw [callAccounts, List.forall₂_map_right_iff, List.forall₂_same]
  intro c _
  exact call_called hchain layers.keptMethods c.1 c.2

theorem noResolverWarning_eq_iff {op other : ApiOperation} :
    noResolverWarning op = noResolverWarning other ↔ op.id = other.id :=
  String.append_right_inj _

/-- One operation contributes to the account of its own identifier, once, and to no other. -/
theorem count_resolution (resolvers : List Resolver) (op other : ApiOperation) :
    (resolution resolvers other).entities.countP (·.source == op.id)
        + (resolution resolvers other).warnings.count (noResolverWarning op) =
      [other.id].count op.id := by
  unfold resolution
  split
  · rw [List.count_nil, Nat.add_zero, List.countP_singleton, List.count_singleton]
  · rw [List.countP_nil, Nat.zero_add, List.count_singleton, List.count_singleton]
    simp only [beq_iff_eq, noResolverWarning_eq_iff]

theorem count_resolutions (resolvers : List Resolver) (operations : List ApiOperation)
    (op : ApiOperation) :
    (operations.flatMap fun o => (resolution resolvers o).entities).countP (·.source == op.id)
        + (operations.flatMap fun o => (resolution resolvers o).warnings).count
            (noResolverWarning op) =
      (operations.map ApiOperation.id).count op.id := by
  induction operations with
  | nil => rfl
  | cons first rest ih =>
      have hfirst := count_resolution resolvers op first
      rw [List.flatMap_cons, List.flatMap_cons, List.countP_append, List.count_append,
        List.map_cons, ← List.singleton_append, List.count_append, ← hfirst, ← ih]
      omega

/-! ## What the filter leaves -/

/-- The second pass links operations with resolvers that are nodes. -/
theorem isKnown_of_mem_resolutions {layers : Layers} {l : Link} (h : l ∈ resolutions layers) :
    l.isKnown layers.nodes = true := by
  obtain ⟨op, hop, r, hr, rfl⟩ := mem_resolutions.mp h
  have hresolver : r ∈ layers.keptResolvers := List.mem_of_find?_eq_some hr
  exact isKnown_iff.mpr ⟨⟨.shownOperation op, Layers.shownOperation_mem_nodes hop, rfl⟩,
    ⟨.shownResolver r, Layers.shownResolver_mem_nodes hresolver, rfl⟩⟩

/-- The third pass links resolvers with methods that are nodes, since matchers select. -/
theorem isKnown_of_mem_allCalls {chain : MatcherChain} (hchain : chain.Selective)
    {layers : Layers} {l : Link} (h : l ∈ allCalls chain layers) :
    l.isKnown layers.nodes = true := by
  obtain ⟨r, hr, candidate, _, m, hm, rfl⟩ := mem_allCalls.mp h
  have hmethod : m ∈ layers.keptMethods := hchain.resolve_mem hm
  exact isKnown_iff.mpr ⟨⟨.shownResolver r, Layers.shownResolver_mem_nodes hr, rfl⟩,
    ⟨.shownRpc m, Layers.shownRpc_mem_nodes hmethod, rfl⟩⟩

end Link

namespace Graph

/-- What the edges of a kind connect, in order. -/
def linksOf (g : Graph) (kind : EdgeKind) : List Link := (g.edgesOf kind).map GraphEdge.link

theorem linksOf_eq (g : Graph) (kind : EdgeKind) :
    g.linksOf kind = (g.edges.map GraphEdge.link).filter (·.kind == kind) := by
  rw [linksOf, edgesOf, List.filter_map]
  rfl

section Assembled

variable (settings : Settings) {chain : MatcherChain} (hchain : chain.Selective)
  (layers : Layers) (files : List SourceFile)

include hchain in
/-- Only links of the first pass can be dropped. -/
theorem links_assembled_passes :
    (assembled settings chain layers files).edges.map GraphEdge.link =
      (Link.allUses settings.analysis.graphql layers.keptScreens files).filter
          (Link.isKnown layers.nodes)
        ++ Link.resolutions layers ++ Link.allCalls chain layers := by
  have hresolutions : (Link.resolutions layers).filter (Link.isKnown layers.nodes) =
      Link.resolutions layers :=
    List.filter_eq_self.mpr fun _ => Link.isKnown_of_mem_resolutions
  have hcalls : (Link.allCalls chain layers).filter (Link.isKnown layers.nodes) =
      Link.allCalls chain layers :=
    List.filter_eq_self.mpr fun _ => Link.isKnown_of_mem_allCalls hchain
  rw [links_assembled, Link.inferred, List.filter_append, List.filter_append, hresolutions, hcalls]

include hchain in
/-- The edges of each kind are the links of the pass that infers them. -/
theorem linksOf_assembled (kind : EdgeKind) :
    (assembled settings chain layers files).linksOf kind =
      match kind with
      | .uses => (Link.allUses settings.analysis.graphql layers.keptScreens files).filter
          (Link.isKnown layers.nodes)
      | .resolves => Link.resolutions layers
      | .calls => Link.allCalls chain layers := by
  have huses : ∀ l ∈ (Link.allUses settings.analysis.graphql layers.keptScreens files).filter
      (Link.isKnown layers.nodes), l.kind = .uses :=
    fun l hl => Link.kind_of_mem_allUses (List.mem_filter.mp hl).1
  rw [linksOf_eq, links_assembled_passes settings hchain, List.filter_append, List.filter_append,
    filter_of_key huses (· == kind),
    filter_of_key (fun _ => Link.kind_of_mem_resolutions) (· == kind),
    filter_of_key (fun _ => Link.kind_of_mem_allCalls) (· == kind)]
  cases kind <;> simp

/-- The warnings of the layers stand before those of the second pass, and these before those of the
third. -/
theorem warnings_assembled :
    (assembled settings chain layers files).about.warnings =
      NodeKind.all.flatMap layers.reports
        ++ (Link.resolutionAccounts layers).flatMap (·.warnings)
        ++ (Link.callAccounts chain layers).flatMap (·.warnings) := by
  have hcalls : (Link.callAccounts chain layers).flatMap (·.warnings) =
      (Layer.join (layers.keptResolvers.map (Link.calls chain layers.keptMethods))).warnings := by
    rw [Link.flatMap_callAccounts, Layer.join_warnings, List.flatMap_map]
    simp only [Link.calls, Layer.join_warnings]
  have hresolutions : (Link.resolutionAccounts layers).flatMap (·.warnings) =
      (Layer.join (layers.keptOperations.map (Link.resolution layers.keptResolvers))).warnings := by
    rw [Layer.join_warnings, Link.resolutionAccounts]
  have hlayers : NodeKind.all.flatMap layers.reports =
      (Layers.settled layers.screens).warnings ++ (Layers.settled layers.operations).warnings
        ++ (Layers.settled layers.resolvers).warnings
        ++ (Layers.settled layers.rpcMethods).warnings := by
    simp [NodeKind.all, Layers.reports, Layers.settled_warnings]
  have huses : (Link.uses settings.analysis.graphql layers.keptScreens files).warnings = [] := by
    rw [Link.uses_eq]
  rw [← List.append_nil (NodeKind.all.flatMap layers.reports), ← huses, hlayers, hresolutions,
    hcalls]
  rfl

end Assembled

/-- What a graph tells of the operations and outbound calls of its layers. -/
structure Accounts (g : Graph) (chain : MatcherChain) (layers : Layers) : Prop where
  /-- Of several operations with one identifier the first is kept. -/
  operations : Layers.FirstWins ApiOperation.id (Layers.settled layers.operations).entities
    layers.keptOperations
  /-- Of several resolvers with one identifier the first is kept. -/
  resolvers : Layers.FirstWins Resolver.id (Layers.settled layers.resolvers).entities
    layers.keptResolvers
  /-- Of several methods with one identifier the first is kept. -/
  methods : Layers.FirstWins RpcMethod.id (Layers.settled layers.rpcMethods).entities
    layers.keptMethods
  /-- Each operation and each outbound call has an account.  The links of the accounts are the
  edges, and their warnings follow those of the layers. -/
  passes : ∃ resolutions calls : List (Layer Link),
    List.Forall₂ (Link.Resolved layers.keptResolvers) layers.keptOperations resolutions ∧
    List.Forall₂ (fun c => Link.Called chain layers.keptMethods c.1 c.2) layers.outboundCalls
      calls ∧
    g.linksOf .resolves = resolutions.flatMap (·.entities) ∧
    g.linksOf .calls = calls.flatMap (·.entities) ∧
    g.about.warnings = NodeKind.all.flatMap layers.reports ++ resolutions.flatMap (·.warnings)
      ++ calls.flatMap (·.warnings) ∧
    -- an operation has one edge and no warning, or one warning and no edge
    ∀ op ∈ layers.keptOperations,
      (g.linksOf .resolves).countP (·.source == op.id)
        + (resolutions.flatMap (·.warnings)).count (Link.noResolverWarning op) = 1

theorem assembled_accounts (settings : Settings) {chain : MatcherChain} (hchain : chain.Selective)
    (layers : Layers) (files : List SourceFile) :
    (assembled settings chain layers files).Accounts chain layers where
  operations := Layers.firstById_firstWins _ _
  resolvers := Layers.firstById_firstWins _ _
  methods := Layers.firstById_firstWins _ _
  passes := by
    have hresolves := linksOf_assembled settings hchain layers files .resolves
    have hcalls := linksOf_assembled settings hchain layers files .calls
    refine ⟨Link.resolutionAccounts layers, Link.callAccounts chain layers,
      Link.resolutionAccounts_resolved layers, Link.callAccounts_called hchain layers,
      ?_, ?_, warnings_assembled settings layers files, ?_⟩
    · rw [hresolves, Link.entities_resolutionAccounts]
    · rw [hcalls, Link.entities_callAccounts]
    · intro op hop
      have hcount := Link.count_resolutions layers.keptResolvers layers.keptOperations op
      rw [hresolves, Link.resolutionAccounts, List.flatMap_map]
      refine hcount.trans ?_
      exact List.count_eq_one_of_mem (Layers.firstById_nodup _ _) (List.mem_map_of_mem hop)

/-- **Every operation and every outbound call is accounted for**, whatever the layers and files: no
edge of the second and third pass is dropped, and the warnings are those of the layers, of the
second pass and of the third.  There is a graph exactly if the file of every kept entity is a
text. -/
theorem assemble_accounts (settings : Settings) (chain : MatcherChain) (hchain : chain.Selective)
    (layers : Layers) (files : List SourceFile) :
    (∀ g, assemble settings chain layers files = .ok g → g.Accounts chain layers) ∧
      ((∃ g, assemble settings chain layers files = .ok g) ↔ layers.Writable) := by
  constructor
  · intro g hg
    obtain ⟨-, rfl⟩ := assemble_eq_ok_iff.mp hg
    exact assembled_accounts settings hchain layers files
  · simp only [assemble_eq_ok_iff]
    exact ⟨fun ⟨_, hwritable, _⟩ => hwritable, fun hwritable => ⟨_, hwritable, rfl⟩⟩

/-- Layers without screens, with an operation found twice and one that nothing answers, and with a
resolver whose three calls are matched exactly, by a guess and not at all. -/
def orderLayers : Layers where
  screens := .error (.failed "screen" "no routes")
  operations := .ok
    ⟨[⟨"gql:query.order", .query, "order", none, "a.graphql", ""⟩,
      ⟨"gql:query.order", .query, "order", none, "b.graphql", ""⟩,
      ⟨"gql:mutation.pay", .mutation, "pay", none, "b.graphql", ""⟩],
      ["Failed to parse GraphQL in c.graphql: <syntax error>"]⟩
  resolvers := .ok
    ⟨[⟨"resolver:OrderResolver.order", "OrderResolver", "order", .query, "order", "order.ts",
      ["grpc:UserService.GetUser", "grpc:OrderService.GetOrder", "grpc:Mail.Send"]⟩], []⟩
  rpcMethods := .ok
    ⟨[⟨"grpc:UserService.GetUser", "UserService", "GetUser", "", "A", "B", "user.proto"⟩,
      ⟨"grpc:orderservice.get", "orderservice", "get", "", "A", "B", "order.proto"⟩], []⟩

theorem assemble_accounts_order :
    MatcherChain.standard.Selective ∧
      ∃ g, assemble {} .standard orderLayers [] = .ok g ∧ g.Accounts .standard orderLayers ∧
        g.about.warnings =
          ["screen extraction failed: no routes",
           "Failed to parse GraphQL in c.graphql: <syntax error>",
           "No resolver found for GraphQL field: gql:mutation.pay",
           "Fuzzy matched grpc:OrderService.GetOrder to grpc:orderservice.get",
           "No gRPC service found for dependency: grpc:Mail.Send"] := by
  have hchain := MatcherChain.standard_selective
  have hwritable : orderLayers.Writable := by decide +kernel
  obtain ⟨haccounts, hreturns⟩ := assemble_accounts {} .standard hchain orderLayers []
  obtain ⟨g, hg⟩ := hreturns.mpr hwritable
  refine ⟨hchain, g, hg, haccounts g hg, ?_⟩
  obtain ⟨-, rfl⟩ := assemble_eq_ok_iff.mp hg
  decide +kernel

end Graph

end ApiAtlas
