import ApiAtlas.Proofs.Layer
import ApiAtlas.Proofs.Syntax.Place
import ApiAtlas.Proofs.Text.Run
import ApiAtlas.Resolver.Scan
set_option autoImplicit false

/-!
# Resolvers: the outbound calls are exact

The two shapes that point to a gRPC method lie inside each other: a looked-up service is itself the
result of a call on a client member, and its method is called in turn.  Each shape is recognised at
one node, the call of a client or the member of a service, and the name of the lookup keeps the
first shape from taking the second.  So a body points to a method at definite places, none of them
inside a class, and the calls of the resolver are the methods in the order of their first places.
-/

namespace ApiAtlas.Resolver

open Syntax

/-- The node points to the gRPC method: it is a call on a client member of `this`, or a member of a
service that was looked up by name. -/
inductive PointsTo (settings : ResolverSettings) : Node → String → Prop
  | client {member method hint id : String} {args : List Node}
      (hmethod : method ≠ settings.serviceLookup) (hhint : hint ∈ settings.callHints)
      (hmember : Text.lowered hint.toList <:+: Text.lowered member.toList)
      (hid : Identifier.rpcOfMember? member method = some id) :
      PointsTo settings (.call (.member (.member .self member) method) args) id
  | service {base : Node} {service property : String} {rest : List Node}
      (hservice : service ≠ "") (hproperty : property ≠ "") :
      PointsTo settings
        (.member (.call (.member base settings.serviceLookup) (.text service :: rest)) property)
        (Identifier.rpc service (Identifier.titled property))

/-- The body points to the gRPC method at the place, which is not inside a class. -/
def PointsAt (settings : ResolverSettings) (body : List Node) (place : Place) (id : String) :
    Prop :=
  ∃ n, LocatedOutsideClasses body place n ∧ PointsTo settings n id

/-- The calls are the gRPC methods that the body points to, each once and in the order of their
first places. -/
structure CallsExactly (settings : ResolverSettings) (body : List Node) (calls : List String) :
    Prop where
  distinct : calls.Nodup
  mem_iff : ∀ id, id ∈ calls ↔ ∃ place, PointsAt settings body place id
  ordered : calls.Pairwise fun x y =>
    ∃ first, PointsAt settings body first x ∧
      ∀ place, PointsAt settings body place y → first.Before place

section Visits

variable {settings : ResolverSettings}

theorem clientMember?_eq_some {n : Node} {name : String} :
    clientMember? settings n = some name ↔
      n = .member .self name ∧ ∃ hint ∈ settings.callHints,
        Text.lowered hint.toList <:+: Text.lowered name.toList := by
  unfold clientMember?
  split
  · next member =>
    simp only [List.any_eq_true, Text.occursIn_iff, Node.member.injEq, true_and]
    constructor
    · intro h
      split at h
      · next hhint =>
        obtain rfl := Option.some.inj h
        exact ⟨rfl, hhint⟩
      · cases h
    · rintro ⟨rfl, hhint⟩
      rw [if_pos hhint]
  · next hother =>
    simp only [reduceCtorEq, false_iff, not_and]
    intro hn
    exact absurd hn (hother name)

theorem lookedUpService?_eq_some {n : Node} {service : String} :
    lookedUpService? settings n = some service ↔
      ∃ base rest, n = .call (.member base settings.serviceLookup) (.text service :: rest) := by
  unfold lookedUpService?
  split
  · next base property args =>
    constructor
    · intro h
      split at h
      · next hproperty =>
        obtain rfl := beq_iff_eq.mp hproperty
        obtain ⟨first, hfirst, htext⟩ := Option.bind_eq_some_iff.mp h
        obtain ⟨rest, rfl⟩ := List.head?_eq_some_iff.mp hfirst
        cases first with
        | text value =>
            obtain rfl := Option.some.inj htext
            exact ⟨base, rest, rfl⟩
        | _ => cases htext
      · cases h
    · rintro ⟨base, rest, hn⟩
      cases hn
      simp [Node.text?]
  · next hother =>
    simp only [reduceCtorEq, false_iff, not_exists]
    intro base rest hn
    exact hother _ _ _ hn

/-- What a visit points to is what its node points to. -/
theorem outbound?_iff {n : Node} {id : String} :
    n.visit?.bind (outbound? settings) = some id ↔ PointsTo settings n id := by
  constructor
  · intro h
    cases n with
    | call callee args =>
        cases callee with
        | member receiver property =>
            have hcall : outbound? settings (.call (.member receiver property) args) = some id := h
            simp only [outbound?] at hcall
            split at hcall
            · cases hcall
            · next hlookup =>
              obtain ⟨client, hclient, hid⟩ := Option.bind_eq_some_iff.mp hcall
              obtain ⟨rfl, hint, hhint, hmember⟩ := clientMember?_eq_some.mp hclient
              exact .client (fun heq => hlookup (beq_iff_eq.mpr heq)) hhint hmember hid
        | _ => cases h
    | member receiver property =>
        have hmember : outbound? settings (.member receiver property) = some id := h
        simp only [outbound?] at hmember
        split at hmember
        · next service hservice =>
          split at hmember
          · cases hmember
          · next hempty =>
            obtain ⟨base, rest, rfl⟩ := lookedUpService?_eq_some.mp hservice
            obtain rfl := Option.some.inj hmember
            simp only [Bool.or_eq_true, String.isEmpty_iff, not_or] at hempty
            exact .service hempty.1 hempty.2
        · cases hmember
    | importing | classNode | method | template => cases h
    | identifier | text | object | self | other => cases h
  · intro h
    cases h with
    | @client member method hint _ args hmethod hhint hmember hid =>
        have hclient : clientMember? settings (.member .self member) = some member :=
          clientMember?_eq_some.mpr ⟨rfl, hint, hhint, hmember⟩
        simp [Node.visit?, outbound?, hmethod, hclient, hid]
    | @service base service property rest hservice hproperty =>
        have hfound : lookedUpService? settings
            (.call (.member base settings.serviceLookup) (.text service :: rest)) = some service :=
          lookedUpService?_eq_some.mpr ⟨base, rest, rfl⟩
        simp [Node.visit?, outbound?, hfound, hservice, hproperty]

end Visits

/-- Of entries in the order of their places, the first occurrences come in the order of their first
places. -/
theorem pairwise_eraseDups (entries : List (Place × String))
    (h : entries.Pairwise fun a b => a.1.Before b.1) :
    (entries.map (·.2)).eraseDups.Pairwise fun x y =>
      ∃ first, (first, x) ∈ entries ∧ ∀ place, (place, y) ∈ entries → first.Before place := by
  -- `eraseDups` goes on with what differs from the head, so the induction is on the length
  induction hlength : entries.length using Nat.strongRecOn generalizing entries with
  | _ length ih =>
      cases entries with
      | nil => exact List.Pairwise.nil
      | cons e rest =>
          obtain ⟨hfirst, hrest⟩ := List.pairwise_cons.mp h
          have hother : ∀ {x : String} {p : Place}, x ≠ e.2 →
              ((p, x) ∈ e :: rest ↔ (p, x) ∈ rest.filter fun d => !d.2 == e.2) := by
            intro x p hx
            simp only [List.mem_cons, List.mem_filter, Bool.not_eq_true', beq_eq_false_iff_ne]
            constructor
            · rintro (rfl | hmem)
              · exact absurd rfl hx
              · exact ⟨hmem, hx⟩
            · exact fun hmem => .inr hmem.1
          have hfilter : (rest.map (·.2)).filter (fun x => !x == e.2) =
              (rest.filter fun d => !d.2 == e.2).map (·.2) := by
            rw [List.filter_map]
            rfl
          have hshorter : (rest.filter fun d => !d.2 == e.2).length < length := by
            rw [← hlength]
            exact Nat.lt_succ_of_le (List.length_filter_le _ rest)
          rw [List.map_cons, List.eraseDups_cons, hfilter]
          refine List.pairwise_cons.mpr ⟨?_, ?_⟩
          · intro y hy
            obtain ⟨d, hd, rfl⟩ := List.mem_map.mp (List.mem_eraseDups.mp hy)
            have hne : d.2 ≠ e.2 := by simpa using (List.mem_filter.mp hd).2
            refine ⟨e.1, List.mem_cons_self, ?_⟩
            intro place hplace
            exact hfirst _ (List.mem_of_mem_filter ((hother hne).mp hplace))
          · refine (ih _ hshorter _ (hrest.filter _) rfl).imp_of_mem ?_
            intro x y hx hy hxy
            obtain ⟨first, hmem, hbefore⟩ := hxy
            have hne : ∀ {z : String}, z ∈ ((rest.filter fun d => !d.2 == e.2).map
                (·.2)).eraseDups → z ≠ e.2 := by
              intro z hz
              obtain ⟨d, hd, rfl⟩ := List.mem_map.mp (List.mem_eraseDups.mp hz)
              simpa using (List.mem_filter.mp hd).2
            refine ⟨first, (hother (hne hx)).mpr hmem, ?_⟩
            intro place hplace
            exact hbefore place ((hother (hne hy)).mp hplace)

theorem callsOf_exactly (settings : ResolverSettings) (body : List Node) :
    CallsExactly settings body (callsOf settings body) := by
  obtain ⟨entries, hentries, hfound⟩ := exists_entries entersAs_outsideClasses
    (f := outbound? settings) (fun _ => rfl) body
  have hplaces : ∀ place id, (place, id) ∈ entries ↔ PointsAt settings body place id :=
    (hentries.congr fun _ _ => outbound?_iff).mem_iff
  have hcalls : callsOf settings body = (entries.map (·.2)).eraseDups := by
    rw [← hfound, ← Text.distinct_eq_eraseDups]
    rfl
  refine ⟨Text.nodup_distinct _, ?_, ?_⟩
  · intro id
    rw [hcalls, List.mem_eraseDups, List.mem_map]
    constructor
    · rintro ⟨⟨place, _⟩, hmem, rfl⟩
      exact ⟨place, (hplaces _ _).mp hmem⟩
    · rintro ⟨place, hplace⟩
      exact ⟨(place, id), (hplaces _ _).mpr hplace, rfl⟩
  · rw [hcalls]
    refine (pairwise_eraseDups entries hentries.sorted).imp ?_
    rintro x y ⟨first, hmem, hbefore⟩
    refine ⟨first, (hplaces _ _).mp hmem, ?_⟩
    intro place hplace
    exact hbefore place ((hplaces _ _).mpr hplace)

/-- **The outbound calls of a resolver are exact.**  A marked method of a resolver class becomes a
resolver of the program, and its calls are the gRPC methods that its body points to outside of
classes, without repetition and in the order of their first places. -/
theorem outboundCalls_exact (settings : ResolverSettings) (file : RawText) {program : Program}
    {place : Place} {owner name : String} {decorators marks : List Decorator}
    {members body : List Node} {resolver : Resolver}
    (hclass : LocatedOutsideClasses program place (.classNode (some owner) decorators members))
    (hmarked : ∃ d ∈ decorators, d.name ∈ settings.markers.resolver)
    (hmethod : .method name marks body ∈ members)
    (hresolver : ofMethod? settings file owner name marks body = some resolver) :
    resolver ∈ ofProgram settings file program ∧
      CallsExactly settings body resolver.outboundCalls := by
  constructor
  · have hvisit : Visit.classNode (some owner) decorators members ∈ visitsOutsideClasses program :=
      hclass.mem_listVisits entersAs_outsideClasses rfl
    refine List.mem_flatMap.mpr ⟨_, hvisit, ?_⟩
    have hany : decorators.any (·.isAny settings.markers.resolver) = true := by
      obtain ⟨d, hd, hname⟩ := hmarked
      exact List.any_eq_true.mpr ⟨d, hd, List.contains_iff_mem.mpr hname⟩
    simp only [ofVisit, hany, if_true]
    exact List.mem_filterMap.mpr ⟨_, hmethod, hresolver⟩
  · obtain ⟨_, _, hresult⟩ := Option.bind_eq_some_iff.mp hresolver
    obtain rfl := Option.some.inj hresult
    exact callsOf_exactly settings body

/-- A body that looks up a service on one client and calls another client twice, once inside a
class. -/
def orderBody : List Node :=
  [.other [.call (.member (.call (.member (.member .self "grpcClient") "getService")
      [.text "Billing"]) "charge") []],
    .call (.member (.member .self "orderClient") "create") [],
    .classNode none [] [.call (.member (.member .self "orderClient") "cancel") []]]

/-- A resolver class with one method, whose body this is. -/
def orderClass : Node :=
  .classNode (some "Shop") [.mk "Resolver" []] [.method "order" [.mk "Query" []] orderBody]

theorem outboundCalls_exact_order :
    LocatedOutsideClasses [.other [orderClass]] [0, 0] orderClass ∧
    ⟨"resolver:Shop.order", "Shop", "order", .query, "order", "shop.ts",
        ["grpc:Billing.Charge", "grpc:OrderService.Create"]⟩ ∈
      ofProgram {} "shop.ts" [.other [orderClass]] ∧
    CallsExactly {} orderBody ["grpc:Billing.Charge", "grpc:OrderService.Create"] := by
  have hclass : LocatedOutsideClasses [.other [orderClass]] [0, 0] orderClass :=
    .deeper rfl rfl (.here rfl)
  refine ⟨hclass, ?_⟩
  refine outboundCalls_exact {} "shop.ts" hclass ?_ (List.mem_singleton_self _) ?_
  · exact ⟨.mk "Resolver" [], List.mem_singleton_self _, List.mem_singleton_self _⟩
  · decide +kernel

end ApiAtlas.Resolver
