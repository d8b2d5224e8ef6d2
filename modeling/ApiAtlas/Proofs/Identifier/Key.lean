import ApiAtlas.Proofs.Identifier
import ApiAtlas.Proofs.Text.Run
set_option autoImplicit false

/-!
# Identifiers: reading them back

An identifier is put together from parts with colons, dots and slashes between them, and the parts
may hold these characters too.  What makes it readable is which of them comes first.  The word
before the first colon is the family; the first dot ends the kind of an operation, and the owner or
the service if there is no dot in it; the first slash starts the route of a screen if its namespace
has none.
-/

namespace ApiAtlas.Identifier

/-- What an identifier is made from. -/
inductive Key
  | screen (space : Option String) (route : String)
  | operation (kind : OperationKind) (field : String)
  | resolver (owner method : String)
  | rpc (service method : String)
  deriving DecidableEq, Repr, Inhabited

namespace Key

/-- The layer of an entity with the key. -/
def kind : Key → NodeKind
  | .screen _ _ => .screen
  | .operation _ _ => .operation
  | .resolver _ _ => .resolver
  | .rpc _ _ => .rpc

/-- The identifier of a key. -/
def text : Key → String
  | .screen space route => Identifier.screen space route
  | .operation kind field => Identifier.operation kind field
  | .resolver owner method => Identifier.resolver owner method
  | .rpc service method => Identifier.rpc service method

/-- The key with a missing namespace taken for an empty one. -/
def normal : Key → Key
  | .screen space route => .screen (some (space.getD "")) route
  | key => key

/-- The parts can be told apart: there is no slash in the namespace and one at the front of the
route, and there is no dot in the owner or the service. -/
def Separable : Key → Prop
  | .screen space route => '/' ∉ (space.getD "").toList ∧ route.toList.head? = some '/'
  | .operation _ _ => True
  | .resolver owner _ => '.' ∉ owner.toList
  | .rpc service _ => '.' ∉ service.toList

theorem text_names (key : Key) : key.kind.Names key.text := by
  cases key with
  | screen space route => exact screen_names space route
  | operation kind field => exact operation_names kind field
  | resolver owner method => exact resolver_names owner method
  | rpc service method => exact rpc_names service method

/-- Identifiers of different layers differ, whatever they are made from. -/
theorem kind_eq_of_text_eq {a b : Key} (h : a.text = b.text) : a.kind = b.kind :=
  NodeKind.eq_of_names a.text_names (h ▸ b.text_names)

end Key

/-! ## Dots -/

/-- The first dot ends the first part. -/
theorem dotted_inj {family a b x y : String} (ha : '.' ∉ a.toList) (hb : '.' ∉ b.toList) :
    family ++ a ++ "." ++ x = family ++ b ++ "." ++ y ↔ a = b ∧ x = y := by
  constructor
  · intro h
    have hlist : a.toList ++ '.' :: x.toList = b.toList ++ '.' :: y.toList := by
      rw [String.append_assoc, String.append_assoc, String.append_assoc, String.append_assoc,
        String.append_right_inj, ← String.toList_inj] at h
      simpa using h
    obtain ⟨hleft, hright⟩ := Text.append_cons_inj hlist ha hb
    exact ⟨String.toList_inj.mp hleft, String.toList_inj.mp hright⟩
  · rintro ⟨rfl, rfl⟩
    rfl

theorem dot_not_mem_name (kind : OperationKind) : '.' ∉ kind.name.toList := by
  cases kind <;> decide

theorem name_inj {a b : OperationKind} : a.name = b.name ↔ a = b := by
  cases a <;> cases b <;> decide

theorem operation_inj {a b : OperationKind} {x y : String} :
    operation a x = operation b y ↔ a = b ∧ x = y := by
  unfold operation
  rw [dotted_inj (dot_not_mem_name a) (dot_not_mem_name b), name_inj]

/-- The service can be read off the identifier of its method. -/
theorem serviceSegment?_rpc {service : String} (hne : service ≠ "") (hdot : '.' ∉ service.toList)
    (method : String) : serviceSegment? (rpc service method) = some service := by
  have hlist : (rpc service method).toList =
      "grpc".toList ++ ':' :: (service.toList ++ '.' :: method.toList) := by
    simp [rpc]
  have hcut : Text.cutAt? ':' (rpc service method).toList =
      some ("grpc".toList, service.toList ++ '.' :: method.toList) := by
    rw [hlist]
    exact Text.cutAt?_append (by decide) _
  have hrun : ∀ c ∈ service.toList, (c != '.') = true := by
    intro c hc
    rw [bne_iff_ne]
    rintro rfl
    exact hdot hc
  have hsegment : (service.toList ++ '.' :: method.toList).takeWhile (· != '.') =
      service.toList := Text.takeWhile_run hrun (Text.stops_cons.mpr (by decide))
  have hempty : service.toList.isEmpty = false := by simpa using hne
  simp only [serviceSegment?, hcut, Option.bind_eq_bind, Option.bind_some, hsegment, hempty,
    Bool.false_eq_true, if_false, String.ofList_toList]

/-! ## Slashes -/

/-- What stands between the family and the route: the namespace, unless it is empty, and a
colon. -/
def lead (space : String) : List Char := if space = "" then [] else space.toList ++ [':']

theorem toList_screen (space : Option String) (route : String) :
    (screen space route).toList = "screen:".toList ++ (lead (space.getD "") ++ route.toList) := by
  cases space with
  | none => simp [screen, lead]
  | some s => by_cases hs : s = "" <;> simp [screen, lead, hs]

/-- A namespace can be read off what stands before the route. -/
theorem lead_inj {a b : String} : lead a = lead b ↔ a = b := by
  unfold lead
  by_cases ha : a = "" <;> by_cases hb : b = "" <;> simp [ha, hb, String.toList_inj]

theorem slash_not_mem_lead {space : String} (h : '/' ∉ space.toList) : '/' ∉ lead space := by
  unfold lead
  split <;> simp [h]

/-- The route can be read off the identifier of a screen whose namespace is known. -/
theorem screen_route_inj {space : Option String} {r r' : String} :
    screen space r = screen space r' ↔ r = r' := by
  rw [← String.toList_inj, toList_screen, toList_screen, List.append_cancel_left_eq,
    List.append_cancel_left_eq, String.toList_inj]

/-- The first slash starts the route. -/
theorem screen_inj {a b : Option String} {r r' : String}
    (ha : (Key.screen a r).Separable) (hb : (Key.screen b r').Separable) :
    screen a r = screen b r' ↔ a.getD "" = b.getD "" ∧ r = r' := by
  obtain ⟨ha, hr⟩ := ha
  obtain ⟨hb, hr'⟩ := hb
  obtain ⟨rest, hrest⟩ := List.head?_eq_some_iff.mp hr
  obtain ⟨rest', hrest'⟩ := List.head?_eq_some_iff.mp hr'
  constructor
  · intro h
    rw [← String.toList_inj, toList_screen, toList_screen, List.append_cancel_left_eq, hrest,
      hrest'] at h
    obtain ⟨hlead, hroute⟩ :=
      Text.append_cons_inj h (slash_not_mem_lead ha) (slash_not_mem_lead hb)
    refine ⟨lead_inj.mp hlead, String.toList_inj.mp ?_⟩
    rw [hrest, hrest', hroute]
  · rintro ⟨hspace, rfl⟩
    rw [← String.toList_inj, toList_screen, toList_screen, hspace]

/-- Separable keys have the same identifier exactly if they are the same key, up to an empty
namespace. -/
theorem Key.text_inj {a b : Key} (ha : a.Separable) (hb : b.Separable) :
    a.text = b.text ↔ a.normal = b.normal := by
  by_cases hkind : a.kind = b.kind
  · cases a with
    | screen space route =>
        cases b <;> try cases hkind
        simp only [text, normal, screen_inj ha hb, Key.screen.injEq, Option.some.injEq]
    | operation kind field =>
        cases b <;> try cases hkind
        simp only [text, normal, operation_inj, Key.operation.injEq]
    | resolver owner method =>
        cases b <;> try cases hkind
        simp only [text, normal, Identifier.resolver, dotted_inj ha hb, Key.resolver.injEq]
    | rpc service method =>
        cases b <;> try cases hkind
        simp only [text, normal, Identifier.rpc, dotted_inj ha hb, Key.rpc.injEq]
  · have hnormal : ∀ key : Key, key.normal.kind = key.kind := fun key => by cases key <;> rfl
    exact ⟨fun h => absurd (kind_eq_of_text_eq h) hkind,
      fun h => absurd (by rw [← hnormal a, h, hnormal]) hkind⟩

end ApiAtlas.Identifier
