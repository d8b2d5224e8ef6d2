import ApiAtlas.Identifier
import ApiAtlas.Settings.Basic
import ApiAtlas.Syntax.Tree
import ApiAtlas.Text.Raw
set_option autoImplicit false

/-!
# Resolvers

A resolver is a method that answers a GraphQL field.  It is marked by decorators: one on its class
and one on the method itself, which also says what kind of field it answers.
-/

namespace ApiAtlas

/-- What kind of field a resolver answers. -/
inductive ResolverKind
  | query
  | mutation
  | field
  deriving DecidableEq, Repr, Inhabited

/-- The word for a kind. -/
def ResolverKind.name : ResolverKind → String
  | .query => "query"
  | .mutation => "mutation"
  | .field => "field"

/-- A resolver of this kind can answer operations of that kind. -/
def ResolverKind.answers : ResolverKind → OperationKind → Bool
  | .query, .query => true
  | .mutation, .mutation => true
  | _, _ => false

/-- A method that answers a field, with the gRPC methods it seems to call. -/
structure Resolver where
  id : String
  owner : String
  method : String
  kind : ResolverKind
  exposedName : String
  file : RawText
  outboundCalls : List String
  deriving DecidableEq, Repr, Inhabited

/-- The kind that a decorator of this name marks. -/
def Markers.kind? (markers : Markers) (name : String) : Option ResolverKind :=
  if markers.query.contains name then some .query
  else if markers.mutation.contains name then some .mutation
  else if markers.resolveField.contains name then some .field
  else none

/-- The decorator that marks a method: the first one of the first kind that has one, in the order
query, mutation, field. -/
def Markers.marking? (markers : Markers) (decorators : List Syntax.Decorator) :
    Option (ResolverKind × Syntax.Decorator) :=
  [ResolverKind.query, .mutation, .field].findSome? fun kind =>
    (decorators.find? fun d => markers.kind? d.name == some kind).map fun d => (kind, d)

end ApiAtlas
