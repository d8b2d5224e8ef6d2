import ApiAtlas.Text.Case
import ApiAtlas.Text.Search
set_option autoImplicit false

/-!
# Identifiers of the four layers

Every entity is named by a text `family:discriminator`:

* a screen by `screen:<route>` or `screen:<namespace>:<route>`,
* a GraphQL operation by `gql:<kind>.<field>`,
* a resolver by `resolver:<owner>.<method>`,
* a gRPC method by `grpc:<service>.<method>`.

The graph compares entities by these texts only, so what the functions below keep apart is what the
graph keeps apart.
-/

namespace ApiAtlas

/-- What a GraphQL operation does. -/
inductive OperationKind
  | query
  | mutation
  | subscription
  deriving DecidableEq, Repr, Inhabited

/-- The word for a kind, as documents and identifiers write it. -/
def OperationKind.name : OperationKind → String
  | .query => "query"
  | .mutation => "mutation"
  | .subscription => "subscription"

namespace Identifier

/-- The identifier of a screen; an empty namespace counts as none. -/
def screen (space : Option String) (route : String) : String :=
  match space with
  | none => "screen:" ++ route
  | some s => if s.isEmpty then "screen:" ++ route else "screen:" ++ s ++ ":" ++ route

/-- The identifier of an operation. -/
def operation (kind : OperationKind) (field : String) : String :=
  "gql:" ++ kind.name ++ "." ++ field

/-- The identifier of a resolver method. -/
def resolver (owner method : String) : String := "resolver:" ++ owner ++ "." ++ method

/-- The identifier of a gRPC method. -/
def rpc (service method : String) : String := "grpc:" ++ service ++ "." ++ method

/-- Family and discriminator: the parts before and after the first colon. -/
def parts? (id : String) : Option (String × String) :=
  (Text.cutAt? ':' id.toList).map fun p => (String.ofList p.1, String.ofList p.2)

/-- The part of the discriminator before its first dot, if that is not empty. -/
def serviceSegment? (id : String) : Option String := do
  let (_, discriminator) ← Text.cutAt? ':' id.toList
  let segment := discriminator.takeWhile (· != '.')
  if segment.isEmpty then none else some (String.ofList segment)

/-- The text with its first character in upper case. -/
def titled (text : String) : String := String.ofList (Text.titled text.toList)

/-- The text without the ending `tail`, which is compared up to ASCII case. -/
def withoutTail (tail text : List Char) : List Char :=
  let cut := text.length - tail.length
  if Text.eqIgnoringAsciiCase (text.drop cut) tail then text.take cut else text

/-- The text without the beginning `head`, which is compared up to ASCII case. -/
def withoutHead (head text : List Char) : List Char :=
  if Text.eqIgnoringAsciiCase (text.take head.length) head then text.drop head.length else text

/-- What a client member is named for: its name without `client`, then without `service` at the
end, then without `grpc` at the front. -/
def memberBase (member : List Char) : List Char :=
  withoutHead "grpc".toList (withoutTail "service".toList (withoutTail "client".toList member))

/-- The gRPC method that a call `this.<member>.<method>(..)` is taken to reach. -/
def rpcOfMember? (member method : String) : Option String :=
  let base := memberBase member.toList
  if base.isEmpty then none
  else some (rpc (String.ofList (Text.titled base) ++ "Service") (titled method))

/-- Words in a binding's name that make it a mutation. -/
def mutationHints : List String := ["mutation", "create", "update", "delete"]

/-- The kind of an operation guessed from the name it is imported under. -/
def guessKind (name : String) : OperationKind :=
  let lowered := Text.lowered name.toList
  if mutationHints.any fun hint => Text.occursIn hint.toList lowered then .mutation else .query

end Identifier

end ApiAtlas
