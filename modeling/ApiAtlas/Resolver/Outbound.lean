import ApiAtlas.Resolver.Basic
import ApiAtlas.Syntax.Visit
set_option autoImplicit false

/-!
# Resolvers: outbound calls

Two shapes in the body of a resolver point to a gRPC method: a call on a client member of `this`
(`this.orderClient.create(..)`), and a member of a service that was looked up by name
(`x.getService('Orders').create`).  Classes inside the body are not entered.
-/

namespace ApiAtlas.Resolver

open Syntax

/-- The name of the client member that a node is. -/
def clientMember? (settings : ResolverSettings) : Node → Option String
  | .member .self name =>
      let lowered := Text.lowered name.toList
      if settings.callHints.any fun hint => Text.occursIn (Text.lowered hint.toList) lowered then
        some name
      else none
  | _ => none

/-- The name of the service that a node looks up. -/
def lookedUpService? (settings : ResolverSettings) : Node → Option String
  | .call (.member _ property) args =>
      if property == settings.serviceLookup then args.head?.bind Node.text? else none
  | _ => none

/-- The gRPC method that a visit points to. -/
def outbound? (settings : ResolverSettings) : Visit → Option String
  | .call (.member receiver property) _ =>
      if property == settings.serviceLookup then none
      else
        (clientMember? settings receiver).bind fun client => Identifier.rpcOfMember? client property
  | .member receiver property =>
      match lookedUpService? settings receiver with
      | some service =>
          if service.isEmpty || property.isEmpty then none
          else some (Identifier.rpc service (Identifier.titled property))
      | none => none
  | _ => none

/-- The gRPC methods that a body points to, each once, in order of first occurrence. -/
def callsOf (settings : ResolverSettings) (body : List Node) : List String :=
  Text.distinct ((visitsOutsideClasses body).filterMap (outbound? settings))

end ApiAtlas.Resolver
