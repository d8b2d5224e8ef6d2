import ApiAtlas.Resolver.Outbound
set_option autoImplicit false

/-!
# Resolvers: reading trees

Every class with a name and a resolver decorator contributes its marked methods.  Whatever lies
inside a class is not searched for further classes.
-/

namespace ApiAtlas.Resolver

open Syntax

/-- The resolver that a method of a class is, if it is marked. -/
def ofMethod? (settings : ResolverSettings) (file : RawText) (owner name : String)
    (decorators : List Decorator) (body : List Node) : Option Resolver := do
  let (kind, marking) ← settings.markers.marking? decorators
  let exposed := (marking.textArgument? <|> marking.option? "name").getD name
  return ⟨Identifier.resolver owner name, owner, name, kind, exposed, file,
    callsOf settings body⟩

/-- The resolver that a member of a class is, if it is a marked method. -/
def ofMember? (settings : ResolverSettings) (file : RawText) (owner : String) :
    Node → Option Resolver
  | .method name decorators body => ofMethod? settings file owner name decorators body
  | _ => none

/-- The resolvers of a class. -/
def ofVisit (settings : ResolverSettings) (file : RawText) : Visit → List Resolver
  | .classNode (some owner) decorators members =>
      if decorators.any (·.isAny settings.markers.resolver) then
        members.filterMap (ofMember? settings file owner)
      else []
  | _ => []

/-- The resolvers of a program. -/
def ofProgram (settings : ResolverSettings) (file : RawText) (program : Program) : List Resolver :=
  (visitsOutsideClasses program).flatMap (ofVisit settings file)

end ApiAtlas.Resolver
