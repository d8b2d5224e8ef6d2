import ApiAtlas.Syntax.Tree
set_option autoImplicit false

/-!
# Syntax: visits in pre-order

A walk over a tree meets its meaningful constructs in the order of the source, each before what lies
inside it.  Names, texts and `this` are met only as parts of others.  A walk may decline to enter a
construct; what lies inside is then not met.
-/

namespace ApiAtlas.Syntax

/-- A construct that a walk meets. -/
inductive Visit
  | importing (source : String) (specifiers : List Specifier)
  | classNode (name : Option String) (decorators : List Decorator) (members : List Node)
  | method (name : String) (decorators : List Decorator) (body : List Node)
  | decorator (decorator : Decorator)
  | call (callee : Node) (args : List Node)
  | member (object : Node) (property : String)
  | template (tag : Node) (quasis : List String) (expressions : List Node)
  deriving Inhabited

/-- The visit is of a class. -/
def Visit.isClass : Visit → Bool
  | .classNode .. => true
  | _ => false

mutual

/-- The visits of a node, entering the constructs that `enter` admits. -/
def Node.visits (enter : Visit → Bool) : Node → List Visit
  | .importing source specifiers => [.importing source specifiers]
  | .classNode name decorators members =>
      let v := Visit.classNode name decorators members
      v :: if enter v then decoratorVisits enter decorators ++ listVisits enter members else []
  | .method name decorators body =>
      let v := Visit.method name decorators body
      v :: if enter v then decoratorVisits enter decorators ++ listVisits enter body else []
  | .call callee args =>
      let v := Visit.call callee args
      v :: if enter v then callee.visits enter ++ listVisits enter args else []
  | .member base property =>
      let v := Visit.member base property
      v :: if enter v then base.visits enter else []
  | .template tag quasis expressions =>
      let v := Visit.template tag quasis expressions
      v :: if enter v then tag.visits enter ++ listVisits enter expressions else []
  | .object properties => propertyVisits enter properties
  | .other children => listVisits enter children
  | .identifier _ => []
  | .text _ => []
  | .self => []

/-- The visits of several nodes, one after the other. -/
def listVisits (enter : Visit → Bool) : List Node → List Visit
  | [] => []
  | n :: rest => n.visits enter ++ listVisits enter rest

/-- The visits of decorators and of what is in their arguments. -/
def decoratorVisits (enter : Visit → Bool) : List Decorator → List Visit
  | [] => []
  | .mk name args :: rest =>
      let v := Visit.decorator (.mk name args)
      (v :: if enter v then listVisits enter args else []) ++ decoratorVisits enter rest

/-- The visits of the values of properties. -/
def propertyVisits (enter : Visit → Bool) : List Property → List Visit
  | [] => []
  | .mk _ value :: rest => value.visits enter ++ propertyVisits enter rest

end

/-- A parsed script: its top-level nodes. -/
abbrev Program := List Node

/-- Everything that a walk meets in a program. -/
def Program.visits (program : Program) : List Visit := listVisits (fun _ => true) program

/-- What a walk meets in nodes when it enters no class. -/
def visitsOutsideClasses (nodes : List Node) : List Visit :=
  listVisits (fun v => !v.isClass) nodes

end ApiAtlas.Syntax
