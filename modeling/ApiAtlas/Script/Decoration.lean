import ApiAtlas.Script.TypeExpression
set_option autoImplicit false

/-!
# Scripts: decorators

A decorator is a name, a dotted name or one call of such a name behind an at-sign; with types it may
also be any value in parentheses.  It is read as an expression, because a decorated field keeps it
as one; what it decorates a class or a method with is read off that expression, unless a comment
stands between the at-sign and the expression.
-/

namespace ApiAtlas.Script

open Syntax

/-- The decorator that an expression stands for. A value in parentheses stands for none. -/
def decoratorOf? : Node → Option Decorator
  | .call callee args => callee.terminalName?.map (.mk · args)
  | node => node.terminalName?.map (.mk · [])

/-- Read further parts of a dotted name. -/
def dottedRest : (limit : Nat) → Node → Reader Node
  | 0, node => pure node
  | limit + 1, node => do
      match ← optionally (do mark "."; anyName) with
      | some name => dottedRest limit (.member node name)
      | none => pure node

/-- A name or a dotted name. -/
def dottedName : Reader Node := do
  let first ← valueName
  dottedRest (← get).length (.identifier first)

/-- A decorator as it is written. -/
structure Decoration where
  expression : Node
  /-- A comment stands directly behind the at-sign. -/
  commented : Bool

/-- The decorator that a class or a method gets. A comment stands in the place of the expression. -/
def Decoration.decorator? (d : Decoration) : Option Decorator :=
  if d.commented then none else decoratorOf? d.expression

/-- The expression of a decorator behind its at-sign. -/
def decorationExpression (d : Dialect) (parse : Goals) : Reader Node :=
  (do
    let name ← dottedName
    let called ← optionally (do
      if d.hasTypes then let _ ← optionally (typeArguments parse)
      arguments parse)
    return match called with
      | some args => .call name args
      | none => name)
  <|> (do
    ensure d.hasTypes
    mark "("
    let value ← parse (.sequence .mark)
    mark ")"
    return .other value)

/-- A decorator. -/
def decoration (d : Dialect) (parse : Goals) : Reader (List Decoration) := do
  mark "@"
  let commented := (skipGap (← get)).1
  return [⟨← decorationExpression d parse, commented⟩]

/-- Any number of decorators. -/
def decorations (d : Dialect) (parse : Goals) : Reader (List Decoration) :=
  many (decoration d parse)

end ApiAtlas.Script
