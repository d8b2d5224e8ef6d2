import ApiAtlas.Script.Lexical
import ApiAtlas.Source.Basic
import ApiAtlas.Syntax.Tree
set_option autoImplicit false

/-!
# Scripts: goals

A script is read by productions that call each other through goals.  A production is a reader that
is given the readers of all goals; the readers themselves are tied together elsewhere, so that the
productions need no recursion of their own.  What a construct yields is its trace: the nodes it
leaves in the tree, none if nothing in it matters.
-/

namespace ApiAtlas.Script

open Syntax

/-- The nodes that a construct leaves in the tree. -/
abbrev Trace := List Node

/-- A construct with a trace is one node. -/
def wrap (trace : Trace) : Trace := if trace.isEmpty then [] else [.other trace]

/-- The one node of a trace; what left no trace is an empty construct. -/
def nodeOf (trace : Trace) : Node := trace.headD (.other [])

/-- What productions can ask for. -/
inductive Goal
  /-- One expression or several with commas between them. -/
  | sequence (ending : Ending)
  /-- One expression. `annotated` says that the result type of a function may be written in it. -/
  | single (ending : Ending) (annotated : Bool)
  /-- An expression without operators: what can have members. `calls` says that it may be called. -/
  | operand (ending : Ending) (calls : Bool)
  /-- A type. -/
  | type (ending : Ending)
  /-- What a value is bound to. `targets` says that it may be any place that can be assigned to. -/
  | pattern (targets : Bool)
  /-- Type parameters, parameters in parentheses, and the type of the result. -/
  | signature
  /-- A class from its keyword on. -/
  | classNode
  /-- An element of markup. -/
  | element
  /-- A statement. -/
  | statement
  /-- Statements in braces. -/
  | block
  deriving DecidableEq, Repr, Inhabited

/-- The readers of all goals. -/
abbrev Goals := Goal → Reader Trace

/-- A single expression inside brackets. -/
def Goals.value (parse : Goals) : Reader Trace := parse (.single .mark true)

/-- The reader and the text that it takes. -/
def withText {α : Type} (r : Reader α) : Reader (α × String) := do
  gap
  let before ← get
  let a ← r
  return (a, String.ofList (Text.upTo before (← get)))

/-- A name of a property: as it is written, and the trace that it leaves where names are visited. A
text is given without its quotes. -/
def propertyName (parse : Goals) : Reader (String × Trace) :=
  (do return (← anyName, []))
  <|> (do return (← privateName, []))
  <|> (do let t ← quotedLiteral; return (t, [.text t]))
  <|> (do return (← numberLiteral, []))
  <|> (do
    let (trace, text) ← withText (do
      mark "["
      let trace ← parse.value
      mark "]"
      return trace)
    return (text, wrap trace))

/-- The pieces of a template behind its opening mark, and what is interpolated between them. -/
def templateRest (parse : Goals) : (limit : Nat) → Reader (List String × List Node)
  | 0 => failure
  | limit + 1 => do
      let (piece, interpolated) ← templatePiece
      if interpolated then
        let trace ← parse (.sequence .mark)
        mark "\x7d"
        let (pieces, more) ← templateRest parse limit
        return (piece :: pieces, nodeOf trace :: more)
      else return ([piece], [])

/-- A template: its pieces and what is interpolated between them. -/
def template (parse : Goals) : Reader (List String × List Node) := do
  mark "`"
  templateRest parse ((← get).length + 1)

/-- An item of a list: a value, or the values of another list. -/
def listItem (parse : Goals) : Reader Trace := do
  if ← tried (mark "...") then return wrap (← parse.value) else parse.value

/-- Arguments in parentheses. -/
def arguments (parse : Goals) : Reader Trace := do
  mark "("
  holesUntil ")" (listItem parse)

end ApiAtlas.Script
