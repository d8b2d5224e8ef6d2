import ApiAtlas.Script.Expression
import ApiAtlas.Script.Markup
import ApiAtlas.Script.Statement
set_option autoImplicit false

/-!
# Scripts: parsing

The goals are tied together here.  Each goal that a production asks for takes one unit of fuel;
since no production asks for more than a few goals before it takes a character, a bound on the
nesting of goals follows from the length of the text.
-/

namespace ApiAtlas.Script

open Syntax

/-- The production of a goal. -/
def production (d : Dialect) (parse : Goals) : Goal → Reader Trace
  | .sequence ending => sequenceExpression parse ending
  | .single ending annotated => singleExpression d parse ending annotated
  | .operand ending calls => operandExpression d parse ending calls
  | .type ending => typeExpression parse ending
  | .pattern targets => bindingPattern parse targets
  | .signature => callSignature d parse
  | .classNode => classDefinition d parse
  | .element => element d parse
  | .statement => statement d parse
  | .block => blockOf parse

/-- The reader of a goal, for goals that nest no deeper than the fuel. -/
def readGoal (d : Dialect) : (fuel : Nat) → Goals
  | 0 => fun _ => failure
  | fuel + 1 => production d (readGoal d fuel)

/-- The nesting of goals that a text of this length can need. -/
def nestingBound (length : Nat) : Nat := 8 * length + 64

/-- The text behind the line that names an interpreter. -/
def afterInterpreterLine : List Char → List Char
  | '#' :: '!' :: rest => rest.dropWhile fun c => !isLineEnd c
  | text => text

/-- The statements of a script up to the end of the text. -/
def program (d : Dialect) : Reader Trace := do
  modify afterInterpreterLine
  let statements ← many (readGoal d (nestingBound (← get).length) .statement)
  ensure (← ahead).isEmpty
  return statements

/-- Parse a script. There is no tree if any part of the text is not understood. -/
def parse? (d : Dialect) (text : String) : Option Program :=
  ((program d).run text.toList).map (·.1)

end ApiAtlas.Script
