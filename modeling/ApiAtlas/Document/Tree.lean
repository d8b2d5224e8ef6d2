import ApiAtlas.Identifier
import ApiAtlas.Json.Value
set_option autoImplicit false

/-!
# Document: the tree of an executable document

What the grammar of executable GraphQL documents accepts: operations and fragments with their
selections, arguments and directives.  A number carries its value, which is missing when it is too
large for its format.
-/

namespace ApiAtlas.Document

/-- A value of an argument. -/
inductive Value
  | reference (name : String)
  | number (value : Option Json.Number)
  | text (content : String)
  | bool (value : Bool)
  | null
  | enumerator (name : String)
  | list (items : List Value)
  | object (fields : List (String × Value))
  deriving Repr, Inhabited

namespace Value

mutual

/-- The two values are equal. -/
def same : Value → Value → Bool
  | .reference a, .reference b => a == b
  | .number a, .number b => decide (a = b)
  | .text a, .text b => a == b
  | .bool a, .bool b => a == b
  | .null, .null => true
  | .enumerator a, .enumerator b => a == b
  | .list a, .list b => sameItems a b
  | .object a, .object b => sameFields a b
  | _, _ => false

/-- The two lists of values are equal. -/
def sameItems : List Value → List Value → Bool
  | [], [] => true
  | a :: as, b :: bs => same a b && sameItems as bs
  | _, _ => false

/-- The two lists of fields are equal. -/
def sameFields : List (String × Value) → List (String × Value) → Bool
  | [], [] => true
  | (k, a) :: as, (l, b) :: bs => k == l && same a b && sameFields as bs
  | _, _ => false

end

mutual

theorem same_iff : ∀ a b : Value, same a b = true ↔ a = b
  | .reference a, b => by cases b <;> simp [same]
  | .number a, b => by cases b <;> simp [same]
  | .text a, b => by cases b <;> simp [same]
  | .bool a, b => by cases b <;> simp [same]
  | .null, b => by cases b <;> simp [same]
  | .enumerator a, b => by cases b <;> simp [same]
  | .list a, b => by
    cases b with
    | list b => simp [same, sameItems_iff a b]
    | _ => simp [same]
  | .object a, b => by
    cases b with
    | object b => simp [same, sameFields_iff a b]
    | _ => simp [same]

theorem sameItems_iff : ∀ a b : List Value, sameItems a b = true ↔ a = b
  | [], b => by cases b <;> simp [sameItems]
  | x :: xs, b => by
    cases b with
    | nil => simp [sameItems]
    | cons y ys => simp [sameItems, same_iff x y, sameItems_iff xs ys]

theorem sameFields_iff : ∀ a b : List (String × Value), sameFields a b = true ↔ a = b
  | [], b => by cases b <;> simp [sameFields]
  | (k, x) :: xs, b => by
    cases b with
    | nil => simp [sameFields]
    | cons y ys =>
      obtain ⟨l, y⟩ := y
      simp [sameFields, same_iff x y, sameFields_iff xs ys, and_assoc]

end

instance : DecidableEq Value := fun a b => decidable_of_iff (same a b = true) (same_iff a b)

end Value

/-- A named argument. -/
structure Argument where
  name : String
  value : Value
  deriving DecidableEq, Repr, Inhabited

/-- A directive with its arguments. -/
structure Directive where
  name : String
  arguments : List Argument
  deriving DecidableEq, Repr, Inhabited

/-- A selection. -/
inductive Selection
  /-- A field; `inner` is its selection set, if it has one. -/
  | field (label : Option String) (name : String) (arguments : List Argument)
      (directives : List Directive) (inner : Option (List Selection))
  /-- A fragment taken in by name. -/
  | spread (name : String) (directives : List Directive)
  /-- A fragment written in place. -/
  | inline (on : Option String) (directives : List Directive) (inner : List Selection)
  deriving Inhabited

namespace Selection

mutual

/-- The two selections are equal. -/
def same : Selection → Selection → Bool
  | .field label name args directives inner, .field label' name' args' directives' inner' =>
      decide (label = label' ∧ name = name' ∧ args = args' ∧ directives = directives')
        && sameInner inner inner'
  | .spread name directives, .spread name' directives' =>
      decide (name = name' ∧ directives = directives')
  | .inline on directives inner, .inline on' directives' inner' =>
      decide (on = on' ∧ directives = directives') && sameSet inner inner'
  | _, _ => false

/-- The two selection sets are equal. -/
def sameSet : List Selection → List Selection → Bool
  | [], [] => true
  | a :: as, b :: bs => same a b && sameSet as bs
  | _, _ => false

/-- Both have no selection set, or equal ones. -/
def sameInner : Option (List Selection) → Option (List Selection) → Bool
  | none, none => true
  | some a, some b => sameSet a b
  | _, _ => false

end

mutual

theorem same_iff : ∀ a b : Selection, same a b = true ↔ a = b
  | .field _ _ _ _ inner, b => by
    cases b with
    | field _ _ _ _ inner' => simp [same, sameInner_iff inner inner', and_assoc]
    | _ => simp [same]
  | .spread _ _, b => by cases b <;> simp [same]
  | .inline _ _ inner, b => by
    cases b with
    | inline _ _ inner' => simp [same, sameSet_iff inner inner', and_assoc]
    | _ => simp [same]

theorem sameSet_iff : ∀ a b : List Selection, sameSet a b = true ↔ a = b
  | [], b => by cases b <;> simp [sameSet]
  | x :: xs, b => by
    cases b with
    | nil => simp [sameSet]
    | cons y ys => simp [sameSet, same_iff x y, sameSet_iff xs ys]

theorem sameInner_iff : ∀ a b : Option (List Selection), sameInner a b = true ↔ a = b
  | none, b => by cases b <;> simp [sameInner]
  | some a, b => by
    cases b with
    | none => simp [sameInner]
    | some b => simp [sameInner, sameSet_iff a b]

end

instance : DecidableEq Selection := fun a b => decidable_of_iff (same a b = true) (same_iff a b)

end Selection

/-- A variable of an operation. -/
structure VariableDefinition where
  name : String
  type : String
  directives : List Directive
  fallback : Option Value
  deriving DecidableEq, Repr, Inhabited

/-- An operation. The shorthand without a keyword is an unnamed query. -/
structure Operation where
  kind : OperationKind
  name : Option String
  parameters : List VariableDefinition
  directives : List Directive
  selections : List Selection
  deriving DecidableEq, Inhabited

/-- A fragment. -/
structure Fragment where
  name : String
  on : String
  directives : List Directive
  selections : List Selection
  deriving DecidableEq, Inhabited

/-- A definition of an executable document. -/
inductive Definition
  | operation (op : Operation)
  | fragment (fragment : Fragment)
  deriving DecidableEq, Inhabited

/-- The name of the field an operation selects first, if it selects a field first. -/
def Operation.firstField? (op : Operation) : Option String :=
  match op.selections with
  | .field _ name _ _ _ :: _ => some name
  | _ => none

end ApiAtlas.Document
