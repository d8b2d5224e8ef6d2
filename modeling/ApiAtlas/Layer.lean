set_option autoImplicit false

/-!
# Layers

A layer is what one kind of extraction yields: entities and the warnings raised on the way.  A
problem in one file becomes a warning and the other files go on; a problem of the whole layer is a
fault, which the graph turns into a warning of its own.  A run that breaks off takes everything with
it up to the next guard.
-/

namespace ApiAtlas

/-- Entities of one kind with the warnings raised while finding them. -/
structure Layer (α : Type) where
  entities : List α := []
  warnings : List String := []
  deriving DecidableEq, Repr, Inhabited

namespace Layer

variable {α : Type}

/-- Take in the result of one file. -/
def push (layer : Layer α) : Except String (List α) → Layer α
  | .ok entities => { layer with entities := layer.entities ++ entities }
  | .error warning => { layer with warnings := layer.warnings ++ [warning] }

/-- Put one layer behind another. -/
def append (first second : Layer α) : Layer α :=
  ⟨first.entities ++ second.entities, first.warnings ++ second.warnings⟩

/-- The layer of the results of several files. -/
def collect (results : List (Except String (List α))) : Layer α :=
  results.foldl push {}

@[simp] theorem append_entities (a b : Layer α) :
    (a.append b).entities = a.entities ++ b.entities := rfl

@[simp] theorem append_warnings (a b : Layer α) :
    (a.append b).warnings = a.warnings ++ b.warnings := rfl

end Layer

/-- Why a whole layer is missing. -/
inductive LayerFault
  /-- The extraction reported that it cannot run. -/
  | failed (layer message : String)
  /-- The extraction broke off. -/
  | panicked (layer message : String)
  deriving DecidableEq, Repr, Inhabited

/-- The message without the name of the layer. -/
def LayerFault.detail : LayerFault → String
  | .failed _ message => message
  | .panicked _ message => message

/-- The wording of a fault. -/
def LayerFault.message : LayerFault → String
  | .failed layer message => layer ++ " extraction failed: " ++ message
  | .panicked layer message => layer ++ " extraction panicked: " ++ message

/-- What an extraction yields. -/
abbrev LayerResult (α : Type) := Except LayerFault (Layer α)

/-- What a run that broke off has left. -/
structure Panic where
  text : Option String
  deriving DecidableEq, Repr, Inhabited

/-- The wording of what is left. -/
def Panic.message (p : Panic) : String := p.text.getD "unknown panic"

/-- What a run ends with: a result, unless it breaks off. -/
abbrev Run (α : Type) := Except Panic α

/-- The result of an extraction whose breaking off is a fault of its layer. -/
def LayerResult.guarded {α : Type} (layer : String) : Run (LayerResult α) → LayerResult α
  | .ok result => result
  | .error panic => .error (.panicked layer panic.message)

end ApiAtlas
