import ApiAtlas.Identifier
import ApiAtlas.Interface.Comment
import ApiAtlas.Interface.Declaration
import ApiAtlas.Layer
import ApiAtlas.Source.Basic
set_option autoImplicit false

/-!
# Interface: the methods of services

An interface definition is stripped of its comments; then each service head is followed to the brace
that closes its body, and the methods declared in the body are its methods.  A body that never
closes ends the reading with a warning.
-/

namespace ApiAtlas

/-- A gRPC method. -/
structure RpcMethod where
  id : String
  service : String
  name : String
  package : String
  inputType : String
  outputType : String
  file : RawText
  deriving DecidableEq, Repr, Inhabited

namespace Interface

/-- A service with the text of its body. -/
structure Service where
  name : List Char
  body : List Char
  deriving DecidableEq, Repr, Inhabited

/-- The services of a text in order, and the name of the one whose body never closes, if there is
one; nothing is read behind it. `before` is the character before the text. -/
def servicesWithin : Nat → Option Char → List Char → List Service × Option (List Char)
  | 0, _, _ => ([], none)
  | fuel + 1, before, text =>
      match nextService? before text with
      | none => ([], none)
      | some (name, rest) =>
          match bodyEnd? 1 rest with
          | none => ([], some name)
          | some (body, after) =>
              let (more, broken) := servicesWithin fuel (some '}') after
              (⟨name, body⟩ :: more, broken)

/-- The services of a stripped text. Each takes up at least one character. -/
def services (text : List Char) : List Service × Option (List Char) :=
  servicesWithin (text.length + 1) none text

/-- The method of a signature in a service. -/
def method (file : RawText) (package service : List Char) (s : Signature) : RpcMethod :=
  let serviceName := String.ofList service
  let name := String.ofList s.name
  ⟨Identifier.rpc serviceName name, serviceName, name, String.ofList package,
    String.ofList (typeName s.input), String.ofList (typeName s.output), file⟩

/-- The warning for a service whose body never closes. -/
def unbalancedWarning (file : RawText) (service : String) : String :=
  "Skipping malformed service " ++ service ++ " in " ++ file.display ++ ": unbalanced braces"

/-- The methods of a definition. -/
def read (file : SourceFile) : Layer RpcMethod :=
  let text := stripComments file.content.toList
  let package := packageOf text
  let (found, broken) := services text
  ⟨found.flatMap fun s => (methodsOf s.body).map (method file.path package s.name),
    (broken.map fun name => unbalancedWarning file.path (String.ofList name)).toList⟩

/-- The methods of all definitions among the files. -/
def ofFiles (files : List SourceFile) : Layer RpcMethod :=
  ((files.filter (·.kind == .interfaceDefinition)).map read).foldl Layer.append {}

end Interface

end ApiAtlas
