set_option autoImplicit false

/-!
# Syntax: the tree of a script

Only the shapes that carry meaning for the layers have constructors of their own: imports, classes,
methods, calls, members, tagged templates, names, texts, objects and `this`.  Everything else is
`other` and keeps its children in the order of the source, so that nothing below it is lost.
-/

namespace ApiAtlas.Syntax

/-- A name that an import binds. -/
inductive Specifier
  | default (bound : String)
  | named (imported bound : String)
  | all (bound : String)
  deriving DecidableEq, Repr, Inhabited

/-- The name that the importing module sees. -/
def Specifier.bound : Specifier → String
  | .default bound => bound
  | .named _ bound => bound
  | .all bound => bound

mutual

/-- A node of the tree. -/
inductive Node
  /-- `import .. from 'source'`. -/
  | importing (source : String) (specifiers : List Specifier)
  /-- A class; it may have no name. -/
  | classNode (name : Option String) (decorators : List Decorator) (members : List Node)
  /-- A method with a body, of a class or of an object. -/
  | method (name : String) (decorators : List Decorator) (body : List Node)
  /-- `callee(args)`. -/
  | call (callee : Node) (args : List Node)
  /-- `object.property`. -/
  | member (object : Node) (property : String)
  /-- A template with a tag: the texts between the interpolations, and the interpolations. -/
  | template (tag : Node) (quasis : List String) (expressions : List Node)
  /-- A name. -/
  | identifier (name : String)
  /-- A text without interpolations, without its quotes. -/
  | text (value : String)
  /-- An object literal. -/
  | object (properties : List Property)
  /-- `this`. -/
  | self
  /-- Any other construct. -/
  | other (children : List Node)

/-- `@name(args)`, or `@name` with no arguments; of a dotted name the last part counts. -/
inductive Decorator
  | mk (name : String) (args : List Node)

/-- A property of an object literal. -/
inductive Property
  | mk (key : String) (value : Node)

end

instance : Inhabited Node := ⟨.other []⟩
instance : Inhabited Decorator := ⟨.mk "" []⟩
instance : Inhabited Property := ⟨.mk "" (.other [])⟩

/-- The name of a decorator. -/
def Decorator.name : Decorator → String
  | .mk name _ => name

/-- The arguments of a decorator. -/
def Decorator.args : Decorator → List Node
  | .mk _ args => args

/-- The key of a property. -/
def Property.key : Property → String
  | .mk key _ => key

/-- The value of a property. -/
def Property.value : Property → Node
  | .mk _ value => value

namespace Node

/-- The name, of a name. -/
def identifier? : Node → Option String
  | .identifier name => some name
  | _ => none

/-- The text, of a text. -/
def text? : Node → Option String
  | .text value => some value
  | _ => none

/-- The last name of a dotted path. -/
def terminalName? : Node → Option String
  | .identifier name => some name
  | .member _ property => some property
  | _ => none

/-- The text that an object literal has under a key. Only the first property with the key counts. -/
def textUnder? (key : String) : Node → Option String
  | .object properties => (properties.find? (·.key == key)).bind (·.value.text?)
  | _ => none

end Node

namespace Decorator

/-- The decorator has one of the names. -/
def isAny (d : Decorator) (names : List String) : Bool := names.contains d.name

/-- The first argument that is a text. -/
def textArgument? (d : Decorator) : Option String := d.args.findSome? Node.text?

/-- The text under `key` of the first object argument that has one. -/
def option? (d : Decorator) (key : String) : Option String :=
  d.args.findSome? (Node.textUnder? key)

end Decorator

/-- What stands in a template's text for an interpolation. -/
def placeholder : String := "$\x7b...\x7d"

/-- The text of a template with a placeholder for each interpolation. -/
def templateText (quasis : List String) : String := String.intercalate placeholder quasis

/-- A short form of a node: names and texts in full, everything inside brackets left out. -/
def Node.shown : Node → String
  | .identifier name => name
  | .text value => "'" ++ value ++ "'"
  | .self => "this"
  | .member base property => base.shown ++ "." ++ property
  | .call callee _ => callee.shown ++ "(..)"
  | .importing source _ => "import '" ++ source ++ "'"
  | .classNode name _ _ => "class " ++ name.getD "<anonymous>"
  | .method name _ _ => name ++ "()"
  | .template tag _ _ => tag.shown ++ "`..`"
  | .object _ => "\x7b..\x7d"
  | .other _ => ".."

end ApiAtlas.Syntax
