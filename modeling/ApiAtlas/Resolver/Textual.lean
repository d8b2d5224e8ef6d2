import ApiAtlas.Regex
import ApiAtlas.Resolver.Basic
import ApiAtlas.Text.Blank
import ApiAtlas.Text.Word
set_option autoImplicit false

/-!
# Resolvers: reading text

A script that has no tree is searched for the same decorators in its text.  A class reaches from its
head to the next marked class; a method is a marker, perhaps further decorators, perhaps modifiers,
a name and a parenthesis.  Both shapes are written down as patterns.

Where a shape can be read in several ways the readings are tried in a fixed order: longer runs
before shorter ones, present parts before absent ones, earlier names before later ones.  A reader is
given what to do with the text behind it and comes back with another reading when that fails.
-/

namespace ApiAtlas.Resolver.Textual

variable {β : Type}

/-- What to do with the text behind a reading. -/
abbrev Next (β : Type) := List Char → Option β

/-- One of the alternatives, in order. -/
def orElse (first : Option β) (second : Unit → Option β) : Option β :=
  match first with
  | some b => some b
  | none => second ()

/-- Any number of characters of a class, the most first. -/
def run (p : Char → Bool) (next : Next β) : List Char → Option β
  | [] => next []
  | c :: rest =>
      if p c then orElse (run p next rest) fun _ => next (c :: rest) else next (c :: rest)

/-- At least one character of a class, the most first. -/
def run1 (p : Char → Bool) (next : Next β) : List Char → Option β
  | [] => none
  | c :: rest => if p c then run p next rest else none

/-- Given characters. -/
def literal (expected : String) (next : Next β) (text : List Char) : Option β :=
  (Text.dropHead? expected.toList text).bind next

/-- Blanks, as many as there are. -/
def blanks (next : Next β) (text : List Char) : Option β := run Text.isBlank next text

/-- A keyword with blanks behind it, or nothing. -/
def modifier (keyword : String) (next : Next β) (text : List Char) : Option β :=
  orElse (literal keyword (run1 Text.isBlank next) text) fun _ => next text

/-- A run without parentheses and the closing one behind it. -/
def innerGroup? : List Char → Option (List Char)
  | [] => none
  | ')' :: rest => some rest
  | '(' :: _ => none
  | _ :: rest => innerGroup? rest

/-- The text of arguments behind the opening parenthesis, in which parentheses nest once, and the
text behind the closing one. -/
def arguments? : Nat → List Char → List Char → Option (List Char × List Char)
  | 0, _, _ => none
  | _ + 1, _, [] => none
  | _ + 1, done, ')' :: rest => some (done.reverse, rest)
  | fuel + 1, done, '(' :: rest =>
      match innerGroup? rest with
      | some after =>
          arguments? fuel ((rest.take (rest.length - after.length)).reverse ++ '(' :: done) after
      | none => none
  | fuel + 1, done, c :: rest => arguments? fuel (c :: done) rest

/-- Arguments in parentheses, blanks before which do not count. -/
def inParentheses (next : List Char → Next β) (text : List Char) : Option β :=
  blanks (literal "(" fun inside =>
    (arguments? (inside.length + 1) [] inside).bind fun r => next r.1 r.2) text

/-- Parts of a dotted name behind the first one, the most first. -/
def dottedParts (next : Next β) : Nat → List Char → Option β
  | 0, text => next text
  | fuel + 1, text =>
      orElse (literal "." (run1 Text.isWord (dottedParts next fuel)) text) fun _ => next text

/-- One further decorator. -/
def decorator (next : Next β) (text : List Char) : Option β :=
  blanks (literal "@" (run1 Text.isWord fun named =>
    dottedParts (fun behind => orElse (inParentheses (fun _ => next) behind) fun _ => next behind)
      named.length named)) text

/-- Further decorators, the most first. -/
def decorators (next : Next β) : Nat → List Char → Option β
  | 0, text => next text
  | fuel + 1, text => orElse (decorator (decorators next fuel) text) fun _ => next text

/-- One of the names, in order. -/
def oneOf (names : List String) (next : String → Next β) (text : List Char) : Option β :=
  names.findSome? fun name => literal name (next name) text

/-! ## Patterns -/

/-- Arguments in parentheses, which nest once. -/
def argumentsPattern : String := "\\s*\\(((?:[^()]|\\([^()]*\\))*)\\)"

/-- Further decorators. -/
def decoratorsPattern : String :=
  "(?:\\s*@\\w+(?:\\.\\w+)*(?:\\s*\\((?:[^()]|\\([^()]*\\))*\\))?)*"

/-- One of the names. -/
def namesPattern (names : List String) : String :=
  String.intercalate "|" (names.map fun n => String.ofList (Regex.escape n.toList))

/-- The pattern of a class head. -/
def classPattern (markers : Markers) : String :=
  "@(?:" ++ namesPattern markers.resolver ++ ")" ++ argumentsPattern
    ++ "\\s*(?:export\\s+)?(?:default\\s+)?(?:abstract\\s+)?class\\s+(\\w+)"

/-- The pattern of a method. -/
def methodPattern (markers : Markers) : String :=
  "@(" ++ namesPattern (markers.query ++ markers.mutation ++ markers.resolveField) ++ ")"
    ++ argumentsPattern ++ decoratorsPattern
    ++ "\\s*(?:(?:public|private|protected)\\s+)?(?:async\\s+)?(\\w+)\\s*\\("

/-! ## Classes -/

/-- A class head that stands at the front of the text: the name, and the text behind it. -/
def classHere? (markers : Markers) (text : List Char) : Option (List Char × List Char) :=
  -- no name at all stands for the empty name
  let names := if markers.resolver.isEmpty then [""] else markers.resolver
  literal "@" (oneOf names fun _ => inParentheses fun _ => blanks <| modifier "export" <|
    modifier "default" <| modifier "abstract" <| literal "class" <| run1 Text.isBlank fun rest =>
      let name := rest.takeWhile Text.isWord
      if name.isEmpty then none else some (name, rest.dropWhile Text.isWord)) text

/-- A marked class: its name, and the text from behind its head to the next one. -/
structure ClassText where
  name : List Char
  body : List Char
  deriving DecidableEq, Repr, Inhabited

/-- The marked classes of a text. The first part of the result is the text before the first of
them. -/
def classesWithin (markers : Markers) : Nat → List Char → List Char × List ClassText
  | 0, _ => ([], [])
  | _ + 1, [] => ([], [])
  | fuel + 1, c :: rest =>
      match classHere? markers (c :: rest) with
      | some (name, after) =>
          let (body, more) := classesWithin markers fuel after
          ([], ⟨name, body⟩ :: more)
      | none =>
          let (before, more) := classesWithin markers fuel rest
          (c :: before, more)

/-- The marked classes of a text. -/
def classes (markers : Markers) (text : List Char) : List ClassText :=
  (classesWithin markers text.length text).2

/-! ## Methods -/

/-- A marked method: the name of its marker, the text of the marker's arguments, and its name. -/
structure MethodText where
  marker : String
  args : List Char
  name : List Char
  deriving DecidableEq, Repr, Inhabited

/-- A visibility, or nothing. -/
def visibility (next : Next β) (text : List Char) : Option β :=
  orElse
    (["public", "private", "protected"].findSome? fun word =>
      literal word (run1 Text.isBlank next) text)
    fun _ => next text

/-- The name of a method with its parenthesis, and the text behind that. -/
def methodName? (text : List Char) : Option (List Char × List Char) :=
  run1 Text.isWord
    (fun behind =>
      blanks (literal "(" fun after => some (text.take (text.length - behind.length), after))
        behind)
    text

/-- A marked method that stands at the front of the text, and the text behind its parenthesis. -/
def methodHere? (markers : Markers) (text : List Char) : Option (MethodText × List Char) :=
  let all := markers.query ++ markers.mutation ++ markers.resolveField
  let names := if all.isEmpty then [""] else all
  literal "@" (oneOf names fun marker => inParentheses fun args behind =>
    decorators (blanks <| visibility <| modifier "async" fun rest =>
      (methodName? rest).map fun r => (⟨marker, args, r.1⟩, r.2)) behind.length behind) text

/-- The marked methods of a text. -/
def methodsWithin (markers : Markers) : Nat → List Char → List MethodText
  | 0, _ => []
  | _ + 1, [] => []
  | fuel + 1, c :: rest =>
      match methodHere? markers (c :: rest) with
      | some (m, after) => m :: methodsWithin markers fuel after
      | none => methodsWithin markers fuel rest

/-- The marked methods of the body of a class. -/
def methods (markers : Markers) (body : List Char) : List MethodText :=
  methodsWithin markers body.length body

/-- The text that stands first among arguments, unless it is empty. -/
def leadingText? (args : List Char) : Option (List Char) :=
  match args.dropWhile Text.isBlank with
  | quote :: rest =>
      if quote == '\x27' || quote == '"' || quote == '`' then
        match Text.cutAt? quote rest with
        | some (text, _) => if text.isEmpty then none else some text
        | none => none
      else none
  | [] => none

/-- The resolver that a method in a class is. -/
def resolver? (markers : Markers) (file : RawText) (owner : List Char) (m : MethodText) :
    Option Resolver := do
  let kind ← markers.kind? m.marker
  let ownerName := String.ofList owner
  let name := String.ofList m.name
  return ⟨Identifier.resolver ownerName name, ownerName, name, kind,
    String.ofList ((leadingText? m.args).getD m.name), file, []⟩

/-- The resolvers of a text. -/
def resolvers (markers : Markers) (file : RawText) (text : List Char) : List Resolver :=
  (classes markers text).flatMap fun c =>
    (methods markers c.body).filterMap (resolver? markers file c.name)

end ApiAtlas.Resolver.Textual
