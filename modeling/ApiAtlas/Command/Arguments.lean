import ApiAtlas.Graph.Basic
import ApiAtlas.Text.Search
set_option autoImplicit false

/-!
# Command lines

The four commands and how they are written.  An option takes its value from the next argument, or
from its own text behind an equals sign or behind its letter.  An argument that starts with a dash
is an option, unless it is a single dash or stands behind a double dash.
-/

namespace ApiAtlas

/-- The graph document that commands read and write unless another is named. -/
def defaultMap : String := "map.json"

/-- The layers that are shown unless others are named. -/
def defaultLayers : String := "screen,graphql,resolver,grpc"

/-- What the program is asked to do. -/
inductive Command
  /-- Analyse the repository and write the graph. -/
  | analyze (config : Option String) (output : String) (verbose : Bool)
  /-- Show a part of a graph. -/
  | view (filter : Option String) (layers : String) (hops : Option Nat) (input : String)
  /-- Show what a change of an interface reaches. -/
  | impact (api : String) (filter : Option String) (input : String)
  /-- Compare two graphs. -/
  | diff (old new : String) (filter : Option String)
  deriving DecidableEq, Repr, Inhabited

namespace Command

/-- The path of the file that a command writes. -/
def target? : Command → Option String
  | .analyze _ output _ => some output
  | _ => none

/-- What an option or a position holds. -/
inductive ValueKind
  /-- Any text. -/
  | text
  /-- A path, which is not empty. -/
  | path
  /-- A number of at most 64 bits. -/
  | count
  /-- Nothing: the option is given or not. -/
  | flag
  deriving DecidableEq, Repr, Inhabited

/-- An option. -/
structure OptionForm where
  name : String
  letter : Option Char
  kind : ValueKind
  deriving DecidableEq, Repr, Inhabited

/-- How a command is written: its options, and what stands at its positions. -/
structure Form where
  options : List OptionForm
  positions : List ValueKind
  deriving DecidableEq, Repr, Inhabited

/-- The values that were given. -/
structure Given where
  options : List (String × String) := []
  positions : List String := []
  deriving DecidableEq, Repr, Inhabited

/-- The number that a text writes in digits, with a plus sign in front or not. -/
def count? (text : String) : Option Nat :=
  let digits := if text.toList.head? == some '+' then text.toList.drop 1 else text.toList
  if digits.isEmpty || !digits.all Char.isDigit then none
  else
    let n := digits.foldl (fun n d => 10 * n + (d.toNat - '0'.toNat)) 0
    if n < Nat.pow 2 64 then some n else none

/-- The text is a value of the kind. -/
def ValueKind.admits : ValueKind → String → Bool
  | .text, _ => true
  | .path, t => !t.isEmpty
  | .count, t => (count? t).isSome
  | .flag, _ => true

/-- Take up the value of an option; an option is given once. -/
def Given.withOption? (g : Given) (o : OptionForm) (value : String) : Option Given :=
  if (g.options.any (·.1 == o.name)) || !o.kind.admits value then none
  else some { g with options := g.options ++ [(o.name, value)] }

/-- Take up the next position. -/
def Given.withPosition? (g : Given) (form : Form) (value : String) : Option Given := do
  let kind ← form.positions[g.positions.length]?
  if kind.admits value then some { g with positions := g.positions ++ [value] } else none

/-- The option that an argument names, with the value in its own text if there is one. -/
def Form.option? (form : Form) (argument : List Char) : Option (OptionForm × Option String) :=
  match argument with
  | '-' :: '-' :: long =>
      let name := long.takeWhile (· != '=')
      let rest := long.dropWhile (· != '=')
      let value := if rest.isEmpty then none else some (String.ofList (rest.drop 1))
      (form.options.find? (·.name == String.ofList name)).map fun o => (o, value)
  | '-' :: letter :: rest =>
      let value :=
        if rest.isEmpty then none
        else some (String.ofList (if rest.head? == some '=' then rest.drop 1 else rest))
      (form.options.find? (·.letter == some letter)).map fun o => (o, value)
  | _ => none

/-- The argument is an option. -/
def looksLikeOption (argument : String) : Bool :=
  argument.toList.head? == some '-' && argument != "-"

/-- Read arguments; none if they do not fit. `awaiting` is the option whose value comes next. -/
def Form.read (form : Form) : Given → (awaiting : Option OptionForm) → List String → Option Given
  | g, none, [] => some g
  | _, some _, [] => none
  | g, some o, v :: rest =>
      if looksLikeOption v then none
      else do
        let g ← g.withOption? o v
        form.read g none rest
  | g, none, a :: rest =>
      if a == "--" then rest.foldlM (fun g v => g.withPosition? form v) g
      else if !looksLikeOption a then do
        let g ← g.withPosition? form a
        form.read g none rest
      else
        match form.option? a.toList with
        | none => none
        | some (o, some value) => do
            if o.kind == .flag then none
            let g ← g.withOption? o value
            form.read g none rest
        | some (o, none) => do
            if o.kind == .flag then
              let g ← g.withOption? o ""
              form.read g none rest
            else form.read g (some o) rest

/-- Read the arguments of a command; every position has to be filled. -/
def Form.given? (form : Form) (arguments : List String) : Option Given := do
  let g ← form.read {} none arguments
  if g.positions.length == form.positions.length then some g else none

/-- The value of an option. -/
def Given.option? (g : Given) (name : String) : Option String := g.options.lookup name

/-- The option that narrows screens. -/
def filterOption : OptionForm := ⟨"filter", some 'f', .text⟩

/-- The option that names the graph to read. -/
def inputOption : OptionForm := ⟨"input", some 'i', .path⟩

/-- Read a command line; none if it is not well formed. -/
def parse? : List String → Option Command
  | "analyze" :: arguments => do
      let form : Form :=
        ⟨[⟨"config", some 'c', .path⟩, ⟨"output", some 'o', .path⟩, ⟨"verbose", none, .flag⟩], []⟩
      let g ← form.given? arguments
      return .analyze (g.option? "config") ((g.option? "output").getD defaultMap)
        (g.option? "verbose").isSome
  | "view" :: arguments => do
      let form : Form :=
        ⟨[filterOption, ⟨"layers", some 'l', .text⟩, ⟨"hops", none, .count⟩, inputOption], []⟩
      let g ← form.given? arguments
      return .view (g.option? "filter") ((g.option? "layers").getD defaultLayers)
        ((g.option? "hops").bind count?) ((g.option? "input").getD defaultMap)
  | "impact" :: arguments => do
      let form : Form := ⟨[filterOption, inputOption], [.text]⟩
      let g ← form.given? arguments
      let api ← g.positions[0]?
      return .impact api (g.option? "filter") ((g.option? "input").getD defaultMap)
  | "diff" :: arguments => do
      let form : Form := ⟨[filterOption], [.path, .path]⟩
      let g ← form.given? arguments
      let old ← g.positions[0]?
      let new ← g.positions[1]?
      return .diff old new (g.option? "filter")
  | _ => none

end Command

end ApiAtlas
