import ApiAtlas.Text.Raw
set_option autoImplicit false

/-!
# Paths

A path is a row of bytes; what it means is its list of components.  Empty components and dots
vanish, except for a dot at the front of a relative path.  Two paths with the same components are
the same place, whatever slashes they are written with.  A component need not be a text.
-/

namespace ApiAtlas

/-- A part of a path. -/
inductive Component
  | root
  | here
  | up
  | name (raw : RawText)
  deriving DecidableEq, Repr, Inhabited

/-- The place of a component in the order of paths, before names are compared. -/
def Component.rank : Component → Nat
  | .root => 0
  | .here => 1
  | .up => 2
  | .name _ => 3

/-- The bytes of a name; none for the others. -/
def Component.nameBytes : Component → List UInt8
  | .name raw => raw.bytes
  | _ => []

/-- The name that a component is. -/
def Component.name? : Component → Option RawText
  | .name raw => some raw
  | _ => none

namespace Path

/-- The component that a piece between two slashes stands for, unless it vanishes. -/
def component? (first : Bool) (piece : List UInt8) : Option Component :=
  if piece.isEmpty then none
  else if piece == [RawText.dot] then (if first then some .here else none)
  else if piece == [RawText.dot, RawText.dot] then some .up
  else some (.name ⟨piece⟩)

/-- The components of a path. -/
def components (path : RawText) : List Component :=
  let rooted := path.bytes.head? == some RawText.slash
  let pieces := Text.splitBy RawText.slash path.bytes
  let front := if rooted then [Component.root] else (pieces.head?.bind (component? true)).toList
  front ++ (pieces.drop 1).filterMap (component? false)

/-- The names among the components. -/
def rawNames (path : RawText) : List RawText := (components path).filterMap Component.name?

/-- The names among the components that are texts; the others are passed over. -/
def names (path : RawText) : List String := (rawNames path).filterMap RawText.text?

/-- The last component, if it is a name. -/
def fileName? (path : RawText) : Option RawText := (components path).getLast?.bind Component.name?

/-- The extension of a path: what follows the last dot of its file name, if something stands before
that dot. -/
def extension? (path : RawText) : Option String := do
  let name ← fileName? path
  let (stem, ext) ← Text.cutAtLast? RawText.dot name.bytes
  if stem.isEmpty then none else RawText.text? ⟨ext⟩

/-- The path lies in the directory, component by component. -/
def isUnder (dir path : RawText) : Bool := (components dir).isPrefixOf (components path)

/-- Lexicographic comparison of components: by rank, then by name. -/
def componentsLe : List Component → List Component → Bool
  | [], _ => true
  | _ :: _, [] => false
  | a :: as, b :: bs =>
      if a = b then componentsLe as bs
      else if a.rank == b.rank then a.nameBytes < b.nameBytes
      else a.rank < b.rank

/-- The order of paths. -/
def le (p q : RawText) : Bool := componentsLe (components p) (components q)

/-- The two paths are the same place. -/
def same (p q : RawText) : Bool := components p == components q

end Path

end ApiAtlas
