import ApiAtlas.Script.ClassBody
set_option autoImplicit false

/-!
# Scripts: imports

An import with a source is one node that lists what it binds.  That an import is only for types does
not change what it binds.
-/

namespace ApiAtlas.Script

open Syntax

/-- A name that a module gives to the outside: a name or a text. -/
def exportedName : Reader String := quotedLiteral <|> anyName

/-- What names a value inside braces: its outer name, and another name for it. -/
def renamed (behind : String) : Reader (String × Option String) := do
  let name ← exportedName
  let newName ← optionally (do word "as"; exportedName)
  ensure ((← ahead).head?.any behind.toList.contains)
  return (name, newName)

/-- What names a value inside braces. Where types are written, a word may say that it is a type. -/
def braceSpecifier (d : Dialect) : Reader (String × Option String) :=
  (do
    ensure d.hasTypes
    word "type" <|> word "typeof"
    renamed ",\x7d")
  <|> renamed ",\x7d"

/-- Names in braces. -/
def namedSpecifiers (d : Dialect) : Reader (List Specifier) := do
  mark "\x7b"
  listUntil "\x7d" (do
    let (name, newName) ← braceSpecifier d
    return [.named name (newName.getD name)])

/-- The whole of a module under one name. -/
def wholeSpecifier : Reader (List Specifier) := do
  mark "*"
  word "as"
  return [.all (← valueName)]

/-- What an import binds. -/
def importClause (d : Dialect) : Reader (List Specifier) :=
  wholeSpecifier
  <|> namedSpecifiers d
  <|> (do
    let name ← valueName
    let more ← optionally (do mark ","; wholeSpecifier <|> namedSpecifiers d)
    return .default name :: more.getD [])

/-- The source of a module. -/
def fromSource : Reader String := do
  word "from"
  quotedLiteral

/-- What a source is taken to be. -/
def importAttributes (parse : Goals) : Reader Unit := do
  let _ ← optionally (do
    word "with" <|> word "assert"
    parse (.operand .mark false))

/-- An import of a source. -/
def sourceImport (d : Dialect) (parse : Goals) : Reader Trace := do
  let clause : Reader (List Specifier × String) := do
    let found ← importClause d
    return (found, ← fromSource)
  let (specifiers, source) ←
    (do return ([], ← quotedLiteral))
    <|> (do
      ensure d.hasTypes
      word "type" <|> word "typeof"
      clause)
    <|> clause
  importAttributes parse
  semicolon false
  return [.importing source specifiers]

/-- A name for a module or for a part of one. A module that is asked for leaves no trace. -/
def aliasImport : Reader Trace := do
  let _ ← tried (do word "type"; ensure ((← ahead).head?.any isNameStart))
  let name ← valueName
  mark "="
  let trace : Trace ←
    (do
      word "require"
      mark "("
      let _ ← quotedLiteral
      mark ")"
      return [])
    <|> (do
      let first ← valueName
      let _ ← many (do mark "."; return [← anyName])
      return [.other [.identifier name, .identifier first]])
  semicolon false
  return trace

/-- An import. -/
def importStatement (d : Dialect) (parse : Goals) : Reader Trace := do
  word "import"
  sourceImport d parse <|> (do ensure d.hasTypes; aliasImport)

end ApiAtlas.Script
