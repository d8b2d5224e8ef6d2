import ApiAtlas.Path
import ApiAtlas.Settings.Basic
set_option autoImplicit false

/-!
# Screen: routes

The route of a screen follows from the place of its file.  Below a directory `app` every directory
with a `page` file is a route; below a directory `pages` every file is one.  The base path of a
project and the first of its locales that fits are taken off the front.
-/

namespace ApiAtlas.Route

/-- The extensions of files that can be screens. -/
def extensions : List String := ["tsx", "ts", "jsx", "js"]

/-- The stem of a file name whose extension is one of a screen. -/
def stem? (name : String) : Option (List Char) := do
  let (stem, ext) ← Text.cutAtLast? '.' name.toList
  if extensions.contains (String.ofList ext) then some stem else none

/-- The directories and the file name behind the first component `anchor`. -/
def below? (anchor : String) (path : RawText) : Option (List String × String) :=
  match (Path.names path).dropWhile (· != anchor) with
  | [] => none
  | _ :: rest =>
      match rest.getLast? with
      | some file => some (rest.dropLast, file)
      | none => none

/-- Slash and the names with slashes between them. -/
def joined (names : List String) : List Char :=
  '/' :: (String.intercalate "/" names).toList

/-- Take `head` off a route: all of it, or up to a slash. -/
def without? (head route : List Char) : Option (List Char) :=
  if route == head then some ['/']
  else (Text.dropHead? (head ++ ['/']) route).map ('/' :: ·)

/-- The text without the slashes at its ends. -/
def trimSlashes (text : List Char) : List Char :=
  (((text.dropWhile (· == '/')).reverse).dropWhile (· == '/')).reverse

/-- Take the base path of a project off a route. -/
def withoutBase (base : Option String) (route : List Char) : List Char :=
  match base with
  | none => route
  | some text =>
      let trimmed := trimSlashes text.toList
      if trimmed.isEmpty then route else (without? ('/' :: trimmed) route).getD route

/-- Take the first locale that fits off a route. -/
def withoutLocale (locales : List String) (route : List Char) : List Char :=
  (locales.findSome? fun l => without? ('/' :: l.toList) route).getD route

/-- Drop the slashes at the end, but for one that stands alone. -/
def withoutFinalSlashes (route : List Char) : List Char :=
  match (route.reverse.dropWhile (· == '/')).reverse with
  | [] => route.take 1
  | kept => kept

/-- A route starts with a slash. -/
def rooted : List Char → List Char
  | '/' :: rest => '/' :: rest
  | route => '/' :: route

/-- A route without base path, locale and final slashes. -/
def normalize (project : Project) (route : List Char) : List Char :=
  withoutFinalSlashes (rooted (withoutLocale project.locales (withoutBase project.basePath route)))

/-- A directory that groups routes without being part of them. -/
def isGroup (dir : String) : Bool :=
  let chars := dir.toList
  (chars.head? == some '(' && chars.getLast? == some ')') || chars.head? == some '@'

/-- The route of a `page` file below `app`. -/
def app? (project : Project) (path : RawText) : Option String := do
  let (dirs, file) ← below? "app" path
  let stem ← stem? file
  if stem != "page".toList then none
  return String.ofList (normalize project (joined (dirs.filter fun d => !isGroup d)))

/-- The name starts with an underscore. -/
def isPrivate (name : List Char) : Bool := name.head? == some '_'

/-- The route of a file below `pages`. Files and directories that start with an underscore and
everything in `api` are no screens. -/
def pages? (project : Project) (path : RawText) : Option String := do
  let (dirs, file) ← below? "pages" path
  let stem ← stem? file
  if isPrivate stem || dirs.any fun d => isPrivate d.toList then none
  if dirs.head? == some "api" then none
  let kept := if stem == "index".toList then dirs else dirs ++ [String.ofList stem]
  return String.ofList (normalize project (joined kept))

end ApiAtlas.Route
