import ApiAtlas.FileTree.Basic
import ApiAtlas.Glob.Matching
import ApiAtlas.Text.Blank
set_option autoImplicit false

/-!
# Files that are left out

A folder may hold files of ignore rules.  A rule is a pattern for paths below the folder; it leaves
out what it matches or, marked by `!`, keeps it.  The last rule of a file that matches decides, the
innermost folder with a matching rule decides over those around it, and `.ignore` decides over
`.gitignore`, which counts only inside a repository.  What no rule decides is left out if its name
starts with a dot.
-/

namespace ApiAtlas

/-- A line of an ignore file. -/
structure IgnoreRule where
  glob : Glob
  /-- The rule keeps what it matches. -/
  keeps : Bool
  foldersOnly : Bool
  deriving Inhabited

namespace IgnoreRule

/-- Patterns of rules stop at slashes. -/
def options : Glob.Options := { stopAtSlash := true, openBracketIsText := true }

/-- The pattern of a rule without its marks: one that names no folder matches at any depth, and one
that ends in a double star matches what lies inside only. -/
def pattern (anchored : Bool) (text : List Char) : List Char :=
  let deep := ['*', '*', '/']
  let placed :=
    if anchored || text.contains '/' || text == ['*', '*'] then text else deep ++ text
  if Text.endsIn placed ['/', '*', '*'] then placed ++ ['/', '*'] else placed

/-- The rule of a line without its blanks at the end. -/
def ofMarked? (line : List Char) : Option IgnoreRule :=
  let escaped := ['\\', '!'].isPrefixOf line || ['\\', '#'].isPrefixOf line
  let keeps := !escaped && line.head? == some '!'
  let body := if escaped || keeps then line.drop 1 else line
  let anchored := !escaped && body.head? == some '/'
  let body := if anchored then body.drop 1 else body
  let foldersOnly := body.getLast? == some '/'
  let body := if foldersOnly then body.dropLast else body
  let body := if foldersOnly && body.getLast? == some '\\' then body.dropLast else body
  match Glob.ofText options (String.ofList (pattern anchored body)) with
  | .ok glob => some ⟨glob, keeps, foldersOnly⟩
  | .error _ => none

/-- The rule of a line, if it is one: comments, blank lines and lines that are no pattern are
passed over. -/
def ofLine? (line : List Char) : Option IgnoreRule :=
  if line.head? == some '#' then none
  else
    let line := if Text.endsIn line ['\\', ' '] then line else Text.trimEnd line
    if line.isEmpty then none else ofMarked? line

/-- The rules of a file, in order. -/
def ofText (text : String) : List IgnoreRule :=
  let chars := text.toList
  let chars := if chars.head? == some '\uFEFF' then chars.drop 1 else chars
  (Text.splitBy '\n' chars).filterMap fun line =>
    ofLine? (if line.getLast? == some '\r' then line.dropLast else line)

/-- What the rules say of a path: keep it, leave it out, or nothing. -/
def verdict? (rules : List IgnoreRule) (path : RawText) (isFolder : Bool) : Option Bool :=
  (rules.reverse.find? fun r => (!r.foldersOnly || isFolder) && r.glob.isMatch path).map (·.keeps)

end IgnoreRule

/-- What a folder says about the paths below it. -/
structure IgnoreLevel where
  place : List RawText
  rules : List IgnoreRule := []
  repositoryRules : List IgnoreRule := []
  repositoryExcludes : List IgnoreRule := []
  /-- The folder is the top of a repository. -/
  isRepository : Bool := false
  deriving Inhabited

namespace IgnoreLevel

/-- The rules in the file at a place, if it is there. -/
def rulesAt (tree : FileTree) (place : List RawText) : List IgnoreRule :=
  match tree.get? place with
  | some (.file bytes) => ((Text.ofBytes? bytes).map IgnoreRule.ofText).getD []
  | _ => []

/-- What a folder at a place says. -/
def ofFolder (place : List RawText) (folder : FileTree) : IgnoreLevel where
  place := place
  rules := rulesAt folder [".ignore"]
  repositoryRules := rulesAt folder [".gitignore"]
  repositoryExcludes := rulesAt folder [".git", "info", "exclude"]
  isRepository := (folder.child? ".git").isSome

/-- The path of a place as the level sees it. -/
def pathOf (level : IgnoreLevel) (place : List RawText) : RawText :=
  .joined (place.drop level.place.length)

/-- The levels up to the first top of a repository. -/
def withinRepository : List IgnoreLevel → List IgnoreLevel
  | [] => []
  | l :: rest => if l.isRepository then [l] else l :: withinRepository rest

/-- What the levels, innermost first, say of a place. -/
def verdict? (levels : List IgnoreLevel) (place : List RawText) (isFolder : Bool) : Option Bool :=
  let ask (levels : List IgnoreLevel) (rules : IgnoreLevel → List IgnoreRule) : Option Bool :=
    levels.findSome? fun l => IgnoreRule.verdict? (rules l) (l.pathOf place) isFolder
  let inside := if levels.any (·.isRepository) then withinRepository levels else []
  ask levels (·.rules) <|> ask inside (·.repositoryRules) <|> ask inside (·.repositoryExcludes)

/-- The place is left out. -/
def leavesOut (levels : List IgnoreLevel) (place : List RawText) (isFolder : Bool) : Bool :=
  match verdict? levels place isFolder with
  | some keeps => !keeps
  | none => (place.getLast?.bind (·.bytes.head?)) == some RawText.dot

end IgnoreLevel

mutual

/-- The files below a place that are not left out, with their places. `levels` holds what the
folders around the place say. -/
def FileTree.walk (levels : List IgnoreLevel) (place : List RawText) :
    FileTree → List (List RawText × ByteArray)
  | .file bytes => [(place, bytes)]
  | .folder entries =>
      FileTree.walkEntries (.ofFolder place (.folder entries) :: levels) place entries

/-- The files below the entries of a folder. -/
def FileTree.walkEntries (levels : List IgnoreLevel) (place : List RawText) :
    List (RawText × FileTree) → List (List RawText × ByteArray)
  | [] => []
  | (name, tree) :: rest =>
      (if IgnoreLevel.leavesOut levels (place ++ [name]) tree.isFolder then []
        else FileTree.walk levels (place ++ [name]) tree)
      ++ FileTree.walkEntries levels place rest

end

/-- What the folders on the way to a place say, innermost first. -/
def Workspace.levelsAround (w : Workspace) (place : List RawText) : List IgnoreLevel :=
  ((List.range place.length).reverse.map (place.take ·)).filterMap fun outer =>
    (w.root.get? outer).map (IgnoreLevel.ofFolder outer)

end ApiAtlas
