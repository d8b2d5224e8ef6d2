import ApiAtlas.Path
set_option autoImplicit false

/-!
# File trees

A file tree is a file or a folder of named trees.  A workspace is the tree of a file system with the
folder that relative paths start from; paths are looked up in it the way the system does, and the
faults bear the system's texts.
-/

namespace ApiAtlas

/-- Files and folders. -/
inductive FileTree
  | file (bytes : ByteArray)
  | folder (entries : List (RawText × FileTree))
  deriving Inhabited

/-- Why a file cannot be read or written. -/
inductive FileFault
  | notFound
  | exists
  | notFolder
  | isFolder
  | notText
  deriving DecidableEq, Repr, Inhabited

/-- The wording of a fault. -/
def FileFault.message : FileFault → String
  | .notFound => "No such file or directory (os error 2)"
  | .exists => "File exists (os error 17)"
  | .notFolder => "Not a directory (os error 20)"
  | .isFolder => "Is a directory (os error 21)"
  | .notText => "stream did not contain valid UTF-8"

namespace FileTree

/-- A file with a text. -/
def ofText (text : String) : FileTree := .file text.toUTF8

/-- The tree is a folder. -/
def isFolder : FileTree → Bool
  | .folder _ => true
  | .file _ => false

/-- The entry of a folder under a name. -/
def child? (name : RawText) : FileTree → Option FileTree
  | .folder entries => entries.lookup name
  | .file _ => none

/-- The tree at a place, which is given by the names on the way to it. -/
def get? (tree : FileTree) : List RawText → Option FileTree
  | [] => some tree
  | name :: rest => (tree.child? name).bind (get? · rest)

/-- Put a tree under a name, in the place of the old one if there is one. -/
def putEntry (name : RawText) (tree : FileTree) :
    List (RawText × FileTree) → List (RawText × FileTree)
  | [] => [(name, tree)]
  | (n, t) :: rest => if n == name then (n, tree) :: rest else (n, t) :: putEntry name tree rest

/-- Put a tree at a place, making the folders on the way to it. A file on the way gives way. -/
def put (new tree : FileTree) : List RawText → FileTree
  | [] => new
  | name :: rest =>
      let entries := match tree with
        | .folder entries => entries
        | .file _ => []
      .folder (putEntry name (put new ((entries.lookup name).getD (.folder [])) rest) entries)

end FileTree

/-- A file system and the folder that relative paths start from. -/
structure Workspace where
  root : FileTree := .folder []
  here : List RawText := []
  deriving Inhabited

namespace Workspace

/-- One step on the way to a place. -/
def step (w : Workspace) (place : List RawText) (c : Component) :
    Except FileFault (List RawText) :=
  match c with
  | .root => .ok []
  | _ =>
      match w.root.get? place with
      | none => .error .notFound
      | some (.file _) => .error .notFolder
      | some (.folder entries) =>
          match c with
          | .name n => if (entries.lookup n).isSome then .ok (place ++ [n]) else .error .notFound
          | .up => .ok place.dropLast
          | _ => .ok place

/-- The path is written so that it can only be a folder. -/
def demandsFolder (path : RawText) : Bool :=
  [RawText.slash].isSuffixOf path.bytes || [RawText.slash, RawText.dot].isSuffixOf path.bytes

/-- The place of a path that leads to something. -/
def place (w : Workspace) (path : RawText) : Except FileFault (List RawText) := do
  if path.isEmpty then throw .notFound
  let found ← (Path.components path).foldlM w.step w.here
  if demandsFolder path && !((w.root.get? found).any (·.isFolder)) then throw .notFolder
  return found

/-- The path leads to something. -/
def hasPath (w : Workspace) (path : RawText) : Bool := (w.place path).toOption.isSome

/-- The text of the file at a path. -/
def readText (w : Workspace) (path : RawText) : Except FileFault String := do
  let found ← w.place path
  match w.root.get? found with
  | some (.file bytes) =>
      match Text.ofBytes? bytes with
      | some text => return text
      | none => throw .notText
  | some (.folder _) => throw .isFolder
  | none => throw .notFound

/-- Make a folder and those on the way to it, as far as they are missing. -/
def makeFolders : Workspace → List RawText → List Component → Except FileFault Workspace
  | w, _, [] => .ok w
  | w, place, .name n :: rest =>
      let next := place ++ [n]
      match w.root.get? next with
      | some (.folder _) => makeFolders w next rest
      | some (.file _) => .error (if rest.isEmpty then .exists else .notFolder)
      | none => makeFolders { w with root := FileTree.put (.folder []) w.root next } next rest
  | w, _, .root :: rest => makeFolders w [] rest
  | w, place, .up :: rest => makeFolders w place.dropLast rest
  | w, place, .here :: rest => makeFolders w place rest

/-- Write a file; the folder it lies in has to be there. -/
def writeText (w : Workspace) (path : RawText) (text : String) : Except FileFault Workspace := do
  let components := Path.components path
  if path.isEmpty then throw .notFound
  let folder ← components.dropLast.foldlM w.step w.here
  match w.root.get? folder, components.getLast? with
  | some (.file _), _ => throw .notFolder
  | none, _ => throw .notFound
  | some (.folder entries), some (.name n) =>
      match entries.lookup n with
      | some (.folder _) => throw .isFolder
      | some (.file _) => if demandsFolder path then throw .notFolder
      | none => if demandsFolder path then throw .isFolder
      return { w with root := FileTree.put (.ofText text) w.root (folder ++ [n]) }
  | some (.folder _), _ => throw .isFolder

end Workspace

end ApiAtlas
