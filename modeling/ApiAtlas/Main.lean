import ApiAtlas.Command.Run
import Std.Time.DateTime
set_option autoImplicit false

/-!
# The program

The command line is run on the folder that the program is started in.  The folder is read into
memory, together with the files elsewhere that the arguments name; the command is run on that, and
the one file that it may write is written back.
-/

namespace ApiAtlas

/-- The entries of a folder with all that lies below them. Links are passed over. -/
partial def readEntries (folder : String) : IO (List (RawText × FileTree)) := do
  let found ← (← IO.FS.realPath folder).readDir
  let mut entries := []
  for entry in found do
    let path := folder ++ "/" ++ entry.fileName
    match (← entry.path.symlinkMetadata).type with
    | .dir => entries := (RawText.ofText entry.fileName, .folder (← readEntries path)) :: entries
    | .file =>
        entries := (RawText.ofText entry.fileName, .file (← IO.FS.readBinFile path)) :: entries
    | _ => pure ()
  return entries.reverse

/-- The names on the way to an absolute path. -/
def namesOf (path : String) : List RawText :=
  ((path.splitOn "/").filter (!·.isEmpty)).map RawText.ofText

/-- Add the file that a path outside the folder leads to, if it leads to one. -/
def readNamed (w : Workspace) (path : String) : IO Workspace := do
  try
    let found := (← IO.FS.realPath path).toString
    let names := namesOf found
    if w.here.isPrefixOf names then return w
    let bytes ← IO.FS.readBinFile found
    return { w with root := FileTree.put (.file bytes) w.root names }
  catch _ => return w

/-- The texts in the arguments that may be paths. -/
def namedPaths (arguments : List String) : List String :=
  arguments.flatMap fun a => [a, String.intercalate "=" ((a.splitOn "=").drop 1)]

/-- The workspace of the folder that the program is started in. -/
def readWorkspace (arguments : List String) : IO Workspace := do
  let folder := (← IO.currentDir).toString
  let names := namesOf folder
  let tree : FileTree := .folder (← readEntries folder)
  (namedPaths arguments).foldlM readNamed ⟨FileTree.put tree (.folder []) names, names⟩

/-- A number with at least so many digits. -/
def digits (width : Nat) (n : Nat) : String :=
  let text := toString n
  String.join (List.replicate (width - text.length) "0") ++ text

/-- The present moment in world time. -/
def now : IO String := do
  let wall := (← Std.Time.Timestamp.now).toWallTime .zero
  let moment := Std.Time.PlainDateTime.ofWallTime wall
  let date := digits 4 moment.year.toInt.toNat ++ "-" ++ digits 2 moment.month.val.toNat ++ "-"
    ++ digits 2 moment.day.val.toNat
  let time := digits 2 moment.hour.val.toNat ++ ":" ++ digits 2 moment.minute.val.toNat ++ ":"
    ++ digits 2 moment.second.val.toNat
  return date ++ "T" ++ time ++ "." ++ digits 9 moment.nanosecond.val.toNat ++ "+00:00"

/-- Write the file that a command has written in the workspace. -/
def writeBack (arguments : List String) (after : Workspace) : IO Unit := do
  match (Command.parse? arguments).bind (·.target?) with
  | none => return
  | some path =>
      match after.readText path with
      | .error _ => return
      | .ok text =>
          let folder := Command.folderOf path
          if !folder.isEmpty then IO.FS.createDirAll folder
          IO.FS.writeFile path text

end ApiAtlas

open ApiAtlas in
/-- Run the command line. -/
def main (arguments : List String) : IO UInt32 := do
  let outcome := Command.runLine .roomy (← readWorkspace arguments) (← now) arguments
  if outcome.code == 0 then writeBack arguments outcome.workspace
  outcome.output.forM (IO.println ·)
  outcome.errors.forM (IO.eprintln ·)
  return outcome.code.toUInt32
