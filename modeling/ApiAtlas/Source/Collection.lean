import ApiAtlas.Failure
import ApiAtlas.FileTree.Ignore
import ApiAtlas.Source.Basic
set_option autoImplicit false

/-!
# The source files of a workspace

The files below the root folder that are not ignored, that the patterns take in, that have a kind
and that are not too large.  Paths are relative to the root folder.
-/

namespace ApiAtlas

/-- The files that were collected, what could not be read, and how many were too large. -/
structure Collection where
  files : List SourceFile := []
  warnings : List String := []
  oversized : Nat := 0
  deriving Inhabited

namespace Collection

/-- The patterns of a list, or the first that is none. -/
def patterns (texts : List String) : Except Failure (List Glob) :=
  texts.mapM fun text =>
    match Glob.ofText {} text with
    | .ok glob => .ok glob
    | .error fault => .error (.glob text fault)

/-- A file that takes part, before it is read. -/
structure Candidate where
  path : RawText
  bytes : ByteArray
  kind : SourceKind
  deriving Inhabited

/-- The candidate that a file is, if the patterns take it in and it has a kind. -/
def candidate? (settings : AnalysisSettings) (taken left : List Glob) (rootPlace : List RawText)
    (file : List RawText × ByteArray) : Option Candidate := do
  let path := RawText.joined (file.1.drop rootPlace.length)
  if !taken.any (·.isMatch path) || left.any (·.isMatch path) then none
  let kind ← SourceKind.classify? settings.graphql.documentExtensions path
  return ⟨path, file.2, kind⟩

/-- Read a candidate, or say why it cannot be read. -/
def Candidate.read (c : Candidate) : Except String SourceFile :=
  match Text.ofBytes? c.bytes with
  | some text => .ok { path := c.path, content := text, kind := c.kind }
  | none => .error ("Failed to read " ++ c.path.display ++ ": " ++ FileFault.notText.message)

/-- The files below the root folder that are not ignored; none if it is no folder. -/
def filesBelow (w : Workspace) (rootDir : String) :
    List RawText × List (List RawText × ByteArray) :=
  match w.place rootDir with
  | .error _ => ([], [])
  | .ok place =>
      match w.root.get? place with
      | some (.folder entries) =>
          (place, (FileTree.folder entries).walk (w.levelsAround place) place)
      | _ => (place, [])

/-- Collect the source files of a workspace. -/
def of (w : Workspace) (settings : Settings) : Except Failure Collection := do
  let taken ← patterns settings.analysis.includePatterns
  let left ← patterns settings.analysis.excludePatterns
  let (place, found) := filesBelow w settings.rootDir
  let candidates := (found.filterMap (candidate? settings.analysis taken left place)).mergeSort
    fun a b => Path.le a.path b.path
  let (large, small) := candidates.partition (settings.analysis.maxFileSize ≤ ·.bytes.size)
  let results := small.map Candidate.read
  return {
    files := results.filterMap (·.toOption)
    warnings := results.filterMap fun r =>
      match r with
      | .ok _ => none
      | .error warning => some warning
    oversized := large.length }

/-- How many files of a kind there are. -/
def count (c : Collection) (kind : SourceKind) : Nat := (c.files.filter (·.kind == kind)).length

/-- The counts as a line of text. -/
def summary (c : Collection) : String :=
  "Found " ++ toString c.files.length ++ " source files (scripts: " ++ toString (c.count .script)
    ++ ", GraphQL: " ++ toString (c.count .document)
    ++ ", proto: " ++ toString (c.count .interfaceDefinition)
    ++ ", oversized: " ++ toString c.oversized ++ ")"

end Collection

end ApiAtlas
