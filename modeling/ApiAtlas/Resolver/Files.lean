import ApiAtlas.Layer
import ApiAtlas.Resolver.Scan
import ApiAtlas.Resolver.Textual
import ApiAtlas.Source.Basic
set_option autoImplicit false

/-!
# Resolvers of files

A script with a tree is read by its tree, one without by its text.  The patterns for texts are
compiled first, whether a text needs them or not; an engine that refuses one of them fails the
extraction.
-/

namespace ApiAtlas.Resolver

/-- The resolvers of a script. -/
def ofFile (settings : ResolverSettings) (file : SourceFile) : List Resolver :=
  match file.tree with
  | some program => ofProgram settings file.path program
  | none => Textual.resolvers settings.markers file.path file.content.toList

/-- The resolvers of all scripts among the files. -/
def ofFiles (settings : ResolverSettings) (files : List SourceFile) : Layer Resolver :=
  ⟨(files.filter (·.kind == .script)).flatMap (ofFile settings), []⟩

/-- Extract the resolvers of files. -/
def extract (engine : RegexEngine) (settings : ResolverSettings) (files : List SourceFile) :
    LayerResult Resolver :=
  if engine.admits (Textual.classPattern settings.markers)
      && engine.admits (Textual.methodPattern settings.markers) then
    .ok (ofFiles settings files)
  else .error (.failed "resolver" RegexEngine.refusal)

end ApiAtlas.Resolver
