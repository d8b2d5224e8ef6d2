import ApiAtlas.Identifier
import ApiAtlas.Layer
import ApiAtlas.Screen.Route
import ApiAtlas.Source.Basic
set_option autoImplicit false

/-!
# Screens

The screens of a front end, one for each file that has a route.
-/

namespace ApiAtlas

/-- The convention by which a screen got its route. -/
inductive RoutingStyle
  | app
  | pages
  deriving DecidableEq, Repr, Inhabited

/-- The word for a convention. -/
def RoutingStyle.name : RoutingStyle → String
  | .app => "app-router"
  | .pages => "pages-router"

/-- A route of the user interface. -/
structure Screen where
  id : String
  route : String
  file : RawText
  space : Option String
  style : RoutingStyle
  deriving DecidableEq, Repr, Inhabited

namespace Screen

/-- The screen of a file with a route. -/
def ofRoute (project : Project) (file : SourceFile) (style : RoutingStyle) (route : String) :
    Screen :=
  ⟨Identifier.screen project.space route, route, file.path, project.space, style⟩

/-- The names of a path below a directory; all of them if it is not in there. -/
def relativeTo (dir path : RawText) : RawText :=
  if Path.isUnder dir path then
    .joined (((Path.components path).drop (Path.components dir).length).filterMap Component.name?)
  else path

/-- The screen of a file, if it has a route by a convention that the project follows. -/
def ofFile? (project : Project) (file : SourceFile) : Option Screen :=
  let path := relativeTo project.path file.path
  let byApp := if project.routing.followsApp then Route.app? project path else none
  let byPages := if project.routing.followsPages then Route.pages? project path else none
  match byApp with
  | some route => some (ofRoute project file .app route)
  | none => byPages.map (ofRoute project file .pages)

/-- The screens of a project. -/
def ofProject (project : Project) (files : List SourceFile) : Layer Screen :=
  ⟨(filesUnder project.path files).filterMap (ofFile? project), []⟩

end Screen

end ApiAtlas
