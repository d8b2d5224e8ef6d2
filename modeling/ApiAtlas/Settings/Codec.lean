import ApiAtlas.Json.Decoder
import ApiAtlas.Settings.Basic
set_option autoImplicit false

/-!
# Settings as JSON

Settings are written in full, except that an absent text and an empty list of locales are left out.
They are read over the defaults: every field that is not there keeps its default, section by
section.
-/

namespace ApiAtlas

open Json (Record Field Decoder)

/-- A member that is left out when it is absent. -/
def Json.memberOf (key : String) (value : Option Json) : List (String × Json) :=
  (value.map fun v => (key, v)).toList

namespace ProjectKind

/-- The words for the kinds of projects. -/
def words : List (String × ProjectKind) := [("nextjs", .frontEnd), ("nestjs", .backEnd)]

/-- The word for a kind. -/
def name : ProjectKind → String
  | .frontEnd => "nextjs"
  | .backEnd => "nestjs"

end ProjectKind

namespace Routing

/-- The words for the routing conventions. -/
def words : List (String × Routing) := [("both", .both), ("app", .app), ("pages", .pages)]

/-- The word for a convention. -/
def name : Routing → String
  | .both => "both"
  | .app => "app"
  | .pages => "pages"

end Routing

/-- A project as JSON. -/
def Project.toJson (p : Project) : Json :=
  .object ([("type", .text p.kind.name), ("path", .text p.path)]
    ++ Json.memberOf "namespace" (p.space.map .text)
    ++ [("routing", .text p.routing.name)]
    ++ Json.memberOf "basePath" (p.basePath.map .text)
    ++ (if p.locales.isEmpty then [] else [("locales", Json.texts p.locales)]))

/-- Projects in JSON. -/
def Project.record : Record Project where
  name := "ProjectConfig"
  start := ⟨.frontEnd, "", none, .both, none, []⟩
  fields :=
    [.of "type" .required (.variant ProjectKind.words) fun s kind => { s with kind },
     .of "path" .required .path fun s path => { s with path },
     .of "namespace" .defaulted (.optional .text) fun s space => { s with space },
     .of "routing" .defaulted (.variant Routing.words) fun s routing => { s with routing },
     .of "basePath" .defaulted (.optional .text) fun s basePath => { s with basePath },
     .of "locales" .defaulted (.list .text) fun s locales => { s with locales }]

/-- The place of interface definitions as JSON. -/
def InterfaceSettings.toJson (s : InterfaceSettings) : Json := .object [("path", .text s.path)]

/-- The place of interface definitions in JSON. -/
def InterfaceSettings.record : Record InterfaceSettings where
  name := "ProtoConfig"
  start := {}
  fields := [.of "path" .defaulted .path fun s path => { s with path }]

/-- GraphQL settings as JSON. -/
def GraphqlSettings.toJson (s : GraphqlSettings) : Json :=
  .object [("tagNames", Json.texts s.tagNames),
    ("documentExtensions", Json.texts s.documentExtensions)]

/-- GraphQL settings in JSON. -/
def GraphqlSettings.record : Record GraphqlSettings where
  name := "GraphqlConfig"
  start := {}
  fields :=
    [.of "tagNames" .defaulted (.list .text) fun s tagNames => { s with tagNames },
     .of "documentExtensions" .defaulted (.list .text) fun s documentExtensions =>
       { s with documentExtensions }]

/-- Markers as JSON. -/
def Markers.toJson (s : Markers) : Json :=
  .object [("resolver", Json.texts s.resolver), ("query", Json.texts s.query),
    ("mutation", Json.texts s.mutation), ("resolveField", Json.texts s.resolveField)]

/-- Markers in JSON. -/
def Markers.record : Record Markers where
  name := "DecoratorConfig"
  start := {}
  fields :=
    [.of "resolver" .defaulted (.list .text) fun s resolver => { s with resolver },
     .of "query" .defaulted (.list .text) fun s query => { s with query },
     .of "mutation" .defaulted (.list .text) fun s mutation => { s with mutation },
     .of "resolveField" .defaulted (.list .text) fun s resolveField => { s with resolveField }]

/-- Resolver settings as JSON. -/
def ResolverSettings.toJson (s : ResolverSettings) : Json :=
  .object [("decorators", s.markers.toJson), ("callHints", Json.texts s.callHints),
    ("serviceLookup", .text s.serviceLookup)]

/-- Resolver settings in JSON. -/
def ResolverSettings.record : Record ResolverSettings where
  name := "NestjsConfig"
  start := {}
  fields :=
    [.of "decorators" .defaulted Markers.record.decode fun s markers => { s with markers },
     .of "callHints" .defaulted (.list .text) fun s callHints => { s with callHints },
     .of "serviceLookup" .defaulted .text fun s serviceLookup => { s with serviceLookup }]

/-- Analysis settings as JSON. -/
def AnalysisSettings.toJson (s : AnalysisSettings) : Json :=
  .object [("includePatterns", Json.texts s.includePatterns),
    ("excludePatterns", Json.texts s.excludePatterns), ("maxFileSize", Json.nat s.maxFileSize),
    ("graphql", s.graphql.toJson), ("nestjs", s.resolvers.toJson)]

/-- Analysis settings in JSON. -/
def AnalysisSettings.record : Record AnalysisSettings where
  name := "AnalysisConfig"
  start := {}
  fields :=
    [.of "includePatterns" .defaulted (.list .text) fun s includePatterns =>
       { s with includePatterns },
     .of "excludePatterns" .defaulted (.list .text) fun s excludePatterns =>
       { s with excludePatterns },
     .of "maxFileSize" .defaulted .nat64 fun s maxFileSize => { s with maxFileSize },
     .of "graphql" .defaulted GraphqlSettings.record.decode fun s graphql => { s with graphql },
     .of "nestjs" .defaulted ResolverSettings.record.decode fun s resolvers => { s with resolvers }]

/-- Output settings as JSON. -/
def OutputSettings.toJson (s : OutputSettings) : Json := .object [("anonymize", .bool s.anonymize)]

/-- Output settings in JSON. -/
def OutputSettings.record : Record OutputSettings where
  name := "OutputConfig"
  start := {}
  fields := [.of "anonymize" .defaulted .bool fun s anonymize => { s with anonymize }]

/-- A dictionary as a JSON object. -/
def Dict.toJson {α : Type} (encode : α → Json) (d : Dict α) : Json := .object (d.map encode).entries

/-- Settings as JSON. -/
def Settings.toJson (s : Settings) : Json :=
  .object [("rootDir", .text s.rootDir), ("apps", s.apps.toJson Project.toJson),
    ("packages", s.packages.toJson Project.toJson), ("protos", s.protos.toJson),
    ("analysis", s.analysis.toJson), ("output", s.output.toJson)]

/-- Settings in JSON. -/
def Settings.record : Record Settings where
  name := "Config"
  start := {}
  fields :=
    [.of "rootDir" .defaulted .path fun s rootDir => { s with rootDir },
     .of "apps" .defaulted (.dict Project.record.decode) fun s apps => { s with apps },
     .of "packages" .defaulted (.dict Project.record.decode) fun s packages => { s with packages },
     .of "protos" .defaulted InterfaceSettings.record.decode fun s protos => { s with protos },
     .of "analysis" .defaulted AnalysisSettings.record.decode fun s analysis => { s with analysis },
     .of "output" .defaulted OutputSettings.record.decode fun s output => { s with output }]

/-- Read settings from a text. -/
def Settings.ofText (text : String) : Except Json.Fault Settings :=
  Json.decodeText Settings.record.decode text

end ApiAtlas
