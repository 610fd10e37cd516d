/-
# A configuration as JSON

A configuration is written as an object with all five settings. Paths are written as
texts, so a configuration with a path that is no text cannot be written.
-/

import CacheManifest.Config.Reading
import CacheManifest.Json.Encoding

namespace CacheManifest

namespace Config

/-- What a setting holds. -/
inductive Content where
  | path (path : Path)
  | paths (paths : List Path)
  | texts (texts : List String)
deriving DecidableEq, Repr

/-- What a setting holds in a configuration. -/
def Field.content (config : Config) : Field → Content
  | .output => .path config.output
  | .sourceDirs => .paths config.sourceDirs
  | .excludedExtensions => .texts config.excludedExtensions
  | .ignoredDirs => .texts config.ignoredDirs
  | .scriptDirs => .texts config.scriptDirs

/-- What a setting holds, as a JSON value. -/
def Content.encoded : Content → Except Json.EncodeError Json
  | .path held => Json.ofPath held
  | .paths held => Json.ofItems Json.ofPath held
  | .texts held => Json.ofItems Json.ofText held

/-- Settings of a configuration as a JSON object, in an order. -/
def encoded (config : Config) (order : List Field) : Except Json.EncodeError Json :=
  Json.ofFields (order.map fun field => (field.name, (field.content config).encoded))

end Config

end CacheManifest
