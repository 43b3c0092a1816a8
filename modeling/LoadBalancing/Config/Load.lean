/-
Configurations read from text.

A configuration is written in JSON or in TOML; the path of its file tells which. A
file whose extension is `json` is JSON and any other is TOML. A text is read, taken
as a configuration, and checked.
-/
import LoadBalancing.Config.Decode
import LoadBalancing.Config.Validation
import LoadBalancing.Document.Json
import LoadBalancing.Document.Path
import LoadBalancing.Document.Toml

set_option autoImplicit false

namespace LoadBalancing

/-- The formats of configuration texts. -/
inductive ConfigFormat where
  | json
  | toml
  deriving DecidableEq, Repr

/-- Why there is no configuration. -/
inductive LoadError where
  /-- There is no file, or it does not hold text. -/
  | unreadable
  /-- The text is not of its format, or says something that no configuration can. -/
  | malformed (format : ConfigFormat)
  | rejected (error : ConfigError)
  deriving DecidableEq

namespace ConfigFormat

/-- The format of a file at the given path. -/
def ofPath (path : String) : ConfigFormat :=
  if Document.Path.extension? path = some "json" then .json else .toml

end ConfigFormat

namespace Config

/-- The configuration that a text writes, unchecked. -/
def parse? (format : ConfigFormat) (text : String) : Option Config :=
  match format with
  | .json => do config? .json (← Document.Json.read? text)
  | .toml => do config? .toml (← Document.Toml.read? text)

/-- The configuration that a text writes, checked (`parse_config`, `parse_json_config`). -/
def ofText (format : ConfigFormat) (text : String) : Except LoadError Config :=
  match parse? format text with
  | none => .error (.malformed format)
  | some config =>
    match config.validate with
    | .error e => .error (.rejected e)
    | .ok () => .ok config

/-- The configuration of a file whose path and bytes are given; with no bytes, or where no file can
be, there is nothing to read (`load_config`). -/
def ofFile (path : String) (content : Option ByteArray) : Except LoadError Config :=
  let readable := if Document.Path.canHoldFile path then content else none
  match readable.bind String.fromUTF8? with
  | none => .error .unreadable
  | some text => ofText (.ofPath path) text

end Config

end LoadBalancing
