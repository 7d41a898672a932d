import ChartScript.Log.Logger
import ChartScript.Scope.Forest
import ChartScript.Settings.Flags
import ChartScript.Settings.Properties

/-!
# Settings

Settings come from four places. In rising order of weight: what is built in, a property file, the
environment, and flags. An empty variable of the environment counts as absent; a flag that is given
counts even when it is empty.
-/

set_option autoImplicit false

namespace ChartScript

/-- The variables of the environment with their values. -/
abbrev Environment : Type := List (Bytes × Bytes)

namespace Environment

/-- The value of a variable, which is empty if it is not set. -/
def value (env : Environment) (name : Bytes) : Bytes :=
  ((env.find? fun v => v.1 == name).map (·.2)).getD []

/-- The value of a variable, if it is not empty. -/
def get? (env : Environment) (name : String) : Option Bytes :=
  let value := env.value name
  if value.isEmpty then none else some value

end Environment

/-- What a command works with. -/
structure Settings where
  propertiesPath : Bytes
  pluginDir : Bytes
  logLevel : Level
  logFile : Bytes
  databaseUrl : Bytes
  addr : Bytes
  /-- All properties of the file, those of the settings among them. -/
  properties : Properties

/-- Why there are no settings: the property file at a path has no properties, in the words of its
reader. -/
structure SettingsError where
  path : Bytes
  words : Bytes

/-- The text of an error. -/
def SettingsError.message (e : SettingsError) : Bytes :=
  "load properties " ++ e.path ++ ": " ++ e.words

namespace Settings

/-- Where properties are read from unless told otherwise. -/
def defaultPath : String := "dtrader.properties"

/-- Where sessions are served unless told otherwise. -/
def defaultAddr : String := ":8091"

/-- The flags every command knows. -/
def flags : List Flag := [
  ⟨"properties", .text defaultPath, "properties file loaded into the root scope"⟩,
  ⟨"plugins", .text "", "directory of Go plugin functions"⟩,
  ⟨"log-level", .text Level.info.name, "minimum log level (DEBUG, INFO, WARN, ERROR)"⟩,
  ⟨"log-file", .text "", "write JSON logs to this file instead of stderr"⟩]

/-- The settings that flags, environment and files amount to. A property file that was asked for must
not be missing. -/
def resolve (given : ParsedFlags) (env : Environment) (reader : PropertyReader) :
    Except SettingsError Settings := do
  let asked := given.text? "properties"
  let path := asked.getD defaultPath
  let properties ← (reader.read path asked.isNone).mapError fun words => ⟨path, words⟩
  let pick := fun (flag fromEnv : Option Bytes) (key absent : String) =>
    ((flag.or fromEnv).or (properties.get? key)).getD absent
  return {
    propertiesPath := path
    pluginDir := pick (given.text? "plugins") (env.get? "DTRADER_PLUGIN_DIR") "dtrader.plugins" ""
    logLevel := .parse (pick (given.text? "log-level") (env.get? "DTRADER_LOG_LEVEL")
      "dtrader.log.level" Level.info.name)
    logFile := pick (given.text? "log-file") (env.get? "DTRADER_LOG_FILE") "dtrader.log.file" ""
    databaseUrl := pick none (env.get? "DATABASE_URL") "dtrader.database.url" ""
    addr := pick none none "dtrader.addr" defaultAddr
    properties }

/-- A logger with the minimum level of the settings. -/
def logger (s : Settings) (component : Bytes) : Logger :=
  { component, minLevel := s.logLevel.name }

end Settings

/-- Stores properties in a scope, each as a text. -/
def Forest.putProperties (f : Forest) (i : Nat) (p : Properties) : Forest :=
  p.keys.foldl (fun f key => f.putProperty i key (.text ((p.get? key).getD []))) f

end ChartScript
