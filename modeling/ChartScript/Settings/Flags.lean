import ChartScript.Text.Quoted

/-!
# Flags

Arguments of a command begin with flags: `-name value`, `--name value` or `-name=value`; a switch
takes a value only in the last form. The flags end at the first argument that is none, or behind
`--`. Of a flag that is given twice the later setting counts.
-/

set_option autoImplicit false

namespace ChartScript

/-- What a flag is set to. -/
inductive FlagKind where
  /-- A text, and what it is when the flag is not given. -/
  | text (absent : String)
  /-- A switch, which is off when not given. -/
  | switch
  deriving DecidableEq

/-- A flag that a command knows. -/
structure Flag where
  name : String
  kind : FlagKind
  usage : String

/-- What a flag was set to. -/
inductive FlagValue where
  | text (t : Bytes)
  | switch (on : Bool)

/-- What is wrong with the flags of a command. -/
inductive FlagError where
  | badForm (arg : Bytes)
  | undefined (name : Bytes)
  | noValue (name : Bytes)
  | badSwitch (name value : Bytes)
  | help

/-- The text of an error. -/
def FlagError.message : FlagError → Bytes
  | .badForm arg => "bad flag syntax: " ++ arg
  | .undefined name => "flag provided but not defined: -" ++ name
  | .noValue name => "flag needs an argument: -" ++ name
  | .badSwitch name value =>
    "invalid boolean value " ++ value.quote ++ " for -" ++ name ++ ": parse error"
  | .help => "flag: help requested"

/-- The flags that were set, and the arguments behind them. -/
structure ParsedFlags where
  settings : List (Bytes × FlagValue) := []
  rest : List Bytes := []

/-- An argument by its form. -/
inductive FlagArgument where
  /-- Not a flag. -/
  | other
  /-- The mark behind which there are no flags. -/
  | stop
  | malformed
  | flag (name : Bytes) (value : Option Bytes)

namespace FlagArgument

/-- The name and the value of a flag, divided by the first equals sign behind the first byte. -/
def ofName (body : Bytes) : FlagArgument :=
  match body with
  | [] => .malformed
  | first :: rest =>
    if first = 45 || first = 61 then .malformed
    else
      let name := rest.takeWhile (· != 61)
      .flag (first :: name) (if name.length < rest.length then
        some (rest.drop (name.length + 1)) else none)

/-- The form of an argument. -/
def ofBytes (arg : Bytes) : FlagArgument :=
  match arg with
  | 45 :: 45 :: rest => if rest.isEmpty then .stop else ofName rest
  | 45 :: b :: rest => ofName (b :: rest)
  | _ => .other

end FlagArgument

namespace Flag

/-- The spellings of a switch's two positions. -/
def switchValue? (value : Bytes) : Option Bool :=
  if (["1", "t", "T", "true", "TRUE", "True"].map Bytes.ofString).contains value then some true
  else if (["0", "f", "F", "false", "FALSE", "False"].map Bytes.ofString).contains value then
    some false
  else none

/-- The error for a flag that no command knows; asking for help is none of them. -/
def unknown (name : Bytes) : FlagError :=
  if name == ("help" : Bytes) || name == ("h" : Bytes) then .help else .undefined name

/-- Reads the flags at the front of the arguments. -/
def parse (flags : List Flag) (args : List Bytes) : Except FlagError ParsedFlags :=
  match args with
  | [] => .ok {}
  | arg :: rest =>
    match FlagArgument.ofBytes arg with
    | .other => .ok { rest := arg :: rest }
    | .stop => .ok { rest }
    | .malformed => .error (.badForm arg)
    | .flag name value =>
      match flags.find? fun f => (f.name : Bytes) == name with
      | none => .error (unknown name)
      | some f =>
        let set := fun (v : FlagValue) (p : ParsedFlags) =>
          { p with settings := (name, v) :: p.settings }
        match f.kind, value with
        | .switch, none => (parse flags rest).map (set (.switch true))
        | .switch, some v =>
          match switchValue? v with
          | some on => (parse flags rest).map (set (.switch on))
          | none => .error (.badSwitch name v)
        | .text _, some v => (parse flags rest).map (set (.text v))
        | .text _, none =>
          match rest with
          | [] => .error (.noValue name)
          | v :: after => (parse flags after).map (set (.text v))
termination_by args.length

/-- How a flag is explained. -/
def explanation (f : Flag) : Bytes :=
  let form : Bytes := match f.kind with
    | .text _ => " string"
    | .switch => []
  let absent : Bytes := match f.kind with
    | .text t => if t.isEmpty then [] else " (default " ++ Bytes.quote t ++ ")"
    | .switch => []
  "  -" ++ (f.name : Bytes) ++ form ++ "\n    \t" ++ f.usage ++ absent ++ "\n"

/-- The explanation of the flags of a command, by name. -/
def usageText (command : String) (flags : List Flag) : Bytes :=
  let sorted := flags.mergeSort fun a b => Bytes.le a.name b.name
  "Usage of " ++ (command : Bytes) ++ ":\n" ++ sorted.flatMap explanation

end Flag

namespace ParsedFlags

/-- The last setting of a flag. -/
def get? (p : ParsedFlags) (name : String) : Option FlagValue :=
  (p.settings.reverse.find? fun s => s.1 == (name : Bytes)).map (·.2)

/-- The text a flag was set to. -/
def text? (p : ParsedFlags) (name : String) : Option Bytes :=
  match p.get? name with
  | some (.text t) => some t
  | _ => none

/-- Whether a switch is on. -/
def isOn (p : ParsedFlags) (name : String) : Bool :=
  match p.get? name with
  | some (.switch on) => on
  | _ => false

end ParsedFlags

end ChartScript
