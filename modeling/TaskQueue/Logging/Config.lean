import TaskQueue.Json.Codec
import TaskQueue.Text.Blank
import TaskQueue.Text.Quoted

/-!
# Configuration of the log

The form of log lines and the filter that applies when none is set.

Out of scope: the log itself, and the language of filters.
-/

namespace TaskQueue.Logging

open Json Text

/-- The form of log lines. -/
inductive Format where
  /-- A JSON object a line. -/
  | json
  /-- Lines for people. -/
  | text
  deriving DecidableEq, Repr

/-- The form has no such name. -/
inductive FormatError where
  | unknown (name : String)
  deriving DecidableEq, Repr

/-- The wording of an error. -/
def FormatError.message : FormatError → String
  | unknown name => "unknown log format " ++ quote name ++ " (expected \"json\" or \"text\")"

namespace Format

/-- The name of a form. -/
def name : Format → String
  | json => "json"
  | text => "text"

/-- The form of a name, in any case and with blanks around it. -/
def parse (s : String) : Except FormatError Format :=
  let lower := String.ofList ((trimChars s.toList).map Char.toLower)
  if lower = "json" then .ok .json
  else if lower = "text" ∨ lower = "pretty" ∨ lower = "plain" then .ok .text
  else .error (.unknown s)

end Format

instance : Codec Format where
  encode f := .text f.name
  decode v := v.choice?.bind fun s => [Format.json, .text].find? fun f => f.name = s

/-- The form of log lines and the filter that applies when none is set. -/
structure Config where
  format : Format
  defaultFilter : String
  deriving DecidableEq

namespace Config

instance : Inhabited Config := ⟨⟨.json, "info"⟩⟩

/-- The configuration for a form that may be set. A name that is none of a form does not count. -/
def ofSetting (setting : Option String) : Config :=
  let format := match setting.map Format.parse with
    | some (.ok f) => f
    | _ => .json
  { (default : Config) with format }

end Config

instance : Codec Config where
  encode c :=
    .object [("format", encode c.format), ("default_filter", encode c.defaultFilter)]
  decode v := do
    let [format, defaultFilter] ← v.fields? ["format", "default_filter"] 2 | none
    return ⟨← required format, ← required defaultFilter⟩

end TaskQueue.Logging
