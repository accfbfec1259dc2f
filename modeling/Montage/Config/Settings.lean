import Montage.Config
import Montage.Value.Numeral
import Montage.Yaml.File

/-!
# Settings

The configuration is made from settings: the entries of an optional YAML file,
over which the environment has the last word.  What is set nowhere keeps its
default.
-/

namespace Montage.Config

/-- Settings by their keys. -/
abbrev Settings := List (Value × Value)

/-- The keys that settings may have, each with the environment variable that
overrides it. -/
def keys : List (String × String) :=
  [("ffmpeg", "EDITPLAN_FFMPEG"), ("ffprobe", "EDITPLAN_FFPROBE"),
    ("upload_dir", "EDITPLAN_UPLOAD_DIR"), ("output_dir", "EDITPLAN_OUTPUT_DIR"),
    ("timeout", "EDITPLAN_TIMEOUT"), ("quiet", "EDITPLAN_QUIET")]

/-- The settings in a document; an empty document has none. -/
def settingsOf : Value → Except Failure Settings
  | .null => .ok []
  | .map entries => .ok entries
  | _ => .error (.setup .configNotMapping)

/-- The settings in a file, if there is one. -/
def readSettings (host : Host) : Option String → Except Failure Settings
  | none => .ok []
  | some path => do settingsOf (← Yaml.readFile host path .configTooLarge)

/-- The keys of settings that mean nothing. -/
def unknownKeys (settings : Settings) : List Value :=
  (settings.map Prod.fst).filter fun key => !keys.any fun known => (Value.text known.1).sameKey key

/-- Refuse settings with keys that mean nothing.  They are named in order, which
only texts have. -/
def checkKeys (settings : Settings) : Except Failure Unit :=
  let unknown := unknownKeys settings
  if unknown.isEmpty then .ok ()
  else if unknown.all fun key => key.text?.isSome then
    .error (.setup (.unknownKeys ((unknown.filterMap Value.text?).mergeSort fun a b =>
      !(Text.codePoints b.toList).lex (Text.codePoints a.toList))))
  else .error (.fault .wrongType)

/-- The settings after the environment has had its word. -/
def override (env : List (String × String)) (settings : Settings) : Settings :=
  keys.foldl
    (fun settings (key, name) =>
      match env.lookup name with
      | none => settings
      | some text => Value.put settings (.text key) (.text text))
    settings

/-- The value of a setting, if it is there. -/
def setting? (settings : Settings) (key : String) : Option Value :=
  Value.lookup? settings (.text key)

/-- The value of a setting; no value if it is not there. -/
def setting (settings : Settings) (key : String) : Value := (setting? settings key).getD .null

/-- A directory.  The default stands for a setting that is not there. -/
def directory (settings : Settings) (key default : String) : Except Failure String :=
  match setting? settings key with
  | none => .ok default
  | some v => v.plain

/-- A tool.  What is set has to be a file or a program that can be found;
otherwise the tool's own name is looked for, and stands for itself if nothing is
found.  The system cannot be asked for a user whose name it does not take. -/
def tool (host : Host) (name : String) : Value → Except Failure String
  | .null => .ok ((host.programs.lookup name).getD name)
  | v => do
    let shown ← v.plain
    if !Text.isSendable (Path.userName shown) then throw (.fault .badValue)
    let path := Path.expandHome host.homeOf? shown
    if host.isFile path then return Path.absolute host.directory path
    match host.programs.lookup path with
    | some program => return program
    | none => throw (.setup (.binaryNotFound name shown))

/-- A time limit in seconds, if one is set.  An empty text sets none. -/
def limit : Value → Except Failure (Option Number)
  | .null | .text "" => .ok none
  | v => do
    match ← v.toFloat? with
    | none => throw (.setup (.badTimeout (← v.quoted)))
    | some seconds =>
      if seconds ≤ 0.0 then throw (.setup .timeoutNotPositive)
      return some (.float seconds)

/-- Whether silence is asked for. -/
def silence : Value → Except Failure Bool
  | .null => .ok false
  | .bool b => .ok b
  | v => do return Host.isYes (← v.plain)

/-- The configuration that settings and environment make on a host. -/
def ofSettings (host : Host) (settings : Settings) : Except Failure Config := do
  checkKeys settings
  let settings := override host.env settings
  let uploads ← directory settings "upload_dir" "uploads"
  let outputDir ← directory settings "output_dir" "public/processed"
  let engine ← tool host "ffmpeg" (setting settings "ffmpeg")
  let prober ← tool host "ffprobe" (setting settings "ffprobe")
  let timeout ← limit (setting settings "timeout")
  let quiet ← silence (setting settings "quiet")
  return { engine, prober, searchDirs := [uploads, outputDir], outputDir, timeout, quiet }

/-- The configuration from a file, if there is one, and the environment. -/
def load (host : Host) (path : Option String) : Except Failure Config := do
  ofSettings host (← readSettings host path)

end Montage.Config
