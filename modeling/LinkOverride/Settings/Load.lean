import LinkOverride.Machine.Files
import LinkOverride.Settings.DefaultFile
import LinkOverride.Settings.Merge
import LinkOverride.Toml.Document

/-!
# Loading settings

Five files are looked for, each overriding those before it, and the environment overrides the files.
Last a profile is applied: the one asked for, or else the default profile. A file that cannot be
used is skipped with a warning.
-/

namespace LinkOverride.Settings

/-! ## Where settings are looked for -/

/-- The user's own directory. -/
def directory (h : Host) : Path :=
  match h.env.find? "XDG_CONFIG_HOME" with
  | none => h.home / ".config" / "mac-changer"
  | some d =>
    if d = "" then h.home / ".config" / "mac-changer" else Path.ofString d / "mac-changer"

/-- The user's own file. -/
def userFile (h : Host) : Path := directory h / "config.toml"

/-- All files, the last overriding the others. -/
def searchPaths (h : Host) : List Path :=
  [ Path.ofString "/etc/mac-changer" / "config.toml",
    userFile h,
    h.home / ".mac-changer.toml",
    h.cwd / ".mac-changer.toml",
    h.cwd / "mac-changer.toml" ]

theorem userFile_mem_searchPaths (h : Host) : userFile h ∈ searchPaths h := by
  simp [searchPaths]

/-! ## Files -/

def readDocument (p : Path) : Step Machine Entries := do
  let s ← Machine.readText p
  match Toml.readDocument s with
  | .ok es => return es
  | .error .malformed => .fail (.badValue .malformed)
  | .error (.tooLong n) => .fail (.badValue (.tooLongToRead n))

/-- The settings after a file. What was merged before a failure stays merged. -/
def loadFile (p : Path) (s : Settings) : Step Machine Settings := do
  let m ← Step.current
  if !m.fileExists p then return s
  match ← (readDocument p).attempt with
  | .error e => skip e s
  | .ok doc =>
    match merge doc p.text s with
    | (.ok (), s) =>
      Machine.debug s!"Loaded config from {p.text}"
      return s
    | (.error e, s) => skip e s
where
  skip (e : Failure) (s : Settings) : Step Machine Settings := do
    if e.skipsFile then
      Machine.warning s!"Failed to load {p.text}: {e.message}"
      return s
    else .fail e

def loadFiles : List Path → Settings → Step Machine Settings
  | [], s => pure s
  | p :: ps, s => do
    let s ← loadFile p s
    loadFiles ps s

/-! ## The profile -/

/-- The profile to be applied, if any: a name asked for that is not empty, or the default. -/
def activeProfile (asked : Option String) (s : Settings) : Value :=
  match asked with
  | some name => if name = "" then s.defaultProfile else .str name
  | none => s.defaultProfile

/-- A collection cannot be the name of a profile; any other value can, and finds none. -/
def lookUp (s : Settings) (name : Value) : Except Failure (Option Settings) :=
  match name with
  | .str n => .ok (s.applyProfile? n)
  | .list _ => .error .wrongKind
  | .table _ => .error .wrongKind
  | _ => .ok none

def applyActive (asked : Option String) (s : Settings) : Step Machine Settings := do
  let name := activeProfile asked s
  if !name.isTruthy then return s
  let found ← .ofExcept (lookUp s name)
  let label ← .ofExcept name.text
  match found with
  | some s' =>
    Machine.debug s!"Applied profile: {label}"
    return s'
  | none =>
    Machine.warning s!"Profile not found: {label}"
    return s

/-! ## All together -/

def applyEnvironment (s : Settings) : Step Machine Settings := do
  let m ← Step.current
  let (s, rejected) := underEnvironment m.host.env s
  match rejected with
  | some w => Machine.warning w
  | none => pure ()
  return s

/-- The settings of the machine under the profile asked for. -/
def load (asked : Option String) : Step Machine Settings := do
  let m ← Step.current
  let s ← loadFiles (searchPaths m.host) initial
  let s ← applyEnvironment s
  applyActive asked s

/-- Makes the user's own file, unless it exists and is not to be replaced. -/
def makeUserFile (replace : Bool) : Step Machine (Option Path) := do
  let m ← Step.current
  Machine.makeDirectory (directory m.host)
  let m ← Step.current
  let p := userFile m.host
  if m.fileExists p && !replace then return none
  Machine.writeText p defaultFile
  return some p

end LinkOverride.Settings
