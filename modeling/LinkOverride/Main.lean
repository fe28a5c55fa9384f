import LinkOverride.Program

/-!
# Rehearsal

Runs the program on the present machine without touching its interfaces: configuration files and
addresses are read, commands are shown and taken to succeed, and nothing but a new configuration
file is written. What is typed is read to its end before the program begins.
-/

namespace LinkOverride.Main

def variableNames : List String :=
  "XDG_CONFIG_HOME" ::
    ["IFACE", "ADDRESS", "PROFILE", "SUDO", "TIMEOUT"].map Settings.variableName

def readVariables : List String → IO (Keyed String)
  | [] => return []
  | v :: vs => do
    let rest ← readVariables vs
    match ← IO.getEnv v with
    | some t => return (v, t) :: rest
    | none => return rest

def readBytes? (path : String) : IO (Option ByteArray) := do
  try
    return some (← IO.FS.readBinFile path)
  catch _ => return none

def readWords (path : String) : IO (List String) := do
  match (← readBytes? path).bind String.fromUTF8? with
  | some s => return Text.words s
  | none => return []

/-- The words behind a heading word. -/
def behind (heading : String) : List String → List String
  | [] => []
  | w :: ws => if w = heading then ws else behind heading ws

/-- The real user and then the effective one stand behind the heading. -/
def readUser : IO (Option Int) := do
  let ws ← readWords "/proc/self/status"
  return ((behind "Uid:" ws).drop 1).head?.bind String.toInt?

def readFiles (cwd : Path) : List Path → IO (List (Path × Content))
  | [] => return []
  | p :: ps => do
    let rest ← readFiles cwd ps
    match ← readBytes? p.text with
    | some b => return (p.location cwd, .bytes b) :: rest
    | none => return rest

def readDigits : Nat → IO (List (Fin 16))
  | 0 => return []
  | n + 1 => do
    let d ← IO.rand 0 15
    return Fin.ofNat 16 d :: (← readDigits n)

def readLines (input : IO.FS.Stream) : Nat → IO (List String)
  | 0 => return []
  | n + 1 => do
    let l ← input.getLine
    if l.isEmpty then return [] else return l :: (← readLines input n)

/-- The interfaces that may be asked for are named on the command line or typed. -/
def candidates (words lines : List String) : List String :=
  words ++ lines.flatMap Text.words

def readMachine (words : List String) : IO Machine := do
  let env ← readVariables variableNames
  let home := Path.ofString ((← IO.getEnv "HOME").getD "/")
  let cwd := Path.ofString (← IO.currentDir).toString
  let kernel ← readWords "/proc/sys/kernel/ostype"
  let lines ← readLines (← IO.getStdin) 100000
  let digits := (← readDigits (24 * (lines.length + 4))).toArray
  let host : Host :=
    { env, home, cwd
      platform := Text.lower (kernel.headD "unknown")
      user := ← readUser
      digit := fun i => digits.getD (i % digits.size) 0
      optionGroup := "<options>" }
  let paths := Settings.searchPaths host ++ (candidates words lines).map Link.addressFile
  return {
    host
    files := ← readFiles cwd paths
    drawn := 0
    outcomes := []
    typed := lines.map Typed.line
    trace := [] }

def levelShown (v : Program.Verbosity) : Level → Bool
  | .debug => v = .all
  | .info => v ≠ .warnings
  | _ => true

def levelName : Level → String
  | .debug => "DEBUG"
  | .info => "INFO"
  | .warning => "WARNING"
  | .error => "ERROR"

def shownText : Shown → String
  | .text s => s
  | .grid g => "\n".intercalate (g.rows.map ("  ".intercalate ·))

def report (v : Program.Verbosity) : Event → IO Unit
  | .logged l t => if levelShown v l then IO.eprintln s!"{levelName l}: {t}" else return
  | .called c => IO.println s!"$ {Text.unwords c.command}"
  | .shown items => IO.println (Text.unwords (items.map shownText))
  | .wrote l t => do
    IO.FS.createDirAll l.parent.text
    IO.FS.writeFile l.text t
  | _ => return

end LinkOverride.Main

open LinkOverride in
def main (words : List String) : IO UInt32 := do
  let m ← Main.readMachine words
  match Program.run words m with
  | (.ok r, m) =>
    m.trace.forM (Main.report r.verbosity)
    IO.print r.out
    IO.eprint r.err
    return UInt32.ofNat r.code
  | (.error f, m) =>
    m.trace.forM (Main.report .warnings)
    IO.eprintln s!"{CommandLine.programName}: {f.message}"
    return 1
