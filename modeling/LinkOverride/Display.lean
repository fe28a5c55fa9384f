import LinkOverride.Override
import LinkOverride.Settings.Load

/-!
# What is shown

The tables and lines that the program shows, before their markup is rendered.
-/

namespace LinkOverride.Display

open Settings (Parameter)

def orDash (s : String) : String := if s = "" then "-" else s

/-! ## Tables of a session -/

def status (o : Override) : Grid where
  showHeader := false
  columns := [("Field", "cyan"), ("Value", "white")]
  rows :=
    [ ["interface", o.link.text],
      ["state", o.phase.name],
      ["original", orDash (o.phase.original?.getD "")],
      ["desired", orDash (o.phase.desired?.getD "")],
      [Parameter.name .iface, orDash o.settings.iface],
      [Parameter.name .address, o.settings.address] ]

def help : Grid where
  showHeader := false
  columns := [("Command", "cyan"), ("Description", "")]
  rows :=
    [ [Override.Verb.text .on, "Start mac changer module."],
      [Override.Verb.text .off, "Stop mac changer module and restore original mac address."],
      [ "set <param> <value>",
        "Set " ++ Parameter.name .iface ++ ", or " ++ Parameter.name .address ++ " to " ++
          Address.pattern ++ " or " ++ Address.randomWord ],
      ["get <param>", "Show a parameter value"],
      ["status", "Show changer state"],
      ["quit", "Restore the original address if needed and exit"] ]

/-! ## The configuration -/

/-- A cell holds a text and nothing else. -/
def cell (v : Value) : Except Failure String :=
  match v with
  | .str s => .ok s
  | _ => .error .notRenderable

/-- A cell of a value, with a dash in place of one that is not given. -/
def cellOrDash (v : Value) : Except Failure String := if v.isTruthy then cell v else .ok "-"

def timeoutText (v : Value) : Except Failure String :=
  if v.isTruthy then v.text else .ok "none"

def defaultProfileRows (v : Value) : Except Failure (List (List String)) :=
  if v.isTruthy then (cell v).map fun c => [["default_profile", c]] else .ok []

/-- The settings in force, of which the interface and the address may be no texts. -/
def settingsRows (iface address : Value) (s : Settings) : Except Failure (List (List String)) := do
  let iface ← cellOrDash iface
  let address ← cell address
  let timeout ← timeoutText s.timeout
  let profile ← defaultProfileRows s.defaultProfile
  return [ [Parameter.name .iface, iface],
           [Parameter.name .address, address],
           ["sudo", if s.withSudo then "True" else "False"],
           ["timeout", timeout] ] ++ profile

def profileRow (s : Settings) (e : String × Profile) : List String :=
  let mark := if s.defaultProfile.isText e.1 then " [yellow]*[/yellow]" else ""
  [e.1 ++ mark, orDash e.2.iface, e.2.address, e.2.description]

def profiles (s : Settings) : Grid where
  showHeader := true
  columns :=
    [("Profile", "cyan"), ("Interface", "white"), ("Address", "white"), ("Description", "dim")]
  rows := s.profiles.map (profileRow s)

def pathLine (m : Machine) (p : Path) : String :=
  "  " ++ (if m.fileExists p then "[green][OK][/green]" else "[dim]--[/dim]") ++ " " ++ p.text

def sourceLines (s : Settings) : List String :=
  if s.sources.isEmpty then ["  [dim]No config files found (using built-in defaults)[/dim]"]
  else s.sources.map ("  [green][OK][/green] " ++ ·)

def showLines : List String → Step Machine Unit
  | [] => pure ()
  | l :: ls => do
    Machine.showText l
    showLines ls

def blankLine : Step Machine Unit := Machine.display []

/-- Shows where the settings came from, the settings, and the profiles if there are any. -/
def configuration (iface address : Value) (s : Settings) : Step Machine Unit := do
  let m ← Step.current
  Machine.showText "[bold cyan]Configuration Sources[/bold cyan]"
  showLines (sourceLines s)
  blankLine
  Machine.showText "[bold cyan]Config Search Paths[/bold cyan]"
  showLines ((Settings.searchPaths m.host).map (pathLine m))
  blankLine
  Machine.showText "[bold cyan]Current Settings[/bold cyan]"
  let rows ← .ofExcept (settingsRows iface address s)
  Machine.showGrid ⟨true, [("Setting", "cyan"), ("Value", "white")], rows⟩
  if s.profiles.isEmpty then pure ()
  else do
    blankLine
    Machine.showText "[bold cyan]Available Profiles[/bold cyan]"
    Machine.showGrid (profiles s)
    Machine.showText "[dim]* = default profile[/dim]"

end LinkOverride.Display
