import LinkOverride.CommandLine.Help
import LinkOverride.Conversation

/-!
# The program

The settings are loaded under the profile that the command line names, the options are read over
them, and what they ask for is done: help, a new configuration file, a look at the configuration, or
a session on one interface. Nothing is written to an interface before all has been checked.
-/

namespace LinkOverride.Program

/-- Which messages reach the user. -/
inductive Verbosity
  | warnings
  | infos
  | all
  deriving DecidableEq, Repr

/-- How the program ends. -/
structure Result where
  code : Nat
  out : String
  err : String
  verbosity : Verbosity
  deriving DecidableEq, Repr

/-- The profile named on the command line: whatever stands behind the first option word. -/
def askedProfile : List String → Option String
  | [] => none
  | w :: ws => if w = "--profile" then ws.head? else askedProfile ws

/-- The settings with a warning if there is no profile of the name asked for. -/
def loadSettings (words : List String) : Step Machine Settings := do
  let asked := askedProfile words
  let s ← Settings.load asked
  match asked with
  | some name =>
    if name ≠ "" ∧ s.profiles.holds name = false then do
      Machine.showText s!"[yellow]Warning: Profile '{name}' not found[/yellow]"
      let names := ", ".intercalate s.profiles.keys
      let known := if names = "" then "(none)" else names
      Machine.display [.text "Available profiles:", .text known]
  | none => pure ()
  return s

def makeFile : Step Machine Nat := do
  match ← Settings.makeUserFile false with
  | some p => Machine.showText s!"[green][OK][/green] Config file created: {p.text}"
  | none =>
    Machine.showText "[yellow]Config file already exists.[/yellow]"
    Machine.showText "Use --show-config to view current settings."
  return 0

/-- The interface to work on, with its address read, once the address to be used is checked. -/
def openChecked (iface : String) (address : Value) : Step Machine Link := do
  if !address.isText Address.randomWord then do
    let _ ← Machine.readAddressValue address
  Link.acquire iface .unprivileged

/-- Starts the override if that is asked for; tells whether the session may begin. -/
def startIf (on : Bool) : Step Session Bool :=
  if on then do
    match ← Override.start.attempt with
    | .ok () => return true
    | .error e =>
      if e.isReported then do
        Override.onMachine (Machine.error s!"[FAIL] {e.message}")
        return false
      else .fail e
  else return true

def converse (on : Bool) : Step Session Nat := do
  if ← startIf on then Session.run else return 1

/-- What is left to be done once all has been checked. -/
inductive Task
  | done (code : Nat)
  | session (o : Override) (on : Bool)

def Task.perform : Task → Step Machine Nat
  | done code => pure code
  | session o on => fun m =>
    let (r, s) := converse on (.opening o m)
    (r, s.machine)

/-- The settings in force, once the interface and the address are known to be texts. -/
def inForce (s : Settings) (o : Options) (iface address : String) : Settings :=
  { s with iface, address, withSudo := o.withSudo, timeout := o.timeout }

def beginSession (s : Settings) (o : Options) (platform : Platform) (iface : String) :
    Step Machine Task := do
  match ← (openChecked iface o.address).attempt with
  | .error e =>
    match e with
    | .misconfigured _ => refuse e
    | .invalidAddress _ _ => refuse e
    | _ => .fail e
  | .ok link =>
    Machine.debug s!"Platform: {platform.label}"
    Machine.showText s!"[cyan]Interface:[/cyan] {link.text}"
    let address := match o.address with
      | .str a => a
      | _ => ""
    let writer : Writer := ⟨none, ⟨o.withSudo, o.timeout⟩⟩
    return .session (.fresh link (inForce s o iface address) writer) o.on
where
  refuse (e : Failure) : Step Machine Task := do
    Machine.error s!"[FAIL] Configuration error: {e.message}"
    return .done 2

/-- Does all that needs no session, and prepares the session if there is to be one. -/
def work (s : Settings) (o : Options) : Step Machine Task := do
  if o.initConfig then return .done (← makeFile)
  else if o.showConfig then do
    Display.configuration o.iface o.address { s with withSudo := o.withSudo, timeout := o.timeout }
    return .done 0
  else do
    let m ← Step.current
    match Platform.detect? m.host.platform with
    | none =>
      let e := Failure.unsupportedPlatform m.host.platform
      Machine.error s!"[FAIL] {e.message}"
      return .done 3
    | some platform =>
      match o.iface with
      | .str iface =>
        if iface = "" then noInterface else beginSession s o platform iface
      | _ => noInterface
where
  noInterface : Step Machine Task := do
    Machine.error
      ("[FAIL] No interface given, use --iface or set " ++ Settings.Parameter.name .iface)
    return .done 2

/-- All that comes before the session. -/
def prepare (words : List String) :
    Step Machine (Except CommandLine.Farewell (Options × Task)) := do
  let s ← loadSettings words
  let m ← Step.current
  match ← .ofExcept (CommandLine.answer m.host.optionGroup s words) with
  | .error bye => return .error bye
  | .ok o => return .ok (o, ← work s o)

/-- Runs the program on the words of its command line. -/
def run (words : List String) : Step Machine Result := do
  match ← prepare words with
  | .error bye => return ⟨bye.code, bye.out, bye.err, .warnings⟩
  | .ok (o, task) =>
    let code ← task.perform
    return ⟨code, "", "", if o.verbose then .all else .infos⟩

end LinkOverride.Program
