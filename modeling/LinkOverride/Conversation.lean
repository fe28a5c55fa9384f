import LinkOverride.Display
import LinkOverride.Request

/-!
# Sessions

A session carries out one request after the other until it is asked to quit, interrupted, or the
input ends. Failures that are reported do not end it. If the override is still running at the end,
the original address is written back.
-/

namespace LinkOverride.Session

open Override (onMachine)
open Settings (Parameter)

/-! ## Requests -/

/-- An address is checked before it is set, an interface is read and taken in hand. -/
def prepare (name value : String) : Step Session Unit := do
  let o ← Override.current
  if name = Parameter.name .address ∧ value ≠ Address.randomWord then do
    let _ ← onMachine (Machine.readAddress value)
  else if name = Parameter.name .iface ∧ value ≠ o.link.name then do
    let l ← onMachine (Link.acquire value .unprivileged)
    Override.attach l

/-- A missing parameter is reported as such. -/
def named {α : Type} (name : String) (r : Except Failure α) : Step Session α :=
  match r with
  | .ok a => pure a
  | .error _ => .fail (.misconfigured (.parameterUnknown name))

def getParameter (name : String) : Step Session Unit := do
  let o ← Override.current
  let value ← named name (o.settings.getNamed name)
  onMachine (Machine.showText s!"{name}: {value}")

def setParameter (name value : String) : Step Session Unit := do
  prepare name value
  let o ← Override.current
  let settings ← named name (o.settings.setNamed name value)
  Override.modify fun o => { o with settings }
  onMachine (Machine.showText s!"{name} => {value}")

def showStatus : Step Session Unit := do
  let o ← Override.current
  onMachine (Machine.showGrid (Display.status o))

/-- Carries out a line; tells whether the session goes on. -/
def execute (line : String) : Step Session Bool :=
  match Request.ofLine line with
  | .nothing => return true
  | .quit => return false
  | .help => do
    onMachine (Machine.showGrid Display.help)
    return true
  | .status => do
    showStatus
    return true
  | .get name => do
    getParameter name
    return true
  | .set name value => do
    setParameter name value
    return true
  | .other => do
    Override.command line
    return true

/-! ## The loop -/

inductive Ending
  | quit
  | interrupted
  deriving DecidableEq, Repr

def Ending.code : Ending → Nat
  | quit => 0
  | interrupted => 130

/-- Carries out a line and reports its failure. -/
def carryOut (line : String) : Step Session Bool := do
  match ← (execute line).attempt with
  | .ok goesOn => return goesOn
  | .error e =>
    if e.isReported then do
      onMachine (Machine.error s!"[FAIL] {e.message}")
      return true
    else .fail e

def consume : Step Session Unit := onMachine (.modify fun m => { m with typed := m.typed.tail })

def interrupted : Step Session Ending := do
  onMachine (Machine.showText "\n[yellow][!] Session interrupted[/yellow]")
  return .interrupted

/-- Takes lines from the prompt until one ends the session. -/
def loop : List Typed → Step Session Ending
  | [] => interrupted
  | .endOfInput :: _ => do
    consume
    interrupted
  | .interrupt :: _ => do
    consume
    interrupted
  | .line l :: rest => do
    consume
    match ← (carryOut (Text.strip l)).attempt with
    | .ok true => loop rest
    | .ok false => return .quit
    | .error .interrupted => interrupted
    | .error e => .fail e

/-- Writes the original address back; tells whether that failed. -/
def restore : Step Session Bool := do
  onMachine (Machine.info "[*] Restoring original address before exit")
  match ← Override.stop.attempt with
  | .ok () => return false
  | .error e =>
    if e.isReported then do
      onMachine (Machine.error s!"[FAIL] Could not restore original address: {e.message}")
      return true
    else .fail e

/-- The exit code of a session. -/
def run : Step Session Nat := do
  let s ← Step.current
  let ending ← loop s.machine.typed
  let o ← Override.current
  if o.phase.isRunning then do
    let failed ← restore
    return if failed then 1 else ending.code
  else return ending.code

end LinkOverride.Session
