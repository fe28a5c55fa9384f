import LinkOverride.Path
import LinkOverride.Step
import LinkOverride.Value.Text

/-!
# The machine

What the program sees of the machine it runs on, and what it does there. The answers of the machine
(files, outcomes of commands, typed lines, random digits) are given in advance; everything done is
recorded in one trace, in order. Beside what others can see, the trace holds what the program comes
to know of the interface in hand.

A command ends in one of five ways. A launch that fails in another way, an output that cannot be
decoded and a limit that cannot be waited for are no outcomes. A file has a content and nothing else:
permissions, links and full disks are not part of the machine.
-/

namespace LinkOverride

/-- What does not change while the program runs. -/
structure Host where
  env : Keyed String
  home : Path
  cwd : Path
  platform : String
  /-- The effective user, if the system knows users. -/
  user : Option Int
  /-- The value of the hexadecimal digit of each draw. -/
  digit : Nat → Fin 16
  /-- How a group of options is written out, which is another text in every run. -/
  optionGroup : String

inductive Content
  | bytes (b : ByteArray)
  | directory
  | unreadable (reason : String)

/-- How a command ends. -/
inductive Outcome
  | finished (status : Int) (out err : Option String)
  | notFound
  | notPermitted
  | timedOut
  | interrupted
  deriving DecidableEq, Repr

/-- What comes from the prompt. -/
inductive Typed
  | line (s : String)
  | endOfInput
  | interrupt
  deriving DecidableEq, Repr

inductive Level
  | debug
  | info
  | warning
  | error
  deriving DecidableEq, Repr

/-- A table of texts, with a heading and a style for each column. -/
structure Grid where
  showHeader : Bool
  columns : List (String × String)
  rows : List (List String)
  deriving DecidableEq, Repr

inductive Shown
  | text (s : String)
  | grid (g : Grid)
  deriving DecidableEq, Repr

structure Call where
  command : List String
  timeout : Value
  outcome : Outcome

inductive Event
  | logged (level : Level) (message : String)
  | called (c : Call)
  | shown (items : List Shown)
  | wrote (location : Path) (text : String)
  /-- The address of an interface has been read. -/
  | opened (name address : String)
  /-- An interface is taken in hand, with the address that it is known to have. -/
  | held (name : String) (address : Option String)
  /-- The interface in hand is now known to have another address. -/
  | noted (address : String)

structure Machine where
  host : Host
  /-- What is found at each location. -/
  files : List (Path × Content)
  drawn : Nat
  /-- The outcomes of the commands still to be run. -/
  outcomes : List Outcome
  typed : List Typed
  trace : List Event

namespace Machine

def record (e : Event) (m : Machine) : Machine := { m with trace := m.trace ++ [e] }

@[simp] theorem trace_record (e : Event) (m : Machine) :
    (m.record e).trace = m.trace ++ [e] := rfl

@[simp] theorem host_record (e : Event) (m : Machine) : (m.record e).host = m.host := rfl

def note (e : Event) : Step Machine Unit := .modify (record e)

def log (level : Level) (message : String) : Step Machine Unit := note (.logged level message)

def debug (message : String) : Step Machine Unit := log .debug message

def info (message : String) : Step Machine Unit := log .info message

def warning (message : String) : Step Machine Unit := log .warning message

def error (message : String) : Step Machine Unit := log .error message

def display (items : List Shown) : Step Machine Unit := note (.shown items)

def showText (s : String) : Step Machine Unit := display [.text s]

def showGrid (g : Grid) : Step Machine Unit := display [.grid g]

theorem log_apply (level : Level) (message : String) (m : Machine) :
    log level message m = (.ok (), m.record (.logged level message)) := rfl

/-! ## Random addresses -/

/-- The next digits of an address. -/
def drawDigits : Step Machine (List (Fin 16)) := fun m =>
  let ds := (List.range Address.digitCount).map fun i => m.host.digit (m.drawn + i)
  (.ok ds, { m with drawn := m.drawn + Address.digitCount })

def randomAddress : Step Machine String := do
  let ds ← drawDigits
  return String.ofList (Address.ofDigits ds)

/-- Digits are drawn only for a text that asks for a random address. -/
def digitsFor (s : String) : Step Machine (List (Fin 16)) :=
  if Address.asksRandom s then drawDigits else pure []

def normalizeAddress (s : String) : Step Machine String := do
  let ds ← digitsFor s
  return Address.normalize ds s

def readAddress (s : String) : Step Machine String := do
  let ds ← digitsFor s
  match Address.read ds s with
  | .ok a => return a
  | .error fault => .fail (.invalidAddress s fault)

/-- A value that is no text writes no address. -/
def readAddressValue (v : Value) : Step Machine String := do
  match v with
  | .str s => readAddress s
  | v =>
    let t ← .ofExcept v.text
    .fail (.invalidAddress t .empty)

theorem drawDigits_apply (m : Machine) :
    drawDigits m =
      (.ok ((List.range Address.digitCount).map fun i => m.host.digit (m.drawn + i)),
        { m with drawn := m.drawn + Address.digitCount }) := rfl

end Machine

end LinkOverride
