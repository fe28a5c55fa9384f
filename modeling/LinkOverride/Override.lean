import LinkOverride.Link
import LinkOverride.Settings

/-!
# Overriding an address

An override replaces the address of one interface for a while. Configuring it starts a cycle: the
present address is kept as the original and the address to be used is fixed. Starting writes the
desired address, stopping writes the original back and ends the cycle. Nothing is written but these
two, and the original is taken at the beginning of a cycle only.
-/

namespace LinkOverride

structure Cycle where
  iface : String
  original : String
  desired : String
  deriving DecidableEq, Repr

inductive Phase
  /-- The interface of the last cycle is remembered. -/
  | unconfigured (last : Option String)
  | configured (c : Cycle)
  | running (c : Cycle)
  deriving DecidableEq, Repr

namespace Phase

def cycle? : Phase → Option Cycle
  | unconfigured _ => none
  | configured c => some c
  | running c => some c

def isRunning : Phase → Bool
  | running _ => true
  | _ => false

def name : Phase → String
  | unconfigured _ => "unconfigured"
  | configured _ => "configured"
  | running _ => "running"

def iface? : Phase → Option String
  | unconfigured last => last
  | configured c => some c.iface
  | running c => some c.iface

def original? (p : Phase) : Option String := p.cycle?.map (·.original)

def desired? (p : Phase) : Option String := p.cycle?.map (·.desired)

end Phase

structure Override where
  link : Link
  settings : Settings
  writer : Writer
  phase : Phase

/-- A machine and the override that is at work on it. -/
structure Session where
  machine : Machine
  override : Override

/-- The beginning of a session, at which the override takes its interface in hand. -/
def Session.opening (o : Override) (m : Machine) : Session :=
  ⟨m.record (.held o.link.name o.link.address), o⟩

namespace Override

/-- An override of which no cycle has begun yet. -/
def fresh (link : Link) (settings : Settings) (writer : Writer) : Override :=
  ⟨link, settings, writer, .unconfigured none⟩

/-- The name under which the override is known, which begins all its commands. -/
def title : String := "mac.changer"

/-! ## Steps of a session -/

def onMachine {α : Type} (x : Step Machine α) : Step Session α :=
  x.within (·.machine) fun s m => { s with machine := m }

def current : Step Session Override := fun s => (.ok s.override, s)

def modify (f : Override → Override) : Step Session Unit :=
  .modify fun s => { s with override := f s.override }

def setPhase (p : Phase) : Step Session Unit := modify fun o => { o with phase := p }

/-! ## The life of an override -/

/-- The interface that the settings ask for, or else the one at hand. -/
def wantedInterface (o : Override) : String :=
  if o.settings.iface = "" then o.link.name else o.settings.iface

/-- Begins a cycle. -/
def configure : Step Session Cycle := do
  let o ← current
  match o.phase.cycle? with
  | some _ => .fail .alreadyConfigured
  | none =>
    let iface := o.wantedInterface
    if iface = "" then .fail (.misconfigured .interfaceNotSet)
    else if iface ≠ o.link.name then
      .fail (.misconfigured (.otherInterface iface o.link.name))
    else do
      let desired ← onMachine (Machine.readAddress o.settings.address)
      match o.link.address with
      | none => .fail (.misconfigured (.addressUnknown o.link.name))
      | some original =>
        let c : Cycle := ⟨iface, original, desired⟩
        setPhase (.configured c)
        onMachine (Machine.debug s!"{title} configured: {iface} {original} -> {desired}")
        return c

/-- Takes another interface in hand, between two cycles. -/
def attach (l : Link) : Step Session Unit := do
  let o ← current
  match o.phase.cycle? with
  | some _ => .fail .alreadyConfigured
  | none =>
    modify fun o => { o with link := l }
    onMachine (Machine.note (.held l.name l.address))

/-- The known address follows the address written, and never leads it. -/
def writeAddress (iface address : String) : Step Session Unit := do
  let o ← current
  let _ ← onMachine (o.writer.write iface address)
  modify fun o => { o with link := { o.link with address := some address } }
  onMachine (Machine.note (.noted address))

/-- The cycle that is to be started. -/
def readyCycle : Step Session Cycle := do
  let o ← current
  match o.phase with
  | .running _ => .fail .alreadyConfigured
  | .configured c => return c
  | .unconfigured _ => configure

/-- If the address cannot be written the cycle remains, and can be started again. -/
def start : Step Session Unit := do
  let c ← readyCycle
  writeAddress c.iface c.desired
  setPhase (.running c)
  onMachine (Machine.info s!"[OK] Interface mac address set to {c.desired}")

/-- If the address cannot be written back nothing changes, and it can be tried again. -/
def stop : Step Session Unit := do
  let o ← current
  match o.phase.cycle? with
  | none => .fail .notConfigured
  | some c =>
    writeAddress c.iface c.original
    setPhase (.unconfigured (some c.iface))
    onMachine (Machine.info s!"[OK] Interface mac address restored to {c.original}")

/-! ## Commands -/

inductive Verb
  | on
  | off
  deriving DecidableEq, Repr

namespace Verb

def all : List Verb := [on, off]

def text : Verb → String
  | on => "mac.changer on"
  | off => "mac.changer off"

def perform : Verb → Step Session Unit
  | on => start
  | off => stop

/-- The verb that the words of a line spell. -/
def ofLine? (line : String) : Option Verb :=
  let spelled := Text.unwords (Text.words line)
  all.find? (·.text == spelled)

theorem text_of_ofLine? {line : String} {v : Verb} (h : ofLine? line = some v) :
    v.text = Text.unwords (Text.words line) := by
  simpa using List.find?_some h

end Verb

def command (line : String) : Step Session Unit :=
  match Verb.ofLine? line with
  | some v => v.perform
  | none => .fail (.unknownCommand line)

end Override

end LinkOverride
