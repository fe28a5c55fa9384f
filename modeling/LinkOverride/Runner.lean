import LinkOverride.Machine

/-!
# Running commands

A runner puts `sudo` in front of a command unless it runs as the superuser already, and gives the
command a time limit. That a command finishes with a status other than zero is no failure here.
-/

namespace LinkOverride

structure Runner where
  withSudo : Bool
  /-- The time limit; without a value the command may run forever. -/
  timeout : Value

/-- A command that has finished. -/
structure Finished where
  status : Int
  out : Option String
  err : Option String
  deriving DecidableEq, Repr

namespace Runner

/-- Reads the state of an interface, for which no privilege is needed. -/
def unprivileged : Runner := ⟨false, .null⟩

def needsSudo (r : Runner) (user : Option Int) : Bool := r.withSudo && user.any (· != 0)

def fullCommand (r : Runner) (user : Option Int) (command : List String) : List String :=
  if r.needsSudo user then "sudo" :: command else command

/-- The outcome that the machine has for the next command. -/
def nextOutcome (m : Machine) : Outcome := m.outcomes.headD (.finished 0 (some "") (some ""))

def call (r : Runner) (command : List String) : Step Machine Outcome := fun m =>
  let o := nextOutcome m
  (.ok o, { m with outcomes := m.outcomes.tail }.record (.called ⟨command, r.timeout, o⟩))

def run (r : Runner) (command : List String) : Step Machine Finished := do
  let m ← Step.current
  let full := r.fullCommand m.host.user command
  Machine.debug s!"Running: {Text.unwords full}"
  match ← r.call full with
  | .finished status out err => return ⟨status, out, err⟩
  | .notFound =>
    let fault := SystemFault.notFound (full.headD "")
    .fail (.commandFailed ⟨full, none, fault.message⟩)
  | .notPermitted => .fail (.system (.notPermitted (full.headD "")))
  | .timedOut =>
    let limit ← .ofExcept r.timeout.text
    .fail (.commandFailed ⟨full, none, s!"timed out after {limit} seconds"⟩)
  | .interrupted => .fail .interrupted

end Runner

end LinkOverride
