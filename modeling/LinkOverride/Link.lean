import LinkOverride.Machine.Files
import LinkOverride.Platform
import LinkOverride.Runner

/-!
# Network interfaces

The hardware address of an interface is read from the file that Linux keeps for it, or else from
what `ifconfig` prints; it is written by `ifconfig` alone.
-/

namespace LinkOverride

/-- An interface with the address that it is known to have. -/
structure Link where
  name : String
  address : Option String
  deriving DecidableEq, Repr

namespace Link

def addressText (address : Option String) : String :=
  match address with
  | none => "unknown"
  | some a => if a = "" then "unknown" else a

def text (l : Link) : String := s!"{l.name} ({addressText l.address})"

def program : String := "ifconfig"

/-! ## What `ifconfig` prints -/

/-- The words that stand before an address, the first taking precedence on a line. -/
def marks : List String := ["ether", "HWaddr", "lladdr"]

/-- The word behind the first occurrence of another. -/
def wordAfter? (mark : String) : List String → Option String
  | [] => none
  | w :: ws => if w = mark then ws.head? else wordAfter? mark ws

def inLine? (line : String) : Option String :=
  marks.findSome? fun mark => wordAfter? mark (Text.words line)

/-- The first line that gives an address gives the address. -/
def inOutput? (output : String) : Option String := (Text.lines output).findSome? inLine?

/-- It is the first occurrence of the mark that counts. -/
theorem wordAfter?_eq_some {mark w : String} {ws : List String} :
    wordAfter? mark ws = some w ↔
      ∃ front back, mark ∉ front ∧ ws = front ++ mark :: w :: back := by
  induction ws with
  | nil => exact iff_of_false (by simp [wordAfter?]) (by simp)
  | cons x ws ih =>
    rw [wordAfter?]
    by_cases hx : x = mark
    · rw [if_pos hx]
      constructor
      · intro h
        obtain ⟨back, hback⟩ := List.head?_eq_some_iff.1 h
        exact ⟨[], back, List.not_mem_nil, by rw [hx, hback]; rfl⟩
      · intro h
        obtain ⟨front, back, hfront, hsplit⟩ := h
        cases front with
        | nil => rw [(List.cons.inj hsplit).2]; rfl
        | cons y front =>
          refine absurd ?_ hfront
          rw [← hx, (List.cons.inj hsplit).1]
          exact List.mem_cons_self
    · rw [if_neg hx, ih]
      constructor
      · intro h
        obtain ⟨front, back, hfront, hsplit⟩ := h
        refine ⟨x :: front, back, ?_, by rw [hsplit]; rfl⟩
        exact fun h => (List.mem_cons.1 h).elim (fun he => hx he.symm) hfront
      · intro h
        obtain ⟨front, back, hfront, hsplit⟩ := h
        cases front with
        | nil => exact absurd (List.cons.inj hsplit).1 hx
        | cons y front =>
          exact ⟨front, back, fun h => hfront (List.mem_cons_of_mem _ h), (List.cons.inj hsplit).2⟩

/-! ## Reading an address -/

def addressFile (name : String) : Path := Path.ofString "/sys/class/net" / name / "address"

/-- The text of the interface's own file, if there is one that can be read. -/
def fromFile (name : String) : Step Machine (Option String) := do
  let file := addressFile name
  let m ← Step.current
  if m.fileExists file then
    match ← (Machine.readText file).attempt with
    | .ok s => return some (Text.strip (String.ofList (Text.unifyLineEnds s.toList)))
    | .error (.system fault) =>
      Machine.debug s!"Could not read {file.text}: {fault.message}"
      return none
    | .error e => .fail e
  else return none

/-- The text that `ifconfig` prints as the address. -/
def fromCommand (name : String) (runner : Runner) : Step Machine (Option String) := do
  match ← (runner.run [program, name]).attempt with
  | .ok done =>
    if done.status ≠ 0 then
      .fail (.misconfigured (.addressUnread name (.refused (done.err.getD ""))))
    else return inOutput? (done.out.getD "")
  | .error (.commandFailed fault) =>
    .fail (.misconfigured (.addressUnread name (.notRun fault)))
  | .error e => .fail e

/-- The text of the interface's own file, on the system that keeps such files. -/
def ownText (name : String) : Step Machine (Option String) := do
  let m ← Step.current
  if "linux".toList.isPrefixOf m.host.platform.toList then fromFile name else return none

/-- The text that gives the address, if any does. -/
def addressText? (name : String) (runner : Runner) : Step Machine (Option String) := do
  match ← ownText name with
  | some s => return some s
  | none => fromCommand name runner

def readAddress (name : String) (runner : Runner) : Step Machine String := do
  match ← addressText? name runner with
  | none => .fail (.misconfigured (.addressMissing name))
  | some raw =>
    match ← (Machine.readAddress raw).attempt with
    | .ok a => return a
    | .error (.invalidAddress value fault) =>
      .fail (.misconfigured (.addressUnusable name value fault))
    | .error e => .fail e

/-- The interface with its present address. -/
def acquire (name : String) (runner : Runner) : Step Machine Link := do
  let a ← readAddress name runner
  Machine.note (.opened name a)
  return ⟨name, some a⟩

end Link

/-! ## Writing an address -/

/-- Writes addresses on one platform: the one named, or that of the machine. -/
structure Writer where
  platform : Option String
  runner : Runner

namespace Writer

def resolve (identifier : String) : Step Machine Platform :=
  .ofOption (.unsupportedPlatform identifier) (Platform.detect? identifier)

/-- The platform is looked up for each write, before anything is run. -/
def platformOf (w : Writer) : Step Machine Platform := do
  let m ← Step.current
  resolve (w.platform.getD m.host.platform)

def command (w : Writer) (name address : String) : Step Machine (List String) := do
  let p ← w.platformOf
  return Link.program :: p.arguments name address

/-- What a finished command has to say: its errors, or else its output. -/
def report (done : Finished) : String :=
  match done.err with
  | some e => if e = "" then done.out.getD "" else e
  | none => done.out.getD ""

def write (w : Writer) (name address : String) : Step Machine Finished := do
  let command ← w.command name address
  let done ← w.runner.run command
  if done.status ≠ 0 then .fail (.commandFailed ⟨command, some done.status, report done⟩)
  else return done

end Writer

end LinkOverride
