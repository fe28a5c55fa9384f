import LinkOverride.Proofs.Operation
import LinkOverride.Proofs.Parts

/-!
# What a line leaves alone

A line may change the override in many ways, but three things it never touches: what is still to be
typed, the writer with its runner, and whether commands are to be run as the superuser. Nor does it
log an error. Errors are logged where a failure is reported, and nowhere below.

`Machine.Stands` says so of a machine, `Session.Stands` of a session. Both are preorders, so a line
has them from its parts.
-/

namespace LinkOverride

open Override (onMachine)
open Step

/-- The message of an error. -/
def Event.alarm? : Event → Option String
  | logged .error m => some m
  | _ => none

/-- An event that is no error. -/
def Event.IsSilent (e : Event) : Prop := e.alarm? = none

/-! ## The prompt -/

namespace Machine

/-- What is still to be typed stays the same. -/
def KeepsTyped (m m' : Machine) : Prop := m'.typed = m.typed

instance : IsPreorder Machine KeepsTyped where
  refl _ := rfl
  trans _ _ _ h h' := Eq.trans h' h

theorem keepsTyped_note (e : Event) : Respects KeepsTyped (note e) := fun _ => rfl

theorem keepsTyped_drawnFor (m : Machine) (s : String) : (m.drawnFor s).typed = m.typed := by
  rw [drawnFor]
  split <;> rfl

theorem keepsTyped_readAddress (s : String) : Respects KeepsTyped (readAddress s) := by
  intro m
  rw [readAddress_apply]
  exact keepsTyped_drawnFor m s

end Machine

open Machine (Adds)

theorem Runner.keepsTyped_run (r : Runner) (command : List String) :
    Respects Machine.KeepsTyped (r.run command) := by
  intro m
  rw [run_apply]
  rfl

namespace Link

theorem keepsTyped_acquire (name : String) (runner : Runner) :
    Respects Machine.KeepsTyped (acquire name runner) := by
  have hread : Respects Machine.KeepsTyped (readAddress name runner) :=
    respects_readAddress (fun _ => Machine.keepsTyped_note _) (runner.keepsTyped_run _)
      Machine.keepsTyped_readAddress
  exact hread.bind fun a => (Machine.keepsTyped_note _).bind fun _ => respects_pure _

end Link

/-! ## Machines -/

namespace Machine

/-- The prompt is left alone, and no error is logged. -/
def Stands (m m' : Machine) : Prop := KeepsTyped m m' ∧ Grows Event.IsSilent m m'

instance : IsPreorder Machine Stands where
  refl m := ⟨rfl, grows_refl _ m⟩
  trans _ _ _ h h' := ⟨h'.1.trans h.1, h.2.trans h'.2⟩

theorem stands_of {α : Type} {P : Event → Prop} {x : Step Machine α}
    (hkeeps : Respects KeepsTyped x) (hadds : Adds P x) (hsilent : ∀ e, P e → e.IsSilent) :
    Respects Stands x := fun m => ⟨hkeeps m, (hadds m).mono hsilent⟩

theorem stands_note {e : Event} (h : e.IsSilent) : Respects Stands (note e) :=
  stands_of (keepsTyped_note e) (adds_note h) fun _ he => he

theorem stands_readAddress (s : String) : Respects Stands (readAddress s) :=
  stands_of (keepsTyped_readAddress s) (adds_readAddress Event.IsSilent s) fun _ he => he

end Machine

open Machine (Stands)

theorem Link.IsReading.isSilent {name : String} {e : Event} (h : IsReading name e) :
    e.IsSilent := by
  cases h with
  | logged m => rfl
  | called o => rfl

theorem Link.stands_acquire (name : String) : Respects Stands (acquire name .unprivileged) := by
  have hread : Adds Event.IsSilent (readAddress name .unprivileged) :=
    (adds_readAddress name).mono fun _ he => he.isSilent
  have hopened : ∀ a, Adds Event.IsSilent (Machine.note (.opened name a)) :=
    fun a => Machine.adds_note rfl
  exact Machine.stands_of (keepsTyped_acquire name _)
    (hread.bind fun a => (hopened a).bind fun _ => respects_pure _) fun _ he => he

theorem Writer.stands_write (w : Writer) (name address : String) :
    Respects Stands (w.write name address) := by
  intro m
  cases hp : w.platformOn m.host with
  | none =>
    rw [write_apply_of_none hp]
    exact refl_of Stands m
  | some p =>
    rw [write_apply_of_some hp]
    refine ⟨rfl, rfl, _, Runner.after_trace _ _ m, ?_⟩
    intro e he
    rcases List.mem_cons.1 he with rfl | he
    · rfl
    · rw [List.mem_singleton.1 he]
      rfl

/-! ## Sessions -/

namespace Session

/-- What is still to be typed stays the same. -/
def KeepsTyped (s s' : Session) : Prop := s.machine.KeepsTyped s'.machine

instance : IsPreorder Session KeepsTyped where
  refl s := refl_of Machine.KeepsTyped s.machine
  trans _ _ _ := trans_of Machine.KeepsTyped

/-- What every operation leaves alone. -/
structure Stands (s s' : Session) : Prop where
  machine : s.machine.Stands s'.machine
  writer_eq : s'.override.writer = s.override.writer
  withSudo_eq : s'.override.settings.withSudo = s.override.settings.withSudo

instance : IsPreorder Session Stands where
  refl s := ⟨refl_of Machine.Stands s.machine, rfl, rfl⟩
  trans _ _ _ h h' :=
    ⟨trans_of Machine.Stands h.machine h'.machine, h'.writer_eq.trans h.writer_eq,
      h'.withSudo_eq.trans h.withSudo_eq⟩

theorem Stands.keepsTyped {s s' : Session} (h : Stands s s') : KeepsTyped s s' := h.machine.1

theorem stands_onMachine {α : Type} {x : Step Machine α} (hx : Respects Machine.Stands x) :
    Respects Stands (onMachine x) := fun s => ⟨hx s.machine, rfl, rfl⟩

theorem stands_note {e : Event} (h : e.IsSilent) :
    Respects Stands (onMachine (Machine.note e)) := stands_onMachine (Machine.stands_note h)

theorem stands_modify {f : Override → Override} (hwriter : ∀ o, (f o).writer = o.writer)
    (hsudo : ∀ o, (f o).settings.withSudo = o.settings.withSudo) :
    Respects Stands (Override.modify f) :=
  fun s => ⟨refl_of Machine.Stands s.machine, hwriter s.override, hsudo s.override⟩

/-- Only the interface and the address can be set. -/
theorem withSudo_set (s : Settings) (p : Settings.Parameter) (value : String) :
    (s.set p value).withSudo = s.withSudo := by
  cases p <;> rfl

/-- **The parts of a line** leave all of it alone. -/
theorem stands_lines : (Law.keeping Stands).Lines where
  current := refl_of Stands
  readAddress text := stands_onMachine (Machine.stands_readAddress text)
  setPhase _ := stands_modify (fun _ => rfl) fun _ => rfl
  setLink _ := stands_modify (fun _ => rfl) fun _ => rfl
  debug _ := stands_note rfl
  held _ := stands_note rfl
  write name address s := stands_onMachine (s.override.writer.stands_write name address) s
  noted _ := stands_note rfl
  info _ := stands_note rfl
  acquire name := stands_onMachine (Link.stands_acquire name)
  store p value := stands_modify (fun _ => rfl) fun o => withSudo_set o.settings p value
  shown _ := stands_note rfl

theorem stands_perform (a : Act) (c : Cycle) : Respects Stands (a.perform c) :=
  stands_lines.perform a c

theorem stands_readyCycle : Respects Stands Override.readyCycle := stands_lines.readyCycle

theorem stands_start : Respects Stands Override.start := stands_lines.start

theorem stands_stop : Respects Stands Override.stop := stands_lines.stop

/-- **A line** leaves alone what every operation leaves alone. -/
theorem stands_execute (line : String) : Respects Stands (execute line) :=
  stands_lines.execute fun _ => stands_lines.command (respects_fail _)

end Session

end LinkOverride
