import LinkOverride.Display
import LinkOverride.Proofs.Command
import LinkOverride.Proofs.Respect

/-!
# What a step adds to the trace

The trace only grows, and the host stays the same. `Grows P` says so of two machines, and that all
events between them are of one kind. It is a preorder, so it passes from the small steps to the large
ones; what is left to say of a step is which events are its own.

Two kinds cover everything but the writes: talk, which runs no command, and reading, which runs the
one command that reads an interface.
-/

namespace LinkOverride

namespace Machine

open Step

/-- The second machine has the trace of the first, and after it events of one kind. -/
def Grows (P : Event → Prop) (m m' : Machine) : Prop :=
  m'.host = m.host ∧ ∃ es, m'.trace = m.trace ++ es ∧ ∀ e ∈ es, P e

theorem grows_refl (P : Event → Prop) (m : Machine) : Grows P m m :=
  ⟨rfl, [], (List.append_nil _).symm, by simp⟩

theorem Grows.trans {P : Event → Prop} {m m' m'' : Machine} (h : Grows P m m')
    (h' : Grows P m' m'') : Grows P m m'' := by
  obtain ⟨hhost, es, htrace, hes⟩ := h
  obtain ⟨hhost', es', htrace', hes'⟩ := h'
  refine ⟨hhost'.trans hhost, es ++ es', ?_, ?_⟩
  · rw [htrace', htrace, List.append_assoc]
  · intro e he
    exact (List.mem_append.1 he).elim (hes e) (hes' e)

theorem Grows.mono {P Q : Event → Prop} {m m' : Machine} (h : Grows P m m')
    (hpq : ∀ e, P e → Q e) : Grows Q m m' := by
  obtain ⟨hhost, es, htrace, hes⟩ := h
  exact ⟨hhost, es, htrace, fun e he => hpq e (hes e he)⟩

instance (P : Event → Prop) : IsPreorder Machine (Grows P) where
  refl := grows_refl P
  trans _ _ _ := Grows.trans

/-- A step that adds events of one kind. -/
abbrev Adds {α : Type} (P : Event → Prop) (x : Step Machine α) : Prop := Respects (Grows P) x

theorem Adds.mono {α : Type} {P Q : Event → Prop} {x : Step Machine α} (h : Adds P x)
    (hpq : ∀ e, P e → Q e) : Adds Q x :=
  Respects.mono h fun _ _ hg => hg.mono hpq

theorem adds_note {P : Event → Prop} {e : Event} (h : P e) : Adds P (note e) :=
  fun m => ⟨rfl, [e], rfl, by simpa using h⟩

/-- A step that leaves host and trace alone adds nothing, whatever else it does. -/
theorem adds_of_eq {α : Type} {P : Event → Prop} {x : Step Machine α}
    (hhost : ∀ m, (x m).2.host = m.host) (htrace : ∀ m, (x m).2.trace = m.trace) : Adds P x :=
  fun m => ⟨hhost m, [], by rw [htrace, List.append_nil], by simp⟩

/-! ## Addresses and files -/

/-- The digits that a machine gives for a text: the next ones if it asks for a random address. -/
def digitsOf (m : Machine) (s : String) : List (Fin 16) :=
  if Address.asksRandom s then
    (List.range Address.digitCount).map fun i => m.host.digit (m.drawn + i)
  else []

/-- The machine that has given the digits for a text. -/
def drawnFor (m : Machine) (s : String) : Machine :=
  if Address.asksRandom s then { m with drawn := m.drawn + Address.digitCount } else m

@[simp] theorem drawnFor_host (m : Machine) (s : String) : (m.drawnFor s).host = m.host := by
  rw [drawnFor]
  split <;> rfl

@[simp] theorem drawnFor_trace (m : Machine) (s : String) : (m.drawnFor s).trace = m.trace := by
  rw [drawnFor]
  split <;> rfl

/-- **Reading an address from a text.** Nothing but the digits drawn is changed. -/
theorem readAddress_apply (s : String) (m : Machine) :
    readAddress s m =
      ((Address.read (m.digitsOf s) s).mapError (.invalidAddress s), m.drawnFor s) := by
  have hdigits : digitsFor s m = (.ok (m.digitsOf s), m.drawnFor s) := by
    rw [digitsFor, digitsOf, drawnFor]
    split
    · exact drawDigits_apply m
    · rfl
  rw [readAddress, bind_ok hdigits]
  cases Address.read (m.digitsOf s) s <;> rfl

theorem adds_readAddress (P : Event → Prop) (s : String) : Adds P (readAddress s) :=
  adds_of_eq (fun m => by rw [readAddress_apply, drawnFor_host]) fun m => by
    rw [readAddress_apply, drawnFor_trace]

theorem adds_readAddressValue (P : Event → Prop) (v : Value) : Adds P (readAddressValue v) := by
  unfold readAddressValue
  split
  · exact adds_readAddress P _
  · exact (respects_ofExcept _).bind fun t => respects_fail _

theorem adds_readText (P : Event → Prop) (p : Path) : Adds P (readText p) :=
  adds_of_eq (fun m => by rw [readText_state]) fun m => by rw [readText_state]

theorem adds_makeDirectory (P : Event → Prop) (p : Path) : Adds P (makeDirectory p) := by
  intro m
  have h : (makeDirectory p m).2 = m := by
    unfold makeDirectory
    dsimp only
    split
    · rfl
    · split
      · rfl
      · rfl
  rw [h]
  exact grows_refl P m

end Machine

/-! ## Talk -/

open Machine (Adds Grows adds_note adds_readAddress adds_readText)
open Step

/-- An event that runs no command: a message below the announcements, a line shown, a file. -/
inductive Event.IsTalk : Event → Prop
  | logged {level : Level} (h : level ≠ .info) (m : String) : IsTalk (.logged level m)
  | shown (items : List Shown) : IsTalk (.shown items)
  | wrote (p : Path) (t : String) : IsTalk (.wrote p t)

theorem Event.IsTalk.isQuiet {e : Event} (h : e.IsTalk) : e.IsQuiet := by
  cases h with
  | logged h m => exact isQuiet_logged h m
  | shown items => exact isQuiet_shown items
  | wrote p t => exact isQuiet_wrote p t

namespace Machine

theorem adds_debug (m : String) : Adds Event.IsTalk (debug m) := adds_note (.logged (by simp) m)

theorem adds_warning (m : String) : Adds Event.IsTalk (warning m) :=
  adds_note (.logged (by simp) m)

theorem adds_error (m : String) : Adds Event.IsTalk (error m) := adds_note (.logged (by simp) m)

theorem adds_display (items : List Shown) : Adds Event.IsTalk (display items) :=
  adds_note (.shown items)

theorem adds_showText (s : String) : Adds Event.IsTalk (showText s) := adds_display _

theorem adds_showGrid (g : Grid) : Adds Event.IsTalk (showGrid g) := adds_display _

theorem adds_writeText (p : Path) (text : String) : Adds Event.IsTalk (writeText p text) := by
  intro m
  unfold writeText
  split
  · exact grows_refl _ m
  · exact ⟨rfl, [.wrote (m.locate p) text], rfl, by simpa using .wrote _ _⟩

end Machine

namespace Settings

open Machine (adds_debug adds_warning adds_showText)

theorem adds_loadFile (p : Path) (s : Settings) : Adds Event.IsTalk (loadFile p s) := by
  have hskip : ∀ e s, Adds Event.IsTalk (loadFile.skip p e s) := by
    intro e s
    unfold loadFile.skip
    split
    · exact (adds_warning _).bind fun _ => respects_pure _
    · exact respects_fail _
  have hread : Adds Event.IsTalk (readDocument p) := by
    refine (adds_readText _ p).bind fun text => ?_
    split
    · exact respects_pure _
    · exact respects_fail _
    · exact respects_fail _
  refine respects_current.bind fun m => ?_
  split
  · exact respects_pure _
  refine hread.attempt.bind fun r => ?_
  split
  · exact hskip _ _
  · split
    · exact (adds_debug _).bind fun _ => respects_pure _
    · exact hskip _ _

theorem adds_loadFiles (ps : List Path) (s : Settings) : Adds Event.IsTalk (loadFiles ps s) := by
  induction ps generalizing s with
  | nil => exact respects_pure s
  | cons p ps ih => exact (adds_loadFile p s).bind ih

theorem adds_applyEnvironment (s : Settings) : Adds Event.IsTalk (applyEnvironment s) := by
  refine respects_current.bind fun m => ?_
  split
  split
  · exact (adds_warning _).bind fun _ => respects_pure _
  · exact respects_pure _

theorem adds_applyActive (asked : Option String) (s : Settings) :
    Adds Event.IsTalk (applyActive asked s) := by
  unfold applyActive
  dsimp only
  split
  · exact respects_pure _
  refine (respects_ofExcept _).bind fun found => (respects_ofExcept _).bind fun label => ?_
  split
  · exact (adds_debug _).bind fun _ => respects_pure _
  · exact (adds_warning _).bind fun _ => respects_pure _

theorem adds_load (asked : Option String) : Adds Event.IsTalk (load asked) :=
  respects_current.bind fun m =>
    (adds_loadFiles (searchPaths m.host) initial).bind fun s =>
      (adds_applyEnvironment s).bind (adds_applyActive asked)

theorem adds_makeUserFile (replace : Bool) : Adds Event.IsTalk (makeUserFile replace) := by
  refine respects_current.bind fun m => (Machine.adds_makeDirectory _ _).bind fun _ => ?_
  refine respects_current.bind fun m' => ?_
  dsimp only
  split
  · exact respects_pure _
  · exact (Machine.adds_writeText _ _).bind fun _ => respects_pure _

end Settings

namespace Display

open Machine (adds_display adds_showText adds_showGrid)

theorem adds_showLines (ls : List String) : Adds Event.IsTalk (showLines ls) := by
  induction ls with
  | nil => exact respects_pure ()
  | cons l ls ih => exact (adds_showText l).bind fun _ => ih

theorem adds_configuration (iface address : Value) (s : Settings) :
    Adds Event.IsTalk (configuration iface address s) := by
  refine respects_current.bind fun m => (adds_showText _).bind fun _ => ?_
  refine (adds_showLines _).bind fun _ => (adds_display _).bind fun _ => ?_
  refine (adds_showText _).bind fun _ => (adds_showLines _).bind fun _ => ?_
  refine (adds_display _).bind fun _ => (adds_showText _).bind fun _ => ?_
  refine (respects_ofExcept _).bind fun rows => (adds_showGrid _).bind fun _ => ?_
  split
  · exact respects_pure ()
  · exact (adds_display _).bind fun _ => (adds_showText _).bind fun _ =>
      (adds_showGrid _).bind fun _ => adds_showText _

end Display

/-! ## Reading an interface -/

namespace Link

open Machine (adds_debug)

/-- An event of reading an interface: a message, or the command that reads it, without privilege. -/
inductive IsReading (name : String) : Event → Prop
  | logged (m : String) : IsReading name (.logged .debug m)
  | called (o : Outcome) : IsReading name (.called ⟨[program, name], .null, o⟩)

theorem IsReading.isQuiet {name : String} {e : Event} (h : IsReading name e) : e.IsQuiet := by
  cases h with
  | logged m => exact Event.isQuiet_logged (by simp) m
  | called o => exact Event.isQuiet_called (writeIn?_read name)

theorem adds_run (name : String) :
    Adds (IsReading name) (Runner.unprivileged.run [program, name]) := by
  intro m
  rw [Runner.run_apply]
  refine ⟨rfl, _, rfl, ?_⟩
  intro e he
  rcases List.mem_cons.1 he with rfl | he
  · exact .logged _
  · rw [List.mem_singleton.1 he]
    exact .called _

section Rule

variable {R : Machine → Machine → Prop} [IsPreorder Machine R] {runner : Runner}

theorem respects_ownText (name : String) (hdebug : ∀ message, Respects R (Machine.debug message)) :
    Respects R (ownText name) := by
  have hread : ∀ p, Respects R (Machine.readText p) := by
    intro p m
    rw [Machine.readText_state]
    exact refl_of R m
  have hfile : Respects R (fromFile name) := by
    refine respects_current.bind fun m => ?_
    split
    · refine (hread _).attempt.bind fun r => ?_
      split
      · exact respects_pure _
      · exact (hdebug _).bind fun _ => respects_pure _
      · exact respects_fail _
    · exact respects_pure _
  refine respects_current.bind fun m => ?_
  split
  · exact hfile
  · exact respects_pure none

/-- **Looking for an address** keeps what its messages and its command keep. -/
theorem respects_addressText? {name : String}
    (hdebug : ∀ message, Respects R (Machine.debug message))
    (hrun : Respects R (runner.run [program, name])) : Respects R (addressText? name runner) := by
  have hcommand : Respects R (fromCommand name runner) := by
    refine hrun.attempt.bind fun r => ?_
    split
    · split
      · exact respects_fail _
      · exact respects_pure _
    · exact respects_fail _
    · exact respects_fail _
  refine (respects_ownText name hdebug).bind fun own => ?_
  split
  · exact respects_pure _
  · exact hcommand

theorem respects_readAddress {name : String}
    (hdebug : ∀ message, Respects R (Machine.debug message))
    (hrun : Respects R (runner.run [program, name]))
    (hread : ∀ s, Respects R (Machine.readAddress s)) : Respects R (readAddress name runner) := by
  refine (respects_addressText? hdebug hrun).bind fun found => ?_
  split
  · exact respects_fail _
  · refine (hread _).attempt.bind fun r => ?_
    split
    · exact respects_pure _
    · exact respects_fail _
    · exact respects_fail _

end Rule

theorem adds_readAddress (name : String) :
    Adds (IsReading name) (readAddress name .unprivileged) :=
  respects_readAddress (fun message => adds_note (.logged message)) (adds_run name)
    (Machine.adds_readAddress _)

/-- **Opening an interface.** Its address is read, and that it has been read is the last event. -/
theorem acquire_cases (name : String) (m : Machine) :
    ∃ m', Machine.Grows (IsReading name) m m' ∧
      ((∃ e, acquire name .unprivileged m = (.error e, m')) ∨
        ∃ a, acquire name .unprivileged m = (.ok ⟨name, some a⟩, m'.record (.opened name a))) := by
  have hgrows := adds_readAddress name m
  rcases hread : readAddress name .unprivileged m with ⟨r, m'⟩
  rw [hread] at hgrows
  refine ⟨m', hgrows, ?_⟩
  cases r with
  | error e => exact .inl ⟨e, Step.bind_error hread _⟩
  | ok a => exact .inr ⟨a, Step.bind_ok hread _⟩

end Link

end LinkOverride
