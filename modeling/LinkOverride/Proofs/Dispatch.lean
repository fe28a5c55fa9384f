import LinkOverride.Proofs.Layout
import LinkOverride.Proofs.Refusal

/-!
# Which lines have an effect

A line is looked at twice. The session takes the first word in any case and carries out what it knows;
every other line goes to the override, which wants its two words just as they are written. So there
are three kinds of lines that can do anything: the two verbs of the override, which start and stop it
and nothing else, and a line that gives a value to a parameter. All other lines show something at
most.

A line ends the session just if its first word asks for that, and it is told to be unknown just if
neither the session nor the override knows it. No operation that a line leads to fails in that way.
-/

namespace LinkOverride

open Override (onMachine)
open Step

/-! ## Failures of what a line leads to -/

theorem Failure.not_isUnknown_of_isOfReading {e : Failure} (h : e.isOfReading = true) :
    e.isUnknown = false := by
  cases e <;> simp_all [isOfReading, isUnknown]

/-- The step does not fail since a line is unknown. -/
abbrev Step.Understands {σ α : Type} (x : Step σ α) : Prop := FailsAs (·.isUnknown = false) x

theorem Step.FailsAs.onMachine {α : Type} {P : Failure → Prop} {x : Step Machine α}
    (hx : FailsAs P x) : FailsAs P (onMachine x) := by
  intro s e s' h
  rw [Override.onMachine, within_apply] at h
  exact hx s.machine e _ (Prod.ext (Prod.mk.inj h).1 rfl)

theorem Writer.understands_write (w : Writer) (name address : String) :
    Understands (w.write name address) := by
  intro m e m' h
  cases hp : w.platformOn m.host with
  | none =>
    rw [write_apply_of_none hp] at h
    rw [← Except.error.inj (Prod.mk.inj h).1]
    rfl
  | some p =>
    obtain ⟨hjudged, -⟩ := judged_of_write hp h
    generalize Runner.nextOutcome m = o at hjudged
    cases hjudged <;> rfl

namespace Session

variable {s t : Session} {line : String}

/-- No step fails since a line is unknown, if its parts do not. -/
def understanding : Law where
  Holds := Understands
  pure := failsAs_pure
  fail _ h := failsAs_fail (P := (·.isUnknown = false)) h
  bind := FailsAs.bind

theorem understands_current : Understands Override.current :=
  fun _ _ _ h => absurd h (by simp [Override.current])

theorem understands_modify (f : Override → Override) : Understands (Override.modify f) :=
  fun _ _ _ h => absurd h (by simp [Override.modify])

theorem understands_note (e : Event) : Understands (onMachine (Machine.note e)) :=
  (failsAs_note e).onMachine

/-- **The parts of a line** do not fail since a line is unknown: texts, interfaces and commands have
failures of their own. -/
theorem understands_lines : understanding.Lines where
  current := understands_current
  readAddress text := by
    have hinvalid : Understands (Machine.readAddress text) := by
      intro m e m' h
      obtain ⟨fault, rfl⟩ := Link.readAddress_error h
      rfl
    exact hinvalid.onMachine
  setPhase _ := understands_modify _
  setLink _ := understands_modify _
  debug _ := understands_note _
  held _ := understands_note _
  write name address :=
    understands_current.bind fun o => (o.writer.understands_write name address).onMachine
  noted _ := understands_note _
  info _ := understands_note _
  acquire name :=
    ((Link.failsReading_acquire name).mono fun _ =>
      Failure.not_isUnknown_of_isOfReading).onMachine
  store _ _ := understands_modify _
  shown _ := understands_note _

/-! ## The kinds of lines -/

/-- A line that asks for a verb does what the verb does. -/
theorem execute_of_verb {v : Override.Verb} (h : Text.words line = v.words) :
    execute line = v.perform >>= fun _ => pure true := by
  have hcommand : Override.command line = v.perform := by
    rw [Override.command, Override.Verb.ofLine?_eq_some_iff.2 h]
  rw [execute_of_other (Request.ofLine_of_verb h), hcommand]

/-- A line that is left to the override, and that the override does not know. -/
theorem execute_of_unknown (h : Request.Foreign line)
    (hverb : ∀ v : Override.Verb, Text.words line ≠ v.words) (s : Session) :
    execute line s = (.error (.unknownCommand line), s) := by
  have hcommand : Override.command line = .fail (.unknownCommand line) := by
    rw [Override.command, Override.Verb.ofLine?_eq_none_iff.2 hverb]
  rw [execute_of_other (Request.ofLine_eq_other_iff.2 h), hcommand]
  rfl

/-- Nothing is done, or something is shown and nothing else is done. -/
inductive Shows (s : Session) : Session → Prop
  | nothing : Shows s s
  | shown (items : List Shown) : Shows s ⟨s.machine.record (.shown items), s.override⟩

/-- **The other lines** show something at most. -/
theorem shows_execute (hverb : ∀ v : Override.Verb, Text.words line ≠ v.words)
    (hset : ¬Request.Assigns line) (s : Session) : Shows s (execute line s).2 := by
  cases hr : Request.ofLine line with
  | nothing =>
    rw [execute, hr]
    exact .nothing
  | quit =>
    rw [execute, hr]
    exact .nothing
  | help =>
    rw [execute, hr]
    exact .shown _
  | status =>
    rw [execute, hr]
    exact .shown _
  | get name =>
    rw [execute, hr]
    dsimp only
    cases hget : s.override.settings.getNamed name with
    | ok value =>
      have hshown : getParameter name s =
          (.ok (), ⟨s.machine.record (.shown [.text s!"{name}: {value}"]), s.override⟩) := by
        rw [getParameter, bind_ok (Override.current_apply s), hget]
        rfl
      rw [bind_ok hshown]
      exact .shown _
    | error e =>
      have hfail : getParameter name s =
          (.error (.misconfigured (.parameterUnknown name)), s) := by
        rw [getParameter, bind_ok (Override.current_apply s), hget]
        rfl
      rw [bind_error hfail]
      exact .nothing
  | set name value => exact absurd (Request.assigns_of_ofLine hr) hset
  | other =>
    rw [execute_of_unknown (Request.ofLine_eq_other_iff.1 hr) hverb]
    exact .nothing

theorem execute_quits_iff :
    execute line s = (.ok false, t) ↔
      t = s ∧ ∃ w ws, Text.words line = w :: ws ∧ Text.lower w ∈ Request.quitWords := by
  rw [← Request.ofLine_eq_quit_iff]
  constructor
  · intro h
    obtain ⟨hquit, hsame⟩ := quit_of_execute h
    exact ⟨hsame, hquit⟩
  · intro h
    obtain ⟨rfl, hquit⟩ := h
    rw [execute, hquit]
    rfl

theorem execute_unknown_iff {l : String} :
    (execute line s).1 = .error (.unknownCommand l) ↔
      l = line ∧ Request.Foreign line ∧ ∀ v : Override.Verb, Text.words line ≠ v.words := by
  constructor
  · intro h
    have herror : execute line s = (.error (.unknownCommand l), (execute line s).2) :=
      Prod.ext h rfl
    have hother : Request.ofLine line = .other := by
      by_contra hne
      have hexecute : Understands (execute line) :=
        understands_lines.execute fun hr => absurd hr hne
      exact absurd (hexecute s _ _ herror) (by simp [Failure.isUnknown])
    have hverb : ∀ v : Override.Verb, Text.words line ≠ v.words := by
      intro v hv
      have hperform : Understands v.perform := understands_lines.verb v
      rw [execute_of_verb hv] at herror
      exact absurd (hperform.bind (fun _ => failsAs_pure true) s _ _ herror)
        (by simp [Failure.isUnknown])
    have hforeign := Request.ofLine_eq_other_iff.1 hother
    rw [execute_of_unknown hforeign hverb] at h
    exact ⟨(Failure.unknownCommand.inj (Except.error.inj h)).symm, hforeign, hverb⟩
  · intro h
    obtain ⟨rfl, hforeign, hverb⟩ := h
    rw [execute_of_unknown hforeign hverb]

/-- **What a line can do.** The two verbs of the override do what starting and stopping do, with the
same failures. A line that is neither of them, and that does not give a value to a parameter, shows
something at most. A line ends the session just if its first word asks for it, whatever follows. And a
line is unknown just if it is none of the requests of the session and none of the verbs. -/
theorem execute_effects (line : String) (s : Session) :
    (∀ v : Override.Verb, Text.words line = v.words →
      execute line = v.perform >>= fun _ => pure true) ∧
    ((∀ v : Override.Verb, Text.words line ≠ v.words) → ¬Request.Assigns line →
      Shows s (execute line s).2) ∧
    (∀ t, execute line s = (.ok false, t) ↔
      t = s ∧ ∃ w ws, Text.words line = w :: ws ∧ Text.lower w ∈ Request.quitWords) ∧
    (∀ l, (execute line s).1 = .error (.unknownCommand l) ↔
      l = line ∧ Request.Foreign line ∧ ∀ v : Override.Verb, Text.words line ≠ v.words) :=
  ⟨fun _ => execute_of_verb, fun hverb hset => shows_execute hverb hset s,
    fun _ => execute_quits_iff, fun _ => execute_unknown_iff⟩

/-- The case of a verb counts, and that of an ending does not. -/
theorem execute_effects_mistaken :
    execute " mac.changer\ton " = (Override.start >>= fun _ => pure true) ∧
      (execute "Mac.changer on" mistaken).1 = .error (.unknownCommand "Mac.changer on") ∧
      execute "QUIT now" mistaken = (.ok false, mistaken) := by
  have hwords : Text.words " mac.changer\ton " = Override.Verb.on.words := by decide
  have hforeign : Request.Foreign "Mac.changer on" :=
    Request.ofLine_eq_other_iff.1 (by decide)
  have hverb : ∀ v : Override.Verb, Text.words "Mac.changer on" ≠ v.words := by
    intro v
    cases v <;> decide
  have hquit : Text.words "QUIT now" = ["QUIT", "now"] ∧ Text.lower "QUIT" ∈ Request.quitWords := by
    decide
  obtain ⟨hon, -, -, -⟩ := execute_effects " mac.changer\ton " mistaken
  obtain ⟨-, -, -, hunknown⟩ := execute_effects "Mac.changer on" mistaken
  obtain ⟨-, -, hends, -⟩ := execute_effects "QUIT now" mistaken
  exact ⟨hon .on hwords, (hunknown _).2 ⟨rfl, hforeign, hverb⟩,
    (hends _).2 ⟨rfl, _, _, hquit.1, hquit.2⟩⟩

end Session

end LinkOverride
