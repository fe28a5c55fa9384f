import LinkOverride.Proofs.Line
import LinkOverride.Proofs.Retry

/-!
# When digits are drawn

A machine counts the digits that it has drawn. Nothing draws any but the reading of a text that asks
for a random address, and of the operations on an override only those read such a text that may begin
a cycle. So the count after an operation is known from the override before it: it goes up by the
digits of one address if a cycle could begin and a random address is wanted, and stays as it is if
not. Whether the cycle does begin makes no difference, nor how any command ends.
-/

namespace LinkOverride

open Override (onMachine)
open Step

/-! ## Machines -/

namespace Machine

/-- No digit is drawn. -/
def KeepsDrawn (m m' : Machine) : Prop := m'.drawn = m.drawn

instance : IsPreorder Machine KeepsDrawn where
  refl _ := rfl
  trans _ _ _ h h' := Eq.trans h' h

theorem keepsDrawn_note (e : Event) : Respects KeepsDrawn (note e) := fun _ => rfl

@[simp] theorem drawn_record (m : Machine) (e : Event) : (m.record e).drawn = m.drawn := rfl

theorem drawn_drawnFor_of_random {s : String} (h : Text.strip s = Address.randomWord)
    (m : Machine) : (m.drawnFor s).drawn = m.drawn + Address.digitCount := by
  rw [drawnFor, if_pos (Address.asksRandom_iff.2 h)]

theorem drawnFor_of_not_random {s : String} (h : Text.strip s ≠ Address.randomWord)
    (m : Machine) : m.drawnFor s = m := by
  rw [drawnFor, if_neg (Address.asksRandom_iff.not.2 h)]

end Machine

open Machine (KeepsDrawn)

theorem Runner.keepsDrawn_run (r : Runner) (command : List String) :
    Respects KeepsDrawn (r.run command) := by
  intro m
  rw [run_apply]
  rfl

theorem Link.keepsDrawn_addressText? (name : String) (runner : Runner) :
    Respects KeepsDrawn (addressText? name runner) :=
  respects_addressText? (fun _ => Machine.keepsDrawn_note _) (runner.keepsDrawn_run _)

theorem Writer.keepsDrawn_write (w : Writer) (name address : String) :
    Respects KeepsDrawn (w.write name address) := by
  intro m
  cases hp : w.platformOn m.host with
  | none =>
    rw [write_apply_of_none hp]
    exact refl_of KeepsDrawn m
  | some p =>
    rw [write_apply_of_some hp]
    rfl

/-! ## An override -/

namespace Session

/-- No digit is drawn. -/
def KeepsDrawn (s s' : Session) : Prop := s.machine.KeepsDrawn s'.machine

instance : IsPreorder Session KeepsDrawn where
  refl s := refl_of Machine.KeepsDrawn s.machine
  trans _ _ _ := trans_of Machine.KeepsDrawn

/-- **To write an address** no digit is drawn. -/
theorem keepsDrawn_writes : (Law.keeping KeepsDrawn).Writes where
  current := refl_of KeepsDrawn
  write name address s := s.override.writer.keepsDrawn_write name address s.machine
  setPhase _ := fun _ => rfl
  setLink _ := fun _ => rfl
  noted _ := fun _ => rfl
  info _ := fun _ => rfl

theorem keepsDrawn_perform (a : Act) (c : Cycle) : Respects KeepsDrawn (a.perform c) :=
  keepsDrawn_writes.perform a c

theorem keepsDrawn_stop : Respects KeepsDrawn Override.stop := keepsDrawn_writes.stop

/-- Past the checks of state and name the address that is wanted is read, whatever comes of it. -/
theorem drawn_configure_of_free {s : Session} (h : s.override.obstacle? = none) :
    (Override.configure s).2.machine.drawn =
      (s.machine.drawnFor s.override.settings.address).drawn := by
  cases hr : Address.read (s.machine.digitsOf s.override.settings.address)
      s.override.settings.address with
  | error fault => rw [configure_of_invalid h hr]
  | ok desired =>
    cases ha : s.override.link.address with
    | none => rw [configure_of_unknown h hr ha]
    | some original => rw [configure_of_known h hr ha, Machine.drawn_record]

/-- The cycle to be started has begun before, or begins now. -/
theorem drawn_readyCycle (s : Session) :
    (Override.readyCycle s).2.machine.drawn = (Override.configure s).2.machine.drawn := by
  cases hp : s.override.phase with
  | unconfigured last => rw [readyCycle_of_unconfigured hp]
  | configured c => rw [readyCycle_of_configured hp, configure_of_busy (by rw [hp]; rfl)]
  | running c => rw [readyCycle_of_running hp, configure_of_busy (by rw [hp]; rfl)]

theorem drawn_start (s : Session) :
    (Override.start s).2.machine.drawn = (Override.configure s).2.machine.drawn := by
  rw [start_eq, ← drawn_readyCycle]
  exact rel_of_bind (R := KeepsDrawn) (keepsDrawn_perform .starting) s

end Session

/-! ## Operations -/

namespace Operation

/-- What an operation spells as a command of the override, if it is one. -/
def verb? : Operation → Option Override.Verb
  | start => some .on
  | stop => some .off
  | command line => Override.Verb.ofLine? line
  | _ => none

/-- A line of a session, which may do more than one operation does. -/
def IsLine : Operation → Prop
  | execute _ => True
  | _ => False

/-- To configure and to start may begin a cycle. -/
def MayBegin (op : Operation) : Prop := op = configure ∨ op.verb? = some .on

/-- **The operation draws the digits of an address**: it may begin a cycle, neither a cycle nor the
interface stands in the way, and the address that is wanted is a random one. -/
def Draws (op : Operation) (o : Override) : Prop :=
  op.MayBegin ∧ o.obstacle? = none ∧ Text.strip o.settings.address = Address.randomWord

variable {op : Operation} {v : Override.Verb}

theorem perform_of_verb (h : op.verb? = some v) : op.perform = v.perform := by
  cases op with
  | start => rw [← Option.some.inj h]; rfl
  | stop => rw [← Option.some.inj h]; rfl
  | command line =>
    rw [perform, Override.command, show Override.Verb.ofLine? line = some v from h]
  | _ => exact absurd h (by simp [verb?])

theorem perform_configure (s : Session) :
    (configure.perform s).2 = (Override.configure s).2 := by
  rcases h : Override.configure s with ⟨e | c, t⟩
  · rw [perform, bind_error h]
  · rw [perform, bind_ok h]
    rfl

/-- **What is no line, begins no cycle and stops none** changes neither the phase nor the count. -/
theorem perform_of_aside (hline : ¬op.IsLine) (hbegin : ¬op.MayBegin)
    (hstop : op.verb? ≠ some .off) (s : Session) :
    (op.perform s).2.override.phase = s.override.phase ∧
      (op.perform s).2.machine.drawn = s.machine.drawn := by
  cases op with
  | configure => exact absurd (.inl rfl) hbegin
  | start => exact absurd (.inr rfl) hbegin
  | stop => exact absurd rfl hstop
  | attach l =>
    rw [perform]
    cases hc : s.override.phase.cycle? with
    | some c =>
      rw [attach_of_busy hc]
      exact ⟨rfl, rfl⟩
    | none =>
      rw [attach_of_free hc]
      exact ⟨rfl, rfl⟩
  | command line =>
    rw [perform, Override.command]
    cases hv : Override.Verb.ofLine? line with
    | none => exact ⟨rfl, rfl⟩
    | some v =>
      cases v with
      | on => exact absurd (.inr hv) hbegin
      | off => exact absurd hv hstop
  | execute line => exact absurd trivial hline
  | setParameter name value =>
    rw [perform, bind_ok (Override.current_apply s), Settings.setNamed]
    cases Settings.Parameter.named? name with
    | none => exact ⟨rfl, rfl⟩
    | some p => exact ⟨rfl, rfl⟩
  | applyProfile name => exact ⟨rfl, rfl⟩

theorem drawn_perform_of_mayBegin (h : op.MayBegin) (s : Session) :
    (op.perform s).2.machine.drawn = (Override.configure s).2.machine.drawn := by
  rcases h with rfl | hv
  · rw [perform_configure]
  · rw [perform_of_verb hv]
    exact Session.drawn_start s

/-- **Twelve digits** if the operation draws any. -/
theorem drawn_perform_of_draws {s : Session} (h : op.Draws s.override) :
    (op.perform s).2.machine.drawn = s.machine.drawn + Address.digitCount := by
  obtain ⟨hbegin, hfree, hrandom⟩ := h
  rw [drawn_perform_of_mayBegin hbegin, Session.drawn_configure_of_free hfree,
    Machine.drawn_drawnFor_of_random hrandom]

theorem drawn_perform_of_not_draws {s : Session} (hline : ¬op.IsLine)
    (h : ¬op.Draws s.override) : (op.perform s).2.machine.drawn = s.machine.drawn := by
  by_cases hbegin : op.MayBegin
  · rw [drawn_perform_of_mayBegin hbegin]
    cases hfree : s.override.obstacle? with
    | some e => rw [configure_of_obstacle hfree]
    | none =>
      have hrandom : Text.strip s.override.settings.address ≠ Address.randomWord :=
        fun hr => h ⟨hbegin, hfree, hr⟩
      rw [Session.drawn_configure_of_free hfree, Machine.drawnFor_of_not_random hrandom]
  by_cases hstop : op.verb? = some .off
  · rw [perform_of_verb hstop]
    exact Session.keepsDrawn_stop s
  · exact (perform_of_aside hline hbegin hstop s).2

end Operation

end LinkOverride
