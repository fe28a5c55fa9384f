import LinkOverride.Proofs.Operation
import LinkOverride.Proofs.Parts

/-!
# Lines, and operations in any order

A line of a session is a course of changes as well. The one line that takes an interface in hand has
read its address right before, whatever else the session may be doing.

What can be done with an override is gathered in `Operation`: its own operations, lines of a session,
and new settings. A run carries out any of them in any order, and goes on after a failure.
-/

namespace LinkOverride

open Machine (Adds)
open Override (onMachine)
open Step

/-- An interface may be taken in hand if no other address has been read since its own. -/
def OpenedLast (es : List Event) (l : Link) : Prop := lastOpened? es = some l

theorem Moves.mono {T T' : List Event → Link → Prop} {s s' : Session}
    (hT : ∀ es l, T es l → T' es l) (h : Moves T s s') : Moves T' s s' := by
  obtain ⟨hhost, es, htrace, hc⟩ := h
  exact ⟨hhost, es, htrace, hc.mono hT⟩

/-! ## Requests -/

namespace Session

/-- **Opening an interface and taking it in hand.** -/
theorem open_moves (name : String) :
    Respects (Moves OpenedLast)
      (onMachine (Link.acquire name .unprivileged) >>= Override.attach) := by
  intro s
  obtain ⟨m, ⟨hhost, es, htrace, hes⟩, h⟩ := Link.acquire_cases name s.machine
  have hquiet : ∀ e ∈ es, e.IsQuiet := fun e he => (hes e he).isQuiet
  rcases h with ⟨e, h⟩ | ⟨a, h⟩
  · rw [bind_error (onMachine_of_eq h)]
    exact ⟨hhost, es, htrace, (Change.idle s.override.settings hquiet).course⟩
  · have hopened : ∀ e ∈ es ++ [.opened name a], e.IsQuiet := by
      intro e he
      rcases List.mem_append.1 he with he | he
      · exact hquiet e he
      · rw [List.mem_singleton.1 he]
        exact Event.isQuiet_opened name a
    rw [bind_ok (onMachine_of_eq h)]
    cases hc : s.override.phase.cycle? with
    | some c =>
      have hattach : Override.attach ⟨name, some a⟩ ⟨m.record (.opened name a), s.override⟩ =
          (.error .alreadyConfigured, ⟨m.record (.opened name a), s.override⟩) := attach_of_busy hc
      rw [hattach]
      refine ⟨hhost, es ++ [.opened name a], ?_, (Change.idle s.override.settings hopened).course⟩
      rw [Machine.trace_record, htrace, List.append_assoc]
    | none =>
      have hattach : Override.attach ⟨name, some a⟩ ⟨m.record (.opened name a), s.override⟩ =
          (.ok (), ⟨(m.record (.opened name a)).record (.held name (some a)),
            { s.override with link := ⟨name, some a⟩ }⟩) := attach_of_free hc
      rw [hattach]
      have hlast : OpenedLast (es ++ [.opened name a]) ⟨name, some a⟩ := lastOpened?_opened es name a
      refine ⟨hhost, es ++ [.opened name a] ++ [.held name (some a)], ?_,
        (Change.took ⟨name, some a⟩ hc hopened hlast).course⟩
      rw [Machine.trace_record, Machine.trace_record, htrace]
      simp only [List.append_assoc]

theorem current_moves {T : List Event → Link → Prop} : Respects (Moves T) Override.current :=
  moves_refl

theorem showing_moves {T : List Event → Link → Prop} {x : Step Machine Unit}
    (hx : Adds Event.IsTalk x) : Respects (Moves T) (onMachine x) :=
  onMachine_moves (hx.mono fun _ he => he.isQuiet)

theorem looks_moves (T : List Event → Link → Prop) : (Law.keeping (Moves T)).Looks where
  current := current_moves
  shown items := showing_moves (Machine.adds_display items)

theorem setParameter_moves (name value : String) :
    Respects (Moves OpenedLast) (setParameter name value) := by
  have hread : Respects (Moves OpenedLast) (onMachine (Machine.readAddress value)) :=
    onMachine_moves (Machine.adds_readAddress _ value)
  have hprepare : Respects (Moves OpenedLast) (prepare name value) :=
    (looks_moves OpenedLast).prepare name hread (open_moves value)
  exact (looks_moves OpenedLast).setParameter hprepare fun p =>
    modifySettings_moves fun o => o.settings.set p value

/-- **A line of a session.** -/
theorem execute_moves (line : String) : Respects (Moves OpenedLast) (execute line) :=
  (looks_moves OpenedLast).execute (fun name value _ => setParameter_moves name value)
    fun _ => command_moves line

end Session

/-! ## Operations in any order -/

/-- What can be done with an override. -/
inductive Operation
  | configure
  | start
  | stop
  | attach (l : Link)
  | command (line : String)
  | execute (line : String)
  | setParameter (name value : String)
  | applyProfile (name : String)

namespace Operation

/-- Without a parameter or a profile of the name the settings stay as they are. -/
def perform : Operation → Step Session Unit
  | configure => do
    let _ ← Override.configure
  | start => Override.start
  | stop => Override.stop
  | attach l => Override.attach l
  | command line => Override.command line
  | execute line => do
    let _ ← Session.execute line
  | setParameter name value => do
    let o ← Override.current
    let settings ← .ofExcept (o.settings.setNamed name value)
    Override.modify fun o => { o with settings }
  | applyProfile name =>
    Override.modify fun o => { o with settings := (o.settings.applyProfile? name).getD o.settings }

/-- Any interface may be taken in hand by an operation. -/
abbrev Free (_ : List Event) (_ : Link) : Prop := True

theorem perform_moves (op : Operation) : Respects (Moves Free) op.perform := by
  cases op with
  | configure =>
    have h : Respects (Moves Free) Override.configure := configure_moves
    exact h.bind fun _ => respects_pure ()
  | start => exact start_moves
  | stop => exact stop_moves
  | attach l => exact attach_moves trivial
  | command line => exact command_moves line
  | execute line =>
    have h : Respects (Moves Free) (Session.execute line) :=
      (Session.execute_moves line).mono fun _ _ h => h.mono fun _ _ _ => trivial
    exact h.bind fun _ => respects_pure ()
  | setParameter name value =>
    exact Session.current_moves.bind fun _ => (respects_ofExcept _).bind fun settings =>
      modifySettings_moves fun _ => settings
  | applyProfile name => exact modifySettings_moves _

end Operation

namespace Session

/-- A run of operations, each with whatever success. -/
def after (ops : List Operation) (s : Session) : Session := ops.foldl (fun s op => (op.perform s).2) s

/-- **A run of operations is a course of changes.** -/
theorem after_moves (ops : List Operation) (s : Session) :
    Moves Operation.Free s (s.after ops) := by
  induction ops generalizing s with
  | nil => exact moves_refl s
  | cons op ops ih => exact (op.perform_moves s).trans (ih (op.perform s).2)

end Session

end LinkOverride
