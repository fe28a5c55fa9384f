import LinkOverride.Conversation
import LinkOverride.Proofs.Course

/-!
# Operations on an override

What each operation does, said as a change. An operation that fails leaves the override as it was,
with one exception: to start may fail after a cycle has begun. The changes are put together to
courses for the operations that are made of others, up to a line of a session.
-/

namespace LinkOverride

open Override (onMachine)
open Machine (Adds)
open Step

variable {T : List Event → Link → Prop}

theorem Override.current_apply (s : Session) : Override.current s = (.ok s.override, s) := rfl

theorem onMachine_of_eq {α : Type} {x : Step Machine α} {s : Session} {r : Except Failure α}
    {m : Machine} (h : x s.machine = (r, m)) : onMachine x s = (r, ⟨m, s.override⟩) := by
  rw [onMachine, within_apply, h]

/-! ## Writing -/

theorem writeAddress_of_error {s : Session} {name address : String} {e : Failure} {m : Machine}
    (h : s.override.writer.write name address s.machine = (.error e, m)) :
    Override.writeAddress name address s = (.error e, ⟨m, s.override⟩) := by
  rw [Override.writeAddress, bind_ok (Override.current_apply s), bind_error (onMachine_of_eq h)]

theorem writeAddress_of_ok {s : Session} {name address : String} {done : Finished} {m : Machine}
    (h : s.override.writer.write name address s.machine = (.ok done, m)) :
    Override.writeAddress name address s =
      (.ok (), ⟨m.record (.noted address),
        { s.override with link := { s.override.link with address := some address } }⟩) := by
  rw [Override.writeAddress, bind_ok (Override.current_apply s), bind_ok (onMachine_of_eq h)]
  rfl

theorem Act.perform_of_error (a : Act) {c : Cycle} {s : Session} {e : Failure} {m : Machine}
    (h : s.override.writer.write c.iface (a.address c) s.machine = (.error e, m)) :
    a.perform c s = (.error e, ⟨m, s.override⟩) := by
  rw [Act.perform, bind_error (writeAddress_of_error h)]

/-- The override after the address of a cycle has been written. -/
def Act.done (a : Act) (c : Cycle) (o : Override) : Override :=
  { o with
    link := { o.link with address := some (a.address c) }
    phase := a.result c }

theorem Act.perform_of_ok (a : Act) {c : Cycle} {s : Session} {done : Finished} {m : Machine}
    (h : s.override.writer.write c.iface (a.address c) s.machine = (.ok done, m)) :
    a.perform c s =
      (.ok (), ⟨(m.record (.noted (a.address c))).record
        (.logged .info (a.announcement c).message), a.done c s.override⟩) := by
  rw [Act.perform, bind_ok (writeAddress_of_ok h)]
  rfl

/-- A write runs no command if the platform is not known, and else the one command that it takes. -/
theorem Override.write_cases (o : Override) (name address : String) (m : Machine) :
    (∃ e, o.writer.write name address m = (.error e, m)) ∨
      ∃ call message m', o.Writes m.host name address call ∧ m'.host = m.host ∧
        m'.trace = m.trace ++ [.logged .debug message, .called call] ∧
        ((∃ e, o.writer.write name address m = (.error e, m') ∧ call.outcome.isSuccess = false) ∨
          ∃ done, o.writer.write name address m = (.ok done, m') ∧
            call.outcome.isSuccess = true) := by
  cases hp : o.writer.platformOn m.host with
  | none => exact .inl ⟨_, Writer.write_apply_of_none hp name address⟩
  | some p =>
    have hw := Writer.write_apply_of_some hp name address
    have hok := Writer.judge_answer_isOk o.writer.runner (Link.program :: p.arguments name address)
      (o.writer.fullCommand m.host p name address) (Runner.nextOutcome m)
    refine .inr ⟨_, _, _, ⟨⟨p, hp, rfl⟩, rfl⟩, Runner.after_host _ _ m,
      Runner.after_trace _ (o.writer.fullCommand m.host p name address) m, ?_⟩
    rcases hj : Writer.judge (Link.program :: p.arguments name address)
      (o.writer.runner.answer (o.writer.fullCommand m.host p name address)
        (Runner.nextOutcome m)) with e | done
    · rw [hj] at hw hok
      exact .inl ⟨e, hw, hok.symm⟩
    · rw [hj] at hw hok
      exact .inr ⟨done, hw, hok.symm⟩

/-- **Writing an address of a cycle.** Either the write fails and nothing is changed, or it is done
and all that depends on it is changed at once. -/
theorem Act.perform_cases (a : Act) {c : Cycle} {s : Session} (hr : a.Ready s.override.phase c) :
    ∃ es s', Advances T s es s' ∧
      ((∃ e, a.perform c s = (.error e, s') ∧ s'.override = s.override ∧
          ∀ e ∈ es, e.written? = none) ∨
        a.perform c s = (.ok (), s') ∧ s'.override = a.done c s.override) := by
  rcases s.override.write_cases c.iface (a.address c) s.machine with
    ⟨e, hw⟩ | ⟨call, message, m', hwrites, hhost, htrace, ⟨e, hw, hf⟩ | ⟨done, hw, hs⟩⟩
  · refine ⟨[], s, ⟨rfl, (List.append_nil _).symm, ?_⟩, .inl ⟨e, a.perform_of_error hw, rfl, by simp⟩⟩
    exact .idle s.override.settings (by simp)
  · refine ⟨_, ⟨m', s.override⟩, ⟨hhost, htrace, .failed a hr hwrites hf⟩,
      .inl ⟨e, a.perform_of_error hw, rfl, ?_⟩⟩
    intro ev hev
    rcases List.mem_cons.1 hev with rfl | hev
    · rfl
    · rw [List.mem_singleton.1 hev, Event.written?, hf]
      rfl
  · refine ⟨[.logged .debug message, .called call, .noted (a.address c),
        .logged .info (a.announcement c).message],
      _, ⟨hhost, ?_, .done a hr hwrites hs⟩, .inr ⟨a.perform_of_ok hw, rfl⟩⟩
    simp only [Machine.trace_record, htrace, List.append_assoc, List.cons_append, List.nil_append]

/-! ## Cycles -/

/-- What keeps a cycle from beginning before the address that is wanted is looked at. -/
def Override.obstacle? (o : Override) : Option Failure :=
  match o.phase.cycle? with
  | some _ => some .alreadyConfigured
  | none =>
    if o.wantedInterface = "" then some (.misconfigured .interfaceNotSet)
    else if o.wantedInterface ≠ o.link.name then
      some (.misconfigured (.otherInterface o.wantedInterface o.link.name))
    else none

/-- Without an obstacle the override is free, and the interface in hand is the one that is wanted. -/
theorem Override.of_obstacle?_eq_none {o : Override} (h : o.obstacle? = none) :
    o.phase.cycle? = none ∧ o.wantedInterface ≠ "" ∧ o.wantedInterface = o.link.name := by
  rw [Override.obstacle?] at h
  split at h
  · exact absurd h (by simp)
  · next hfree =>
    split at h
    · exact absurd h (by simp)
    · next hnamed =>
      split at h
      · exact absurd h (by simp)
      · next hsame => exact ⟨hfree, hnamed, Decidable.not_not.1 hsame⟩

theorem configure_of_obstacle {s : Session} {e : Failure} (h : s.override.obstacle? = some e) :
    Override.configure s = (.error e, s) := by
  rw [Override.obstacle?] at h
  rw [Override.configure, bind_ok (Override.current_apply s)]
  split at h
  · next c hc =>
    rw [hc, ← Option.some.inj h]
    rfl
  · next hfree =>
    rw [hfree]
    dsimp only
    split at h
    · next hnamed =>
      rw [if_pos hnamed, ← Option.some.inj h]
      rfl
    · next hnamed =>
      rw [if_neg hnamed]
      split at h
      · next hother =>
        rw [if_pos hother, ← Option.some.inj h]
        rfl
      · exact absurd h (by simp)

theorem configure_of_busy {s : Session} {c : Cycle} (h : s.override.phase.cycle? = some c) :
    Override.configure s = (.error .alreadyConfigured, s) :=
  configure_of_obstacle (by rw [Override.obstacle?, h])

section Free

variable {s : Session} (hfree : s.override.obstacle? = none)

include hfree

theorem configure_of_invalid {fault : Address.Fault}
    (hr : Address.read (s.machine.digitsOf s.override.settings.address)
      s.override.settings.address = .error fault) :
    Override.configure s =
      (.error (.invalidAddress s.override.settings.address fault),
        ⟨s.machine.drawnFor s.override.settings.address, s.override⟩) := by
  obtain ⟨hcycle, hnamed, hsame⟩ := Override.of_obstacle?_eq_none hfree
  have hread : onMachine (Machine.readAddress s.override.settings.address) s =
      (.error (.invalidAddress s.override.settings.address fault),
        ⟨s.machine.drawnFor s.override.settings.address, s.override⟩) := by
    rw [onMachine, within_apply, Machine.readAddress_apply, hr]
    rfl
  rw [Override.configure, bind_ok (Override.current_apply s), hcycle]
  dsimp only
  rw [if_neg hnamed, if_neg (Decidable.not_not.2 hsame), bind_error hread]

section Valid

variable {desired : String} (hr : Address.read (s.machine.digitsOf s.override.settings.address)
  s.override.settings.address = .ok desired)

include hr

theorem configure_of_valid :
    Override.configure s =
      match s.override.link.address with
      | none => (.error (.misconfigured (.addressUnknown s.override.link.name)),
          ⟨s.machine.drawnFor s.override.settings.address, s.override⟩)
      | some original =>
        (.ok ⟨s.override.link.name, original, desired⟩,
          ⟨(s.machine.drawnFor s.override.settings.address).record (.logged .debug
              s!"{Override.title} configured: {s.override.link.name} {original} -> {desired}"),
            { s.override with phase := .configured ⟨s.override.link.name, original, desired⟩ }⟩) := by
  obtain ⟨hcycle, hnamed, hsame⟩ := Override.of_obstacle?_eq_none hfree
  have hread : onMachine (Machine.readAddress s.override.settings.address) s =
      (.ok desired, ⟨s.machine.drawnFor s.override.settings.address, s.override⟩) := by
    rw [onMachine, within_apply, Machine.readAddress_apply, hr]
    rfl
  rw [Override.configure, bind_ok (Override.current_apply s), hcycle]
  dsimp only
  rw [if_neg hnamed, if_neg (Decidable.not_not.2 hsame), bind_ok hread, hsame]
  cases s.override.link.address <;> rfl

theorem configure_of_unknown (ha : s.override.link.address = none) :
    Override.configure s =
      (.error (.misconfigured (.addressUnknown s.override.link.name)),
        ⟨s.machine.drawnFor s.override.settings.address, s.override⟩) := by
  rw [configure_of_valid hfree hr, ha]

theorem configure_of_known {original : String} (ha : s.override.link.address = some original) :
    Override.configure s =
      (.ok ⟨s.override.link.name, original, desired⟩,
        ⟨(s.machine.drawnFor s.override.settings.address).record (.logged .debug
            s!"{Override.title} configured: {s.override.link.name} {original} -> {desired}"),
          { s.override with phase := .configured ⟨s.override.link.name, original, desired⟩ }⟩) := by
  rw [configure_of_valid hfree hr, ha]

end Valid

end Free

/-- Digits may be drawn without anything happening to the override. -/
theorem advances_drawn (s : Session) (text : String) :
    Advances T s [] ⟨s.machine.drawnFor text, s.override⟩ where
  host_eq := s.machine.drawnFor_host text
  trace_eq := by rw [Machine.drawnFor_trace, List.append_nil]
  change := .idle s.override.settings (by simp)

/-- **Beginning a cycle.** If that fails nothing is changed, and in no case is a command run. -/
theorem configure_cases (s : Session) :
    ∃ es s', Advances T s es s' ∧ (∀ e ∈ es, e.IsQuiet) ∧
      ((∃ e, Override.configure s = (.error e, s') ∧ s'.override = s.override) ∨
        ∃ c, Override.configure s = (.ok c, s') ∧
          s'.override = { s.override with phase := .configured c }) := by
  cases hfree : s.override.obstacle? with
  | some e =>
    have hstay : Advances T s [] s :=
      ⟨rfl, (List.append_nil _).symm, .idle s.override.settings (by simp)⟩
    exact ⟨[], s, hstay, by simp, .inl ⟨e, configure_of_obstacle hfree, rfl⟩⟩
  | none =>
    have hdrawn := advances_drawn (T := T) s s.override.settings.address
    cases hr : Address.read (s.machine.digitsOf s.override.settings.address)
        s.override.settings.address with
    | error fault => exact ⟨[], _, hdrawn, by simp, .inl ⟨_, configure_of_invalid hfree hr, rfl⟩⟩
    | ok desired =>
      cases ha : s.override.link.address with
      | none => exact ⟨[], _, hdrawn, by simp, .inl ⟨_, configure_of_unknown hfree hr ha, rfl⟩⟩
      | some original =>
        have hconfigure := configure_of_known hfree hr ha
        obtain ⟨hcycle, hnamed, hsame⟩ := Override.of_obstacle?_eq_none hfree
        rw [hsame] at hnamed
        refine ⟨[.logged .debug
            s!"{Override.title} configured: {s.override.link.name} {original} -> {desired}"],
          _, ⟨?_, ?_, ?_⟩, ?_, .inr ⟨_, hconfigure, rfl⟩⟩
        · rw [Machine.host_record, Machine.drawnFor_host]
        · rw [Machine.trace_record, Machine.drawnFor_trace]
        · exact .configured hcycle hnamed ha ⟨_, hr⟩
        · intro e he
          rw [List.mem_singleton.1 he]
          exact Event.isQuiet_logged (by simp) _

theorem configure_moves (s : Session) : Moves T s (Override.configure s).2 := by
  obtain ⟨es, s', hadv, -, h⟩ := configure_cases (T := T) s
  rcases h with ⟨e, h, -⟩ | ⟨c, h, -⟩
  · rw [h]; exact hadv.moves
  · rw [h]; exact hadv.moves

theorem readyCycle_of_unconfigured {s : Session} {last : Option String}
    (h : s.override.phase = .unconfigured last) :
    Override.readyCycle s = Override.configure s := by
  rw [Override.readyCycle, bind_ok (Override.current_apply s), h]

theorem readyCycle_of_configured {s : Session} {c : Cycle} (h : s.override.phase = .configured c) :
    Override.readyCycle s = (.ok c, s) := by
  rw [Override.readyCycle, bind_ok (Override.current_apply s), h]
  rfl

theorem readyCycle_of_running {s : Session} {c : Cycle} (h : s.override.phase = .running c) :
    Override.readyCycle s = (.error .alreadyConfigured, s) := by
  rw [Override.readyCycle, bind_ok (Override.current_apply s), h]
  rfl

/-- Without a cycle to be started one has to begin. -/
theorem readyCycle_of_free {s : Session} (h : s.override.phase.cycle? = none) :
    Override.readyCycle s = Override.configure s := by
  cases hp : s.override.phase with
  | unconfigured last => exact readyCycle_of_unconfigured hp
  | configured c =>
    rw [hp] at h
    exact absurd h (by simp [Phase.cycle?])
  | running c =>
    rw [hp] at h
    exact absurd h (by simp [Phase.cycle?])

/-- The cycle that is to be started has begun, now or before. -/
theorem readyCycle_cases (s : Session) :
    ∃ es s', Advances T s es s' ∧ (∀ e ∈ es, e.IsQuiet) ∧
      ((∃ e, Override.readyCycle s = (.error e, s') ∧ s'.override = s.override) ∨
        ∃ c, Override.readyCycle s = (.ok c, s') ∧ s.override.phase.isRunning = false ∧
          s'.override = { s.override with phase := .configured c }) := by
  have hstay : Advances T s [] s :=
    ⟨rfl, (List.append_nil _).symm, .idle s.override.settings (by simp)⟩
  cases hp : s.override.phase with
  | unconfigured last =>
    obtain ⟨es, s', hadv, hquiet, h⟩ := configure_cases (T := T) s
    rw [readyCycle_of_unconfigured hp]
    rcases h with h | ⟨c, h, hover⟩
    · exact ⟨es, s', hadv, hquiet, .inl h⟩
    · exact ⟨es, s', hadv, hquiet, .inr ⟨c, h, rfl, hover⟩⟩
  | configured c =>
    have hready := readyCycle_of_configured hp
    exact ⟨[], s, hstay, by simp, .inr ⟨c, hready, rfl, by rw [← hp]⟩⟩
  | running c => exact ⟨[], s, hstay, by simp, .inl ⟨_, readyCycle_of_running hp, rfl⟩⟩

/-- What is ready for a start is a cycle that has begun. -/
theorem readyCycle_ok {s t : Session} {c : Cycle} (h : Override.readyCycle s = (.ok c, t)) :
    t.override = { s.override with phase := .configured c } := by
  obtain ⟨-, t', -, -, ⟨e, herror, -⟩ | ⟨d, hok, -, hover⟩⟩ :=
    readyCycle_cases (T := fun _ _ => True) s
  · exact absurd (herror.symm.trans h) (by simp)
  · obtain ⟨hd, rfl⟩ := Prod.mk.inj (hok.symm.trans h)
    rw [← Except.ok.inj hd]
    exact hover

/-! ## Starting and stopping -/

/-- **Starting.** A start that fails has written nothing, and what was not running is not now. -/
theorem start_cases (s : Session) :
    ∃ es s', s'.machine.trace = s.machine.trace ++ es ∧ Moves T s s' ∧
      ((∃ e, Override.start s = (.error e, s') ∧ (∀ ev ∈ es, ev.written? = none) ∧
          s'.override.phase.isRunning = s.override.phase.isRunning) ∨
        ∃ c, Override.start s = (.ok (), s') ∧ s'.override.phase = .running c) := by
  obtain ⟨es, s₁, hadv, hquiet, h⟩ := readyCycle_cases (T := T) s
  rcases h with ⟨e, hready, hsame⟩ | ⟨c, hready, hidle, hover⟩
  · refine ⟨es, s₁, hadv.trace_eq, hadv.moves, .inl ⟨e, ?_, ?_, by rw [hsame]⟩⟩
    · rw [start_eq, bind_error hready]
    · exact fun ev hev => (hquiet ev hev).written?_eq
  · have hc : Act.starting.Ready s₁.override.phase c := by rw [hover]; rfl
    obtain ⟨es', s₂, hadv', h'⟩ := Act.starting.perform_cases (T := T) hc
    have hmoves : Moves T s s₂ := hadv.moves.trans hadv'.moves
    have htrace : s₂.machine.trace = s.machine.trace ++ (es ++ es') := by
      rw [hadv'.trace_eq, hadv.trace_eq, List.append_assoc]
    refine ⟨es ++ es', s₂, htrace, hmoves, ?_⟩
    rw [start_eq, bind_ok hready]
    rcases h' with ⟨e, hperform, hsame, hes⟩ | ⟨hperform, hover'⟩
    · refine .inl ⟨e, hperform, fun ev hev => ?_, by rw [hsame, hover, hidle]; rfl⟩
      exact (List.mem_append.1 hev).elim (fun hev => (hquiet ev hev).written?_eq) (hes ev)
    · exact .inr ⟨c, hperform, by rw [hover']; rfl⟩

theorem start_moves (s : Session) : Moves T s (Override.start s).2 := by
  obtain ⟨es, s', -, hmoves, h⟩ := start_cases (T := T) s
  rcases h with ⟨e, h, -, -⟩ | ⟨c, h, -⟩
  · rw [h]; exact hmoves
  · rw [h]; exact hmoves

/-- **Stopping.** A stop that fails has changed nothing about the override. -/
theorem stop_cases (s : Session) :
    ∃ es s', Advances T s es s' ∧
      ((∃ e, Override.stop s = (.error e, s') ∧ s'.override = s.override) ∨
        ∃ c, s.override.phase.cycle? = some c ∧ Override.stop s = (.ok (), s') ∧
          s'.override = Act.stopping.done c s.override) := by
  cases hc : s.override.phase.cycle? with
  | none =>
    have hstay : Advances T s [] s :=
      ⟨rfl, (List.append_nil _).symm, .idle s.override.settings (by simp)⟩
    exact ⟨[], s, hstay, .inl ⟨_, stop_eq_of_none hc, rfl⟩⟩
  | some c =>
    obtain ⟨es, s', hadv, h⟩ := Act.stopping.perform_cases (T := T) (show Act.stopping.Ready _ c from hc)
    rw [stop_eq_of_some hc]
    rcases h with ⟨e, h, hsame, -⟩ | ⟨h, hdone⟩
    · exact ⟨es, s', hadv, .inl ⟨e, h, hsame⟩⟩
    · exact ⟨es, s', hadv, .inr ⟨c, rfl, h, hdone⟩⟩

theorem stop_moves (s : Session) : Moves T s (Override.stop s).2 := by
  obtain ⟨es, s', hadv, h⟩ := stop_cases (T := T) s
  rcases h with ⟨e, h, -⟩ | ⟨c, -, h, -⟩
  · rw [h]; exact hadv.moves
  · rw [h]; exact hadv.moves

theorem command_moves (line : String) (s : Session) : Moves T s (Override.command line s).2 := by
  rw [Override.command]
  cases Override.Verb.ofLine? line with
  | none => exact moves_refl s
  | some v =>
    cases v with
    | on => exact start_moves s
    | off => exact stop_moves s

/-! ## Taking an interface in hand -/

theorem attach_of_busy {l : Link} {s : Session} {c : Cycle} (h : s.override.phase.cycle? = some c) :
    Override.attach l s = (.error .alreadyConfigured, s) := by
  rw [Override.attach, bind_ok (Override.current_apply s), h]
  rfl

theorem attach_of_free {l : Link} {s : Session} (h : s.override.phase.cycle? = none) :
    Override.attach l s =
      (.ok (), ⟨s.machine.record (.held l.name l.address), { s.override with link := l }⟩) := by
  rw [Override.attach, bind_ok (Override.current_apply s), h]
  rfl

theorem attach_moves {l : Link} (hT : T [] l) (s : Session) :
    Moves T s (Override.attach l s).2 := by
  cases hc : s.override.phase.cycle? with
  | some c => rw [attach_of_busy hc]; exact moves_refl s
  | none =>
    rw [attach_of_free hc]
    have hchange : Change T s.machine.host s.override [.held l.name l.address]
        { s.override with link := l } := .took l hc (by simp) hT
    have hadv : Advances T s [.held l.name l.address]
        ⟨s.machine.record (.held l.name l.address), { s.override with link := l }⟩ :=
      ⟨rfl, rfl, hchange⟩
    exact hadv.moves

/-! ## Settings and the machine -/

/-- What is done on the machine alone is nothing to the override. -/
theorem onMachine_moves {α : Type} {x : Step Machine α} (hx : Adds Event.IsQuiet x) :
    Respects (Moves T) (onMachine x) := by
  intro s
  obtain ⟨hhost, es, htrace, hes⟩ := hx s.machine
  exact ⟨hhost, es, htrace, (Change.idle s.override.settings hes).course⟩

theorem modifySettings_moves (f : Override → Settings) :
    Respects (Moves T) (Override.modify fun o => { o with settings := f o }) := by
  intro s
  refine ⟨rfl, [], (List.append_nil _).symm, ?_⟩
  exact (Change.idle (f s.override) (by simp)).course

end LinkOverride
