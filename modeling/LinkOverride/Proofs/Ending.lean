import LinkOverride.Proofs.Escape

/-!
# How a session ends

A session that leaves its loop in order does not leave a running override behind, unless the original
address could not be written back. But a line may break the loop off, and then nothing is written
back at all. `stranded_iff` says exactly when this happens.

The argument follows the lines that are carried out one after the other. No failing line changes
whether the override is running, so what is running at the end was running before the last line.
-/

namespace LinkOverride

theorem Phase.exists_of_isRunning {p : Phase} (h : p.isRunning = true) : ∃ c, p = .running c := by
  cases p with
  | running c => exact ⟨c, rfl⟩
  | unconfigured last => exact absurd h (by simp [Phase.isRunning])
  | configured c => exact absurd h (by simp [Phase.isRunning])

namespace Session

open Override (onMachine)
open Step

/-! ## The phase under a failing line -/

def KeepsPhase (s s' : Session) : Prop := s'.override.phase = s.override.phase

instance : IsPreorder Session KeepsPhase where
  refl _ := rfl
  trans _ _ _ h h' := Eq.trans h' h

theorem keepsPhase_onMachine {α : Type} (x : Step Machine α) :
    Respects KeepsPhase (onMachine x) := fun _ => rfl

theorem keepsPhase_current : Respects KeepsPhase Override.current := fun _ => rfl

theorem keepsPhase_attach (l : Link) : Respects KeepsPhase (Override.attach l) := by
  intro s
  cases hc : s.override.phase.cycle? with
  | some c => rw [attach_of_busy hc]; rfl
  | none => rw [attach_of_free hc]; rfl

theorem keepsPhase_looks : (Law.keeping KeepsPhase).Looks where
  current := keepsPhase_current
  shown _ := keepsPhase_onMachine _

/-- Only a command of the override itself changes its phase. -/
theorem keepsPhase_execute {line : String} (h : Request.ofLine line ≠ .other) :
    Respects KeepsPhase (execute line) := by
  have hprepare : ∀ name value, Respects KeepsPhase (prepare name value) := fun name value =>
    keepsPhase_looks.prepare name (keepsPhase_onMachine _)
      ((keepsPhase_onMachine _).bind keepsPhase_attach)
  have hset : ∀ name value, Respects KeepsPhase (setParameter name value) := fun name value =>
    keepsPhase_looks.setParameter (hprepare name value) fun _ _ => rfl
  exact keepsPhase_looks.execute (fun name value _ => hset name value) fun hr => absurd hr h

theorem isRunning_of_command_error {line : String} {s s' : Session} {e : Failure}
    (h : Override.command line s = (.error e, s')) :
    s'.override.phase.isRunning = s.override.phase.isRunning := by
  rw [Override.command] at h
  cases hv : Override.Verb.ofLine? line with
  | none =>
    rw [hv] at h
    obtain ⟨-, rfl⟩ := Prod.mk.inj h
    rfl
  | some v =>
    rw [hv] at h
    cases v with
    | on =>
      obtain ⟨-, t, -, -, ⟨e', hstart, -, hsame⟩ | ⟨c, hstart, -⟩⟩ :=
        start_cases (T := Operation.Free) s
      · obtain ⟨-, rfl⟩ := Prod.mk.inj (hstart.symm.trans h)
        exact hsame
      · exact absurd (congrArg Prod.fst (hstart.symm.trans h)) (by simp)
    | off =>
      obtain ⟨-, t, -, ⟨e', hstop, hsame⟩ | ⟨c, -, hstop, -⟩⟩ :=
        stop_cases (T := Operation.Free) s
      · obtain ⟨-, rfl⟩ := Prod.mk.inj (hstop.symm.trans h)
        rw [hsame]
      · exact absurd (congrArg Prod.fst (hstop.symm.trans h)) (by simp)

/-- **A line that fails** changes nothing about whether the override is running. -/
theorem isRunning_of_execute_error {line : String} {s s' : Session} {e : Failure}
    (h : execute line s = (.error e, s')) :
    s'.override.phase.isRunning = s.override.phase.isRunning := by
  by_cases hr : Request.ofLine line = .other
  · rw [execute_of_other hr] at h
    rcases hcommand : Override.command line s with ⟨r, t⟩
    cases r with
    | ok u =>
      rw [bind_ok hcommand] at h
      exact absurd (congrArg Prod.fst h) (by simp)
    | error e' =>
      rw [bind_error hcommand] at h
      obtain ⟨-, rfl⟩ := Prod.mk.inj h
      exact isRunning_of_command_error hcommand
  · have hphase := keepsPhase_execute hr s
    rw [h] at hphase
    exact congrArg Phase.isRunning hphase

/-! ## The loop -/

section Preorder

variable {R : Session → Session → Prop} [IsPreorder Session R]

/-- A failure is reported, or it goes through. -/
theorem respects_report {α : Type} (herror : ∀ text, Respects R (onMachine (Machine.error text)))
    (e : Failure) (text : String) (a : α) :
    Respects R (if e.isReported then do
      onMachine (Machine.error text)
      return a
    else fail e : Step Session α) := by
  split
  · exact (herror text).bind fun _ => respects_pure a
  · exact respects_fail e

/-- What a line keeps, it keeps while its failure is reported. -/
theorem respects_carryOut {line : String} (hexecute : Respects R (execute line))
    (herror : ∀ text, Respects R (onMachine (Machine.error text))) :
    Respects R (carryOut line) := by
  refine hexecute.attempt.bind fun r => ?_
  split
  · exact respects_pure _
  · exact respects_report herror _ _ _

/-- **What each line keeps**, a session keeps up to its end. -/
theorem respects_loop (hconsume : Respects R consume) (hinterrupted : Respects R interrupted)
    (hcarry : ∀ line, Respects R (carryOut line)) (typed : List Typed) :
    Respects R (loop typed) := by
  induction typed with
  | nil => exact hinterrupted
  | cons x rest ih =>
    cases x with
    | endOfInput => exact hconsume.bind fun _ => hinterrupted
    | interrupt => exact hconsume.bind fun _ => hinterrupted
    | line l =>
      refine hconsume.bind fun _ => (hcarry _).attempt.bind fun r => ?_
      split
      · exact ih
      · exact respects_pure _
      · exact hinterrupted
      · exact respects_fail _

/-- What a stop keeps, it keeps as the restore at the end. -/
theorem respects_restore (hstop : Respects R Override.stop)
    (hinfo : Respects R (onMachine (Machine.info "[*] Restoring original address before exit")))
    (herror : ∀ text, Respects R (onMachine (Machine.error text))) : Respects R restore := by
  refine hinfo.bind fun _ => hstop.attempt.bind fun r => ?_
  split
  · exact respects_pure _
  · exact respects_report herror _ _ _

/-- **What a session keeps** is what its loop and the restore keep. -/
theorem respects_run (hloop : ∀ typed, Respects R (loop typed)) (hrestore : Respects R restore) :
    Respects R run := by
  have hcurrent : Respects R (Step.current : Step Session Session) := respects_current
  have hoverride : Respects R Override.current := refl_of R
  refine hcurrent.bind fun s => (hloop _).bind fun ending => hoverride.bind fun o => ?_
  split
  · exact hrestore.bind fun _ => respects_pure _
  · exact respects_pure _

end Preorder

/-- The session once the next line has been taken from the prompt. -/
def consumed (s : Session) : Session :=
  { s with machine := { s.machine with typed := s.machine.typed.tail } }

theorem consume_apply (s : Session) : consume s = (.ok (), s.consumed) := rfl

theorem carryOut_error_iff {line : String} {s s' : Session} {e : Failure} :
    carryOut line s = (.error e, s') ↔
      execute line s = (.error e, s') ∧ e.isReported = false := by
  rcases hx : execute line s with ⟨r, t⟩
  have hattempt : (execute line).attempt s = (.ok r, t) := by rw [attempt_apply, hx]
  rw [carryOut, bind_ok hattempt]
  cases r with
  | ok goesOn =>
    refine iff_of_false ?_ ?_
    · intro h
      exact absurd (congrArg Prod.fst h) (by simp)
    · intro h
      exact absurd (congrArg Prod.fst h.1) (by simp)
  | error e' =>
    by_cases he : e'.isReported = true
    · dsimp only
      rw [if_pos he]
      refine iff_of_false ?_ ?_
      · intro h
        exact absurd (congrArg Prod.fst h) (by simp [bind_apply, onMachine, Machine.error,
          Machine.log, Machine.note])
      · intro h
        obtain ⟨h, he'⟩ := h
        rw [← Except.error.inj (congrArg Prod.fst h), he] at he'
        exact absurd he' (by simp)
    · dsimp only
      rw [if_neg he]
      constructor
      · intro h
        refine ⟨h, ?_⟩
        rw [← Except.error.inj (congrArg Prod.fst h)]
        exact Bool.eq_false_iff.2 he
      · exact fun h => h.1

/-- How the loop goes on when a line has been carried out. -/
def resume (rest : List Typed) : Except Failure Bool → Step Session Ending
  | .ok true => loop rest
  | .ok false => pure .quit
  | .error .interrupted => interrupted
  | .error e => fail e

section Line

variable {l : String} {rest : List Typed} {s t : Session}

theorem loop_line {r : Except Failure Bool} (h : carryOut (Text.strip l) s.consumed = (r, t)) :
    loop (.line l :: rest) s = resume rest r t := by
  have hattempt : (carryOut (Text.strip l)).attempt s.consumed = (.ok r, t) := by
    rw [attempt_apply, h]
  rw [loop, bind_ok (consume_apply s), bind_ok hattempt]
  rfl

theorem loop_of_goesOn (h : carryOut (Text.strip l) s.consumed = (.ok true, t)) :
    loop (.line l :: rest) s = loop rest t := loop_line h

theorem loop_of_quit (h : carryOut (Text.strip l) s.consumed = (.ok false, t)) :
    loop (.line l :: rest) s = (.ok .quit, t) := loop_line h

theorem loop_of_interrupted (h : carryOut (Text.strip l) s.consumed = (.error .interrupted, t)) :
    loop (.line l :: rest) s = interrupted t := loop_line h

theorem loop_of_error {e : Failure} (h : carryOut (Text.strip l) s.consumed = (.error e, t))
    (he : e ≠ .interrupted) : loop (.line l :: rest) s = (.error e, t) := by
  rw [loop_line h]
  cases e with
  | interrupted => exact absurd rfl he
  | _ => rfl

end Line

theorem interrupted_apply (s : Session) : ∃ s', interrupted s = (.ok .interrupted, s') := ⟨_, rfl⟩

/-- The lines are carried out one after the other, and the session goes on after each. -/
inductive Passes : List Typed → Session → Session → Prop
  | nil (s : Session) : Passes [] s s
  | cons {l : String} {rest : List Typed} {s t u : Session}
      (goesOn : carryOut (Text.strip l) s.consumed = (.ok true, t)) (passes : Passes rest t u) :
      Passes (.line l :: rest) s u

/-- **What each line keeps**, lines one after the other keep. -/
theorem Passes.rel {R : Session → Session → Prop} [IsPreorder Session R]
    (hconsumed : ∀ s, R s s.consumed) (hcarryOut : ∀ line, Respects R (carryOut line))
    {front : List Typed} {s t : Session} (h : Passes front s t) : R s t := by
  induction h with
  | nil s => exact refl_of R s
  | @cons l rest s t u goesOn _ ih =>
    have hline := hcarryOut (Text.strip l) s.consumed
    rw [goesOn] at hline
    exact trans_of R (hconsumed s) (trans_of R hline ih)

theorem passes_nil_iff {s t : Session} : Passes [] s t ↔ t = s := by
  constructor
  · intro h
    cases h
    rfl
  · intro h
    rw [h]
    exact .nil s

theorem passes_cons_iff {x : Typed} {rest : List Typed} {s u : Session} :
    Passes (x :: rest) s u ↔
      ∃ l t, x = .line l ∧ carryOut (Text.strip l) s.consumed = (.ok true, t) ∧
        Passes rest t u := by
  constructor
  · intro h
    cases h with
    | cons goesOn passes => exact ⟨_, _, rfl, goesOn, passes⟩
  · intro h
    obtain ⟨l, t, hx, goesOn, passes⟩ := h
    rw [hx]
    exact .cons goesOn passes

/-- The loop is broken off in the state `s'`, by a line that is not an interruption. -/
def Broken (typed : List Typed) (s s' : Session) (e : Failure) : Prop :=
  ∃ front l back t, typed = front ++ .line l :: back ∧ Passes front s t ∧
    carryOut (Text.strip l) t.consumed = (.error e, s') ∧ e ≠ .interrupted

theorem broken_nil {s s' : Session} {e : Failure} : ¬Broken [] s s' e := by
  intro h
  obtain ⟨front, l, back, t, hsplit, -⟩ := h
  exact absurd hsplit (by simp)

/-- Before the line that breaks the loop off there are only lines. -/
theorem not_broken_of_not_line {x : Typed} {rest : List Typed} {s s' : Session} {e : Failure}
    (hx : ∀ l, x ≠ .line l) : ¬Broken (x :: rest) s s' e := by
  intro h
  obtain ⟨front, l, back, t, hsplit, hpasses, -⟩ := h
  cases front with
  | nil => exact hx l (List.cons.inj hsplit).1
  | cons y front =>
    obtain ⟨l', t', hy, -⟩ := passes_cons_iff.1 hpasses
    exact hx l' ((List.cons.inj hsplit).1.trans hy)

theorem broken_line_iff {l : String} {rest : List Typed} {s s' : Session} {e : Failure} :
    Broken (.line l :: rest) s s' e ↔
      carryOut (Text.strip l) s.consumed = (.error e, s') ∧ e ≠ .interrupted ∨
        ∃ t, carryOut (Text.strip l) s.consumed = (.ok true, t) ∧ Broken rest t s' e := by
  constructor
  · intro h
    obtain ⟨front, l', back, t, hsplit, hpasses, hcarry, he⟩ := h
    cases front with
    | nil =>
      obtain ⟨hl, -⟩ := List.cons.inj hsplit
      rw [passes_nil_iff.1 hpasses, ← Typed.line.inj hl] at hcarry
      exact .inl ⟨hcarry, he⟩
    | cons y front =>
      obtain ⟨hl, hrest⟩ := List.cons.inj hsplit
      obtain ⟨l'', t', hy, hgoesOn, hpasses'⟩ := passes_cons_iff.1 hpasses
      rw [← Typed.line.inj (hl.trans hy)] at hgoesOn
      exact .inr ⟨t', hgoesOn, front, l', back, t, hrest, hpasses', hcarry, he⟩
  · intro h
    rcases h with ⟨hcarry, he⟩ | ⟨t, hgoesOn, hbroken⟩
    · exact ⟨[], l, rest, s, rfl, .nil s, hcarry, he⟩
    · obtain ⟨front, l', back, u, hsplit, hpasses, hcarry, he⟩ := hbroken
      exact ⟨.line l :: front, l', back, u, by rw [hsplit]; rfl, .cons hgoesOn hpasses, hcarry, he⟩

section Line

variable {l : String} {rest : List Typed} {s s' t : Session} {e : Failure}

theorem broken_of_goesOn (h : carryOut (Text.strip l) s.consumed = (.ok true, t)) :
    Broken (.line l :: rest) s s' e ↔ Broken rest t s' e := by
  rw [broken_line_iff, h]
  constructor
  · intro hbroken
    rcases hbroken with ⟨hcarry, -⟩ | ⟨t', hcarry, hrest⟩
    · exact absurd hcarry (by simp)
    · rw [(Prod.mk.inj hcarry).2]
      exact hrest
  · exact fun hrest => .inr ⟨t, rfl, hrest⟩

theorem not_broken_of_quit (h : carryOut (Text.strip l) s.consumed = (.ok false, t)) :
    ¬Broken (.line l :: rest) s s' e := by
  rw [broken_line_iff, h]
  intro hbroken
  rcases hbroken with ⟨hcarry, -⟩ | ⟨t', hcarry, -⟩
  · exact absurd hcarry (by simp)
  · exact absurd hcarry (by simp)

theorem broken_of_error {e' : Failure}
    (h : carryOut (Text.strip l) s.consumed = (.error e', t)) :
    Broken (.line l :: rest) s s' e ↔ e' = e ∧ t = s' ∧ e' ≠ .interrupted := by
  rw [broken_line_iff, h]
  constructor
  · intro hbroken
    rcases hbroken with ⟨hcarry, he⟩ | ⟨t', hcarry, -⟩
    · obtain ⟨hfailure, hstate⟩ := Prod.mk.inj hcarry
      rw [Except.error.inj hfailure]
      exact ⟨rfl, hstate, he⟩
    · exact absurd hcarry (by simp)
  · intro hsame
    obtain ⟨hfailure, hstate, he⟩ := hsame
    rw [← hfailure, ← hstate]
    exact .inl ⟨rfl, he⟩

end Line

/-- **The loop is broken off** by a line, and by nothing else. -/
theorem loop_error_iff {typed : List Typed} {s s' : Session} {e : Failure} :
    loop typed s = (.error e, s') ↔ Broken typed s s' e := by
  have hinterrupted : ∀ t, interrupted t ≠ (.error e, s') := by
    intro t h
    obtain ⟨t', ht⟩ := interrupted_apply t
    exact absurd (ht.symm.trans h) (by simp)
  induction typed generalizing s with
  | nil => exact iff_of_false (hinterrupted s) broken_nil
  | cons x rest ih =>
    cases x with
    | endOfInput =>
      exact iff_of_false (hinterrupted s.consumed) (not_broken_of_not_line (by simp))
    | interrupt =>
      exact iff_of_false (hinterrupted s.consumed) (not_broken_of_not_line (by simp))
    | line l =>
      rcases hcarry : carryOut (Text.strip l) s.consumed with ⟨e' | goesOn, t⟩
      · rw [broken_of_error hcarry]
        by_cases he' : e' = .interrupted
        · rw [he'] at hcarry
          rw [loop_of_interrupted hcarry]
          exact iff_of_false (hinterrupted t) fun h => h.2.2 he'
        · rw [loop_of_error hcarry he', Prod.mk.injEq, Except.error.injEq]
          exact and_congr_right fun _ => (and_iff_left he').symm
      · cases goesOn with
        | true =>
          rw [loop_of_goesOn hcarry, broken_of_goesOn hcarry]
          exact ih
        | false =>
          rw [loop_of_quit hcarry]
          exact iff_of_false (by simp) (not_broken_of_quit hcarry)

/-! ## The end -/

/-- The session as it is when the original address is to be written back. -/
def restoring (s : Session) : Session :=
  ⟨s.machine.record (.logged .info "[*] Restoring original address before exit"), s.override⟩

/-- The loop was left in order while the override was running, and to stop it has failed. -/
def RestoreFailed (s : Session) : Prop :=
  ∃ ending t e t', loop s.machine.typed s = (.ok ending, t) ∧
    t.override.phase.isRunning = true ∧ Override.stop t.restoring = (.error e, t')

theorem Ending.code_ne_one (ending : Ending) : ending.code ≠ 1 := by
  cases ending <;> simp [Ending.code]

theorem run_of_error {s s' : Session} {e : Failure}
    (h : loop s.machine.typed s = (.error e, s')) : run s = (.error e, s') := by
  rw [run, bind_ok (Step.current_apply s), bind_error h]

theorem run_of_idle {s t : Session} {ending : Ending}
    (h : loop s.machine.typed s = (.ok ending, t)) (hidle : t.override.phase.isRunning = false) :
    run s = (.ok ending.code, t) := by
  rw [run, bind_ok (Step.current_apply s), bind_ok h, bind_ok (Override.current_apply t), if_neg]
  · rfl
  · rw [hidle]
    exact Bool.false_ne_true

theorem run_of_running {s t : Session} {ending : Ending}
    (h : loop s.machine.typed s = (.ok ending, t)) (hr : t.override.phase.isRunning = true) :
    run s = (restore >>= fun failed => pure (if failed then 1 else ending.code)) t := by
  rw [run, bind_ok (Step.current_apply s), bind_ok h, bind_ok (Override.current_apply t), if_pos hr]

theorem restore_apply (t : Session) :
    restore t =
      (match (Override.stop t.restoring).1 with
        | .ok () => pure false
        | .error e =>
          if e.isReported then do
            onMachine (Machine.error s!"[FAIL] Could not restore original address: {e.message}")
            return true
          else fail e : Step Session Bool) (Override.stop t.restoring).2 := by
  have hinfo : onMachine (Machine.info "[*] Restoring original address before exit") t =
      (.ok (), t.restoring) := rfl
  rw [restore, bind_ok hinfo]
  exact bind_ok (attempt_apply _ _) _

/-- **The restore.** It leaves a running override exactly if it yields a one or a failure. -/
theorem restored_cases {s t : Session} {ending : Ending}
    (h : loop s.machine.typed s = (.ok ending, t)) (hr : t.override.phase.isRunning = true) :
    (∃ s', run s = (.ok ending.code, s') ∧ s'.override.phase.isRunning = false) ∨
      RestoreFailed s ∧ ∃ s', s'.override.phase.isRunning = true ∧
        (run s = (.ok 1, s') ∨ ∃ e, run s = (.error e, s')) := by
  rw [run_of_running h hr]
  obtain ⟨-, t', -, ⟨e, hstop, hsame⟩ | ⟨c, -, hstop, hdone⟩⟩ :=
    stop_cases (T := Operation.Free) t.restoring
  · have hfailed : RestoreFailed s := ⟨ending, t, e, t', h, hr, hstop⟩
    have hrunning : t'.override.phase.isRunning = true := by rw [hsame]; exact hr
    refine .inr ⟨hfailed, ?_⟩
    have hrestore := restore_apply t
    rw [hstop] at hrestore
    by_cases he : e.isReported = true
    · dsimp only at hrestore
      rw [if_pos he] at hrestore
      refine ⟨⟨t'.machine.record (.logged .error
        s!"[FAIL] Could not restore original address: {e.message}"), t'.override⟩, hrunning, ?_⟩
      exact .inl (bind_ok hrestore _)
    · dsimp only at hrestore
      rw [if_neg he] at hrestore
      exact ⟨t', hrunning, .inr ⟨e, bind_error hrestore _⟩⟩
  · have hrestore := restore_apply t
    rw [hstop] at hrestore
    refine .inl ⟨t', bind_ok hrestore _, ?_⟩
    rw [hdone]
    rfl

/-- **The exact condition.** A session leaves a running override behind without having tried to stop
it after the loop if and only if one of its lines breaks it off while the override is running. -/
theorem stranded_iff (s : Session) :
    ((run s).2.override.phase.isRunning = true ∧ ¬RestoreFailed s) ↔
      ∃ front l back t, s.machine.typed = front ++ .line l :: back ∧ Passes front s t ∧
        t.override.phase.isRunning = true ∧ Strands (Text.strip l) t.consumed := by
  constructor
  · intro h
    obtain ⟨hrunning, hfailed⟩ := h
    rcases hloop : loop s.machine.typed s with ⟨e | ending, t⟩
    · obtain ⟨front, l, back, u, hsplit, hpasses, hcarry, he⟩ := loop_error_iff.1 hloop
      obtain ⟨hexecute, hreported⟩ := carryOut_error_iff.1 hcarry
      rw [run_of_error hloop] at hrunning
      have hbefore : u.consumed.override.phase.isRunning = true := by
        rw [← isRunning_of_execute_error hexecute]
        exact hrunning
      obtain ⟨c, hc⟩ := Phase.exists_of_isRunning hbefore
      exact ⟨front, l, back, u, hsplit, hpasses, hbefore,
        (breaksOff_execute hc).1 ⟨e, t, hexecute, hreported, he⟩⟩
    · cases hr : t.override.phase.isRunning with
      | false =>
        rw [run_of_idle hloop hr] at hrunning
        exact absurd (hr.symm.trans hrunning) (by simp)
      | true =>
        rcases restored_cases hloop hr with ⟨s', hrun, hidle⟩ | ⟨hrestore, -⟩
        · rw [hrun] at hrunning
          exact absurd (hidle.symm.trans hrunning) (by simp)
        · exact absurd hrestore hfailed
  · intro h
    obtain ⟨front, l, back, t, hsplit, hpasses, hrunning, hstrands⟩ := h
    obtain ⟨c, hc⟩ := Phase.exists_of_isRunning hrunning
    obtain ⟨e, s', hexecute, hreported, he⟩ :=
      (breaksOff_execute (show t.consumed.override.phase = .running c from hc)).2 hstrands
    have hcarry := carryOut_error_iff.2 ⟨hexecute, hreported⟩
    have hloop : loop s.machine.typed s = (.error e, s') :=
      loop_error_iff.2 ⟨front, l, back, t, hsplit, hpasses, hcarry, he⟩
    constructor
    · rw [run_of_error hloop]
      exact (isRunning_of_execute_error hexecute).trans hrunning
    · intro h
      obtain ⟨ending, u, e', u', hok, -⟩ := h
      exact absurd (hloop.symm.trans hok) (by simp)

/-- A host without an environment, whose user is no superuser. -/
def plainHost (platform : String) : Host :=
  ⟨[], Path.ofString "/root", Path.ofString "/", platform, some 1000, fun _ => ⟨0, by decide⟩, ""⟩

/-- A machine that runs one command and permits no other. -/
def permittingOne : Machine where
  host := plainHost "linux"
  files := []
  drawn := 0
  outcomes := [.finished 0 none none, .notPermitted]
  typed := [.line "set mac.changer.iface eth1", .line "quit"]
  trace := []

/-- An override that has been started there, before the prompt is looked at. -/
def startedOnce : Session :=
  (Override.start ⟨permittingOne, .fresh ⟨"eth0", some "aa:bb:cc:dd:ee:ff"⟩
    { Settings.initial with iface := "eth0", address := "02:11:22:33:44:55" }
    ⟨none, ⟨true, .null⟩⟩⟩).2

/-- To name another interface breaks the session off, and the original address is not restored. -/
theorem startedOnce_stranded :
    (run startedOnce).2.override.phase.isRunning = true ∧ ¬RestoreFailed startedOnce := by
  refine ⟨rfl, ?_⟩
  intro h
  obtain ⟨ending, t, e, t', hloop, -⟩ := h
  have hbroken : (loop startedOnce.machine.typed startedOnce).1 =
      .error (.system (.notPermitted "ifconfig")) := rfl
  rw [hloop] at hbroken
  exact absurd hbroken (by simp)

end Session

end LinkOverride
