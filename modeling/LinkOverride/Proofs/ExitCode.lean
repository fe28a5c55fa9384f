import LinkOverride.Proofs.Ending
import LinkOverride.Proofs.Standing

/-!
# What an exit code tells

A session that yields a code has left its loop in order: by a line that quits, by an interruption at
the prompt or inside a line, or at the end of the input. `Closes` lists these endings, and says what
each takes from the prompt. Before the ending there are only lines, each carried out with its failure
reported by one error.

The code tells of the ending, unless the override is still running. Then it is one, and nothing about
the override has changed since the loop was left.
-/

namespace LinkOverride

namespace Request

theorem ofLine_eq_quit_iff {line : String} :
    ofLine line = .quit ↔ ∃ w ws, Text.words line = w :: ws ∧ Text.lower w ∈ quitWords := by
  rw [ofLine]
  cases Text.words line with
  | nil => exact iff_of_false (by simp) (by simp)
  | cons first rest =>
    dsimp only
    by_cases hquit : quitWords.contains (Text.lower first) = true
    · rw [if_pos hquit]
      exact iff_of_true rfl ⟨first, rest, rfl, List.contains_iff_mem.1 hquit⟩
    · rw [if_neg hquit]
      refine iff_of_false ?_ ?_
      · split
        · simp
        split
        · simp
        · split <;> simp
      · intro h
        obtain ⟨w, ws, hwords, hw⟩ := h
        rw [← (List.cons.inj hwords).1] at hw
        exact hquit (List.contains_iff_mem.2 hw)

end Request

namespace Session

open Override (onMachine)
open Step

variable {s s' t u : Session} {line : String} {e : Failure}

/-! ## Reports -/

/-- The session once a failure has been reported. -/
def reporting (e : Failure) (s : Session) : Session :=
  ⟨s.machine.record (.logged .error s!"[FAIL] {e.message}"), s.override⟩

theorem carryOut_of_ok {goesOn : Bool} (h : execute line s = (.ok goesOn, t)) :
    carryOut line s = (.ok goesOn, t) := by
  have hattempt : (execute line).attempt s = (.ok (.ok goesOn), t) := by rw [attempt_apply, h]
  rw [carryOut, bind_ok hattempt]
  rfl

theorem carryOut_of_reported (h : execute line s = (.error e, t)) (he : e.isReported = true) :
    carryOut line s = (.ok true, t.reporting e) := by
  have hattempt : (execute line).attempt s = (.ok (.error e), t) := by rw [attempt_apply, h]
  rw [carryOut, bind_ok hattempt]
  exact congrFun (if_pos he) t

/-- **A failure that is reported** is reported once, by the only error that its line logs. -/
theorem alarms_of_reported (h : execute line s = (.error e, t)) :
    ∃ es, (t.reporting e).machine.trace = s.machine.trace ++ es ∧
      es.filterMap Event.alarm? = [s!"[FAIL] {e.message}"] := by
  obtain ⟨-, es, htrace, hsilent⟩ := (stands_execute line s).machine.2
  rw [h] at htrace
  refine ⟨es ++ [.logged .error s!"[FAIL] {e.message}"], ?_, ?_⟩
  · show t.machine.trace ++ [_] = _
    rw [htrace, List.append_assoc]
  · rw [List.filterMap_append, List.filterMap_eq_nil_iff.2 hsilent]
    rfl

theorem keepsTyped_carryOut (line : String) : Respects KeepsTyped (carryOut line) :=
  respects_carryOut (fun s => (stands_execute line s).keepsTyped) fun _ _ => rfl

theorem passes_append_iff {front back : List Typed} :
    Passes (front ++ back) s u ↔ ∃ t, Passes front s t ∧ Passes back t u := by
  constructor
  · intro h
    induction front generalizing s with
    | nil => exact ⟨s, .nil s, h⟩
    | cons x front ih =>
      obtain ⟨l, t, hx, hgoesOn, hpasses⟩ := passes_cons_iff.1 h
      obtain ⟨v, hfront, hback⟩ := ih hpasses
      exact ⟨v, passes_cons_iff.2 ⟨l, t, hx, hgoesOn, hfront⟩, hback⟩
  · intro h
    obtain ⟨t, hfront, hback⟩ := h
    induction hfront with
    | nil => exact hback
    | cons goesOn _ ih => exact .cons goesOn (ih hback)

theorem Passes.unique {front : List Typed} (h : Passes front s t) (h' : Passes front s u) :
    t = u := by
  induction h with
  | nil s => exact (passes_nil_iff.1 h').symm
  | cons goesOn _ ih =>
    obtain ⟨l, v, hl, hgoesOn, hpasses⟩ := passes_cons_iff.1 h'
    rw [← Typed.line.inj hl] at hgoesOn
    obtain ⟨-, rfl⟩ := Prod.mk.inj (goesOn.symm.trans hgoesOn)
    exact ih hpasses

/-- A line before the ending that has failed has been reported, and the session has gone on. -/
theorem Passes.carryOut_of_failed {before after : List Typed} {l : String} {v w : Session}
    (h : Passes (before ++ .line l :: after) s u) (hv : Passes before s v)
    (hw : execute (Text.strip l) v.consumed = (.error e, w)) :
    carryOut (Text.strip l) v.consumed = (.ok true, w.reporting e) := by
  obtain ⟨v', hbefore, hrest⟩ := passes_append_iff.1 h
  obtain ⟨l', w', hl, hgoesOn, -⟩ := passes_cons_iff.1 hrest
  rw [← hv.unique hbefore, ← Typed.line.inj hl] at hgoesOn
  cases he : e.isReported with
  | true => exact carryOut_of_reported hw he
  | false =>
    rw [carryOut_error_iff.2 ⟨hw, he⟩] at hgoesOn
    exact absurd hgoesOn (by simp)

/-! ## Endings -/

/-- The session once its interruption has been shown. -/
def parting (s : Session) : Session :=
  ⟨s.machine.record (.shown [.text "\n[yellow][!] Session interrupted[/yellow]"]), s.override⟩

/-- How a loop is left, with what is taken from the prompt and the session that is left. -/
inductive Closes (u : Session) : List Typed → Ending → Session → Prop
  | quit {l w : String} {ws : List String} (words : Text.words (Text.strip l) = w :: ws)
      (quits : Text.lower w ∈ Request.quitWords) : Closes u [.line l] .quit u.consumed
  | inside {l : String} {t : Session}
      (interrupts : execute (Text.strip l) u.consumed = (.error .interrupted, t)) :
      Closes u [.line l] .interrupted t.parting
  | interrupt : Closes u [.interrupt] .interrupted u.consumed.parting
  | endOfInput : Closes u [.endOfInput] .interrupted u.consumed.parting
  | exhausted (nothing : u.machine.typed = []) : Closes u [] .interrupted u.parting

/-- Only a line that asks to quit ends the session, and it does nothing else. -/
theorem quit_of_execute (h : execute line s = (.ok false, t)) :
    Request.ofLine line = .quit ∧ t = s := by
  have hgoesOn : ∀ {x : Step Session Unit},
      (x >>= fun _ => (pure true : Step Session Bool)) s ≠ (.ok false, t) := by
    intro x hx
    obtain ⟨a, v, -, hpure⟩ := bind_eq_ok hx
    exact absurd hpure (by simp)
  unfold execute at h
  cases hr : Request.ofLine line with
  | quit =>
    rw [hr] at h
    exact ⟨rfl, (Prod.mk.inj h).2.symm⟩
  | nothing =>
    rw [hr] at h
    exact absurd h (by simp)
  | _ =>
    rw [hr] at h
    exact absurd h hgoesOn

theorem quit_of_carryOut (h : carryOut line s = (.ok false, t)) :
    execute line s = (.ok false, t) := by
  rcases hx : execute line s with ⟨e | goesOn, v⟩
  · by_cases he : e.isReported = true
    · rw [carryOut_of_reported hx he] at h
      exact absurd h (by simp)
    · rw [carryOut_error_iff.2 ⟨hx, Bool.eq_false_iff.2 he⟩] at h
      exact absurd h (by simp)
  · rw [carryOut_of_ok hx] at h
    exact h

/-- **The end of a loop.** Lines are carried out up to the first ending, which closes the loop. -/
theorem closes_of_loop {typed : List Typed} {ending : Ending} (hs : s.machine.typed = typed)
    (h : loop typed s = (.ok ending, t)) :
    ∃ front closing u, typed = front ++ u.machine.typed ∧
      u.machine.typed = closing ++ t.machine.typed ∧ Passes front s u ∧
      Closes u closing ending t := by
  induction typed generalizing s with
  | nil =>
    obtain ⟨hending, rfl⟩ := Prod.mk.inj h
    rw [← Except.ok.inj hending]
    exact ⟨[], [], s, by rw [hs]; rfl, rfl, .nil s, .exhausted hs⟩
  | cons x rest ih =>
    have hconsumed : s.consumed.machine.typed = rest := by
      show s.machine.typed.tail = rest
      rw [hs]
      rfl
    cases x with
    | endOfInput =>
      obtain ⟨hending, rfl⟩ := Prod.mk.inj h
      rw [← Except.ok.inj hending]
      exact ⟨[], [.endOfInput], s, hs.symm, by rw [hs, ← hconsumed]; rfl, .nil s, .endOfInput⟩
    | interrupt =>
      obtain ⟨hending, rfl⟩ := Prod.mk.inj h
      rw [← Except.ok.inj hending]
      exact ⟨[], [.interrupt], s, hs.symm, by rw [hs, ← hconsumed]; rfl, .nil s, .interrupt⟩
    | line l =>
      have htyped : (carryOut (Text.strip l) s.consumed).2.machine.typed =
          s.consumed.machine.typed := keepsTyped_carryOut (Text.strip l) s.consumed
      rcases hcarry : carryOut (Text.strip l) s.consumed with ⟨e | goesOn, v⟩
      · rw [hcarry, hconsumed] at htyped
        by_cases he : e = .interrupted
        · rw [he] at hcarry
          rw [loop_of_interrupted hcarry] at h
          obtain ⟨hending, rfl⟩ := Prod.mk.inj h
          rw [← Except.ok.inj hending]
          refine ⟨[], [.line l], s, hs.symm, ?_, .nil s,
            .inside (carryOut_error_iff.1 hcarry).1⟩
          rw [hs]
          exact congrArg (Typed.line l :: ·) htyped.symm
        · rw [loop_of_error hcarry he] at h
          exact absurd h (by simp)
      · rw [hcarry, hconsumed] at htyped
        cases goesOn with
        | true =>
          rw [loop_of_goesOn hcarry] at h
          obtain ⟨front, closing, u, hsplit, hclosing, hpasses, hcloses⟩ := ih htyped h
          exact ⟨.line l :: front, closing, u, congrArg (Typed.line l :: ·) hsplit, hclosing,
            .cons hcarry hpasses, hcloses⟩
        | false =>
          rw [loop_of_quit hcarry] at h
          obtain ⟨hending, rfl⟩ := Prod.mk.inj h
          obtain ⟨hquit, rfl⟩ := quit_of_execute (quit_of_carryOut hcarry)
          obtain ⟨w, ws, hwords, hw⟩ := Request.ofLine_eq_quit_iff.1 hquit
          rw [← Except.ok.inj hending]
          refine ⟨[], [.line l], s, hs.symm, ?_, .nil s, .quit hwords hw⟩
          rw [hs]
          exact congrArg (Typed.line l :: ·) hconsumed.symm

/-! ## The restore -/

/-- The session once it has been told that the original address could not be written back. -/
def regretting (e : Failure) (s : Session) : Session :=
  ⟨s.machine.record (.logged .error s!"[FAIL] Could not restore original address: {e.message}"),
    s.override⟩

theorem restore_of_stopped (h : Override.stop t.restoring = (.ok (), u)) :
    restore t = (.ok false, u) := by
  rw [restore_apply, h]
  rfl

theorem restore_of_reported (h : Override.stop t.restoring = (.error e, u))
    (he : e.isReported = true) : restore t = (.ok true, u.regretting e) := by
  rw [restore_apply, h]
  exact congrFun (if_pos he) u

theorem restore_of_escaped (h : Override.stop t.restoring = (.error e, u))
    (he : e.isReported = false) : restore t = (.error e, u) := by
  rw [restore_apply, h]
  exact congrFun (if_neg (by rw [he]; exact Bool.false_ne_true)) u

/-- **The code of a loop that has ended.** It is one if the override is still running, and then the
restore has changed nothing; else it tells of the ending. -/
theorem code_of_run {ending : Ending} {code : Nat} (hloop : loop s.machine.typed s = (.ok ending, t))
    (h : run s = (.ok code, s')) :
    s'.machine.typed = t.machine.typed ∧
      (code = 1 ∧ s'.override.phase.isRunning = true ∧ s'.override = t.override ∨
        code = ending.code ∧ s'.override.phase.isRunning = false) := by
  cases hr : t.override.phase.isRunning with
  | false =>
    rw [run_of_idle hloop hr] at h
    obtain ⟨hcode, rfl⟩ := Prod.mk.inj h
    exact ⟨rfl, .inr ⟨(Except.ok.inj hcode).symm, hr⟩⟩
  | true =>
    rw [run_of_running hloop hr] at h
    have htyped : (Override.stop t.restoring).2.machine.typed = t.machine.typed :=
      (stands_stop t.restoring).keepsTyped
    obtain ⟨-, u, -, ⟨e, hstop, hsame⟩ | ⟨c, -, hstop, hdone⟩⟩ :=
      stop_cases (T := Operation.Free) t.restoring
    · rw [hstop] at htyped
      cases he : e.isReported with
      | false =>
        rw [bind_error (restore_of_escaped hstop he)] at h
        exact absurd h (by simp)
      | true =>
        rw [bind_ok (restore_of_reported hstop he)] at h
        obtain ⟨hcode, rfl⟩ := Prod.mk.inj h
        have hover : (u.regretting e).override = t.override := hsame
        exact ⟨htyped, .inl ⟨(Except.ok.inj hcode).symm, by rw [hover]; exact hr, hover⟩⟩
    · rw [hstop] at htyped
      rw [bind_ok (restore_of_stopped hstop)] at h
      obtain ⟨hcode, rfl⟩ := Prod.mk.inj h
      exact ⟨htyped, .inr ⟨(Except.ok.inj hcode).symm, by rw [hdone]; rfl⟩⟩

/-! ## The code -/

/-- **What an exit code tells.** The code is one exactly if the override is running at the end, and
then the override is as the loop has left it. Else the code is that of the ending. Of the prompt just
the lines before the ending and the ending are taken, and a failure of one of these lines has been
reported once. -/
theorem run_closes {code : Nat} (h : run s = (.ok code, s')) :
    ∃ front closing ending u t,
      s.machine.typed = front ++ closing ++ s'.machine.typed ∧
      Passes front s u ∧ Closes u closing ending t ∧
      (code = 1 ↔ s'.override.phase.isRunning = true) ∧
      (code = 1 → s'.override = t.override) ∧
      (code ≠ 1 → code = ending.code) ∧
      ∀ before l after v e w, front = before ++ .line l :: after → Passes before s v →
        execute (Text.strip l) v.consumed = (.error e, w) →
          carryOut (Text.strip l) v.consumed = (.ok true, w.reporting e) ∧
          ∃ es, (w.reporting e).machine.trace = v.machine.trace ++ es ∧
            es.filterMap Event.alarm? = [s!"[FAIL] {e.message}"] := by
  rcases hloop : loop s.machine.typed s with ⟨e | ending, t⟩
  · rw [run_of_error hloop] at h
    exact absurd h (by simp)
  · obtain ⟨front, closing, u, hsplit, hclosing, hpasses, hcloses⟩ := closes_of_loop rfl hloop
    obtain ⟨htyped, hcode⟩ := code_of_run hloop h
    refine ⟨front, closing, ending, u, t, ?_, hpasses, hcloses, ?_, ?_, ?_, ?_⟩
    · rw [htyped, List.append_assoc, ← hclosing]
      exact hsplit
    · rcases hcode with ⟨hone, hrunning, -⟩ | ⟨hother, hidle⟩
      · exact iff_of_true hone hrunning
      · exact iff_of_false (hother ▸ ending.code_ne_one) (by rw [hidle]; exact Bool.false_ne_true)
    · rcases hcode with ⟨-, -, hsame⟩ | ⟨hother, -⟩
      · exact fun _ => hsame
      · exact fun hone => absurd (hother.symm.trans hone) ending.code_ne_one
    · rcases hcode with ⟨hone, -⟩ | ⟨hother, -⟩
      · exact fun hne => absurd hone hne
      · exact fun _ => hother
    · intro before l after v e w hfront hv hw
      rw [hfront] at hpasses
      obtain ⟨es, htrace, halarms⟩ := alarms_of_reported hw
      exact ⟨hpasses.carryOut_of_failed hv hw, es, htrace, halarms⟩

/-- A session whose user makes a mistake before quitting. -/
def mistaken : Session where
  machine :=
    { host := plainHost "linux"
      files := []
      drawn := 0
      outcomes := []
      typed := [.line "start", .line " QUIT ", .line "status"]
      trace := [] }
  override := .fresh ⟨"eth0", some "aa:bb:cc:dd:ee:ff"⟩ Settings.initial ⟨none, ⟨true, .null⟩⟩

/-- The mistake does not end the session, and what is typed behind the ending is left. -/
theorem run_closes_mistaken :
    ∃ s' front closing ending u t,
      run mistaken = (.ok 0, s') ∧ s'.machine.typed = [.line "status"] ∧
      mistaken.machine.typed = front ++ closing ++ s'.machine.typed ∧
      Passes front mistaken u ∧ Closes u closing ending t := by
  have hcode : (run mistaken).1.toOption = some 0 := by decide +kernel
  have hleft : (run mistaken).2.machine.typed = [.line "status"] := by decide +kernel
  rcases hrun : run mistaken with ⟨e | code, s'⟩
  · rw [hrun] at hcode
    exact absurd hcode (by simp [Except.toOption])
  · rw [hrun] at hcode hleft
    rw [show code = 0 from Option.some.inj hcode] at hrun ⊢
    obtain ⟨front, closing, ending, u, t, hsplit, hpasses, hcloses, -⟩ := run_closes hrun
    exact ⟨s', front, closing, ending, u, t, rfl, hleft, hsplit, hpasses, hcloses⟩

end Session

end LinkOverride
