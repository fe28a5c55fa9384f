import LinkOverride.Proofs.Trace

/-!
# Commands

What running a command does, in one equation: it leaves a message and the call itself in the trace,
uses up one outcome, and yields the runner's answer to that outcome. A write is a command too, once
the platform is known; without a platform nothing is run at all.

The answers decide what counts as a failure. A write succeeds exactly if its command finishes with
the status zero.
-/

namespace LinkOverride

namespace Runner

/-- What comes of a command that ends in a certain way. -/
def answer (r : Runner) (full : List String) : Outcome → Except Failure Finished
  | .finished status out err => .ok ⟨status, out, err⟩
  | .notFound =>
    .error (.commandFailed ⟨full, none, (SystemFault.notFound (full.headD "")).message⟩)
  | .notPermitted => .error (.system (.notPermitted (full.headD "")))
  | .timedOut =>
    match r.timeout.text with
    | .ok limit => .error (.commandFailed ⟨full, none, s!"timed out after {limit} seconds"⟩)
    | .error e => .error e
  | .interrupted => .error .interrupted

theorem answer_timedOut_of_text {r : Runner} {limit : String} (h : r.timeout.text? = some limit)
    (full : List String) :
    r.answer full .timedOut =
      .error (.commandFailed ⟨full, none, s!"timed out after {limit} seconds"⟩) := by
  rw [answer, Value.text_of_text?_eq_some h]

theorem answer_timedOut_of_no_text {r : Runner} (h : r.timeout.text? = none) (full : List String) :
    r.answer full .timedOut = .error (.badValue .tooLongToWrite) := by
  rw [answer, Value.text_of_text?_eq_none h]

/-- The call that a command makes of a machine. -/
def callOn (r : Runner) (full : List String) (m : Machine) : Call :=
  ⟨full, r.timeout, nextOutcome m⟩

/-- The machine after a command. -/
def after (r : Runner) (full : List String) (m : Machine) : Machine :=
  { m with
    outcomes := m.outcomes.tail
    trace := m.trace ++
      [.logged .debug s!"Running: {Text.unwords full}", .called (r.callOn full m)] }

/-- **Running a command.** The outcome decides what is yielded, and nothing else does. -/
theorem run_apply (r : Runner) (command : List String) (m : Machine) :
    r.run command m =
      (r.answer (r.fullCommand m.host.user command) (nextOutcome m),
        r.after (r.fullCommand m.host.user command) m) := by
  have htrace : ∀ (t : List Event) (a b : Event), (t ++ [a]) ++ [b] = t ++ [a, b] := by simp
  have hcall : ∀ full : List String,
      r.call full (m.record (.logged .debug s!"Running: {Text.unwords full}")) =
        (.ok (nextOutcome m), r.after full m) := by
    intro full
    rw [call, after, callOn, ← htrace]
    rfl
  rw [run, Step.bind_ok (Step.current_apply m), Machine.debug,
    Step.bind_ok (Machine.log_apply _ _ m), Step.bind_ok (hcall _)]
  cases nextOutcome m with
  | timedOut =>
    rw [answer]
    cases ht : r.timeout.text with
    | ok limit => exact Step.bind_ok (by rw [Step.ofExcept_apply]) _
    | error e => exact Step.bind_error (by rw [Step.ofExcept_apply]) _
  | _ => rfl

@[simp] theorem after_host (r : Runner) (full : List String) (m : Machine) :
    (r.after full m).host = m.host := rfl

@[simp] theorem after_trace (r : Runner) (full : List String) (m : Machine) :
    (r.after full m).trace = m.trace ++
      [.logged .debug s!"Running: {Text.unwords full}", .called (r.callOn full m)] := rfl

end Runner

namespace Writer

def platformOn (w : Writer) (h : Host) : Option Platform :=
  Platform.detect? (w.platform.getD h.platform)

/-- The words of the command that writes an address on a platform. -/
def fullCommand (w : Writer) (h : Host) (p : Platform) (name address : String) : List String :=
  w.runner.fullCommand h.user (Link.program :: p.arguments name address)

/-- What comes of a write whose command has come to an end. A status other than zero is a failure. -/
def judge (command : List String) : Except Failure Finished → Except Failure Finished
  | .ok done =>
    if done.status ≠ 0 then .error (.commandFailed ⟨command, some done.status, report done⟩)
    else .ok done
  | .error e => .error e

theorem write_apply_of_none {w : Writer} {m : Machine} (h : w.platformOn m.host = none)
    (name address : String) :
    w.write name address m =
      (.error (.unsupportedPlatform (w.platform.getD m.host.platform)), m) := by
  have hplatform : w.platformOf m =
      (.error (.unsupportedPlatform (w.platform.getD m.host.platform)), m) := by
    rw [platformOf, Step.bind_ok (Step.current_apply m), resolve, ← platformOn, h]
    rfl
  have hcommand : w.command name address m =
      (.error (.unsupportedPlatform (w.platform.getD m.host.platform)), m) :=
    Step.bind_error hplatform _
  rw [write, Step.bind_error hcommand]

/-- **Writing an address**, on a platform that is known. -/
theorem write_apply_of_some {w : Writer} {m : Machine} {p : Platform}
    (h : w.platformOn m.host = some p) (name address : String) :
    w.write name address m =
      (judge (Link.program :: p.arguments name address)
        (w.runner.answer (w.fullCommand m.host p name address) (Runner.nextOutcome m)),
        w.runner.after (w.fullCommand m.host p name address) m) := by
  have hplatform : w.platformOf m = (.ok p, m) := by
    rw [platformOf, Step.bind_ok (Step.current_apply m), resolve, ← platformOn, h]
    rfl
  have hcommand : w.command name address m = (.ok (Link.program :: p.arguments name address), m) :=
    Step.bind_ok hplatform _
  rw [write, Step.bind_ok hcommand]
  have hrun := w.runner.run_apply (Link.program :: p.arguments name address) m
  rw [← fullCommand] at hrun
  cases ha : w.runner.answer (w.fullCommand m.host p name address) (Runner.nextOutcome m) with
  | error e =>
    rw [ha] at hrun
    exact Step.bind_error hrun _
  | ok done =>
    rw [ha] at hrun
    rw [Step.bind_ok hrun, judge]
    split
    · rfl
    · rfl

/-- What the writer makes of an outcome, where `own` are the words that it gives to the runner and
`full` those that the runner calls. -/
inductive Judged (r : Runner) (own full : List String) : Outcome → Except Failure Finished → Prop
  | done (out err : Option String) :
    Judged r own full (.finished 0 out err) (.ok ⟨0, out, err⟩)
  | refused {status : Int} (out err : Option String) (h : status ≠ 0) :
    Judged r own full (.finished status out err)
      (.error (.commandFailed ⟨own, some status, report ⟨status, out, err⟩⟩))
  | notFound :
    Judged r own full .notFound
      (.error (.commandFailed ⟨full, none, (SystemFault.notFound (full.headD "")).message⟩))
  | notPermitted :
    Judged r own full .notPermitted (.error (.system (.notPermitted (full.headD ""))))
  | timedOut {limit : String} (h : r.timeout.text? = some limit) :
    Judged r own full .timedOut
      (.error (.commandFailed ⟨full, none, s!"timed out after {limit} seconds"⟩))
  /-- The time limit has no text, so it cannot be told of. -/
  | untold (h : r.timeout.text? = none) :
    Judged r own full .timedOut (.error (.badValue .tooLongToWrite))
  | interrupted : Judged r own full .interrupted (.error .interrupted)

theorem judged (r : Runner) (own full : List String) (o : Outcome) :
    Judged r own full o (judge own (r.answer full o)) := by
  cases o with
  | finished status out err =>
    by_cases hs : status = 0
    · subst hs
      exact .done out err
    · have hjudge : judge own (r.answer full (.finished status out err)) =
          .error (.commandFailed ⟨own, some status, report ⟨status, out, err⟩⟩) := if_pos hs
      rw [hjudge]
      exact .refused out err hs
  | notFound => exact .notFound
  | notPermitted => exact .notPermitted
  | timedOut =>
    cases hlimit : r.timeout.text? with
    | none =>
      rw [Runner.answer_timedOut_of_no_text hlimit]
      exact .untold hlimit
    | some limit =>
      rw [Runner.answer_timedOut_of_text hlimit]
      exact .timedOut hlimit
  | interrupted => exact .interrupted

/-- **What comes of a write**, on a platform that is known. -/
theorem judged_of_write {w : Writer} {m m' : Machine} {p : Platform} {name address : String}
    {x : Except Failure Finished} (hp : w.platformOn m.host = some p)
    (h : w.write name address m = (x, m')) :
    Judged w.runner (Link.program :: p.arguments name address)
        (w.fullCommand m.host p name address) (Runner.nextOutcome m) x ∧
      m' = w.runner.after (w.fullCommand m.host p name address) m := by
  rw [write_apply_of_some hp] at h
  obtain ⟨hx, hm'⟩ := Prod.mk.inj h
  rw [← hx]
  exact ⟨judged _ _ _ _, hm'.symm⟩

/-- A write yields a value exactly if its command finishes with the status zero. -/
theorem judge_answer_isOk (r : Runner) (command full : List String) (o : Outcome) :
    (judge command (r.answer full o)).isOk = o.isSuccess := by
  have h := judged r command full o
  generalize judge command (r.answer full o) = x at h ⊢
  cases h with
  | done => rfl
  | refused out err hs => simp [Outcome.isSuccess, hs, Except.isOk, Except.toBool]
  | _ => rfl

end Writer

end LinkOverride
