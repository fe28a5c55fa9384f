import LinkOverride.Proofs.Reading

/-!
# Failed writes

A command that fails is told of in two places. The runner tells of one that does not come to an end,
in the words that it has called; the writer tells of one that ends with a status other than zero, in
the words that it has given to the runner. The two rows of words differ where the runner puts `sudo`
in front, so what is told of a command that has come to an end is then not what has been called.

How the command ended and what it put out are told alike, whoever tells.
-/

namespace LinkOverride

/-- The status of a command that has come to an end. -/
def Outcome.status? : Outcome → Option Int
  | .finished status _ _ => some status
  | _ => none

/-- What is told agrees with a call in all but the words: how the command ended, and which of the
two things that it put out is repeated. -/
structure CommandFault.AgreesWith (f : CommandFault) (c : Call) : Prop where
  status : f.status = c.outcome.status?
  errors : ∀ {status : Int} {out : Option String} {err : String},
    c.outcome = .finished status out (some err) → err ≠ "" → f.output = err
  output : ∀ {status : Int} {out err : Option String},
    c.outcome = .finished status out err → err.getD "" = "" → f.output = out.getD ""

namespace Writer

theorem report_of_errors (status : Int) (out : Option String) {err : String} (h : err ≠ "") :
    report ⟨status, out, some err⟩ = err := if_neg h

theorem report_of_no_errors (status : Int) (out : Option String) {err : Option String}
    (h : err.getD "" = "") : report ⟨status, out, err⟩ = out.getD "" := by
  cases err with
  | none => rfl
  | some e => exact if_pos h

namespace Judged

variable {r : Runner} {own full : List String} {f : CommandFault}

theorem agreesWith {c : Call} (h : Judged r own full c.outcome (.error (.commandFailed f))) :
    f.AgreesWith c := by
  obtain ⟨command, timeout, o⟩ := c
  cases h with
  | refused out err _ =>
    refine ⟨rfl, ?_, ?_⟩
    · intro status out' err' heq hne
      obtain ⟨-, -, rfl⟩ := Outcome.finished.inj heq
      exact report_of_errors _ _ hne
    · intro status out' err' heq hempty
      obtain ⟨-, rfl, rfl⟩ := Outcome.finished.inj heq
      exact report_of_no_errors _ _ hempty
  | notFound => exact ⟨rfl, nofun, nofun⟩
  | timedOut _ => exact ⟨rfl, nofun, nofun⟩

theorem command_of_unfinished {o : Outcome} (h : Judged r own full o (.error (.commandFailed f)))
    (ho : o.status? = none) : f.command = full := by
  cases h with
  | refused _ _ _ => exact absurd ho (by simp [Outcome.status?])
  | notFound => rfl
  | timedOut _ => rfl

theorem command_of_finished {o : Outcome} (h : Judged r own full o (.error (.commandFailed f)))
    (ho : o.status? ≠ none) : f.command = own := by
  cases h with
  | refused _ _ _ => rfl
  | notFound => exact absurd rfl ho
  | timedOut _ => exact absurd rfl ho

end Judged

/-- The runner changes a command only to put `sudo` in front. -/
theorem fullCommand_eq_self_iff (r : Runner) (user : Option Int) (command : List String) :
    r.fullCommand user command = command ↔ r.needsSudo user = false := by
  rw [Runner.fullCommand]
  cases r.needsSudo user with
  | true => simp
  | false => simp

/-- What is told is what has been called, unless the command has come to an end and has been called
with `sudo`. -/
theorem Judged.command_eq_iff {r : Runner} {user : Option Int} {own : List String} {o : Outcome}
    {f : CommandFault} (h : Judged r own (r.fullCommand user own) o (.error (.commandFailed f))) :
    f.command = r.fullCommand user own ↔ o.status? = none ∨ r.needsSudo user = false := by
  by_cases ho : o.status? = none
  · exact iff_of_true (h.command_of_unfinished ho) (.inl ho)
  · rw [h.command_of_finished ho, eq_comm, fullCommand_eq_self_iff]
    exact ⟨.inr, fun hor => hor.resolve_left ho⟩

variable {w : Writer} {m m' : Machine} {name address : String} {f : CommandFault}

/-- **What a failed write tells.** One command has been called, and this call is what is told of:
its status and what it has put out agree in every case. The words agree if the command has not come
to an end or has been called without `sudo`; otherwise only `sudo` is missing. -/
theorem write_failed (h : w.write name address m = (.error (.commandFailed f), m')) :
    ∃ c : Call,
      m'.trace = m.trace ++
        [.logged .debug s!"Running: {Text.unwords c.command}", .called c] ∧
      f.AgreesWith c ∧
      (f.command = c.command ↔
        c.outcome.status? = none ∨ w.runner.needsSudo m.host.user = false) ∧
      (c.outcome.status? ≠ none → c.command = w.runner.fullCommand m.host.user f.command) := by
  cases hp : w.platformOn m.host with
  | none =>
    rw [write_apply_of_none hp] at h
    exact absurd (congrArg Prod.fst h) (by simp)
  | some p =>
    obtain ⟨hjudged, rfl⟩ := judged_of_write hp h
    refine ⟨w.runner.callOn (w.fullCommand m.host p name address) m, rfl, ?_, ?_, ?_⟩
    · exact Judged.agreesWith hjudged
    · exact hjudged.command_eq_iff
    · intro hfinished
      rw [hjudged.command_of_finished hfinished]
      rfl

/-- A writer that asks for `sudo`, where the user is no superuser. -/
def asking : Writer := ⟨none, ⟨true, .null⟩⟩

theorem write_failed_notFound :
    ∃ f m', asking.write "eth0" "02:11:22:33:44:55" (Link.telling .notFound) =
        (.error (.commandFailed f), m') ∧
      ∃ c : Call, m'.trace = [.logged .debug s!"Running: {Text.unwords c.command}", .called c] ∧
        f.status = none ∧ f.command = c.command := by
  have h : asking.write "eth0" "02:11:22:33:44:55" (Link.telling .notFound) =
      (.error (.commandFailed ⟨_, none, _⟩), _) := rfl
  obtain ⟨c, htrace, hagrees, hcommand, -⟩ := write_failed h
  have hunfinished : c.outcome.status? = none := hagrees.status.symm
  exact ⟨_, _, h, c, htrace, rfl, hcommand.2 (.inl hunfinished)⟩

/-- **A command that ends with a failure** is not told of in the words that have been called. -/
theorem write_failed_without_sudo :
    ∃ f m' c, asking.write "eth0" "02:11:22:33:44:55"
        (Link.telling (.finished 1 none (some "SIOCSIFHWADDR: No such device\n"))) =
          (.error (.commandFailed f), m') ∧
      m'.trace = [.logged .debug "Running: sudo ifconfig eth0 hw ether 02:11:22:33:44:55",
        .called c] ∧
      c.command = ["sudo", "ifconfig", "eth0", "hw", "ether", "02:11:22:33:44:55"] ∧
      f.command = ["ifconfig", "eth0", "hw", "ether", "02:11:22:33:44:55"] :=
  ⟨_, _, _, rfl, rfl, rfl, rfl⟩

end Writer

end LinkOverride
