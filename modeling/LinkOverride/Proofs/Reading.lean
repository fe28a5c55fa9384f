import LinkOverride.Proofs.Digits
import LinkOverride.Proofs.Ending

/-!
# What is read of an interface

The address of an interface is told by the text that the system keeps for it, or else by a word that
`ifconfig` prints. A faithful reading gives the canonical form of the address that this text writes,
and draws no digit; or it fails, and says that the address cannot be had.

Three things keep a reading from being faithful, and nothing else does, whatever runs the command.
What is kept may be no text at all. The command may end in a way that its runner does not report. And
the text may be the one that asks for a random address, which is then drawn and given out as the
interface's own.
-/

namespace LinkOverride.Link

open Step

/-! ## Where an address comes from -/

/-- **The text that tells the address**: the one that is kept, or else the one that is printed. -/
inductive Tells (name : String) (m : Machine) (raw : String) : Prop
  | kept {b : ByteArray} {s : String} (kept : kept? name m = some (.bytes b))
      (text : String.fromUTF8? b = some s)
      (raw_eq : raw = Text.strip (String.ofList (Text.unifyLineEnds s.toList)))
  | printed {out err : Option String} (notKept : ∀ b, kept? name m ≠ some (.bytes b))
      (finished : Runner.nextOutcome m = .finished 0 out err)
      (found : inOutput? (out.getD "") = some raw)

/-- **What keeps a reading from being faithful.** -/
inductive Misread (name : String) (r : Runner) (m : Machine) : Prop
  | undecodable {b : ByteArray} (kept : kept? name m = some (.bytes b))
      (noText : String.fromUTF8? b = none)
  | aborted (notKept : ∀ b, kept? name m ≠ some (.bytes b))
      (aborts : r.Aborts (Runner.nextOutcome m))
  | drawn {raw : String} (told : Tells name m raw) (random : Text.strip raw = Address.randomWord)

/-- **A faithful reading** gives what is told, without drawing a digit, or fails as it should. -/
def Faithful (name : String) (r : Runner) (m : Machine) : Prop :=
  (∃ raw ds, Tells name m raw ∧ Address.Written (Text.strip raw).toList ds ∧
      (readAddress name r m).1 = .ok (String.ofList (Address.ofDigits ds)) ∧
      (readAddress name r m).2.drawn = m.drawn) ∨
    ∃ cause, (readAddress name r m).1 = .error (.misconfigured cause)

variable {name raw : String} {r : Runner} {m : Machine}

/-! ## Looking for the text -/

/-- What the end of the command makes of the reading. -/
theorem fromCommand_result (name : String) (r : Runner) (m : Machine) :
    (fromCommand name r m).1 =
      match r.answer (r.fullCommand m.host.user [program, name]) (Runner.nextOutcome m) with
      | .ok done =>
        if done.status ≠ 0 then
          .error (.misconfigured (.addressUnread name (.refused (done.err.getD ""))))
        else .ok (inOutput? (done.out.getD ""))
      | .error (.commandFailed fault) => .error (.misconfigured (.addressUnread name (.notRun fault)))
      | .error e => .error e := by
  have hrun : (r.run [program, name]).attempt m =
      (.ok (r.answer (r.fullCommand m.host.user [program, name]) (Runner.nextOutcome m)),
        r.after (r.fullCommand m.host.user [program, name]) m) := by
    rw [attempt_apply, Runner.run_apply]
  rw [fromCommand, bind_ok hrun]
  rcases r.answer (r.fullCommand m.host.user [program, name]) (Runner.nextOutcome m) with e | done
  · cases e <;> rfl
  · dsimp only
    split
    · rfl
    · rfl

/-- Without a text that is kept, what is read is what the command gives. -/
theorem addressText?_of_notKept (h : ∀ b, kept? name m ≠ some (.bytes b)) :
    ∃ m', Runner.nextOutcome m' = Runner.nextOutcome m ∧
      (addressText? name r m).1 = (fromCommand name r m').1 := by
  obtain ⟨m', hown, houtcome⟩ := ownText_of_notKept h
  exact ⟨m', houtcome, by rw [addressText?, bind_ok hown]⟩

theorem addressText?_of_tells (h : Tells name m raw) :
    (addressText? name r m).1 = .ok (some raw) := by
  cases h with
  | kept kept text raw_eq =>
    rw [addressText?, bind_ok (ownText_of_text kept text), raw_eq]
    rfl
  | printed notKept finished found =>
    obtain ⟨m', houtcome, hcommand⟩ := addressText?_of_notKept (r := r) notKept
    rw [hcommand, fromCommand_result, houtcome, finished]
    exact congrArg Except.ok found

theorem addressText?_of_undecodable {b : ByteArray} (h : kept? name m = some (.bytes b))
    (hb : String.fromUTF8? b = none) : (addressText? name r m).1 = .error .undecodable := by
  rw [addressText?, bind_error (ownText_of_noText h hb)]

/-- A command that its runner does not report is not reported here either. -/
theorem addressText?_of_aborted (h : ∀ b, kept? name m ≠ some (.bytes b))
    (haborts : r.Aborts (Runner.nextOutcome m)) :
    ∃ e, (addressText? name r m).1 = .error e ∧ ∀ cause, e ≠ .misconfigured cause := by
  obtain ⟨m', houtcome, hcommand⟩ := addressText?_of_notKept (r := r) h
  rw [hcommand, fromCommand_result, houtcome]
  rcases haborts with hend | ⟨hend, hlimit⟩
  · rw [hend]
    exact ⟨_, rfl, by simp⟩
  · rw [hend, Runner.answer_timedOut_of_no_text hlimit]
    exact ⟨_, rfl, by simp⟩

/-- **Where nothing is told and nothing breaks off**, there is no text or a failure that says so. -/
theorem addressText?_of_not_tells (hgoes : Runner.nextOutcome m ≠ .interrupted)
    (htells : ∀ raw, ¬Tells name m raw) (hread : ¬Misread name r m) :
    (addressText? name r m).1 = .ok none ∨
      ∃ cause, (addressText? name r m).1 = .error (.misconfigured cause) := by
  have hnone : ∀ b, kept? name m ≠ some (.bytes b) := by
    intro b hb
    cases ht : String.fromUTF8? b with
    | none => exact hread (.undecodable hb ht)
    | some s => exact htells _ (.kept hb ht rfl)
  have haborts : ¬r.Aborts (Runner.nextOutcome m) := fun h => hread (.aborted hnone h)
  obtain ⟨m', houtcome, hcommand⟩ := addressText?_of_notKept (r := r) hnone
  rw [hcommand, fromCommand_result, houtcome]
  cases hend : Runner.nextOutcome m with
  | finished status out err =>
    by_cases hstatus : status = 0
    · subst hstatus
      cases hfound : inOutput? (out.getD "") with
      | none => exact .inl (congrArg Except.ok hfound)
      | some raw => exact absurd (.printed hnone hend hfound) (htells raw)
    · exact .inr ⟨_, if_pos hstatus⟩
  | notFound => exact .inr ⟨_, rfl⟩
  | notPermitted => exact absurd (.inl hend) haborts
  | timedOut =>
    cases hlimit : r.timeout.text? with
    | none => exact absurd (.inr ⟨hend, hlimit⟩) haborts
    | some limit =>
      rw [Runner.answer_timedOut_of_text hlimit]
      exact .inr ⟨_, rfl⟩
  | interrupted => exact absurd hend hgoes

/-! ## Reading it -/

theorem readAddress_of_error {e : Failure} (h : (addressText? name r m).1 = .error e) :
    (readAddress name r m).1 = .error e := by
  have htext : addressText? name r m = (.error e, (addressText? name r m).2) := Prod.ext h rfl
  rw [readAddress, bind_error htext]

theorem readAddress_of_none (h : (addressText? name r m).1 = .ok none) :
    (readAddress name r m).1 = .error (.misconfigured (.addressMissing name)) := by
  have htext : addressText? name r m = (.ok none, (addressText? name r m).2) := Prod.ext h rfl
  rw [readAddress, bind_ok htext]
  rfl

/-- **The text that is told is read as an address** like any other, and no digit is drawn before. -/
theorem readAddress_of_tells (r : Runner) (h : Tells name m raw) :
    ∃ m' : Machine, m'.drawn = m.drawn ∧ readAddress name r m =
      ((Address.read (m'.digitsOf raw) raw).mapError
        fun fault => .misconfigured (.addressUnusable name raw fault), m'.drawnFor raw) := by
  obtain ⟨m', htext⟩ : ∃ m', addressText? name r m = (.ok (some raw), m') :=
    ⟨_, Prod.ext (addressText?_of_tells h) rfl⟩
  have hkept := keepsDrawn_addressText? name r m
  rw [htext] at hkept
  have hattempt : (Machine.readAddress raw).attempt m' =
      (.ok ((Address.read (m'.digitsOf raw) raw).mapError (.invalidAddress raw)),
        m'.drawnFor raw) := by
    rw [attempt_apply, Machine.readAddress_apply]
  refine ⟨m', hkept, ?_⟩
  rw [readAddress, bind_ok htext]
  dsimp only
  rw [bind_ok hattempt]
  cases Address.read (m'.digitsOf raw) raw <;> rfl

theorem not_faithful_of_error {e : Failure} (h : (addressText? name r m).1 = .error e)
    (he : ∀ cause, e ≠ .misconfigured cause) : ¬Faithful name r m := by
  have hread := readAddress_of_error h
  rintro (⟨raw, ds, -, -, hok, -⟩ | ⟨cause, herror⟩)
  · exact absurd (hread.symm.trans hok) (by simp)
  · exact he cause (Except.error.inj (hread.symm.trans herror))

/-- Digits are drawn for the text that asks for them, and given out. -/
theorem not_faithful_of_random (h : Tells name m raw)
    (hrandom : Text.strip raw = Address.randomWord) : ¬Faithful name r m := by
  obtain ⟨m', hkept, hread⟩ := readAddress_of_tells r h
  have hdigits : (m'.digitsOf raw).length = Address.digitCount := by
    rw [Machine.digitsOf, if_pos (Address.asksRandom_iff.2 hrandom), List.length_map,
      List.length_range]
  rw [Address.read_of_random hrandom hdigits] at hread
  rintro (⟨-, ds, -, -, -, hdrawn⟩ | ⟨cause, herror⟩)
  · rw [hread, Machine.drawn_drawnFor_of_random hrandom, hkept] at hdrawn
    exact absurd hdrawn (Nat.ne_of_gt (Nat.lt_add_of_pos_right (by decide)))
  · rw [hread] at herror
    cases herror

theorem faithful_of_tells (h : Tells name m raw) (hrandom : Text.strip raw ≠ Address.randomWord) :
    Faithful name r m := by
  obtain ⟨m', hkept, hread⟩ := readAddress_of_tells r h
  rw [Machine.drawnFor_of_not_random hrandom] at hread
  by_cases hwritten : ∃ ds, Address.Written (Text.strip raw).toList ds
  · obtain ⟨ds, hds⟩ := hwritten
    rw [Address.read_of_written hds] at hread
    exact .inl ⟨raw, ds, h, hds, congrArg Prod.fst hread, by rw [hread, ← hkept]⟩
  · obtain ⟨fault, hfault⟩ := Address.read_of_not_written hrandom hwritten (m'.digitsOf raw)
    rw [hfault] at hread
    exact .inr ⟨_, congrArg Prod.fst hread⟩

/-- **The exact condition.** Unless the command is interrupted, the reading of an address is faithful
if and only if none of the three things happens that keep it from being so: for every interface, every
runner, every end of the command, and whatever is kept and printed. -/
theorem faithful_iff (hgoes : Runner.nextOutcome m ≠ .interrupted) :
    Faithful name r m ↔ ¬Misread name r m := by
  constructor
  · rintro hfaithful (⟨kept, noText⟩ | ⟨notKept, aborts⟩ | ⟨told, random⟩)
    · exact not_faithful_of_error (addressText?_of_undecodable kept noText) (by simp)
        hfaithful
    · obtain ⟨e, htext, he⟩ := addressText?_of_aborted notKept aborts
      exact not_faithful_of_error htext he hfaithful
    · exact not_faithful_of_random told random hfaithful
  · intro hread
    by_cases htells : ∃ raw, Tells name m raw
    · obtain ⟨raw, htold⟩ := htells
      exact faithful_of_tells htold fun hrandom => hread (.drawn htold hrandom)
    · have hnone : ∀ raw, ¬Tells name m raw := fun raw h => htells ⟨raw, h⟩
      rcases addressText?_of_not_tells hgoes hnone hread with htext | ⟨cause, htext⟩
      · exact .inr ⟨_, readAddress_of_none htext⟩
      · exact .inr ⟨cause, readAddress_of_error htext⟩

/-- A machine that keeps no address, and whose next command ends in a certain way. -/
def telling (o : Outcome) : Machine := { Session.permittingOne with outcomes := [o] }

theorem kept?_telling (o : Outcome) : kept? "eth0" (telling o) = none := by
  have hlinux : "linux".toList.isPrefixOf "linux".toList = true := rfl
  exact if_pos hlinux

/-- A word that is printed is read faithfully. -/
theorem faithful_iff_telling :
    let m := telling (.finished 0 (some "eth0 HWaddr 2-0-0-0-0-1") none)
    Runner.nextOutcome m ≠ .interrupted ∧ Faithful "eth0" .unprivileged m := by
  intro m
  have hgoes : Runner.nextOutcome m ≠ .interrupted := by simp [m, telling, Runner.nextOutcome]
  refine ⟨hgoes, (faithful_iff hgoes).2 ?_⟩
  rintro (⟨kept, -⟩ | ⟨-, aborts⟩ | ⟨told, random⟩)
  · exact absurd (kept.symm.trans (kept?_telling _)) (by simp)
  · simp [m, telling, Runner.nextOutcome, Runner.Aborts] at aborts
  · cases told with
    | kept kept _ _ => exact absurd (kept.symm.trans (kept?_telling _)) (by simp)
    | printed _ finished found =>
      obtain ⟨-, rfl, -⟩ := Outcome.finished.inj finished
      have hprinted : inOutput? "eth0 HWaddr 2-0-0-0-0-1" = some "2-0-0-0-0-1" := by decide
      obtain rfl := Option.some.inj (hprinted.symm.trans found)
      exact absurd random (by decide)

/-- **A command that may not be launched** ends the reading with a failure of the system. -/
theorem not_faithful_notPermitted :
    Runner.nextOutcome (telling .notPermitted) ≠ .interrupted ∧
      (readAddress "eth0" .unprivileged (telling .notPermitted)).1 =
        .error (.system (.notPermitted "ifconfig")) ∧
      ¬Faithful "eth0" .unprivileged (telling .notPermitted) := by
  have hread : (readAddress "eth0" .unprivileged (telling .notPermitted)).1 =
      .error (.system (.notPermitted "ifconfig")) := by rfl
  refine ⟨by simp [telling, Runner.nextOutcome], hread, ?_⟩
  rintro (⟨raw, ds, -, -, hok, -⟩ | ⟨cause, herror⟩)
  · exact absurd (hread.symm.trans hok) (by simp)
  · exact absurd (hread.symm.trans herror) (by simp)

end LinkOverride.Link
