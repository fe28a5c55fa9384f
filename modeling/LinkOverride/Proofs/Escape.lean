import LinkOverride.Proofs.Line

/-!
# Failures that break a session off

A failure that is reported does not end a session, and an interruption ends it in order. Every other
failure breaks it off. A step breaks off from a state if it fails in this way.

There are few causes: the file that holds an address is no text, `ifconfig` may not be run, or a
time limit that has run out cannot be written. `Link.Unread` and `Runner.Aborts` say so of reading
and of writing, in terms of the machine alone.
-/

namespace LinkOverride

open Override (onMachine)
open Step

/-- The failure ends a session, other than by an interruption. -/
def Failure.Escapes (e : Failure) : Prop := e.isReported = false ∧ e ≠ .interrupted

namespace Step

variable {σ τ α β : Type}

def BreaksOff (x : Step σ α) (s : σ) : Prop := ∃ e s', x s = (.error e, s') ∧ e.Escapes

theorem breaksOff_iff_of_error {x : Step σ α} {s s' : σ} {e : Failure}
    (h : x s = (.error e, s')) : x.BreaksOff s ↔ e.Escapes := by
  constructor
  · intro hx
    obtain ⟨e', t, h', he⟩ := hx
    rw [Except.error.inj (congrArg Prod.fst (h.symm.trans h'))]
    exact he
  · exact fun he => ⟨e, s', h, he⟩

theorem not_breaksOff_of_ok {x : Step σ α} {s s' : σ} {a : α} (h : x s = (.ok a, s')) :
    ¬x.BreaksOff s := by
  intro hx
  obtain ⟨e, t, h', -⟩ := hx
  exact absurd (h.symm.trans h') (by simp)

theorem breaksOff_bind_of_ok {x : Step σ α} {f : α → Step σ β} {s s' : σ} {a : α}
    (h : x s = (.ok a, s')) : (x >>= f).BreaksOff s ↔ (f a).BreaksOff s' := by
  rw [BreaksOff, bind_ok h]
  rfl

/-- **Two steps in a row.** Either of them may break off. -/
theorem breaksOff_bind {x : Step σ α} {f : α → Step σ β} {s : σ} :
    (x >>= f).BreaksOff s ↔
      x.BreaksOff s ∨ ∃ a s', x s = (.ok a, s') ∧ (f a).BreaksOff s' := by
  rcases hx : x s with ⟨e | a, t⟩
  · rw [breaksOff_iff_of_error (bind_error hx f), breaksOff_iff_of_error hx]
    exact (or_iff_left (by simp)).symm
  · rw [breaksOff_bind_of_ok hx, or_iff_right (not_breaksOff_of_ok hx)]
    constructor
    · exact fun h => ⟨a, t, rfl, h⟩
    · intro h
      obtain ⟨a', t', h, hf⟩ := h
      obtain ⟨ha, ht⟩ := Prod.mk.inj h
      rw [Except.ok.inj ha, ht]
      exact hf

/-- A step that breaks off from no state. -/
def Contained (x : Step σ α) : Prop := ∀ s, ¬x.BreaksOff s

theorem contained_pure (a : α) : Contained (pure a : Step σ α) :=
  fun s => not_breaksOff_of_ok (pure_apply a s)

theorem contained_fail {e : Failure} (h : e.isReported = true) :
    Contained (fail e : Step σ α) := by
  intro s hx
  have he := ((breaksOff_iff_of_error (fail_apply e s)).1 hx).1
  exact absurd (h.symm.trans he) (by simp)

theorem contained_modify (f : σ → σ) : Contained (modify f) :=
  fun s => not_breaksOff_of_ok (modify_apply f s)

theorem Contained.bind {x : Step σ α} {f : α → Step σ β} (hx : Contained x)
    (hf : ∀ a, Contained (f a)) : Contained (x >>= f) := by
  intro s h
  rcases breaksOff_bind.1 h with h | ⟨a, t, -, h⟩
  · exact hx s h
  · exact hf a t h

/-- What follows a step makes no difference if it is contained. -/
theorem Contained.breaksOff_bind {x : Step σ α} {f : α → Step σ β} (hf : ∀ a, Contained (f a))
    (s : σ) : (x >>= f).BreaksOff s ↔ x.BreaksOff s := by
  rw [Step.breaksOff_bind]
  refine or_iff_left ?_
  intro h
  obtain ⟨a, t, -, h⟩ := h
  exact hf a t h

end Step

theorem breaksOff_onMachine {α : Type} {x : Step Machine α} {s : Session} :
    (onMachine x).BreaksOff s ↔ x.BreaksOff s.machine := by
  rcases hx : x s.machine with ⟨e | a, m⟩
  · rw [breaksOff_iff_of_error (onMachine_of_eq hx), breaksOff_iff_of_error hx]
  · have h : onMachine x s = (.ok a, ⟨m, s.override⟩) := onMachine_of_eq hx
    exact iff_of_false (not_breaksOff_of_ok h) (not_breaksOff_of_ok hx)

theorem contained_onMachine {α : Type} {x : Step Machine α} (hx : Contained x) :
    Contained (onMachine x) :=
  fun s h => hx s.machine (breaksOff_onMachine.1 h)

theorem contained_current : Contained Override.current :=
  fun s => not_breaksOff_of_ok (Override.current_apply s)

theorem contained_readAddress (text : String) : Contained (Machine.readAddress text) := by
  intro m
  have h := Machine.readAddress_apply text m
  cases hr : Address.read (m.digitsOf text) text with
  | ok a =>
    rw [hr] at h
    exact not_breaksOff_of_ok h
  | error fault =>
    rw [hr] at h
    rw [breaksOff_iff_of_error h]
    exact fun he => absurd he.1 (by simp [Failure.isReported])

/-! ## Reading an interface -/

namespace Link

/-- What the system keeps as the address of an interface, if it keeps such files. -/
def kept? (name : String) (m : Machine) : Option Content :=
  if "linux".toList.isPrefixOf m.host.platform.toList then m.content? (addressFile name) else none

/-- What keeps the address of an interface from being read, without being reported. -/
inductive Unread (name : String) (m : Machine) : Prop
  | undecodable {b : ByteArray} (kept : kept? name m = some (.bytes b))
      (noText : String.fromUTF8? b = none)
  | notPermitted (notKept : ∀ b, kept? name m ≠ some (.bytes b))
      (outcome : Runner.nextOutcome m = .notPermitted)

theorem kept?_eq_some {name : String} {m : Machine} {c : Content} (h : kept? name m = some c) :
    m.content? (addressFile name) = some c ∧ ownText name m = fromFile name m := by
  rw [kept?] at h
  split at h
  · next hlinux => exact ⟨h, by rw [ownText, bind_ok (Step.current_apply m), if_pos hlinux]⟩
  · exact absurd h (by simp)

theorem fromFile_of_exists {name : String} {m : Machine} {c : Content}
    (h : m.content? (addressFile name) = some c) :
    fromFile name m =
      (match (Machine.readText (addressFile name) m).1 with
        | .ok s => return some (Text.strip (String.ofList (Text.unifyLineEnds s.toList)))
        | .error (.system fault) => do
          Machine.debug s!"Could not read {(addressFile name).text}: {fault.message}"
          return none
        | .error e => fail e : Step Machine (Option String)) m := by
  have hexists : m.fileExists (addressFile name) = true := by rw [Machine.fileExists, h]; rfl
  have hread : (Machine.readText (addressFile name)).attempt m =
      (.ok (Machine.readText (addressFile name) m).1, m) := by
    rw [attempt_apply, Machine.readText_state]
  rw [fromFile, bind_ok (Step.current_apply m), if_pos hexists]
  exact bind_ok hread _

theorem ownText_of_noText {name : String} {m : Machine} {b : ByteArray}
    (h : kept? name m = some (.bytes b)) (hb : String.fromUTF8? b = none) :
    ownText name m = (.error .undecodable, m) := by
  obtain ⟨hc, hown⟩ := kept?_eq_some h
  rw [hown, fromFile_of_exists hc, Machine.readText, hc]
  dsimp only
  rw [hb]
  rfl

theorem ownText_of_text {name : String} {m : Machine} {b : ByteArray} {s : String}
    (h : kept? name m = some (.bytes b)) (hb : String.fromUTF8? b = some s) :
    ownText name m = (.ok (some (Text.strip (String.ofList (Text.unifyLineEnds s.toList)))), m) := by
  obtain ⟨hc, hown⟩ := kept?_eq_some h
  rw [hown, fromFile_of_exists hc, Machine.readText, hc]
  dsimp only
  rw [hb]
  rfl

theorem ownText_of_kept?_eq_none {name : String} {m : Machine} (h : kept? name m = none) :
    ownText name m = (.ok none, m) := by
  rw [kept?] at h
  rw [ownText, bind_ok (Step.current_apply m)]
  split at h
  · next hlinux =>
    have hexists : ¬m.fileExists (addressFile name) = true := by
      rw [Machine.fileExists, h]
      exact Bool.false_ne_true
    rw [if_pos hlinux, fromFile, bind_ok (Step.current_apply m), if_neg hexists]
    rfl
  · next hlinux =>
    rw [if_neg hlinux]
    rfl

/-- Without a text that the system keeps, the next outcome is still to come. -/
theorem ownText_of_notKept {name : String} {m : Machine}
    (h : ∀ b, kept? name m ≠ some (.bytes b)) :
    ∃ m', ownText name m = (.ok none, m') ∧ Runner.nextOutcome m' = Runner.nextOutcome m := by
  cases hk : kept? name m with
  | some c =>
    obtain ⟨hc, hown⟩ := kept?_eq_some hk
    rw [hown, fromFile_of_exists hc, Machine.readText, hc]
    cases c with
    | bytes b => exact absurd hk (h b)
    | directory => exact ⟨_, rfl, rfl⟩
    | unreadable reason => exact ⟨_, rfl, rfl⟩
  | none => exact ⟨m, ownText_of_kept?_eq_none hk, rfl⟩

theorem breaksOff_fromCommand (name : String) (m : Machine) :
    (fromCommand name .unprivileged).BreaksOff m ↔ Runner.nextOutcome m = .notPermitted := by
  have hrun : (Runner.unprivileged.run [program, name]).attempt m =
      (.ok (Runner.unprivileged.answer [program, name] (Runner.nextOutcome m)),
        Runner.unprivileged.after [program, name] m) := by
    rw [attempt_apply, Runner.run_apply]
    rfl
  rw [fromCommand, breaksOff_bind_of_ok hrun]
  cases Runner.nextOutcome m with
  | finished status out err =>
    have hcontained : Contained
        (if status ≠ 0 then
          fail (.misconfigured (.addressUnread name (.refused (err.getD ""))))
        else pure (inOutput? (out.getD "")) : Step Machine (Option String)) := by
      split
      · exact contained_fail rfl
      · exact contained_pure _
    exact iff_of_false (hcontained _) (by simp)
  | notFound => exact iff_of_false (contained_fail rfl _) (by simp)
  | timedOut => exact iff_of_false (contained_fail rfl _) (by simp)
  | notPermitted =>
    exact iff_of_true ⟨.system (.notPermitted program), _, rfl, rfl, by simp⟩ rfl
  | interrupted =>
    refine iff_of_false ?_ (by simp)
    intro h
    exact ((breaksOff_iff_of_error (fail_apply _ _)).1 h).2 rfl

theorem breaksOff_addressText? (name : String) (m : Machine) :
    (addressText? name .unprivileged).BreaksOff m ↔ Unread name m := by
  by_cases hkept : ∃ b, kept? name m = some (.bytes b)
  · obtain ⟨b, hb⟩ := hkept
    cases ht : String.fromUTF8? b with
    | none =>
      have herror : addressText? name .unprivileged m = (.error .undecodable, m) :=
        bind_error (ownText_of_noText hb ht) _
      exact iff_of_true ⟨_, m, herror, rfl, by simp⟩ (.undecodable hb ht)
    | some s =>
      have hok : addressText? name .unprivileged m =
          (.ok (some (Text.strip (String.ofList (Text.unifyLineEnds s.toList)))), m) :=
        bind_ok (ownText_of_text hb ht) _
      refine iff_of_false (not_breaksOff_of_ok hok) ?_
      intro h
      cases h with
      | undecodable hb' ht' =>
        rw [hb] at hb'
        rw [← Content.bytes.inj (Option.some.inj hb'), ht] at ht'
        exact absurd ht' (by simp)
      | notPermitted hnone houtcome => exact hnone b hb
  · have hnone : ∀ b, kept? name m ≠ some (.bytes b) := fun b hb => hkept ⟨b, hb⟩
    obtain ⟨m', hown, houtcome⟩ := ownText_of_notKept hnone
    rw [addressText?, breaksOff_bind_of_ok hown]
    show (fromCommand name .unprivileged).BreaksOff m' ↔ Unread name m
    rw [breaksOff_fromCommand, houtcome]
    constructor
    · exact .notPermitted hnone
    · intro h
      cases h with
      | undecodable hb ht => exact absurd hb (hnone _)
      | notPermitted hnone' houtcome' => exact houtcome'

/-- **Opening an interface** breaks off exactly if its address is kept from being read. -/
theorem breaksOff_acquire (name : String) (m : Machine) :
    (acquire name .unprivileged).BreaksOff m ↔ Unread name m := by
  have hnote : ∀ a, Contained (do
      Machine.note (.opened name a)
      return ⟨name, some a⟩ : Step Machine Link) :=
    fun a => (contained_modify _).bind fun _ => contained_pure _
  have hread : (readAddress name .unprivileged).BreaksOff m ↔
      (addressText? name .unprivileged).BreaksOff m := by
    refine Contained.breaksOff_bind (fun found => ?_) m
    cases found with
    | none => exact contained_fail rfl
    | some raw =>
      intro t h
      have hattempt : (Machine.readAddress raw).attempt t =
          (.ok ((Address.read (t.digitsOf raw) raw).mapError (.invalidAddress raw)),
            t.drawnFor raw) := by
        rw [attempt_apply, Machine.readAddress_apply]
      have h' := (breaksOff_bind_of_ok hattempt).1 h
      cases hr : Address.read (t.digitsOf raw) raw with
      | ok a =>
        rw [hr] at h'
        exact contained_pure a _ h'
      | error fault =>
        rw [hr] at h'
        exact contained_fail rfl _ h'
  rw [acquire, Contained.breaksOff_bind hnote, hread, breaksOff_addressText?]

end Link

/-! ## Writing an address -/

/-- The outcome of a command ends what runs it, without being reported. -/
def Runner.Aborts (r : Runner) (o : Outcome) : Prop :=
  o = .notPermitted ∨ o = .timedOut ∧ r.timeout.text? = none

theorem Writer.judge_answer_escapes (r : Runner) (command full : List String) (o : Outcome) :
    (∃ e, judge command (r.answer full o) = .error e ∧ e.Escapes) ↔ r.Aborts o := by
  have hreported : ∀ {e : Failure}, e.isReported = true →
      ¬∃ e', (.error e : Except Failure Finished) = .error e' ∧ e'.Escapes := by
    intro e he h
    obtain ⟨e', heq, he', -⟩ := h
    rw [← Except.error.inj heq, he] at he'
    exact absurd he' (by simp)
  have h := judged r command full o
  generalize judge command (r.answer full o) = x at h ⊢
  cases h with
  | done => exact iff_of_false (by simp) (by simp [Runner.Aborts])
  | refused => exact iff_of_false (hreported rfl) (by simp [Runner.Aborts])
  | notFound => exact iff_of_false (hreported rfl) (by simp [Runner.Aborts])
  | notPermitted => exact iff_of_true ⟨_, rfl, rfl, by simp⟩ (.inl rfl)
  | timedOut ht => exact iff_of_false (hreported rfl) (by simp [Runner.Aborts, ht])
  | untold ht => exact iff_of_true ⟨_, rfl, rfl, by simp⟩ (.inr ⟨rfl, ht⟩)
  | interrupted =>
    refine iff_of_false ?_ (by simp [Runner.Aborts])
    intro h
    obtain ⟨e, h, -, he⟩ := h
    exact he (Except.error.inj h).symm

/-- **Writing an address** breaks off only on a platform that is known. -/
theorem Writer.breaksOff_write (w : Writer) (name address : String) (m : Machine) :
    (w.write name address).BreaksOff m ↔
      (∃ p, w.platformOn m.host = some p) ∧ w.runner.Aborts (Runner.nextOutcome m) := by
  cases hp : w.platformOn m.host with
  | none =>
    refine iff_of_false ?_ (by simp)
    intro h
    have he := ((breaksOff_iff_of_error (write_apply_of_none hp name address)).1 h).1
    exact absurd he (by simp [Failure.isReported])
  | some p =>
    have hw := write_apply_of_some hp name address
    rw [← judge_answer_escapes w.runner (Link.program :: p.arguments name address)
      (w.fullCommand m.host p name address) (Runner.nextOutcome m)]
    constructor
    · intro h
      obtain ⟨e, m', h, he⟩ := h
      exact ⟨⟨p, rfl⟩, e, congrArg Prod.fst (hw.symm.trans h), he⟩
    · intro h
      obtain ⟨-, e, h, he⟩ := h
      exact ⟨e, _, by rw [hw, h], he⟩

theorem Override.breaksOff_writeAddress (name address : String) (s : Session) :
    (Override.writeAddress name address).BreaksOff s ↔
      (∃ p, s.override.writer.platformOn s.machine.host = some p) ∧
        s.override.writer.runner.Aborts (Runner.nextOutcome s.machine) := by
  have hrest : ∀ _ : Finished, Contained (do
      Override.modify fun o => { o with link := { o.link with address := some address } }
      onMachine (Machine.note (.noted address))) :=
    fun _ => (contained_modify _).bind fun _ => contained_onMachine (contained_modify _)
  rw [Override.writeAddress, breaksOff_bind_of_ok (Override.current_apply s),
    Contained.breaksOff_bind hrest, breaksOff_onMachine]
  exact Writer.breaksOff_write s.override.writer name address s.machine

theorem Act.breaksOff_perform (a : Act) (c : Cycle) (s : Session) :
    (a.perform c).BreaksOff s ↔
      (∃ p, s.override.writer.platformOn s.machine.host = some p) ∧
        s.override.writer.runner.Aborts (Runner.nextOutcome s.machine) := by
  have hrest : ∀ _ : Unit, Contained (do
      Override.setPhase (a.result c)
      onMachine (Machine.info (a.announcement c).message)) :=
    fun _ => (contained_modify _).bind fun _ => contained_onMachine (contained_modify _)
  rw [Act.perform, Contained.breaksOff_bind hrest]
  exact Override.breaksOff_writeAddress c.iface (a.address c) s

/-! ## Lines of a session -/

namespace Session

/-- No failure but those of the parts can break off. -/
def containing : Law where
  Holds := Contained
  pure := contained_pure
  fail h _ := contained_fail h
  bind := Contained.bind

theorem contained_begins : containing.Begins where
  current := contained_current
  readAddress text := contained_onMachine (contained_readAddress text)
  setPhase _ := contained_modify _
  setLink _ := contained_modify _
  debug _ := contained_onMachine (contained_modify _)
  held _ := contained_onMachine (contained_modify _)

theorem contained_looks : containing.Looks where
  current := contained_current
  shown _ := contained_onMachine (contained_modify _)

theorem contained_named {α : Type} (name : String) (r : Except Failure α) :
    Contained (named name r) := Law.named (L := containing) name r

/-- Setting a parameter breaks off only if it opens another interface. -/
theorem breaksOff_setParameter (name value : String) (s : Session) :
    (setParameter name value).BreaksOff s ↔
      name = Settings.Parameter.name .iface ∧ value ≠ s.override.link.name ∧
        Link.Unread value s.machine := by
  have hrest : ∀ _ : Unit, Contained (do
      let o ← Override.current
      let settings ← named name (o.settings.setNamed name value)
      Override.modify fun o => { o with settings }
      onMachine (Machine.showText s!"{name} => {value}")) :=
    fun _ => contained_current.bind fun o => (contained_named name _).bind fun settings =>
      (contained_modify _).bind fun _ => contained_onMachine (contained_modify _)
  rw [setParameter, Contained.breaksOff_bind hrest, prepare,
    breaksOff_bind_of_ok (Override.current_apply s)]
  by_cases haddress : name = Settings.Parameter.name .address ∧ value ≠ Address.randomWord
  · have hcheck : Contained (do
        let _ ← onMachine (Machine.readAddress value)) :=
      (contained_onMachine (contained_readAddress value)).bind fun _ => contained_pure ()
    rw [if_pos haddress]
    refine iff_of_false (hcheck s) ?_
    intro h
    exact absurd (haddress.1.symm.trans h.1) (by decide)
  · rw [if_neg haddress]
    by_cases hiface : name = Settings.Parameter.name .iface ∧ value ≠ s.override.link.name
    · rw [if_pos hiface, Contained.breaksOff_bind contained_begins.attach, breaksOff_onMachine,
        Link.breaksOff_acquire]
      exact ⟨fun h => ⟨hiface.1, hiface.2, h⟩, fun h => h.2.2⟩
    · rw [if_neg hiface]
      exact iff_of_false (contained_pure () s) fun h => hiface ⟨h.1, h.2.1⟩

theorem breaksOff_command {line : String} {s : Session} {c : Cycle}
    (hc : s.override.phase = .running c) :
    (Override.command line).BreaksOff s ↔
      Override.Verb.ofLine? line = some .off ∧
        (∃ p, s.override.writer.platformOn s.machine.host = some p) ∧
          s.override.writer.runner.Aborts (Runner.nextOutcome s.machine) := by
  rw [Override.command]
  cases hv : Override.Verb.ofLine? line with
  | none => exact iff_of_false (contained_fail rfl s) (by simp)
  | some v =>
    cases v with
    | on =>
      have hstart : Override.start s = (.error .alreadyConfigured, s) := by
        rw [start_eq, bind_error (readyCycle_of_running hc)]
      refine iff_of_false ?_ (by simp)
      intro h
      exact absurd ((breaksOff_iff_of_error hstart).1 h).1 (by simp [Failure.isReported])
    | off =>
      have hcycle : s.override.phase.cycle? = some c := by rw [hc]; rfl
      have hstop : (Override.Verb.perform .off).BreaksOff s ↔
          (Act.stopping.perform c).BreaksOff s := by
        show (∃ e s', Override.stop s = (.error e, s') ∧ e.Escapes) ↔ _
        rw [stop_eq_of_some hcycle]
        rfl
      show (Override.Verb.perform .off).BreaksOff s ↔ _
      rw [hstop, Act.breaksOff_perform]
      exact (and_iff_right rfl).symm

/-- A line that breaks off a session while the override is running. -/
inductive Strands (line : String) (s : Session) : Prop
  | opening {value : String}
      (request : Request.ofLine line = .set (Settings.Parameter.name .iface) value)
      (other : value ≠ s.override.link.name) (unread : Link.Unread value s.machine)
  | stopping {p : Platform} (request : Request.ofLine line = .other)
      (verb : Override.Verb.ofLine? line = some .off)
      (known : s.override.writer.platformOn s.machine.host = some p)
      (aborts : s.override.writer.runner.Aborts (Runner.nextOutcome s.machine))

theorem not_strands {line : String} {s : Session} (hother : Request.ofLine line ≠ .other)
    (hset : ∀ value, Request.ofLine line ≠ .set (Settings.Parameter.name .iface) value) :
    ¬Strands line s := by
  intro h
  cases h with
  | opening request _ _ => exact hset _ request
  | stopping request _ _ _ => exact hother request

theorem execute_of_other {line : String} (h : Request.ofLine line = .other) :
    execute line = Override.command line >>= fun _ => pure true := by
  rw [execute, h]

theorem execute_of_set {line name value : String} (h : Request.ofLine line = .set name value) :
    execute line = setParameter name value >>= fun _ => pure true := by
  rw [execute, h]

/-- The other requests only show something, or end the session. -/
theorem contained_execute {line : String} (hother : Request.ofLine line ≠ .other)
    (hset : ∀ name value, Request.ofLine line ≠ .set name value) : Contained (execute line) :=
  contained_looks.execute (fun name value hr => absurd hr (hset name value)) fun hr =>
    absurd hr hother

/-- **A line that breaks off.** While the override is running there are but these two ways. -/
theorem breaksOff_execute {line : String} {s : Session} {c : Cycle}
    (hc : s.override.phase = .running c) : (execute line).BreaksOff s ↔ Strands line s := by
  have hgoesOn : ∀ _ : Unit, Contained (pure true : Step Session Bool) :=
    fun _ => contained_pure true
  cases hr : Request.ofLine line with
  | set name value =>
    rw [execute_of_set hr, Contained.breaksOff_bind hgoesOn, breaksOff_setParameter]
    constructor
    · intro h
      obtain ⟨hname, hvalue, hunread⟩ := h
      exact .opening (by rw [hr, hname]) hvalue hunread
    · intro h
      cases h with
      | opening request other unread =>
        obtain ⟨hname, hvalue⟩ := Request.set.inj (hr.symm.trans request)
        rw [hvalue]
        exact ⟨hname, other, unread⟩
      | stopping request _ _ _ => exact absurd (hr.symm.trans request) (by simp)
  | other =>
    rw [execute_of_other hr, Contained.breaksOff_bind hgoesOn, breaksOff_command hc]
    constructor
    · intro h
      obtain ⟨verb, ⟨p, known⟩, aborts⟩ := h
      exact .stopping hr verb known aborts
    · intro h
      cases h with
      | opening request _ _ => exact absurd (hr.symm.trans request) (by simp)
      | stopping _ verb known aborts => exact ⟨verb, ⟨_, known⟩, aborts⟩
  | _ =>
    exact iff_of_false (contained_execute (by simp [hr]) (by simp [hr]) s)
      (not_strands (by simp [hr]) (by simp [hr]))

end Session

end LinkOverride
