import LinkOverride.Proofs.Layout
import LinkOverride.Proofs.Restoration
import LinkOverride.Proofs.Spelling

/-!
# Always ready to start

What a start needs is checked before a session begins, and every change of it is checked again before
it is made: an address is read before it is set, and a new interface is read and taken in hand before
its name is set. So at any prompt a start can fail for one reason only, which is that the command
that writes the address fails.

`Override.Primed` says what has been checked. Each line keeps it, whether it succeeds or not. A line
that sets the interface breaks it on the way, when the new interface is in hand and the old name is
still set, so that line is taken as a whole.
-/

namespace LinkOverride

open Override (onMachine)
open Settings (Parameter)
open Step

/-! ## What is checked -/

namespace Machine

/-- The text can be read as an address, whatever digits are drawn. -/
def Accepts (s : String) : Prop := ∀ m, ∃ a m', readAddress s m = (.ok a, m')

theorem accepts_of_random {s : String} (h : Text.strip s = Address.randomWord) : Accepts s :=
  fun m => ⟨_, _, readAddress_of_random h m⟩

/-- Whether a text is read does not depend on the digits. -/
theorem accepts_of_readAddress {s a : String} {m m' : Machine}
    (h : readAddress s m = (.ok a, m')) : Accepts s := by
  by_cases hrandom : Text.strip s = Address.randomWord
  · exact accepts_of_random hrandom
  by_cases hwritten : ∃ ds, Address.Written (Text.strip s).toList ds
  · obtain ⟨ds, hds⟩ := hwritten
    exact fun n => ⟨_, n, readAddress_of_written hds n⟩
  · obtain ⟨fault, hfault⟩ := readAddress_of_not_written hrandom hwritten m
    exact absurd (hfault.symm.trans h) (by simp)

end Machine

/-- An interface that has been opened has a canonical address. -/
theorem Link.known_of_acquire {name : String} {r : Runner} {l : Link} {m m' : Machine}
    (h : acquire name r m = (.ok l, m')) :
    l.name = name ∧ ∃ a, l.address = some a ∧ Address.isCanonical a.toList = true := by
  obtain ⟨a, m₁, hread, h⟩ := bind_eq_ok h
  obtain ⟨found, m₂, -, hread⟩ := bind_eq_ok hread
  obtain ⟨hl, -⟩ := Prod.mk.inj h
  rw [← Except.ok.inj hl]
  refine ⟨rfl, a, rfl, ?_⟩
  cases found with
  | none => exact absurd hread (by simp)
  | some raw =>
    obtain ⟨r, m₃, hattempt, hread⟩ := bind_eq_ok hread
    rw [attempt_apply] at hattempt
    obtain ⟨hr, rfl⟩ := Prod.mk.inj hattempt
    split at hread
    · next b =>
      obtain ⟨hb, -⟩ := Prod.mk.inj hread
      obtain rfl := Except.ok.inj hb
      have hok : Machine.readAddress raw m₂ = (.ok b, (Machine.readAddress raw m₂).2) :=
        Prod.ext (Except.ok.inj hr) rfl
      obtain ⟨ds, hlen, ha⟩ := Machine.exists_digits_of_readAddress hok
      rw [ha]
      exact Address.isCanonical_ofDigits hlen
    · exact absurd hread (by simp)
    · exact absurd hread (by simp)

structure Cycle.Canonical (c : Cycle) : Prop where
  original : Address.isCanonical c.original.toList = true
  desired : Address.isCanonical c.desired.toList = true

/-- **All that a start needs has been checked.** -/
structure Override.Primed (h : Host) (o : Override) : Prop where
  iface_eq : o.settings.iface = o.link.name
  named : o.link.name ≠ ""
  wanted : o.settings.address = Address.randomWord ∨ Machine.Accepts o.settings.address
  known : ∃ a, o.link.address = some a ∧ Address.isCanonical a.toList = true
  canonical : ∀ c, o.phase.cycle? = some c → c.Canonical
  platform : ∃ p, o.writer.platformOn h = some p

theorem Override.Primed.accepts {h : Host} {o : Override} (hp : o.Primed h) :
    Machine.Accepts o.settings.address := by
  rcases hp.wanted with hrandom | haccepts
  · rw [hrandom]
    exact Machine.accepts_of_random (by decide +kernel)
  · exact haccepts

namespace Session

def Primed (s : Session) : Prop := s.override.Primed s.machine.host

/-- From one session to the other, what has been checked stays so. -/
def KeepsPrimed (s s' : Session) : Prop := s.Primed → s'.Primed

instance : IsPreorder Session KeepsPrimed where
  refl _ h := h
  trans _ _ _ h h' hp := h' (h hp)

/-- What has been checked does not depend on the machine, but for its platform. -/
theorem Primed.of_host_eq {s : Session} (hp : s.Primed) {m : Machine}
    (hhost : m.host = s.machine.host) : Primed ⟨m, s.override⟩ := by
  rw [Primed]
  rwa [hhost]

theorem keepsPrimed_onMachine {α : Type} {P : Event → Prop} {x : Step Machine α}
    (hx : Machine.Adds P x) : Respects KeepsPrimed (onMachine x) :=
  fun s hp => hp.of_host_eq (hx s.machine).1

theorem keepsPrimed_current : Respects KeepsPrimed Override.current := fun _ h => h

end Session

/-! ## Writing -/

/-- On a platform that is known, a write is reported to have failed only if its command has. -/
theorem Writer.commandFailed_of_write {w : Writer} {m m' : Machine} {p : Platform}
    {name address : String} {e : Failure} (hp : w.platformOn m.host = some p)
    (h : w.write name address m = (.error e, m')) (he : e.isReported = true) :
    ∃ fault, e = .commandFailed fault := by
  obtain ⟨hjudged, -⟩ := judged_of_write hp h
  generalize Runner.nextOutcome m = o at hjudged
  cases hjudged with
  | refused => exact ⟨_, rfl⟩
  | notFound => exact ⟨_, rfl⟩
  | timedOut => exact ⟨_, rfl⟩
  | notPermitted => exact absurd he (by simp [Failure.isReported])
  | untold => exact absurd he (by simp [Failure.isReported])
  | interrupted => exact absurd he (by simp [Failure.isReported])

namespace Session

variable {s : Session}

/-- **Writing an address of a cycle** leaves the session primed, and fails for one reason only. -/
theorem Primed.perform (hp : s.Primed) (a : Act) {c : Cycle}
    (hc : s.override.phase.cycle? = some c) :
    ∃ s', s'.Primed ∧
      (a.perform c s = (.ok (), s') ∧ s'.override.phase = a.result c ∨
        ∃ e, a.perform c s = (.error e, s') ∧ s'.override.phase = s.override.phase ∧
          (e.isReported = true → ∃ fault, e = .commandFailed fault)) := by
  obtain ⟨p, hplatform⟩ := hp.platform
  have hhost : (s.override.writer.write c.iface (a.address c) s.machine).2.host =
      s.machine.host := by
    rw [Writer.write_apply_of_some hplatform]
    rfl
  rcases hw : s.override.writer.write c.iface (a.address c) s.machine with ⟨e | done, m⟩
  · rw [hw] at hhost
    refine ⟨⟨m, s.override⟩, ?_, .inr ⟨e, a.perform_of_error hw, rfl,
      Writer.commandFailed_of_write hplatform hw⟩⟩
    show s.override.Primed m.host
    rwa [hhost]
  · rw [hw] at hhost
    refine ⟨_, ?_, .inl ⟨a.perform_of_ok hw, rfl⟩⟩
    have hcanonical := hp.canonical c hc
    refine ⟨hp.iface_eq, hp.named, hp.wanted, ⟨a.address c, rfl, ?_⟩, ?_, ?_⟩
    · cases a with
      | starting => exact hcanonical.desired
      | stopping => exact hcanonical.original
    · intro d hd
      cases a with
      | starting => exact Option.some.inj hd ▸ hcanonical
      | stopping => exact absurd hd (by simp [Act.done, Act.result, Phase.cycle?])
    · show ∃ p, s.override.writer.platformOn m.host = some p
      rw [hhost]
      exact hp.platform

/-! ## Cycles -/

/-- **A cycle can always begin** if none has begun. -/
theorem Primed.configure (hp : s.Primed) (hfree : s.override.phase.cycle? = none) :
    ∃ c s', Override.configure s = (.ok c, s') ∧ s'.Primed ∧
      s'.override.phase = .configured c := by
  have hsame : s.override.wantedInterface = s.override.link.name := by
    rw [Override.wantedInterface, hp.iface_eq, if_neg hp.named]
  have hobstacle : s.override.obstacle? = none := by
    rw [Override.obstacle?, hfree, hsame]
    dsimp only
    rw [if_neg hp.named, if_neg (fun h => h rfl)]
  obtain ⟨desired, m', hread⟩ := hp.accepts s.machine
  obtain ⟨ds, hlen, hdesired⟩ := Machine.exists_digits_of_readAddress hread
  obtain ⟨original, hknown, hcanonical⟩ := hp.known
  have hvalid : Address.read (s.machine.digitsOf s.override.settings.address)
      s.override.settings.address = .ok desired := by
    rw [Machine.readAddress_apply] at hread
    have hfst := congrArg Prod.fst hread
    cases hr : Address.read (s.machine.digitsOf s.override.settings.address)
        s.override.settings.address with
    | ok a =>
      rw [hr] at hfst
      exact congrArg Except.ok (Except.ok.inj hfst)
    | error fault =>
      rw [hr] at hfst
      exact absurd hfst (by simp [Except.mapError])
  refine ⟨_, _, configure_of_known hobstacle hvalid hknown, ?_, rfl⟩
  refine ⟨hp.iface_eq, hp.named, hp.wanted, hp.known, ?_, ?_⟩
  · intro c hc
    rw [← Option.some.inj hc]
    exact ⟨hcanonical, by rw [hdesired]; exact Address.isCanonical_ofDigits hlen⟩
  · rw [Machine.host_record, Machine.drawnFor_host]
    exact hp.platform

/-- **A start** of a free override succeeds, or fails since its command does. Then the cycle has
begun. -/
theorem Primed.start_of_free (hp : s.Primed) (hfree : s.override.phase.cycle? = none) :
    ∃ c s', s'.Primed ∧
      (Override.start s = (.ok (), s') ∧ s'.override.phase = .running c ∨
        ∃ e, Override.start s = (.error e, s') ∧ s'.override.phase = .configured c ∧
          (e.isReported = true → ∃ fault, e = .commandFailed fault)) := by
  obtain ⟨c, t, hconfigure, ht, hphase⟩ := hp.configure hfree
  have hready : Override.readyCycle s = (.ok c, t) := (readyCycle_of_free hfree).trans hconfigure
  obtain ⟨s', hs', hperform⟩ := ht.perform .starting (c := c) (by rw [hphase]; rfl)
  rw [start_eq, bind_ok hready]
  refine ⟨c, s', hs', ?_⟩
  rwa [hphase] at hperform

theorem keepsPrimed_readyCycle : Respects KeepsPrimed Override.readyCycle := by
  intro s hp
  cases hphase : s.override.phase with
  | unconfigured last =>
    obtain ⟨c, s', hconfigure, hs', -⟩ := hp.configure (by rw [hphase]; rfl)
    rw [readyCycle_of_unconfigured hphase, hconfigure]
    exact hs'
  | configured c =>
    rw [readyCycle_of_configured hphase]
    exact hp
  | running c =>
    rw [readyCycle_of_running hphase]
    exact hp

theorem keepsPrimed_start : Respects KeepsPrimed Override.start := by
  intro s
  rw [start_eq]
  refine rel_bind (keepsPrimed_readyCycle s) fun c t hready hp => ?_
  obtain ⟨s', hs', ⟨hperform, -⟩ | ⟨e, hperform, -⟩⟩ :=
    hp.perform .starting (c := c) (by rw [readyCycle_ok hready]; rfl)
  · rwa [hperform]
  · rwa [hperform]

theorem keepsPrimed_stop : Respects KeepsPrimed Override.stop := by
  intro s hp
  cases hc : s.override.phase.cycle? with
  | none =>
    rw [stop_eq_of_none hc]
    exact hp
  | some c =>
    rw [stop_eq_of_some hc]
    obtain ⟨s', hs', ⟨hperform, -⟩ | ⟨e, hperform, -⟩⟩ := hp.perform .stopping hc
    · rwa [hperform]
    · rwa [hperform]

theorem keepsPrimed_command (line : String) : Respects KeepsPrimed (Override.command line) := by
  rw [Override.command]
  cases Override.Verb.ofLine? line with
  | none => exact respects_fail _
  | some v =>
    cases v with
    | on => exact keepsPrimed_start
    | off => exact keepsPrimed_stop

/-! ## Setting a parameter -/

/-- The session once a parameter has been set. -/
def setting (p : Parameter) (value : String) (s : Session) : Session :=
  { s with override := { s.override with settings := s.override.settings.set p value } }

section Prepare

variable {value : String} {e : Failure} {m : Machine}

theorem prepare_random (s : Session) :
    prepare (Parameter.name .address) Address.randomWord s = (.ok (), s) := by
  rw [Session.prepare, bind_ok (Override.current_apply s), if_neg fun h => h.2 rfl,
    if_neg fun h => absurd h.1 (by decide)]
  rfl

theorem prepare_address (hvalue : value ≠ Address.randomWord) {r : Except Failure String}
    (hread : Machine.readAddress value s.machine = (r, m)) :
    prepare (Parameter.name .address) value s = (r.map fun _ => (), ⟨m, s.override⟩) := by
  rw [Session.prepare, bind_ok (Override.current_apply s), if_pos ⟨rfl, hvalue⟩]
  cases r with
  | error e => exact bind_error (onMachine_of_eq hread) _
  | ok a => exact bind_ok (onMachine_of_eq hread) _

theorem prepare_held (hvalue : value = s.override.link.name) :
    prepare (Parameter.name .iface) value s = (.ok (), s) := by
  rw [Session.prepare, bind_ok (Override.current_apply s), if_neg fun h => absurd h.1 (by decide),
    if_neg fun h => h.2 hvalue]
  rfl

theorem prepare_unread (hvalue : value ≠ s.override.link.name)
    (hacquire : Link.acquire value .unprivileged s.machine = (.error e, m)) :
    prepare (Parameter.name .iface) value s = (.error e, ⟨m, s.override⟩) := by
  rw [Session.prepare, bind_ok (Override.current_apply s), if_neg fun h => absurd h.1 (by decide),
    if_pos ⟨rfl, hvalue⟩]
  exact bind_error (onMachine_of_eq hacquire) _

theorem prepare_acquired (hvalue : value ≠ s.override.link.name) {l : Link}
    (hacquire : Link.acquire value .unprivileged s.machine = (.ok l, m)) :
    prepare (Parameter.name .iface) value s = Override.attach l ⟨m, s.override⟩ := by
  rw [Session.prepare, bind_ok (Override.current_apply s), if_neg fun h => absurd h.1 (by decide),
    if_pos ⟨rfl, hvalue⟩]
  exact bind_ok (onMachine_of_eq hacquire) _

end Prepare

theorem Primed.prepare_address (hp : s.Primed) (value : String) :
    (∃ e t, prepare (Parameter.name .address) value s = (.error e, t) ∧ t.Primed) ∨
      ∃ t, prepare (Parameter.name .address) value s = (.ok (), t) ∧
        (t.setting .address value).Primed := by
  by_cases hrandom : value = Address.randomWord
  · rw [hrandom]
    exact .inr ⟨s, prepare_random s, hp.iface_eq, hp.named, .inl rfl, hp.known, hp.canonical,
      hp.platform⟩
  · have hhost := (Machine.adds_readAddress Event.IsTalk value s.machine).1
    rcases hread : Machine.readAddress value s.machine with ⟨e | a, m⟩
    · rw [hread] at hhost
      exact .inl ⟨e, _, Session.prepare_address hrandom hread, hp.of_host_eq hhost⟩
    · rw [hread] at hhost
      have hp' := hp.of_host_eq hhost
      exact .inr ⟨_, Session.prepare_address hrandom hread, hp'.iface_eq, hp'.named,
        .inr (Machine.accepts_of_readAddress hread), hp'.known, hp'.canonical, hp'.platform⟩

/-- Another interface is in hand before its name is set. -/
theorem Primed.prepare_iface (hp : s.Primed) {value : String} (hvalue : value ≠ "") :
    (∃ e t, prepare (Parameter.name .iface) value s = (.error e, t) ∧ t.Primed) ∨
      ∃ t, prepare (Parameter.name .iface) value s = (.ok (), t) ∧
        (t.setting .iface value).Primed := by
  by_cases hsame : value = s.override.link.name
  · exact .inr ⟨s, prepare_held hsame, hsame, hp.named, hp.wanted, hp.known, hp.canonical,
      hp.platform⟩
  · have hhost := (Program.adds_acquire value s.machine).1
    rcases hacquire : Link.acquire value .unprivileged s.machine with ⟨e | l, m⟩
    · rw [hacquire] at hhost
      exact .inl ⟨e, _, prepare_unread hsame hacquire, hp.of_host_eq hhost⟩
    · rw [hacquire] at hhost
      have hp' := hp.of_host_eq hhost
      obtain ⟨hname, hknown⟩ := Link.known_of_acquire hacquire
      rw [prepare_acquired hsame hacquire]
      cases hc : s.override.phase.cycle? with
      | some c => exact .inl ⟨_, _, attach_of_busy hc, hp'⟩
      | none =>
        refine .inr ⟨_, attach_of_free hc, hname.symm, ?_, hp'.wanted, hknown, hp'.canonical,
          hp'.platform⟩
        show l.name ≠ ""
        rwa [hname]

/-- **What is checked before a parameter is set** is what the new value needs. -/
theorem Primed.prepare (hp : s.Primed) (p : Parameter) {value : String} (hvalue : value ≠ "") :
    (∃ e t, Session.prepare p.name value s = (.error e, t) ∧ t.Primed) ∨
      ∃ t, Session.prepare p.name value s = (.ok (), t) ∧ (t.setting p value).Primed := by
  cases p with
  | iface => exact hp.prepare_iface hvalue
  | address => exact hp.prepare_address value

/-- A parameter of an unknown name is not set, and nothing is checked for it. -/
theorem setParameter_of_unknown {name : String} (h : Parameter.named? name = none) (value : String)
    (s : Session) : setParameter name value s =
      (.error (.misconfigured (.parameterUnknown name)), s) := by
  have hne : ∀ p : Parameter, name ≠ p.name := by
    rintro p rfl
    exact absurd (h.symm.trans (Parameter.named?_name p)) (by simp)
  have hprepare : Session.prepare name value s = (.ok (), s) := by
    rw [Session.prepare, bind_ok (Override.current_apply s), if_neg fun hn => hne _ hn.1,
      if_neg fun hn => hne _ hn.1]
    rfl
  rw [setParameter, bind_ok hprepare, bind_ok (Override.current_apply s), Settings.setNamed, h]
  rfl

theorem setParameter_of_prepared {p : Parameter} {value : String} {t : Session}
    (h : Session.prepare p.name value s = (.ok (), t)) :
    setParameter p.name value s =
      onMachine (Machine.showText s!"{p.name} => {value}") (t.setting p value) := by
  rw [setParameter, bind_ok h, bind_ok (Override.current_apply t), Settings.setNamed,
    Parameter.named?_name]
  rfl

theorem Primed.setParameter (hp : s.Primed) (name : String) {value : String} (hvalue : value ≠ "") :
    (Session.setParameter name value s).2.Primed := by
  cases hn : Parameter.named? name with
  | none =>
    rw [setParameter_of_unknown hn]
    exact hp
  | some p =>
    obtain rfl := Parameter.name_of_named? hn
    rcases hp.prepare p hvalue with ⟨e, t, hprepare, ht⟩ | ⟨t, hprepare, ht⟩
    · rw [Session.setParameter, bind_error hprepare]
      exact ht
    · rw [setParameter_of_prepared hprepare]
      exact keepsPrimed_onMachine (Machine.adds_showText _) _ ht

end Session

/-! ## Lines -/

namespace Request

/-- What is set is not empty. -/
theorem value_ne_empty {line name value : String} (h : ofLine line = .set name value) :
    value ≠ "" := by
  obtain ⟨-, -, -, -, -, -, -, -, hvalue, -⟩ := ofLine_eq_set_iff.1 h
  exact hvalue

end Request

namespace Session

theorem keepsPrimed_looks : (Law.keeping KeepsPrimed).Looks where
  current := keepsPrimed_current
  shown items := keepsPrimed_onMachine (Machine.adds_display items)

/-- **A line** keeps all that has been checked. -/
theorem keepsPrimed_execute (line : String) : Respects KeepsPrimed (execute line) :=
  keepsPrimed_looks.execute (fun name _ hr _ hp => hp.setParameter name (Request.value_ne_empty hr))
    fun _ => keepsPrimed_command line

theorem keepsPrimed_carryOut (line : String) : Respects KeepsPrimed (carryOut line) :=
  respects_carryOut (keepsPrimed_execute line) fun _ =>
    keepsPrimed_onMachine (Machine.adds_error _)

/-- **Lines one after the other** keep it too. -/
theorem Passes.primed {front : List Typed} {s t : Session} (h : Passes front s t) (hp : s.Primed) :
    t.Primed :=
  h.rel (R := KeepsPrimed) (fun _ hs => hs) keepsPrimed_carryOut hp

/-- What a line does that asks for a start. -/
theorem Primed.execute_on {s : Session} {line : String} (hp : s.Primed)
    (hverb : Override.Verb.ofLine? line = some .on) (hfree : s.override.phase.cycle? = none) :
    ∃ c u, execute line s = (.ok true, u) ∧ u.override.phase = .running c ∨
      ∃ e, execute line s = (.error e, u) ∧ u.override.phase = .configured c ∧
        (e.isReported = true → ∃ fault, e = .commandFailed fault) := by
  have hcommand : Override.command line = Override.start := by
    rw [Override.command, hverb]
    rfl
  rw [execute_of_other (Request.ofLine_of_verb (Override.Verb.ofLine?_eq_some_iff.1 hverb)), hcommand]
  obtain ⟨c, u, -, ⟨hstart, hphase⟩ | ⟨e, hstart, hphase, he⟩⟩ := hp.start_of_free hfree
  · exact ⟨c, u, .inl ⟨bind_ok hstart _, hphase⟩⟩
  · exact ⟨c, u, .inr ⟨e, bind_error hstart _, hphase, he⟩⟩

end Session

/-! ## From the beginning of a session -/

namespace Program

/-- The session that the program comes to, with its override started if that was asked for. -/
def sessionOf? (words : List String) (m : Machine) : Option Session :=
  match prepare words m with
  | (.ok (.ok (_, .session v on)), m₁) =>
    match startIf on (.opening v m₁) with
    | (.ok true, s) => some s
    | _ => none
  | _ => none

theorem sessionOf?_eq_some {words : List String} {m : Machine} {s : Session} :
    sessionOf? words m = some s ↔
      ∃ opts v on m₁, prepare words m = (.ok (.ok (opts, .session v on)), m₁) ∧
        startIf on (.opening v m₁) = (.ok true, s) := by
  rw [sessionOf?]
  constructor
  · intro h
    split at h
    · next opts v on m₁ hprepare =>
      split at h
      · next u hstart =>
        rw [Option.some.inj h] at hstart
        exact ⟨opts, v, on, m₁, hprepare, hstart⟩
      · exact absurd h (by simp)
    · exact absurd h (by simp)
  · rintro ⟨opts, v, on, m₁, hprepare, hstart⟩
    rw [hprepare]
    dsimp only
    rw [hstart]

/-- What is left of the program then is the session. -/
theorem run_of_session {words : List String} {m : Machine} {s : Session}
    (h : sessionOf? words m = some s) :
    ∃ verbosity, run words m =
      ((Session.run s).1.map fun code => ⟨code, "", "", verbosity⟩, (Session.run s).2.machine) := by
  obtain ⟨opts, v, on, m₁, hprepare, hstart⟩ := sessionOf?_eq_some.1 h
  have hconverse : converse on (.opening v m₁) = Session.run s := by
    rw [converse, bind_ok hstart]
    rfl
  exact ⟨_, by rw [run_of_prepare hprepare, hconverse]⟩

/-- The address to be used has been checked, and the interface has been read. -/
theorem checked_of_openChecked {iface address : String} {l : Link} {m m' : Machine}
    (h : openChecked iface (.str address) m = (.ok l, m')) :
    (address = Address.randomWord ∨ Machine.Accepts address) ∧ l.name = iface ∧
      ∃ a, l.address = some a ∧ Address.isCanonical a.toList = true := by
  rw [openChecked, Value.isText_str] at h
  by_cases hrandom : address = Address.randomWord
  · rw [beq_iff_eq.2 hrandom] at h
    exact ⟨.inl hrandom, Link.known_of_acquire h⟩
  · rw [beq_eq_false_iff_ne.2 hrandom] at h
    obtain ⟨a, m₁, hread, hacquire⟩ := bind_eq_ok h
    exact ⟨.inr (Machine.accepts_of_readAddress hread), Link.known_of_acquire hacquire⟩

/-- **Everything is checked** before a session is opened. -/
theorem primed_of_prepare {words : List String} {opts : Options} {v : Override} {on : Bool}
    {m m' : Machine} (h : prepare words m = (.ok (.ok (opts, .session v on)), m')) :
    (Session.opening v m').Primed := by
  obtain ⟨s, m₁, -, -, hwork⟩ := session_of_prepare h
  obtain ⟨p, iface, hplatform, -, hnamed, hbegin⟩ := session_of_work hwork
  obtain ⟨address, m₂, haddress, hopen, rfl, hv, -⟩ := session_of_beginSession hbegin
  have hhost : m₂.host = m₁.host := by
    have hgrows := adds_openChecked iface opts.address m₁
    rw [hopen] at hgrows
    exact hgrows.1
  rw [haddress] at hopen
  obtain ⟨hwanted, hname, hknown⟩ := checked_of_openChecked hopen
  have hfresh : (Override.fresh v.link (inForce s opts iface address)
      ⟨none, ⟨opts.withSudo, opts.timeout⟩⟩).Primed m₂.host := by
    refine ⟨hname.symm, ?_, hwanted, hknown, fun c hc => ?_, p, ?_⟩
    · show v.link.name ≠ ""
      rwa [hname]
    · exact absurd hc (by simp [Override.fresh, Phase.cycle?])
    · rwa [← hhost] at hplatform
  rwa [← hv] at hfresh

theorem keepsPrimed_startIf (on : Bool) : Respects Session.KeepsPrimed (startIf on) :=
  respects_startIf Session.keepsPrimed_start
    (fun _ => Session.keepsPrimed_onMachine (Machine.adds_error _)) on

theorem primed_of_session {words : List String} {m : Machine} {s : Session}
    (h : sessionOf? words m = some s) : s.Primed := by
  obtain ⟨opts, v, on, m₁, hprepare, hstart⟩ := sessionOf?_eq_some.1 h
  have hkeeps := keepsPrimed_startIf on _ (primed_of_prepare hprepare)
  rwa [hstart] at hkeeps

/-- **In a session everything is ready for a start.** The session is what is left of the program, and
before and after each of its lines all that a start needs has been checked. So if a line asks for a
start and no cycle has begun, one begins; and the one failure that may be reported is that of the
command that writes the address. -/
theorem session_primed {words : List String} {m : Machine} {s t : Session} {front : List Typed}
    (hs : sessionOf? words m = some s) (hpasses : Session.Passes front s t) (l : String) :
    (∃ verbosity, run words m =
      ((Session.run s).1.map fun code => ⟨code, "", "", verbosity⟩,
        (Session.run s).2.machine)) ∧
      t.Primed ∧ (Session.carryOut (Text.strip l) t.consumed).2.Primed ∧
      (Override.Verb.ofLine? (Text.strip l) = some .on → t.override.phase.cycle? = none →
        ∃ c u, Session.execute (Text.strip l) t.consumed = (.ok true, u) ∧
            u.override.phase = .running c ∨
          ∃ e, Session.execute (Text.strip l) t.consumed = (.error e, u) ∧
            u.override.phase = .configured c ∧
            (e.isReported = true → ∃ fault, e = .commandFailed fault)) := by
  have ht := hpasses.primed (primed_of_session hs)
  have hconsumed : t.consumed.Primed := ht
  exact ⟨run_of_session hs, ht, Session.keepsPrimed_carryOut _ _ hconsumed, fun hverb hfree =>
    hconsumed.execute_on hverb hfree⟩

/-- An address is set, and then a start is asked for. -/
theorem session_primed_setting :
    ∃ s t, sessionOf? ["-i", "eth0"] quitting = some s ∧
      Session.Passes [.line "set mac.changer.address 0-1-2-3-4-5"] s t ∧ t.Primed ∧
      ∃ c u, Session.execute (Text.strip "mac.changer on\n") t.consumed = (.ok true, u) ∧
        u.override.phase = .running c := by
  have heval : (sessionOf? ["-i", "eth0"] quitting).map (fun s =>
      let r := Session.carryOut (Text.strip "set mac.changer.address 0-1-2-3-4-5") s.consumed
      (r.1.toOption, r.2.override.phase.cycle?,
        (Session.execute (Text.strip "mac.changer on\n") r.2.consumed).1.toOption)) =
      some (some true, none, some true) := by
    decide +kernel
  obtain ⟨s, hs, heval⟩ := Option.map_eq_some_iff.1 heval
  obtain ⟨hset, hrest⟩ := Prod.mk.inj heval
  obtain ⟨hfree, hon⟩ := Prod.mk.inj hrest
  rcases hcarry : Session.carryOut (Text.strip "set mac.changer.address 0-1-2-3-4-5") s.consumed
    with ⟨e | goesOn, t⟩
  · rw [hcarry] at hset
    exact absurd hset (by simp [Except.toOption])
  · rw [hcarry] at hset hfree hon
    rw [show goesOn = true from Option.some.inj hset] at hcarry
    have hpasses := Session.Passes.cons hcarry (.nil t)
    obtain ⟨-, ht, -, hstart⟩ := session_primed hs hpasses "mac.changer on\n"
    refine ⟨s, t, hs, hpasses, ht, ?_⟩
    obtain ⟨c, u, ⟨hok, hphase⟩ | ⟨e, herror, -⟩⟩ := hstart (by decide) hfree
    · exact ⟨c, u, hok, hphase⟩
    · rw [herror] at hon
      exact absurd hon (by simp [Except.toOption])

end Program

end LinkOverride
