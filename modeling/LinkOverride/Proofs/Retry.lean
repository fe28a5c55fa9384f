import LinkOverride.Proofs.Operation
import LinkOverride.Proofs.Parts
import LinkOverride.Proofs.Spelling
import Mathlib.Logic.Function.Iterate

/-!
# Trying again

An operation that fails leaves the override as it was. The one exception is a start that has begun a
cycle before its command failed: it leaves what the beginning of the cycle alone would have left. So
an operation can be tried again, and after any number of failures it does what it would have done at
first.

`Agree` compares two sessions in all that an operation looks at. Start and stop act alike on sessions
that agree, and a failed command only moves a session on to the next outcome.
-/

namespace LinkOverride

open Override (onMachine)
open Step

variable {s s' t u : Session} {e : Failure} {c : Cycle}

/-! ## Failures change nothing -/

/-- A step that may fail only with the override as it was, or succeed, has left it so if it fails. -/
theorem override_of_error {α : Type} {x : Step Session α}
    (hcases : (∃ e', x s = (.error e', t) ∧ t.override = s.override) ∨ ∃ a, x s = (.ok a, t))
    (h : x s = (.error e, s')) : s'.override = s.override := by
  rcases hcases with ⟨e', herror, hsame⟩ | ⟨a, hok⟩
  · rw [← (Prod.mk.inj (herror.symm.trans h)).2]
    exact hsame
  · exact absurd (hok.symm.trans h) (by simp)

theorem override_of_configure_error (h : Override.configure s = (.error e, s')) :
    s'.override = s.override := by
  obtain ⟨-, t, -, -, hcases⟩ := configure_cases (T := fun _ _ => True) s
  refine override_of_error (hcases.imp_right fun hok => ?_) h
  obtain ⟨c, hok, -⟩ := hok
  exact ⟨c, hok⟩

theorem override_of_configure (h : Override.configure s = (.ok c, s')) :
    s.override.phase.cycle? = none ∧
      s'.override = { s.override with phase := .configured c } := by
  constructor
  · cases hobstacle : s.override.obstacle? with
    | none => exact (Override.of_obstacle?_eq_none hobstacle).1
    | some e => exact absurd ((configure_of_obstacle hobstacle).symm.trans h) (by simp)
  · obtain ⟨-, t, -, -, ⟨e, herror, -⟩ | ⟨d, hok, hover⟩⟩ :=
      configure_cases (T := fun _ _ => True) s
    · exact absurd (herror.symm.trans h) (by simp)
    · obtain ⟨hd, rfl⟩ := Prod.mk.inj (hok.symm.trans h)
      rw [← Except.ok.inj hd]
      exact hover

theorem attach_error {l : Link} (h : Override.attach l s = (.error e, s')) : s' = s := by
  cases hc : s.override.phase.cycle? with
  | some c =>
    rw [attach_of_busy hc] at h
    exact (Prod.mk.inj h).2.symm
  | none =>
    rw [attach_of_free hc] at h
    exact absurd h (by simp)

theorem override_of_stop_error (h : Override.stop s = (.error e, s')) :
    s'.override = s.override := by
  obtain ⟨-, t, -, hcases⟩ := stop_cases (T := fun _ _ => True) s
  refine override_of_error (hcases.imp_right fun hok => ?_) h
  obtain ⟨-, -, hok, -⟩ := hok
  exact ⟨(), hok⟩

theorem override_of_readyCycle_error (h : Override.readyCycle s = (.error e, t)) :
    t.override = s.override := by
  obtain ⟨-, t', -, -, hcases⟩ := readyCycle_cases (T := fun _ _ => True) s
  refine override_of_error (hcases.imp_right fun hok => ?_) h
  obtain ⟨c, hok, -⟩ := hok
  exact ⟨c, hok⟩

/-- A start that fails leaves what its beginning has left. -/
theorem override_of_start_error (h : Override.start s = (.error e, s')) :
    s'.override = (Override.readyCycle s).2.override := by
  rcases hready : Override.readyCycle s with ⟨e' | c, t⟩
  · rw [start_eq, bind_error hready] at h
    rw [← (Prod.mk.inj h).2]
  · rw [start_eq, bind_ok hready] at h
    have hc : Act.starting.Ready t.override.phase c := by
      rw [readyCycle_ok hready]
      rfl
    obtain ⟨-, t', -, ⟨e', herror, hsame, -⟩ | ⟨hok, -⟩⟩ :=
      Act.starting.perform_cases (T := fun _ _ => True) hc
    · rw [← (Prod.mk.inj (herror.symm.trans h)).2]
      exact hsame
    · exact absurd (hok.symm.trans h) (by simp)

/-- **A start that fails** changes nothing, or it leaves exactly the cycle that has begun. -/
theorem start_error_cases (h : Override.start s = (.error e, s')) :
    (∃ c t, Override.configure s = (.ok c, t) ∧ s'.override = t.override) ∨
      (∀ c t, Override.configure s ≠ (.ok c, t)) ∧ s'.override = s.override := by
  have hover := override_of_start_error h
  cases hphase : s.override.phase with
  | unconfigured last =>
    rw [readyCycle_of_unconfigured hphase] at hover
    rcases hconfigure : Override.configure s with ⟨e' | c, t⟩
    · rw [hconfigure] at hover
      exact .inr ⟨by simp, hover.trans (override_of_configure_error hconfigure)⟩
    · rw [hconfigure] at hover
      exact .inl ⟨c, t, rfl, hover⟩
  | configured c =>
    rw [readyCycle_of_configured hphase] at hover
    refine .inr ⟨fun d t hconfigure => ?_, hover⟩
    exact absurd (override_of_configure hconfigure).1 (by simp [hphase, Phase.cycle?])
  | running c =>
    rw [readyCycle_of_running hphase] at hover
    refine .inr ⟨fun d t hconfigure => ?_, hover⟩
    exact absurd (override_of_configure hconfigure).1 (by simp [hphase, Phase.cycle?])

/-! ## Steps that act alike -/

namespace Step

variable {σ α β : Type} {R : σ → σ → Prop}

/-- On related states the step yields the same, and leaves related states. -/
def Parallel (R : σ → σ → Prop) (x : Step σ α) : Prop :=
  ∀ s t, R s t → (x s).1 = (x t).1 ∧ R (x s).2 (x t).2

theorem Parallel.bind {x : Step σ α} {f : α → Step σ β} (hx : Parallel R x)
    (hf : ∀ a, Parallel R (f a)) : Parallel R (x >>= f) := by
  intro s t h
  obtain ⟨hresult, hstates⟩ := hx s t h
  rcases hs : x s with ⟨r, s'⟩
  rcases ht : x t with ⟨r', t'⟩
  rw [hs, ht] at hresult hstates
  obtain rfl : r = r' := hresult
  cases r with
  | ok a =>
    rw [bind_ok hs, bind_ok ht]
    exact hf a s' t' hstates
  | error e =>
    rw [bind_error hs, bind_error ht]
    exact ⟨rfl, hstates⟩

theorem parallel_pure (a : α) : Parallel R (pure a : Step σ α) := fun _ _ h => ⟨rfl, h⟩

theorem parallel_fail (e : Failure) : Parallel R (fail e : Step σ α) := fun _ _ h => ⟨rfl, h⟩

end Step

/-- On sessions that are related the step yields the same, and leaves them related. -/
def Law.paralleling (R : Session → Session → Prop) : Law where
  Holds := Parallel R
  pure := parallel_pure
  fail := fun {_ e} _ _ => parallel_fail e
  bind := Parallel.bind

namespace Session

/-- Two sessions that an override cannot tell apart, but for the outcomes still to come. -/
structure Agree (os os' : List Outcome) (s t : Session) : Prop where
  override_eq : s.override = t.override
  host_eq : s.machine.host = t.machine.host
  drawn_eq : s.machine.drawn = t.machine.drawn
  left : s.machine.outcomes = os
  right : t.machine.outcomes = os'

/-- Two sessions that an override cannot tell apart. -/
def Same (s t : Session) : Prop := ∃ os, Agree os os s t

theorem same_refl (s : Session) : Same s s := ⟨_, rfl, rfl, rfl, rfl, rfl⟩

theorem Same.symm (h : Same s t) : Same t s := by
  obtain ⟨os, h⟩ := h
  exact ⟨os, h.override_eq.symm, h.host_eq.symm, h.drawn_eq.symm, h.right, h.left⟩

theorem Same.trans (h : Same s t) (h' : Same t u) : Same s u := by
  obtain ⟨os, h⟩ := h
  obtain ⟨os', h'⟩ := h'
  have hos : os' = os := h'.left.symm.trans h.right
  rw [hos] at h'
  exact ⟨os, h.override_eq.trans h'.override_eq, h.host_eq.trans h'.host_eq,
    h.drawn_eq.trans h'.drawn_eq, h.left, h'.right⟩

/-- The session with other outcomes still to come. -/
def facing (os : List Outcome) (s : Session) : Session :=
  { s with machine := { s.machine with outcomes := os } }

@[simp] theorem facing_override (os : List Outcome) (s : Session) :
    (s.facing os).override = s.override := rfl

theorem agree_facing (os : List Outcome) (s : Session) :
    Agree s.machine.outcomes os s (s.facing os) := ⟨rfl, rfl, rfl, rfl, rfl⟩

/-! ## Beginning a cycle -/

section Begin

variable {os os' : List Outcome}

theorem parallel_current : Parallel (Agree os os') Override.current :=
  fun _ _ h => ⟨congrArg Except.ok h.override_eq, h⟩

theorem parallel_modify (f : Override → Override) : Parallel (Agree os os') (Override.modify f) :=
  fun _ _ h => ⟨rfl, congrArg f h.override_eq, h.host_eq, h.drawn_eq, h.left, h.right⟩

theorem parallel_note (e : Event) : Parallel (Agree os os') (onMachine (Machine.note e)) :=
  fun _ _ h => ⟨rfl, h.override_eq, h.host_eq, h.drawn_eq, h.left, h.right⟩

theorem drawnFor_outcomes (m : Machine) (text : String) :
    (m.drawnFor text).outcomes = m.outcomes := by
  rw [Machine.drawnFor]
  split <;> rfl

theorem parallel_readAddress (text : String) :
    Parallel (Agree os os') (onMachine (Machine.readAddress text)) := by
  intro s t h
  have hread : ∀ u : Session, onMachine (Machine.readAddress text) u =
      ((Address.read (u.machine.digitsOf text) text).mapError (.invalidAddress text),
        ⟨u.machine.drawnFor text, u.override⟩) := by
    intro u
    rw [onMachine, within_apply, Machine.readAddress_apply]
  have hdigits : s.machine.digitsOf text = t.machine.digitsOf text := by
    rw [Machine.digitsOf, Machine.digitsOf, h.host_eq, h.drawn_eq]
  rw [hread, hread]
  refine ⟨by rw [hdigits], h.override_eq, ?_, ?_, ?_, ?_⟩
  · rw [Machine.drawnFor_host, Machine.drawnFor_host, h.host_eq]
  · show (s.machine.drawnFor text).drawn = (t.machine.drawnFor text).drawn
    rw [Machine.drawnFor, Machine.drawnFor]
    split
    · exact congrArg (· + Address.digitCount) h.drawn_eq
    · exact h.drawn_eq
  · rw [drawnFor_outcomes, h.left]
  · rw [drawnFor_outcomes, h.right]

/-- **To begin a cycle** no outcome is needed, and none is used up. -/
theorem parallel_begins : (Law.paralleling (Agree os os')).Begins where
  current := parallel_current
  readAddress := parallel_readAddress
  setPhase _ := parallel_modify _
  setLink _ := parallel_modify _
  debug _ := parallel_note _
  held _ := parallel_note _

theorem parallel_readyCycle : Parallel (Agree os os') Override.readyCycle :=
  parallel_begins.readyCycle

end Begin

/-! ## Writing -/

theorem nextOutcome_facing (o : Outcome) (os : List Outcome) (s : Session) :
    Runner.nextOutcome (s.facing (o :: os)).machine = o := rfl

/-- Without a platform nothing is written, and nothing is used up. -/
theorem perform_of_unknown (a : Act) (c : Cycle)
    (h : s.override.writer.platformOn s.machine.host = none) :
    a.perform c s = (.error (.unsupportedPlatform
      (s.override.writer.platform.getD s.machine.host.platform)), s) :=
  a.perform_of_error (Writer.write_apply_of_none h _ _)

theorem parallel_same {x : Step Session α} (hx : ∀ os, Parallel (Agree os os) x) :
    Parallel Same x := by
  intro s t h
  obtain ⟨os, h⟩ := h
  obtain ⟨hresult, hstates⟩ := hx os s t h
  exact ⟨hresult, os, hstates⟩

/-- **A write** is decided by the platform and by the next outcome, which is used up. -/
theorem parallel_write (name address : String) :
    Parallel Same (Override.current >>= fun o => onMachine (o.writer.write name address)) := by
  intro s t h
  obtain ⟨os, hover, hhost, hdrawn, hs, ht⟩ := h
  have hnext : Runner.nextOutcome s.machine = Runner.nextOutcome t.machine := by
    rw [Runner.nextOutcome, Runner.nextOutcome, hs, ht]
  rw [bind_ok (Override.current_apply s), bind_ok (Override.current_apply t), ← hover]
  cases hp : s.override.writer.platformOn s.machine.host with
  | none =>
    have hwt := Writer.write_apply_of_none (hhost ▸ hp) name address
    rw [← hhost] at hwt
    rw [onMachine_of_eq (Writer.write_apply_of_none hp name address), onMachine_of_eq hwt]
    exact ⟨rfl, os, hover, hhost, hdrawn, hs, ht⟩
  | some p =>
    have hwt := Writer.write_apply_of_some (hhost ▸ hp) name address
    rw [← hhost, ← hnext] at hwt
    have htail : s.machine.outcomes.tail = t.machine.outcomes.tail := by rw [hs, ht]
    rw [onMachine_of_eq (Writer.write_apply_of_some hp name address), onMachine_of_eq hwt]
    exact ⟨rfl, _, hover, hhost, hdrawn, htail, rfl⟩

/-- **Starting and stopping** are the same for an override that cannot tell two sessions apart. -/
theorem parallel_operates : (Law.paralleling Same).Operates where
  current := parallel_same fun _ => parallel_current
  readAddress text := parallel_same fun _ => parallel_readAddress text
  setPhase _ := parallel_same fun _ => parallel_modify _
  setLink _ := parallel_same fun _ => parallel_modify _
  debug _ := parallel_same fun _ => parallel_note _
  held _ := parallel_same fun _ => parallel_note _
  write := parallel_write
  noted _ := parallel_same fun _ => parallel_note _
  info _ := parallel_same fun _ => parallel_note _

theorem parallel_perform (a : Act) (c : Cycle) : Parallel Same (a.perform c) :=
  parallel_operates.perform a c

theorem parallel_start : Parallel Same Override.start := parallel_operates.start

theorem parallel_stop : Parallel Same Override.stop := parallel_operates.stop

/-- A command that fails is used up, and leaves all else as it was. -/
theorem perform_of_failure (a : Act) (c : Cycle) {o : Outcome} (os : List Outcome)
    (hp : ∃ p, s.override.writer.platformOn s.machine.host = some p)
    (ho : o.isSuccess = false) :
    ∃ e t, a.perform c (s.facing (o :: os)) = (.error e, t) ∧ Same t (s.facing os) := by
  obtain ⟨p, hp⟩ := hp
  have hw := Writer.write_apply_of_some
    (show (s.facing (o :: os)).override.writer.platformOn (s.facing (o :: os)).machine.host = some p
      from hp) c.iface (a.address c)
  rw [nextOutcome_facing] at hw
  have hok := Writer.judge_answer_isOk s.override.writer.runner
    (Link.program :: p.arguments c.iface (a.address c))
    (s.override.writer.fullCommand s.machine.host p c.iface (a.address c)) o
  cases hj : Writer.judge (Link.program :: p.arguments c.iface (a.address c))
      (s.override.writer.runner.answer
        (s.override.writer.fullCommand s.machine.host p c.iface (a.address c)) o) with
  | error e =>
    have hresult : (s.facing (o :: os)).override.writer.write c.iface (a.address c)
        (s.facing (o :: os)).machine = (.error e, _) := hw.trans (congrArg (·, _) hj)
    exact ⟨e, _, a.perform_of_error hresult, os, rfl, rfl, rfl, rfl, rfl⟩
  | ok done =>
    rw [hj, ho] at hok
    exact absurd hok (by simp [Except.isOk, Except.toBool])

/-! ## Any number of attempts -/

/-- What is left of the session after a number of attempts, however they end. -/
def tried (x : Step Session Unit) (n : Nat) (s : Session) : Session := (fun t => (x t).2)^[n] s

section Tried

variable {x : Step Session Unit}

theorem tried_succ (n : Nat) (s : Session) : tried x (n + 1) s = tried x n (x s).2 := rfl

theorem same_tried (hx : Parallel Same x) (n : Nat) (h : Same s t) :
    Same (tried x n s) (tried x n t) := by
  induction n generalizing s t with
  | zero => exact h
  | succ n ih =>
    rw [tried_succ, tried_succ]
    exact ih (hx s t h).2

/-- The later attempt does what the first does, and a success leaves nothing to tell them apart. -/
def Converges (later first : Except Failure Unit × Session) : Prop :=
  later.1 = first.1 ∧ later.2.override = first.2.override ∧ (first.1.isOk → Same later.2 first.2)

theorem converges_of_error {r r' : Except Failure Unit × Session} (hr : r.1 = .error e)
    (hr' : r'.1 = .error e) (hover : r.2.override = r'.2.override) : Converges r r' := by
  refine ⟨hr.trans hr'.symm, hover, fun hok => ?_⟩
  rw [hr'] at hok
  exact absurd hok (by simp [Except.isOk, Except.toBool])

/-- What comes of two attempts cannot be told apart. -/
def Alike (r r' : Except Failure Unit × Session) : Prop := r.1 = r'.1 ∧ Same r.2 r'.2

theorem Alike.converges {r r' : Except Failure Unit × Session} (h : Alike r r') :
    Converges r r' := by
  obtain ⟨hresult, os, hstates⟩ := h
  exact ⟨hresult, hstates.override_eq, fun _ => ⟨os, hstates⟩⟩

theorem Converges.of_alike {r r' u u' : Except Failure Unit × Session} (h : Converges r r')
    (hr : Alike u r) (hr' : Alike u' r') : Converges u u' := by
  obtain ⟨hresult, hover, hok⟩ := h
  refine ⟨hr.1.trans (hresult.trans hr'.1.symm), ?_, fun hfirst => ?_⟩
  · exact hr.converges.2.1.trans (hover.trans hr'.converges.2.1.symm)
  · rw [hr'.1] at hfirst
    exact hr.2.trans ((hok hfirst).trans hr'.2.symm)

/-- A step that fails without any change goes on to fail. -/
theorem tried_of_stuck (h : x s = (.error e, s)) (n : Nat) : tried x n s = s := by
  induction n with
  | zero => rfl
  | succ n ih => rw [tried_succ, h, ih]

end Tried

/-! ## Starting again -/

section Digits

variable {m : Machine} {text : String}

theorem length_digitsOf (h : Address.asksRandom text = true) :
    (m.digitsOf text).length = Address.digitCount := by
  rw [Machine.digitsOf, if_pos h, List.length_map, List.length_range]

theorem drawnFor_of_not_read {fault : Address.Fault}
    (h : Address.read (m.digitsOf text) text = .error fault) : m.drawnFor text = m := by
  rw [Machine.drawnFor]
  split
  · next hrandom =>
    rw [Address.read_of_random (Address.asksRandom_iff.1 hrandom) (length_digitsOf hrandom)] at h
    exact absurd h (by simp)
  · rfl

/-- A text that is read once is read again, be it with other digits. -/
theorem read_drawnFor {desired : String}
    (h : Address.read (m.digitsOf text) text = .ok desired) :
    ∃ d, Address.read ((m.drawnFor text).digitsOf text) text = .ok d := by
  by_cases hrandom : Address.asksRandom text = true
  · exact ⟨_, Address.read_of_random (Address.asksRandom_iff.1 hrandom) (length_digitsOf hrandom)⟩
  · rw [Machine.drawnFor, if_neg hrandom]
    exact ⟨desired, h⟩

end Digits

/-- No cycle can begin. -/
def Stuck (e : Failure) (s : Session) : Prop := (Override.readyCycle s).1 = .error e

/-- **What keeps a cycle from beginning** is still there at the next attempt. -/
theorem Stuck.again (h : Stuck e s) : Stuck e (Override.readyCycle s).2 := by
  rw [Stuck] at h
  cases hphase : s.override.phase with
  | running c =>
    rw [readyCycle_of_running hphase] at h ⊢
    rw [Stuck, readyCycle_of_running hphase]
    exact h
  | configured c =>
    rw [readyCycle_of_configured hphase] at h
    exact absurd h (by simp)
  | unconfigured last =>
    have hready := readyCycle_of_unconfigured hphase
    cases hfree : s.override.obstacle? with
    | some e' =>
      rw [Stuck, hready, configure_of_obstacle hfree, hready]
      rw [hready] at h
      exact h
    | none =>
      cases hr : Address.read (s.machine.digitsOf s.override.settings.address)
          s.override.settings.address with
      | error fault =>
        have hsame := configure_of_invalid hfree hr
        rw [drawnFor_of_not_read hr] at hsame
        rw [Stuck, hready, hsame]
        rw [hready] at h
        show (Override.readyCycle s).1 = .error e
        rw [hready]
        exact h
      | ok desired =>
        cases ha : s.override.link.address with
        | none =>
          obtain ⟨d, hd⟩ := read_drawnFor hr
          rw [hready, configure_of_unknown hfree hr ha] at h
          rw [Stuck, hready, configure_of_unknown hfree hr ha]
          have hlater := readyCycle_of_unconfigured
            (s := ⟨s.machine.drawnFor s.override.settings.address, s.override⟩) hphase
          have hunknown := configure_of_unknown
            (s := ⟨s.machine.drawnFor s.override.settings.address, s.override⟩) hfree hd ha
          exact (congrArg Prod.fst (hlater.trans hunknown)).trans h
        | some original =>
          rw [hready, configure_of_known hfree hr ha] at h
          exact absurd h (by simp)

theorem Stuck.start_eq (h : Stuck e s) :
    Override.start s = (.error e, (Override.readyCycle s).2) := by
  rw [LinkOverride.start_eq]
  exact bind_error (Prod.ext h rfl) _

theorem Stuck.tried (h : Stuck e s) (n : Nat) :
    Stuck e (Session.tried Override.start n s) ∧
      (Session.tried Override.start n s).override = s.override := by
  induction n generalizing s with
  | zero => exact ⟨h, rfl⟩
  | succ n ih =>
    rw [tried_succ]
    have hstart := h.start_eq
    have hagain : Stuck e (Override.start s).2 := by
      rw [hstart]
      exact h.again
    obtain ⟨hstuck, hover⟩ := ih hagain
    refine ⟨hstuck, hover.trans ?_⟩
    rw [hstart]
    exact override_of_readyCycle_error (Prod.ext h rfl)

/-- If a cycle begins, starting does from the first time on what starting that cycle does. -/
theorem alike_start_of_ready (h : Override.readyCycle s = (.ok c, t)) (os : List Outcome) :
    Alike (Override.start (s.facing os)) (Override.start (t.facing os)) := by
  obtain ⟨hresult, hstates⟩ := parallel_readyCycle _ _ (agree_facing os s)
  rw [h] at hresult hstates
  have hready : Override.readyCycle (s.facing os) =
      (.ok c, (Override.readyCycle (s.facing os)).2) := Prod.ext hresult.symm rfl
  have hsame : Same (Override.readyCycle (s.facing os)).2 (t.facing os) :=
    ⟨os, hstates.override_eq.symm, hstates.host_eq.symm, hstates.drawn_eq.symm, hstates.right, rfl⟩
  have hphase : (t.facing os).override.phase = .configured c := by
    rw [facing_override, readyCycle_ok h]
  rw [start_eq, bind_ok hready, bind_ok (readyCycle_of_configured hphase)]
  exact parallel_perform .starting c _ _ hsame

theorem alike_tried_start (h : Override.readyCycle s = (.ok c, t)) (n : Nat)
    (os : List Outcome) :
    Alike (Override.start (tried Override.start n (s.facing os)))
      (Override.start (tried Override.start n (t.facing os))) := by
  have hfirst := alike_start_of_ready h os
  cases n with
  | zero => exact hfirst
  | succ n => exact parallel_start _ _ (same_tried parallel_start n hfirst.2)

/-! ## The law of attempts -/

section Convergence

variable {x : Step Session Unit} {failed : List Outcome}

/-- A step whose failures are used up comes, by failing, to where the failures are over. -/
theorem same_tried_of_failures (hx : Parallel Same x)
    (hfail : ∀ o os, o.isSuccess = false → Same (x (s.facing (o :: os))).2 (s.facing os))
    (hfailed : ∀ o ∈ failed, o.isSuccess = false) (os : List Outcome) :
    Same (tried x failed.length (s.facing (failed ++ os))) (s.facing os) := by
  induction failed with
  | nil => exact same_refl _
  | cons o failed ih =>
    have hfirst : Same (x (s.facing (o :: (failed ++ os)))).2 (s.facing (failed ++ os)) :=
      hfail o _ (hfailed o List.mem_cons_self)
    exact (same_tried hx failed.length hfirst).trans
      (ih fun o' ho' => hfailed o' (List.mem_cons_of_mem o ho'))

/-- An address that could not be written is written by the next attempt whose command succeeds. -/
theorem converges_of_act (a : Act) (hx : Parallel Same x)
    (hact : ∀ os, x (s.facing os) = a.perform c (s.facing os))
    (hfailed : ∀ o ∈ failed, o.isSuccess = false) (os : List Outcome) :
    Converges (x (tried x failed.length (s.facing (failed ++ os)))) (x (s.facing os)) := by
  cases hp : s.override.writer.platformOn s.machine.host with
  | none =>
    have hstuck : ∀ l, x (s.facing l) = (.error (.unsupportedPlatform
        (s.override.writer.platform.getD s.machine.host.platform)), s.facing l) :=
      fun l => (hact l).trans (perform_of_unknown a c hp)
    rw [tried_of_stuck (hstuck _), hstuck, hstuck]
    exact converges_of_error rfl rfl rfl
  | some p =>
    refine Alike.converges (hx _ _ (same_tried_of_failures hx ?_ hfailed os))
    intro o os ho
    obtain ⟨e, t, hfails, hsame⟩ := perform_of_failure a c os ⟨p, hp⟩ ho
    rw [hact, hfails]
    exact hsame

/-- **Starting again.** After any number of commands that have failed, a start does what it would
have done at first. -/
theorem converges_start (s : Session) (hfailed : ∀ o ∈ failed, o.isSuccess = false)
    (os : List Outcome) :
    Converges (Override.start (tried Override.start failed.length (s.facing (failed ++ os))))
      (Override.start (s.facing os)) := by
  rcases hready : Override.readyCycle s with ⟨e | c, t⟩
  · have hstuck : ∀ l, Stuck e (s.facing l) := by
      intro l
      rw [Stuck, ← (parallel_readyCycle _ _ (agree_facing l s)).1, hready]
    obtain ⟨hlater, hover⟩ := (hstuck (failed ++ os)).tried failed.length
    rw [hlater.start_eq, (hstuck os).start_eq]
    refine converges_of_error rfl rfl ?_
    rw [override_of_readyCycle_error (Prod.ext hlater rfl), hover,
      override_of_readyCycle_error (Prod.ext (hstuck os) rfl)]
    rfl
  · have hact : ∀ l, Override.start (t.facing l) = Act.starting.perform c (t.facing l) := by
      intro l
      have hphase : (t.facing l).override.phase = .configured c := by
        rw [facing_override, readyCycle_ok hready]
      rw [start_eq, bind_ok (readyCycle_of_configured hphase)]
    exact (converges_of_act .starting parallel_start hact hfailed os).of_alike
      (alike_tried_start hready _ _) (alike_start_of_ready hready os)

/-- **Stopping again.** -/
theorem converges_stop (s : Session) (hfailed : ∀ o ∈ failed, o.isSuccess = false)
    (os : List Outcome) :
    Converges (Override.stop (tried Override.stop failed.length (s.facing (failed ++ os))))
      (Override.stop (s.facing os)) := by
  cases hc : s.override.phase.cycle? with
  | none =>
    have hstop : ∀ l, Override.stop (s.facing l) = (.error .notConfigured, s.facing l) :=
      fun l => stop_eq_of_none hc
    rw [tried_of_stuck (hstop _), hstop, hstop]
    exact converges_of_error rfl rfl rfl
  | some c =>
    exact converges_of_act .stopping parallel_stop (fun l => stop_eq_of_some hc) hfailed os

end Convergence

/-- **An operation that fails can be tried again.** -/
theorem retries_converge (s : Session) :
    (∀ e t, Override.configure s = (.error e, t) → t.override = s.override) ∧
    (∀ l e t, Override.attach l s = (.error e, t) → t.override = s.override) ∧
    (∀ e t, Override.stop s = (.error e, t) → t.override = s.override) ∧
    (∀ e t, Override.start s = (.error e, t) →
      t.override = s.override ∧ (∀ c u, Override.configure s ≠ (.ok c, u)) ∨
        ∃ c u, Override.configure s = (.ok c, u) ∧ t.override = u.override ∧
          u.override = { s.override with phase := .configured c }) ∧
    ∀ failed os : List Outcome, (∀ o ∈ failed, o.isSuccess = false) →
      Converges (Override.start (tried Override.start failed.length (s.facing (failed ++ os))))
          (Override.start (s.facing os)) ∧
        Converges (Override.stop (tried Override.stop failed.length (s.facing (failed ++ os))))
          (Override.stop (s.facing os)) := by
  refine ⟨fun e t => override_of_configure_error, fun l e t h => ?_, fun e t => override_of_stop_error,
    fun e t h => ?_, fun failed os hfailed => ?_⟩
  · rw [attach_error h]
  · obtain ⟨c, u, hconfigure, hover⟩ | ⟨hnone, hsame⟩ := start_error_cases h
    · exact .inr ⟨c, u, hconfigure, hover, (override_of_configure hconfigure).2⟩
    · exact .inl ⟨hsame, hnone⟩
  · exact ⟨converges_start s hfailed os, converges_stop s hfailed os⟩

end Session

end LinkOverride
