import LinkOverride.Proofs.Calls
import LinkOverride.Proofs.ExitCode
import LinkOverride.Proofs.ProfileOption

/-!
# What the program refuses

Before a session is opened, the platform, the interface and the address are checked, in this order,
and then the interface is read. The exit code three says that the platform is not known, and the code
two that one of the others is not as it should be. No session ends with one of these codes.

Up to the reading of the interface no command is run, and the reading runs one at most.
-/

namespace LinkOverride

open Machine (Adds Between)
open Step

/-! ## The words of the options -/

/-- A text, or the empty list that stands for no word. -/
def Value.IsWord (v : Value) : Prop := (∃ w, v = .str w) ∨ v = .list []

structure Options.Plain (o : Options) : Prop where
  iface : o.iface.IsWord
  address : o.address.IsWord

namespace CommandLine

theorem wordValue_isWord (w : String) : (wordValue w).IsWord := by
  rw [wordValue]
  split
  · exact .inr rfl
  · exact .inl ⟨w, rfl⟩

theorem plain_of_effect {o : Opt} {w : String} {p p' : Progress} (h : effect o w p = .ok p')
    (hp : p.options.Plain) : p'.options.Plain := by
  cases o with
  | timeout =>
    rw [effect] at h
    split at h
    · rw [← Except.ok.inj h]
      exact ⟨hp.iface, hp.address⟩
    · exact absurd h (by simp)
  | help => exact absurd h (by simp [effect])
  | version => exact absurd h (by simp [effect])
  | iface =>
    rw [← Except.ok.inj h]
    exact ⟨wordValue_isWord w, hp.address⟩
  | address =>
    rw [← Except.ok.inj h]
    exact ⟨hp.iface, wordValue_isWord w⟩
  | _ =>
    rw [← Except.ok.inj h]
    exact ⟨hp.iface, hp.address⟩

theorem plain_of_effects {es : List (Opt × String)} {p p' : Progress}
    (h : effects es p = .ok p') (hp : p.options.Plain) : p'.options.Plain := by
  induction es generalizing p with
  | nil => rwa [← Except.ok.inj h]
  | cons e es ih =>
    obtain ⟨q, hq, hrest⟩ := effects_cons_eq_ok h
    exact ih hrest (plain_of_effect hq hp)

theorem plain_of_read {ms : List (String × Mark)} {p p' : Progress} (h : read ms p = .ok p')
    (hp : p.options.Plain) : p'.options.Plain := by
  induction ms, p using read.induct with
  | case1 p => rwa [← Except.ok.inj h]
  | case2 w n ms p f hunfold =>
    rw [read, hunfold] at h
    exact absurd h (by simp)
  | case3 w n ms p es hunfold ih =>
    rw [read, hunfold] at h
    obtain ⟨q, hq, hread⟩ := bind_eq_ok_iff.1 h
    exact ih q hread (plain_of_effects hq hp)
  | case4 w n p es o hunfold name ms ih =>
    rw [read, hunfold] at h
    obtain ⟨q, hq, hread⟩ := bind_eq_ok_iff.1 h
    exact ih q hread (plain_of_effects hq hp)
  | case5 w n ms p es o hunfold hnext =>
    obtain ⟨name, ms', hms⟩ := read_of_pending hunfold h
    exact absurd hms (hnext name ms')
  | case6 w m ms p hm ih =>
    rw [read_other hm] at h
    exact ih h hp

theorem plain_of_finish {p : Progress} {o : Options} (h : finish p = .ok o)
    (hp : p.options.Plain) : o.Plain := by
  obtain ⟨-, hsettle⟩ := finish_eq_ok h
  obtain ⟨hother, -⟩ := settleTimeout_eq_ok hsettle
  rw [hother]
  exact ⟨hp.iface, hp.address⟩

/-- **The interface and the address** of a command line are words. -/
theorem plain_of_parse {s : Settings} {words : List String} {o : Options}
    (h : parse s words = .accepted o) : o.Plain := by
  obtain ⟨ms, p, -, hread, hfinish⟩ := progress_of_parse h
  have hp : (Progress.mk (.ofSettings s) []).options.Plain := ⟨.inl ⟨s.iface, rfl⟩, .inl ⟨_, rfl⟩⟩
  exact plain_of_finish hfinish (plain_of_read hread hp)

end CommandLine

/-! ## Failures of opening an interface -/

namespace Step

variable {σ α β : Type} {P Q : Failure → Prop}

/-- The step fails in no other way. -/
def FailsAs (P : Failure → Prop) (x : Step σ α) : Prop := ∀ s e s', x s = (.error e, s') → P e

theorem failsAs_pure (a : α) : FailsAs P (pure a : Step σ α) :=
  fun _ _ _ h => absurd h (by simp)

theorem failsAs_fail {e : Failure} (he : P e) : FailsAs P (fail e : Step σ α) := by
  intro s e' s' h
  rw [← Except.error.inj (Prod.mk.inj h).1]
  exact he

theorem failsAs_current : FailsAs P (current : Step σ σ) := fun _ _ _ h => absurd h (by simp)

theorem failsAs_note (e : Event) : FailsAs P (Machine.note e) :=
  fun _ _ _ h => absurd h (by simp [Machine.note])

theorem FailsAs.mono {x : Step σ α} (hx : FailsAs P x) (h : ∀ e, P e → Q e) : FailsAs Q x :=
  fun s e s' hs => h e (hx s e s' hs)

theorem FailsAs.bind {x : Step σ α} {f : α → Step σ β} (hx : FailsAs P x)
    (hf : ∀ a, FailsAs P (f a)) : FailsAs P (x >>= f) := by
  intro s e s' h
  rcases hr : x s with ⟨e' | a, t⟩
  · rw [bind_error hr] at h
    rw [← Except.error.inj (Prod.mk.inj h).1]
    exact hx s e' t hr
  · rw [bind_ok hr] at h
    exact hf a t e s' h

/-- What is done with a failure may rely on what kind of failure it is. -/
theorem FailsAs.attempt_bind {x : Step σ α} {f : Except Failure α → Step σ β} (hx : FailsAs P x)
    (hok : ∀ a, FailsAs Q (f (.ok a))) (herror : ∀ e, P e → FailsAs Q (f (.error e))) :
    FailsAs Q (x.attempt >>= f) := by
  intro s e s' h
  rw [bind_ok (attempt_apply x s)] at h
  rcases hr : x s with ⟨e' | a, t⟩
  · rw [hr] at h
    exact herror e' (hx s e' t hr) _ e s' h
  · rw [hr] at h
    exact hok a _ e s' h

end Step

/-- The failure is one of a command, a file or an interface. -/
def Failure.isOfReading : Failure → Bool
  | misconfigured _ => true
  | commandFailed _ => true
  | system _ => true
  | badValue _ => true
  | undecodable => true
  | interrupted => true
  | _ => false

/-- The failure is not that a text is no address. -/
def Failure.isOther : Failure → Bool
  | .invalidAddress _ _ => false
  | _ => true

theorem Failure.isOther_of_isOfReading {e : Failure} (h : e.isOfReading = true) :
    e.isOther = true := by
  cases e <;> simp_all [isOfReading, isOther]

/-- The step fails only as a command, a file or an interface does. -/
abbrev Step.FailsReading {σ α : Type} (x : Step σ α) : Prop := FailsAs (·.isOfReading = true) x

namespace Link

theorem failsReading_readText (p : Path) : FailsReading (Machine.readText p) := by
  intro m e m' h
  have he : (Machine.readText p m).1 = .error e := congrArg Prod.fst h
  rw [Machine.readText] at he
  split at he
  · rw [← Except.error.inj he]; rfl
  · rw [← Except.error.inj he]; rfl
  · rw [← Except.error.inj he]; rfl
  · split at he
    · exact absurd he (by simp)
    · rw [← Except.error.inj he]; rfl

theorem failsReading_ownText (name : String) : FailsReading (ownText name) := by
  refine failsAs_current.bind fun m => ?_
  split
  · refine failsAs_current.bind fun m => ?_
    split
    · refine (failsReading_readText _).attempt_bind (fun s => failsAs_pure _) fun e he => ?_
      split
      · exact failsAs_pure _
      · exact (failsAs_note _).bind fun _ => failsAs_pure _
      · next heq =>
        rw [← Except.error.inj heq]
        exact failsAs_fail he
    · exact failsAs_pure _
  · exact failsAs_pure none

theorem failsReading_run (command : List String) :
    FailsReading (Runner.unprivileged.run command) := by
  intro m e m' h
  rw [Runner.run_apply] at h
  have he := (Prod.mk.inj h).1
  cases ho : Runner.nextOutcome m with
  | finished status out err =>
    rw [ho] at he
    exact absurd he (by simp [Runner.answer])
  | _ =>
    rw [ho] at he
    rw [← Except.error.inj he]
    rfl

theorem failsReading_fromCommand (name : String) :
    FailsReading (fromCommand name .unprivileged) := by
  refine (failsReading_run _).attempt_bind (fun done => ?_) fun e he => ?_
  · dsimp only
    split
    · exact failsAs_fail rfl
    · exact failsAs_pure _
  · split
    · next heq => exact nomatch heq
    · exact failsAs_fail rfl
    · next heq =>
      rw [← Except.error.inj heq]
      exact failsAs_fail he

theorem readAddress_error {text : String} {m m' : Machine} {e : Failure}
    (h : Machine.readAddress text m = (.error e, m')) : ∃ fault, e = .invalidAddress text fault := by
  rw [Machine.readAddress_apply] at h
  have he := (Prod.mk.inj h).1
  cases hr : Address.read (m.digitsOf text) text with
  | ok a =>
    rw [hr] at he
    cases he
  | error fault =>
    rw [hr] at he
    exact ⟨fault, (Except.error.inj he).symm⟩

/-- **Opening an interface** fails as a command, a file or an interface does, and never as the check
of an address. -/
theorem failsReading_acquire (name : String) : FailsReading (acquire name .unprivileged) := by
  have htext : FailsReading (addressText? name .unprivileged) := by
    refine (failsReading_ownText name).bind fun own => ?_
    split
    · exact failsAs_pure _
    · exact failsReading_fromCommand name
  have hread : FailsReading (readAddress name .unprivileged) := by
    refine htext.bind fun found => ?_
    split
    · exact failsAs_fail rfl
    · next raw =>
      have hinvalid : FailsAs (fun e => ∃ fault, e = .invalidAddress raw fault)
          (Machine.readAddress raw) := fun _ _ _ => readAddress_error
      refine hinvalid.attempt_bind (fun a => failsAs_pure a) fun e he => ?_
      obtain ⟨fault, rfl⟩ := he
      exact failsAs_fail rfl
  exact hread.bind fun a => (failsAs_note _).bind fun _ => failsAs_pure _

end Link

/-! ## What may be refused -/

namespace Options

variable (o : Options) (m : Machine)

/-- No interface is named. -/
def NoInterface : Prop := o.iface.isTruthy = false

/-- The address does not ask for a random one, and cannot be read. -/
def AddressRejected : Prop :=
  o.address ≠ .str Address.randomWord ∧ ∀ a, (Machine.readAddressValue o.address m).1 ≠ .ok a

/-- The machine once the address has been looked at. -/
def checkedOn : Machine :=
  if o.address.isText Address.randomWord then m else (Machine.readAddressValue o.address m).2

/-- The interface cannot be opened, for a reason that is the user's to settle. -/
def Unopened : Prop :=
  ∃ n reason, o.iface = .str n ∧
    (Link.acquire n .unprivileged (o.checkedOn m)).1 = .error (.misconfigured reason)

end Options

namespace Program

variable {words : List String} {s : Settings} {o : Options} {m m' : Machine} {p : Platform}
  {n : String}

theorem between_checkedOn (o : Options) (m : Machine) : Between m (o.checkedOn m) [] := by
  rw [Options.checkedOn]
  split
  · exact Machine.between_of_grows (Machine.grows_refl _ m)
  · exact Machine.between_of_grows (Machine.adds_readAddressValue _ _ m)

/-- An address that is a word is read, or it is said that it cannot be. -/
theorem readAddressValue_cases (ho : o.Plain) (m : Machine) :
    (∃ a m', Machine.readAddressValue o.address m = (.ok a, m')) ∨
      ∃ value fault m', Machine.readAddressValue o.address m =
        (.error (.invalidAddress value fault), m') := by
  rcases ho.address with ⟨w, hw⟩ | hw
  · rw [hw]
    rcases hread : Machine.readAddress w m with ⟨e | a, m'⟩
    · obtain ⟨fault, rfl⟩ := Link.readAddress_error hread
      exact .inr ⟨w, fault, m', hread⟩
    · exact .inl ⟨a, m', hread⟩
  · rw [hw]
    exact .inr ⟨_, _, m, rfl⟩

theorem openChecked_of_rejected (ho : o.Plain) (h : o.AddressRejected m) :
    ∃ value fault m', openChecked n o.address m = (.error (.invalidAddress value fault), m') ∧
      Between m m' [] := by
  obtain ⟨hrandom, hrejected⟩ := h
  have hgrows := Machine.adds_readAddressValue Event.IsMute o.address m
  rcases readAddressValue_cases ho m with ⟨a, m', hread⟩ | ⟨value, fault, m', hread⟩
  · exact absurd (congrArg Prod.fst hread) (hrejected a)
  · rw [hread] at hgrows
    refine ⟨value, fault, m', ?_, Machine.between_of_grows hgrows⟩
    rw [openChecked, Bool.eq_false_iff.2 (mt Value.isText_iff.1 hrandom)]
    exact bind_error hread _

theorem openChecked_of_accepted (ho : o.Plain) (h : ¬o.AddressRejected m) :
    openChecked n o.address m = Link.acquire n .unprivileged (o.checkedOn m) := by
  by_cases hrandom : o.address = .str Address.randomWord
  · have htext := Value.isText_iff.2 hrandom
    rw [openChecked, Options.checkedOn, htext]
    rfl
  · have htext := Bool.eq_false_iff.2 (mt Value.isText_iff.1 hrandom)
    rcases readAddressValue_cases ho m with ⟨a, m', hread⟩ | ⟨value, fault, m', hread⟩
    · rw [openChecked, Options.checkedOn, htext, hread]
      exact bind_ok hread _
    · refine absurd ⟨hrandom, fun a hok => ?_⟩ h
      rw [hread] at hok
      exact absurd hok (by simp)

/-! ## The checks -/

section Begin

variable (s) (p)

theorem beginSession_of_refused {e : Failure} (h : openChecked n o.address m = (.error e, m'))
    (he : (∃ reason, e = .misconfigured reason) ∨ ∃ value fault, e = .invalidAddress value fault) :
    ∃ m'', beginSession s o p n m = (.ok (.done 2), m'') ∧ Between m' m'' [] := by
  have hattempt : (openChecked n o.address).attempt m = (.ok (.error e), m') := by
    rw [attempt_apply, h]
  have hmute := Machine.between_of_grows (Machine.mute_of_talk
    (Machine.adds_error s!"[FAIL] Configuration error: {e.message}") m')
  rw [beginSession, bind_ok hattempt]
  rcases he with ⟨reason, rfl⟩ | ⟨value, fault, rfl⟩
  · exact ⟨_, rfl, hmute⟩
  · exact ⟨_, rfl, hmute⟩

theorem beginSession_of_failed {e : Failure} (h : openChecked n o.address m = (.error e, m'))
    (hmis : ∀ reason, e ≠ .misconfigured reason) (hother : e.isOther = true) :
    beginSession s o p n m = (.error e, m') := by
  have hattempt : (openChecked n o.address).attempt m = (.ok (.error e), m') := by
    rw [attempt_apply, h]
  rw [beginSession, bind_ok hattempt]
  cases e with
  | misconfigured reason => exact absurd rfl (hmis reason)
  | invalidAddress value fault => exact absurd hother (by simp [Failure.isOther])
  | _ => rfl

/-- **A session is not begun** if the address is rejected or the interface cannot be opened. -/
theorem beginSession_cases (ho : o.Plain) (hiface : o.iface = .str n) :
    (o.AddressRejected m ∧ ∃ m', beginSession s o p n m = (.ok (.done 2), m') ∧
        Between m m' []) ∨
      ¬o.AddressRejected m ∧
        (o.Unopened m ∧ (∃ m', beginSession s o p n m = (.ok (.done 2), m') ∧ Link.Reads n m m') ∨
          ¬o.Unopened m ∧ ((∃ e m', beginSession s o p n m = (.error e, m')) ∨
            ∃ v on m', beginSession s o p n m = (.ok (.session v on), m'))) := by
  by_cases hrejected : o.AddressRejected m
  · obtain ⟨value, fault, m₁, hopen, hmute⟩ := openChecked_of_rejected (n := n) ho hrejected
    obtain ⟨m₂, hdone, hmute'⟩ := beginSession_of_refused s p hopen (.inr ⟨value, fault, rfl⟩)
    exact .inl ⟨hrejected, m₂, hdone, hmute.trans hmute'⟩
  · refine .inr ⟨hrejected, ?_⟩
    have hopen := openChecked_of_accepted (n := n) ho hrejected
    have hreads := (Link.reads_acquire n (o.checkedOn m)).after (between_checkedOn o m)
    rcases hacquire : Link.acquire n .unprivileged (o.checkedOn m) with ⟨e | l, m₁⟩
    · rw [hacquire] at hopen hreads
      have hother := Failure.isOther_of_isOfReading (Link.failsReading_acquire n _ _ _ hacquire)
      by_cases hmis : ∃ reason, e = .misconfigured reason
      · obtain ⟨reason, rfl⟩ := hmis
        obtain ⟨m₂, hdone, hmute⟩ := beginSession_of_refused s p hopen (.inl ⟨reason, rfl⟩)
        exact .inl ⟨⟨n, reason, hiface, congrArg Prod.fst hacquire⟩, m₂, hdone,
          hreads.before hmute⟩
      · refine .inr ⟨?_, .inl ⟨e, m₁, beginSession_of_failed s p hopen ?_ hother⟩⟩
        · intro h
          obtain ⟨n', reason, hn', herror⟩ := h
          rw [← Value.str.inj (hiface.symm.trans hn'), hacquire] at herror
          exact hmis ⟨reason, Except.error.inj herror⟩
        · exact fun reason he => hmis ⟨reason, he⟩
    · rw [hacquire] at hopen
      refine .inr ⟨?_, .inr ?_⟩
      · intro h
        obtain ⟨n', reason, hn', herror⟩ := h
        rw [← Value.str.inj (hiface.symm.trans hn'), hacquire] at herror
        exact absurd herror (by simp)
      · rw [beginSession, bind_ok (show (openChecked n o.address).attempt m = (.ok (.ok l), m₁) by
          rw [attempt_apply, hopen])]
        exact ⟨_, _, _, rfl⟩

end Begin

/-! ## The order of the checks -/

section Work

variable (hinit : o.initConfig = false) (hshow : o.showConfig = false)

include hinit hshow

theorem work_of_unsupported (hp : Platform.detect? m.host.platform = none) :
    ∃ m', work s o m = (.ok (.done 3), m') ∧ Between m m' [] := by
  rw [work, hinit, if_neg Bool.false_ne_true, hshow, if_neg Bool.false_ne_true,
    bind_ok (Step.current_apply m), hp]
  exact ⟨_, rfl, Machine.between_of_grows (Machine.mute_of_talk (Machine.adds_error _) m)⟩

theorem work_of_noInterface (ho : o.Plain) (hp : Platform.detect? m.host.platform = some p)
    (h : o.NoInterface) : ∃ m', work s o m = (.ok (.done 2), m') ∧ Between m m' [] := by
  have hmute := Machine.between_of_grows (Machine.mute_of_talk adds_noInterface m)
  rw [work, hinit, if_neg Bool.false_ne_true, hshow, if_neg Bool.false_ne_true,
    bind_ok (Step.current_apply m), hp]
  rcases ho.iface with ⟨w, hw⟩ | hw
  · rw [Options.NoInterface, hw, Value.isTruthy_str] at h
    rw [hw]
    dsimp only
    rw [if_pos (String.isEmpty_iff.1 (by simpa using h))]
    exact ⟨_, rfl, hmute⟩
  · rw [hw]
    exact ⟨_, rfl, hmute⟩

theorem work_of_named (ho : o.Plain) (hp : Platform.detect? m.host.platform = some p)
    (h : ¬o.NoInterface) : ∃ n, o.iface = .str n ∧ work s o m = beginSession s o p n m := by
  rcases ho.iface with ⟨w, hw⟩ | hw
  · refine ⟨w, hw, ?_⟩
    rw [Options.NoInterface, hw, Value.isTruthy_str] at h
    rw [work, hinit, if_neg Bool.false_ne_true, hshow, if_neg Bool.false_ne_true,
      bind_ok (Step.current_apply m), hp, hw]
    dsimp only
    rw [if_neg fun he => h (by rw [he]; rfl)]
  · rw [Options.NoInterface, hw] at h
    exact absurd rfl h

end Work

/-- What asks for no session is not given one. -/
theorem not_session_of_noSession (h : o.initConfig = true ∨ o.showConfig = true)
    {v : Override} {on : Bool} : work s o m ≠ (.ok (.session v on), m') := by
  have hdone : ∀ {α : Type} {x : Step Machine α} {code : α → Nat},
      (x >>= fun a => pure (Task.done (code a))) m ≠ (.ok (.session v on), m') := by
    intro α x code hd
    obtain ⟨a, t, -, hpure⟩ := bind_eq_ok hd
    exact absurd hpure (by simp)
  rw [work]
  by_cases hinit : o.initConfig = true
  · rw [if_pos hinit]
    exact hdone
  · rw [if_neg hinit, if_pos (h.resolve_left hinit)]
    exact hdone

/-! ## The run -/

/-- The program comes to an end with the exit code. -/
def Returns (words : List String) (m : Machine) (code : Nat) : Prop :=
  ∃ r m', run words m = (.ok r, m') ∧ r.code = code

/-- The program runs no command. -/
def RunsNothing (words : List String) (m : Machine) : Prop := Between m (run words m).2 []

/-- The program runs no command that writes an address. -/
def WritesNothing (words : List String) (m : Machine) : Prop :=
  ∃ es, (run words m).2.trace = m.trace ++ es ∧ ∀ e ∈ es, e.write? = none

theorem RunsNothing.writesNothing (h : RunsNothing words m) : WritesNothing words m := by
  have hreads : Link.Reads "" m (run words m).2 := .inl h
  obtain ⟨es, htrace, -⟩ := h
  exact ⟨es, htrace, hreads.write?_eq_none htrace⟩

theorem writesNothing_of_reads (h : Link.Reads n m (run words m).2) : WritesNothing words m := by
  have htrace : ∃ es, (run words m).2.trace = m.trace ++ es := by
    rcases h with ⟨es, htrace, -⟩ | ⟨o, es, htrace, -⟩
    · exact ⟨es, htrace⟩
    · exact ⟨es, htrace⟩
  obtain ⟨es, htrace⟩ := htrace
  exact ⟨es, htrace, h.write?_eq_none htrace⟩

theorem returns_iff_of_run {r : Result} (h : run words m = (.ok r, m')) {code : Nat} :
    Returns words m code ↔ r.code = code := by
  constructor
  · intro hreturns
    obtain ⟨r', m'', hrun, hcode⟩ := hreturns
    rw [Except.ok.inj (Prod.mk.inj (h.symm.trans hrun)).1]
    exact hcode
  · exact fun hcode => ⟨r, m', h, hcode⟩

theorem not_returns_of_error {e : Failure} (h : run words m = (.error e, m')) {code : Nat} :
    ¬Returns words m code := by
  intro hreturns
  obtain ⟨r, m'', hrun, -⟩ := hreturns
  exact absurd (h.symm.trans hrun) (by simp)

section Accepted

variable {m₀ : Machine} (hload : loadSettings words m = (.ok s, m₀))

include hload

theorem between_loadSettings : Between m m₀ [] := by
  have hgrows := Machine.mute_of_talk (adds_loadSettings words) m
  rw [hload] at hgrows
  exact Machine.between_of_grows hgrows

theorem host_of_loadSettings : m₀.host = m.host := by
  have hgrows := adds_loadSettings words m
  rw [hload] at hgrows
  exact hgrows.1

/-- A command line that is not accepted is the end of the program. -/
theorem run_of_not_accepted (hparse : ∀ o, CommandLine.parse s words ≠ .accepted o) :
    (run words m).2 = m₀ := by
  rcases hanswer : CommandLine.answer m₀.host.optionGroup s words with e | bye | o
  · have hprepare : prepare words m = (.error e, m₀) := by
      rw [prepare, bind_ok hload, bind_ok (current_apply m₀), hanswer]
      exact bind_error (ofExcept_apply _ _) _
    rw [run, bind_error hprepare]
  · have hprepare : prepare words m = (.ok (.error bye), m₀) := by
      rw [prepare, bind_ok hload, bind_ok (current_apply m₀), hanswer]
      exact bind_ok (ofExcept_apply _ _) _
    rw [run, bind_ok hprepare]
    rfl
  · rw [CommandLine.answer] at hanswer
    split at hanswer
    · next o' haccepted => exact absurd haccepted (hparse o')
    · obtain ⟨text, -, htext⟩ := map_eq_ok_iff.1 hanswer
      exact absurd htext (by simp)
    · exact absurd hanswer (by simp)
    · exact absurd hanswer (by simp)

variable (hparse : CommandLine.parse s words = .accepted o)

include hparse

theorem prepare_of_accepted {r : Except Failure Task} (hwork : work s o m₀ = (r, m')) :
    prepare words m = (r.map fun task => .ok (o, task), m') := by
  have hanswer : CommandLine.answer m₀.host.optionGroup s words = .ok (.ok o) := by
    rw [CommandLine.answer, hparse]
  rw [prepare, bind_ok hload, bind_ok (current_apply m₀), hanswer, bind_ok (ofExcept_apply _ _)]
  cases r with
  | error e => exact bind_error hwork _
  | ok task => exact bind_ok hwork _

theorem run_of_workError {e : Failure} (hwork : work s o m₀ = (.error e, m')) :
    run words m = (.error e, m') := by
  rw [run, bind_error (prepare_of_accepted hload hparse hwork)]

theorem run_of_done {code : Nat} (hwork : work s o m₀ = (.ok (.done code), m')) :
    ∃ verbosity, run words m = (.ok ⟨code, "", "", verbosity⟩, m') := by
  rw [run, bind_ok (prepare_of_accepted hload hparse hwork)]
  exact ⟨_, rfl⟩

/-- **A session** ends with zero, one, or the code of an interruption. -/
theorem code_of_session {v : Override} {on : Bool} {code : Nat}
    (hwork : work s o m₀ = (.ok (.session v on), m')) (h : Returns words m code) :
    code = 0 ∨ code = 1 ∨ code = 130 := by
  obtain ⟨r, m'', hrun, rfl⟩ := h
  rw [run_of_prepare (prepare_of_accepted hload hparse hwork)] at hrun
  rcases hconverse : converse on (.opening v m') with ⟨e | code, u⟩
  · rw [hconverse] at hrun
    exact absurd hrun (by simp [Except.map])
  rw [hconverse] at hrun
  rw [← Except.ok.inj (Prod.mk.inj hrun).1]
  show code = 0 ∨ code = 1 ∨ code = 130
  obtain ⟨started, t, -, hstarted⟩ := bind_eq_ok hconverse
  cases started with
  | false => exact .inr (.inl (Except.ok.inj (Prod.mk.inj hstarted).1).symm)
  | true =>
    rcases hloop : Session.loop t.machine.typed t with ⟨e | ending, u⟩
    · have hfailed := Session.run_of_error hloop
      exact absurd (hfailed.symm.trans hstarted) (by simp)
    · rcases (Session.code_of_run hloop hstarted).2 with ⟨hone, -⟩ | ⟨hcode, -⟩
      · exact .inr (.inl hone)
      · rw [hcode]
        cases ending with
        | quit => exact .inl rfl
        | interrupted => exact .inr (.inr rfl)

/-- What asks for no session runs no command. -/
theorem runsNothing_of_noSession (h : o.initConfig = true ∨ o.showConfig = true) :
    RunsNothing words m := by
  have hmute : Adds Event.IsMute (work s o) := by
    have hshow : Adds Event.IsMute (Display.configuration o.iface o.address
        { s with withSudo := o.withSudo, timeout := o.timeout }) :=
      Machine.mute_of_talk (Display.adds_configuration _ _ _)
    unfold work
    split
    · exact (Machine.mute_of_talk adds_makeFile).bind fun _ => respects_pure _
    split
    · exact hshow.bind fun _ => respects_pure _
    · next hinit hshow' => exact absurd h (by simp [hinit, hshow'])
  have hall := (between_loadSettings hload).trans (Machine.between_of_grows (hmute m₀))
  rw [RunsNothing]
  rcases hwork : work s o m₀ with ⟨e | code | ⟨v, on⟩, m'⟩
  · rw [hwork] at hall
    rwa [run_of_workError hload hparse hwork]
  · rw [hwork] at hall
    obtain ⟨verbosity, hrun⟩ := run_of_done hload hparse hwork
    rwa [hrun]
  · exact absurd hwork (not_session_of_noSession h)

variable (hinit : o.initConfig = false) (hshow : o.showConfig = false)

include hinit hshow

theorem refusal_unsupported (hp : Platform.detect? m.host.platform = none) :
    (∀ code, Returns words m code ↔ 3 = code) ∧ RunsNothing words m := by
  rw [← host_of_loadSettings hload] at hp
  obtain ⟨m', hwork, hmute⟩ := work_of_unsupported hinit hshow hp
  obtain ⟨verbosity, hrun⟩ := run_of_done hload hparse hwork
  refine ⟨fun code => returns_iff_of_run hrun, ?_⟩
  rw [RunsNothing, hrun]
  exact (between_loadSettings hload).trans hmute

/-- On a platform that is known there are three ways to be refused, and else a session is begun or
a failure ends the program. -/
theorem refusal_supported (hp : Platform.detect? m.host.platform = some p) :
    ((o.NoInterface ∨ o.AddressRejected m₀) ∧ (∀ code, Returns words m code ↔ 2 = code) ∧
        RunsNothing words m) ∨
      (¬(o.NoInterface ∨ o.AddressRejected m₀) ∧ o.Unopened m₀ ∧
        (∀ code, Returns words m code ↔ 2 = code) ∧
        ∃ n, o.iface = .str n ∧ Link.Reads n m (run words m).2) ∨
      (¬(o.NoInterface ∨ o.AddressRejected m₀ ∨ o.Unopened m₀) ∧
        ∀ code, Returns words m code → code = 0 ∨ code = 1 ∨ code = 130) := by
  rw [← host_of_loadSettings hload] at hp
  have hplain := CommandLine.plain_of_parse hparse
  have hstart := between_loadSettings hload
  by_cases hnone : o.NoInterface
  · obtain ⟨m', hwork, hmute⟩ := work_of_noInterface (s := s) hinit hshow hplain hp hnone
    obtain ⟨verbosity, hrun⟩ := run_of_done hload hparse hwork
    refine .inl ⟨.inl hnone, fun code => returns_iff_of_run hrun, ?_⟩
    rw [RunsNothing, hrun]
    exact hstart.trans hmute
  · obtain ⟨n, hiface, hnamed⟩ := work_of_named (s := s) hinit hshow hplain hp hnone
    rcases beginSession_cases s p hplain hiface with ⟨hrejected, m', hdone, hmute⟩ |
      ⟨haccepted, ⟨hunopened, m', hdone, hreads⟩ | ⟨hopened, hrest⟩⟩
    · obtain ⟨verbosity, hrun⟩ := run_of_done hload hparse (hnamed.trans hdone)
      refine .inl ⟨.inr hrejected, fun code => returns_iff_of_run hrun, ?_⟩
      rw [RunsNothing, hrun]
      exact hstart.trans hmute
    · obtain ⟨verbosity, hrun⟩ := run_of_done hload hparse (hnamed.trans hdone)
      refine .inr (.inl ⟨fun h => h.elim hnone haccepted, hunopened,
        fun code => returns_iff_of_run hrun, n, hiface, ?_⟩)
      rw [hrun]
      exact hreads.after hstart
    · refine .inr (.inr ⟨?_, fun code hcode => ?_⟩)
      · exact fun h => h.elim hnone fun h => h.elim haccepted hopened
      · rcases hrest with ⟨e, m', herror⟩ | ⟨v, on, m', hsession⟩
        · have hrun := run_of_workError hload hparse (hnamed.trans herror)
          exact absurd hcode (not_returns_of_error hrun)
        · exact code_of_session hload hparse (hnamed.trans hsession) hcode

end Accepted

/-- **What the program refuses.** If the settings have been loaded, no command is run where the
command line is not accepted or asks for no session. Else the program returns three exactly if the
platform is not known, and two exactly if it is known but no interface is named, the address is
rejected or the interface cannot be opened. Only in the last case a command may have been run, and
then it is the one that reads the interface. -/
theorem returns_of_refusal {m₀ : Machine} (hload : loadSettings words m = (.ok s, m₀)) :
    ((∀ o, CommandLine.parse s words ≠ .accepted o) → RunsNothing words m) ∧
      ∀ o, CommandLine.parse s words = .accepted o →
        (o.initConfig = true ∨ o.showConfig = true → RunsNothing words m) ∧
        (o.initConfig = false → o.showConfig = false →
          (Returns words m 3 ↔ Platform.detect? m.host.platform = none) ∧
          (Returns words m 2 ↔ (∃ p, Platform.detect? m.host.platform = some p) ∧
            (o.NoInterface ∨ o.AddressRejected m₀ ∨ o.Unopened m₀)) ∧
          (Returns words m 3 ∨ Returns words m 2 ∧ (o.NoInterface ∨ o.AddressRejected m₀) →
            RunsNothing words m) ∧
          (Returns words m 2 → RunsNothing words m ∨
            ∃ n, o.iface = .str n ∧ Link.Reads n m (run words m).2) ∧
          (Returns words m 2 ∨ Returns words m 3 → WritesNothing words m)) := by
  refine ⟨fun hparse => ?_, fun o hparse =>
    ⟨runsNothing_of_noSession hload hparse, fun hinit hshow => ?_⟩⟩
  · rw [RunsNothing, run_of_not_accepted hload hparse]
    exact between_loadSettings hload
  cases hp : Platform.detect? m.host.platform with
  | none =>
    obtain ⟨hcode, hnothing⟩ := refusal_unsupported hload hparse hinit hshow hp
    rw [hcode 3, hcode 2]
    exact ⟨by simp, by simp, fun _ => hnothing, fun _ => .inl hnothing,
      fun _ => hnothing.writesNothing⟩
  | some p =>
    rcases refusal_supported hload hparse hinit hshow hp with ⟨hrefused, hcode, hnothing⟩ |
      ⟨hchecked, hunopened, hcode, n, hiface, hreads⟩ | ⟨hopened, hcode⟩
    · rw [hcode 3, hcode 2]
      have hreason : o.NoInterface ∨ o.AddressRejected m₀ ∨ o.Unopened m₀ :=
        hrefused.imp_right .inl
      exact ⟨by simp, by simp [hreason], fun _ => hnothing, fun _ => .inl hnothing,
        fun _ => hnothing.writesNothing⟩
    · rw [hcode 3, hcode 2]
      exact ⟨by simp, by simp [hunopened], by simp [hchecked], fun _ => .inr ⟨n, hiface, hreads⟩,
        fun _ => writesNothing_of_reads hreads⟩
    · have htwo : ¬Returns words m 2 := fun h => by simpa using hcode 2 h
      have hthree : ¬Returns words m 3 := fun h => by simpa using hcode 3 h
      exact ⟨by simp [hthree], by simp [htwo, hopened], by simp [htwo, hthree],
        fun h => absurd h htwo, fun h => absurd h (by simp [htwo, hthree])⟩

/-- A machine that does not have the interface. -/
def lacking : Machine :=
  { quitting with outcomes := [.finished 1 none (some "ifconfig: interface eth0 does not exist")] }

/-- What is asked for on the command line, once it is accepted. -/
def accepted? (words : List String) (m : Machine) : Option Options :=
  (loadSettings words m).1.toOption.bind fun s =>
    match CommandLine.parse s words with
    | .accepted o => some o
    | _ => none

theorem returns_of_refusal_lacking :
    ∃ s m₀ o, loadSettings ["-i", "eth0"] lacking = (.ok s, m₀) ∧
      CommandLine.parse s ["-i", "eth0"] = .accepted o ∧ Returns ["-i", "eth0"] lacking 2 ∧
      (o.NoInterface ∨ o.AddressRejected m₀ ∨ o.Unopened m₀) ∧
      WritesNothing ["-i", "eth0"] lacking := by
  have haccepted : (accepted? ["-i", "eth0"] lacking).map (fun o => (o.initConfig, o.showConfig)) =
      some (false, false) := by
    decide +kernel
  have hcode : ((run ["-i", "eth0"] lacking).1.toOption.map (·.code)) = some 2 := by
    decide +kernel
  obtain ⟨o, ho, hasks⟩ := Option.map_eq_some_iff.1 haccepted
  obtain ⟨hinit, hshow⟩ := Prod.mk.inj hasks
  rw [accepted?] at ho
  rcases hload : loadSettings ["-i", "eth0"] lacking with ⟨e | s, m₀⟩
  · rw [hload] at ho
    exact absurd ho (by simp [Except.toOption])
  rw [hload] at ho
  have hparse : CommandLine.parse s ["-i", "eth0"] = .accepted o := by
    dsimp only [Except.toOption, Option.bind_some] at ho
    split at ho
    · next o' heq => rw [heq, Option.some.inj ho]
    · exact absurd ho (by simp)
  have hreturns : Returns ["-i", "eth0"] lacking 2 := by
    rcases hrun : run ["-i", "eth0"] lacking with ⟨e | r, m'⟩
    · rw [hrun] at hcode
      exact absurd hcode (by simp [Except.toOption])
    · rw [hrun] at hcode
      exact (returns_iff_of_run hrun).2 (Option.some.inj hcode)
  obtain ⟨-, htwo, -, -, hwrites⟩ := ((returns_of_refusal hload).2 o hparse).2 hinit hshow
  exact ⟨s, m₀, o, rfl, hparse, hreturns, (htwo.1 hreturns).2, hwrites (.inl hreturns)⟩

end Program

end LinkOverride
