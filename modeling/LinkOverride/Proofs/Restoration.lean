import LinkOverride.Proofs.Ending
import LinkOverride.Proofs.Mirror
import LinkOverride.Proofs.Preparation

/-!
# What a run of the program leaves behind

Of all that a run has written to an interface, the last is the address that was read when the
interface was opened, unless the run says by its exit code that it could not be helped.

While an override is running this is so for every interface but its own. That is the invariant; the
interface in hand may change any number of times, and come back. `HeldAsRead` ties a write to the
reading that it goes back to.
-/

namespace LinkOverride

open Override (onMachine)
open Machine (Adds)
open Step

/-! ## The reading behind a write -/

/-- The interface in hand is `l`, and `l` is what was read last before it was taken in hand. -/
def HeldAsRead (es : List Event) (l : Link) : Prop :=
  ∃ front back, es = front ++ .held l.name l.address :: back ∧ lastOpened? front = some l ∧
    ∀ e ∈ back, e.held? = none

theorem HeldAsRead.append {es es' : List Event} {l : Link} (h : HeldAsRead es l)
    (h' : ∀ e ∈ es', e.held? = none) : HeldAsRead (es ++ es') l := by
  obtain ⟨front, back, hes, hlast, hback⟩ := h
  refine ⟨front, back ++ es', by rw [hes, List.append_assoc]; rfl, hlast, ?_⟩
  intro e he
  exact (List.mem_append.1 he).elim (hback e) (h' e)

/-- The last write to the interface that has succeeded, if any, was of the address read for it. -/
def Restored (es : List Event) (n : String) : Prop :=
  ∀ front e back a, es = front ++ e :: back → e.written? = some (n, a) →
    (∀ e' ∈ back, ∀ b, e'.written? ≠ some (n, b)) → HeldAsRead front ⟨n, some a⟩

theorem restored_of_not_written {es : List Event} {n : String}
    (h : ∀ e ∈ es, ∀ a, e.written? ≠ some (n, a)) : Restored es n := by
  intro front e back a hes hw
  refine absurd hw (h e ?_ a)
  rw [hes]
  exact List.mem_append_right _ List.mem_cons_self

theorem Restored.append {es es' : List Event} {n : String} (h : Restored es n)
    (h' : ∀ e ∈ es', ∀ a, e.written? ≠ some (n, a)) : Restored (es ++ es') n := by
  intro front e back a hes hw hback
  rcases split_append hes with ⟨mid, hfront, hmid⟩ | ⟨mid, -, hes'⟩
  · refine h front e mid a hfront hw fun e' he' => hback e' ?_
    rw [hmid]
    exact List.mem_append_left _ he'
  · refine absurd hw (h' e ?_ a)
    rw [hes']
    exact List.mem_append_right _ List.mem_cons_self

/-- A write of the address that was read settles all writes before it. -/
theorem restored_of_last {front back : List Event} {e : Event} {n a : String}
    (hw : e.written? = some (n, a)) (hheld : HeldAsRead front ⟨n, some a⟩)
    (hback : ∀ e' ∈ back, ∀ b, e'.written? ≠ some (n, b)) : Restored (front ++ e :: back) n := by
  intro front' e' back' a' hes hw' hlast
  rcases split_append hes with ⟨mid, -, hmid⟩ | ⟨mid, hfront, hes'⟩
  · refine absurd hw (hlast e ?_ a)
    rw [hmid]
    exact List.mem_append_right _ List.mem_cons_self
  · cases mid with
    | nil =>
      obtain ⟨he, -⟩ := List.cons.inj hes'
      rw [← he, hw] at hw'
      rw [hfront, List.append_nil, ← (Prod.mk.inj (Option.some.inj hw')).2]
      exact hheld
    | cons first mid =>
      obtain ⟨-, hrest⟩ := List.cons.inj hes'
      refine absurd hw' (hback e' ?_ a')
      rw [hrest]
      exact List.mem_append_right _ List.mem_cons_self

/-! ## The invariant -/

/-- After the events, `t` is in hand as it was read, and all is restored but for the interface of a
running override. -/
structure Accounted (es : List Event) (t : Link) (o : Override) : Prop where
  held : HeldAsRead es t
  restored : ∀ n, (∀ c, o.phase = .running c → n ≠ c.iface) → Restored es n

theorem not_written_of_opening {es : List Event} (l : Link) (hquiet : ∀ e ∈ es, e.IsQuiet) :
    ∀ e ∈ es ++ [.held l.name l.address], e.written? = none := by
  intro e he
  rcases List.mem_append.1 he with he | he
  · exact (hquiet e he).written?_eq
  · rw [List.mem_singleton.1 he]
    rfl

/-- Nothing has been written when an interface that was just read is taken in hand. -/
theorem accounted_opening {es : List Event} {o : Override} (hquiet : ∀ e ∈ es, e.IsQuiet)
    (hlast : lastOpened? es = some o.link) :
    Accounted (es ++ [.held o.link.name o.link.address]) o.link o where
  held := ⟨es, [], rfl, hlast, by simp⟩
  restored n _ := restored_of_not_written fun e he a hw =>
    absurd ((not_written_of_opening o.link hquiet e he).symm.trans hw) (by simp)

section Course

variable {T : List Event → Link → Prop} {h : Host} {t : Link} {o o' : Override}
  {es es' : List Event}

/-- A change takes another interface in hand with its last event, or not at all. -/
theorem Change.held_cases (hc : Change T h o es o') :
    (∃ front l, es = front ++ [.held l.name l.address] ∧ (∀ e ∈ front, e.IsQuiet) ∧ T front l ∧
        o' = { o with link := l }) ∨ ∀ e ∈ es, e.held? = none := by
  cases hc with
  | idle settings quiet => exact .inr fun e he => (quiet e he).held?_eq
  | @took front l free quiet admitted => exact .inl ⟨front, l, rfl, quiet, admitted, rfl⟩
  | configured free named known wanted => exact .inr (by simp [Event.held?])
  | failed a ready writes failed => exact .inr (by simp [Event.held?])
  | done a ready writes succeeded => exact .inr (by simp [Event.held?])

/-- **A change keeps the account.** -/
theorem Accounted.of_change (hs : o.Sound t) (ha : Accounted es t o)
    (hc : Change OpenedLast h o es' o') : Accounted (es ++ es') (taken t es') o' := by
  rcases hc.held_cases with ⟨front, l, rfl, quiet, hlast, rfl⟩ | hheld
  · rw [taken_append]
    refine ⟨⟨es ++ front, [], ?_, lastOpened?_append es hlast, by simp⟩, fun n hn => ?_⟩
    · rw [List.append_assoc]
      rfl
    · refine (ha.restored n hn).append fun e he a hw => ?_
      rcases List.mem_append.1 he with he | he
      · exact absurd ((quiet e he).written?_eq.symm.trans hw) (by simp)
      · rw [List.mem_singleton.1 he] at hw
        exact absurd hw (by simp [Event.written?])
  · rw [taken_of_not_held hheld]
    refine ⟨ha.held.append hheld, fun n hn => ?_⟩
    rcases hc.writing_cases with ⟨htells, hphase⟩ | ⟨a, c, hready, htells, hphase⟩
    · refine (ha.restored n fun c hc => hn c (hphase c hc)).append fun e he a hw => ?_
      have hnone := List.filterMap_eq_nil_iff.1 htells.written_eq e he
      exact absurd (hnone.symm.trans hw) (by simp)
    · have hcycle := Act.cycle?_of_ready hready
      by_cases hname : n = c.iface
      · cases a with
        | starting => exact absurd hname (hn c hphase)
        | stopping =>
          -- the write is the last one, and goes back to the reading of the interface in hand
          obtain ⟨front, e, back, rfl, -, hw, hback⟩ :=
            List.filterMap_eq_cons_iff.1 htells.written_eq
          have hsuits := hs.fits.suits hcycle
          have hread : HeldAsRead (es ++ front) ⟨n, some c.original⟩ := by
            have ht : t = ⟨n, some c.original⟩ := by
              rw [hname, hsuits.iface_eq, ← hsuits.original_eq]
            rw [← ht]
            exact ha.held.append fun e' he' => hheld e' (List.mem_append_left _ he')
          rw [← List.append_assoc]
          refine restored_of_last (by rw [hw, hname]; rfl) hread fun e' he' b hw' => ?_
          have hnone := List.filterMap_eq_nil_iff.1 hback e' he'
          exact absurd (hnone.symm.trans hw') (by simp)
      · have hother : ∀ d, o.phase = .running d → n ≠ d.iface := by
          intro d hd
          rw [hd] at hcycle
          rw [Option.some.inj hcycle]
          exact hname
        refine (ha.restored n hother).append fun e he b hw => hname ?_
        have hmem : (n, b) ∈ es'.filterMap Event.written? := List.mem_filterMap.2 ⟨e, he, hw⟩
        rw [htells.written_eq] at hmem
        exact (Prod.mk.inj (List.mem_singleton.1 hmem)).1

theorem Accounted.of_course (hs : o.Sound t) (ha : Accounted es t o)
    (hc : Course OpenedLast h o es' o') : Accounted (es ++ es') (taken t es') o' := by
  induction hc with
  | nil =>
    rw [List.append_nil]
    exact ha
  | snoc hcourse hchange ih =>
    rw [← List.append_assoc, taken_append]
    exact ih.of_change (hs.of_course hcourse) hchange

end Course

/-! ## Sessions -/

namespace Session

theorem carryOut_moves (line : String) : Respects (Moves OpenedLast) (carryOut line) :=
  respects_carryOut (execute_moves line) fun _ => showing_moves (Machine.adds_error _)

theorem consume_moves : Respects (Moves OpenedLast) consume :=
  onMachine_moves (Machine.adds_of_eq (fun _ => rfl) fun _ => rfl)

theorem interrupted_moves : Respects (Moves OpenedLast) interrupted :=
  (showing_moves (Machine.adds_showText _)).bind fun _ => respects_pure _

theorem loop_moves (typed : List Typed) : Respects (Moves OpenedLast) (loop typed) :=
  respects_loop consume_moves interrupted_moves carryOut_moves typed

theorem restore_moves : Respects (Moves OpenedLast) restore := by
  have hinfo : Adds Event.IsQuiet
      (Machine.info "[*] Restoring original address before exit") :=
    Machine.adds_note ⟨rfl, rfl, rfl, rfl⟩
  exact respects_restore stop_moves (onMachine_moves hinfo) fun _ =>
    showing_moves (Machine.adds_error _)

/-- **A session is a course of changes.** -/
theorem run_moves : Respects (Moves OpenedLast) run := respects_run loop_moves restore_moves

/-- The exit code of a session tells whether the override is running at its end. -/
theorem isRunning_of_run {s s' : Session} {code : Nat} (h : run s = (.ok code, s')) :
    s'.override.phase.isRunning = true ↔ code = 1 := by
  rcases hloop : loop s.machine.typed s with ⟨e | ending, t⟩
  · rw [run_of_error hloop] at h
    exact absurd h (by simp)
  · cases hr : t.override.phase.isRunning with
    | false =>
      rw [run_of_idle hloop hr] at h
      obtain ⟨hok, rfl⟩ := Prod.mk.inj h
      rw [hr, ← Except.ok.inj hok]
      exact iff_of_false (by simp) ending.code_ne_one
    | true =>
      rcases restored_cases hloop hr with ⟨t', hrun, hidle⟩ | ⟨-, t', hrunning, hrun⟩
      · rw [hrun] at h
        obtain ⟨hok, rfl⟩ := Prod.mk.inj h
        rw [hidle, ← Except.ok.inj hok]
        exact iff_of_false (by simp) ending.code_ne_one
      · rcases hrun with hrun | ⟨e, hrun⟩
        · rw [hrun] at h
          obtain ⟨hok, rfl⟩ := Prod.mk.inj h
          exact iff_of_true hrunning (Except.ok.inj hok).symm
        · rw [hrun] at h
          exact absurd h (by simp)

end Session

/-! ## The program -/

namespace Program

open CommandLine (Farewell)

theorem adds_loadSettings (words : List String) : Adds Event.IsTalk (loadSettings words) := by
  refine (Settings.adds_load _).bind fun s => ?_
  have hrest : Adds Event.IsTalk (pure s : Step Machine Settings) := respects_pure s
  dsimp only
  split
  · split
    · exact ((Machine.adds_showText _).bind fun _ => Machine.adds_display _).bind fun _ => hrest
    · exact (respects_pure ()).bind fun _ => hrest
  · exact (respects_pure ()).bind fun _ => hrest

theorem adds_makeFile : Adds Event.IsTalk makeFile := by
  refine (Settings.adds_makeUserFile false).bind fun found => ?_
  split
  · exact (Machine.adds_showText _).bind fun _ => respects_pure _
  · exact (Machine.adds_showText _).bind fun _ => (Machine.adds_showText _).bind fun _ =>
      respects_pure _

theorem adds_noInterface : Adds Event.IsTalk work.noInterface :=
  (Machine.adds_error _).bind fun _ => respects_pure _

theorem adds_refuse (e : Failure) : Adds Event.IsTalk (beginSession.refuse e) :=
  (Machine.adds_error _).bind fun _ => respects_pure _

theorem adds_quiet {α : Type} {x : Step Machine α} (h : Adds Event.IsTalk x) :
    Adds Event.IsQuiet x := h.mono fun _ he => he.isQuiet

theorem adds_acquire (name : String) :
    Adds Event.IsQuiet (Link.acquire name .unprivileged) :=
  ((Link.adds_readAddress name).mono fun _ he => he.isQuiet).bind fun a =>
    (Machine.adds_note (Event.isQuiet_opened name a)).bind fun _ => respects_pure _

theorem adds_openChecked (iface : String) (address : Value) :
    Adds Event.IsQuiet (openChecked iface address) := by
  unfold openChecked
  split
  · exact (Machine.adds_readAddressValue _ address).bind fun _ => adds_acquire iface
  · exact adds_acquire iface

theorem adds_beginSession (s : Settings) (o : Options) (p : Platform) (iface : String) :
    Adds Event.IsQuiet (beginSession s o p iface) := by
  refine (adds_openChecked iface o.address).attempt.bind fun r => ?_
  split
  · split
    · exact adds_quiet (adds_refuse _)
    · exact adds_quiet (adds_refuse _)
    · exact respects_fail _
  · exact (adds_quiet (Machine.adds_debug _)).bind fun _ =>
      (adds_quiet (Machine.adds_showText _)).bind fun _ => respects_pure _

theorem adds_work (s : Settings) (o : Options) : Adds Event.IsQuiet (work s o) := by
  unfold work
  split
  · exact (adds_quiet adds_makeFile).bind fun _ => respects_pure _
  split
  · exact (adds_quiet (Display.adds_configuration _ _ _)).bind fun _ => respects_pure _
  refine respects_current.bind fun m => ?_
  split
  · exact (adds_quiet (Machine.adds_error _)).bind fun _ => respects_pure _
  · split
    · split
      · exact adds_quiet adds_noInterface
      · exact adds_beginSession s o _ _
    · exact adds_quiet adds_noInterface

/-- **All that comes before a session** writes to no interface. -/
theorem adds_prepare (words : List String) : Adds Event.IsQuiet (prepare words) := by
  refine (adds_quiet (adds_loadSettings words)).bind fun s => respects_current.bind fun m => ?_
  refine (respects_ofExcept _).bind fun r => ?_
  split
  · exact respects_pure _
  · exact (adds_work s _).bind fun _ => respects_pure _

/-! ## The interface of a session -/

/-- From one machine to the other nothing is written, and the interface `l` is the last opened. -/
def Opens (l : Link) (m m' : Machine) : Prop :=
  ∃ es, m'.trace = m.trace ++ es ∧ (∀ e ∈ es, e.IsQuiet) ∧ lastOpened? es = some l

theorem Opens.after {l : Link} {m m' m'' : Machine} (h : Machine.Grows Event.IsQuiet m m')
    (h' : Opens l m' m'') : Opens l m m'' := by
  obtain ⟨-, es, htrace, hes⟩ := h
  obtain ⟨es', htrace', hes', hlast⟩ := h'
  refine ⟨es ++ es', by rw [htrace', htrace, List.append_assoc], ?_, lastOpened?_append es hlast⟩
  intro e he
  exact (List.mem_append.1 he).elim (hes e) (hes' e)

theorem Opens.talk {l : Link} {m m' m'' : Machine} (h : Opens l m m')
    (h' : Machine.Grows Event.IsTalk m' m'') : Opens l m m'' := by
  obtain ⟨es, htrace, hes, hlast⟩ := h
  obtain ⟨-, es', htrace', hes'⟩ := h'
  refine ⟨es ++ es', by rw [htrace', htrace, List.append_assoc], ?_, ?_⟩
  · intro e he
    exact (List.mem_append.1 he).elim (hes e) fun he => (hes' e he).isQuiet
  · rw [lastOpened?_append_of_not, hlast]
    intro e he
    cases hes' e he <;> rfl

theorem opens_of_acquire {name : String} {l : Link} {m m' : Machine}
    (h : Link.acquire name .unprivileged m = (.ok l, m')) : Opens l m m' := by
  obtain ⟨m₁, ⟨-, es, htrace, hes⟩, ⟨e, herror⟩ | ⟨a, hok⟩⟩ := Link.acquire_cases name m
  · exact absurd (herror.symm.trans h) (by simp)
  · obtain ⟨hl, rfl⟩ := Prod.mk.inj (hok.symm.trans h)
    rw [← Except.ok.inj hl]
    refine ⟨es ++ [.opened name a], ?_, ?_, lastOpened?_opened es name a⟩
    · rw [Machine.trace_record, htrace, List.append_assoc]
    · intro e he
      rcases List.mem_append.1 he with he | he
      · exact (hes e he).isQuiet
      · rw [List.mem_singleton.1 he]
        exact Event.isQuiet_opened name a

theorem opens_of_openChecked {iface : String} {address : Value} {l : Link} {m m' : Machine}
    (h : openChecked iface address m = (.ok l, m')) : Opens l m m' := by
  unfold openChecked at h
  split at h
  · obtain ⟨a, m₁, hread, hacquire⟩ := bind_eq_ok h
    have hgrows := Machine.adds_readAddressValue Event.IsQuiet address m
    rw [hread] at hgrows
    exact (opens_of_acquire hacquire).after hgrows
  · exact opens_of_acquire h

/-- **A session begins** with the interface that was opened last, and with no cycle begun. -/
theorem opens_of_prepare {words : List String} {opts : Options} {v : Override} {on : Bool}
    {m m' : Machine} (h : prepare words m = (.ok (.ok (opts, .session v on)), m')) :
    Opens v.link m m' ∧ ∃ settings w, v = .fresh v.link settings w := by
  obtain ⟨s, m₁, hload, -, hwork⟩ := session_of_prepare h
  obtain ⟨p, iface, -, -, -, hbegin⟩ := session_of_work hwork
  obtain ⟨address, m₂, -, hopen, rfl, hv, -⟩ := session_of_beginSession hbegin
  have hgrows := adds_quiet (adds_loadSettings words) m
  rw [hload] at hgrows
  have hopens := (opens_of_openChecked hopen).after hgrows
  have hdebug := Machine.adds_debug s!"Platform: {p.label}" m₂
  have hshown := Machine.adds_showText s!"[cyan]Interface:[/cyan] {v.link.text}"
    (m₂.record (.logged .debug s!"Platform: {p.label}"))
  exact ⟨(hopens.talk hdebug).talk hshown, _, _, hv⟩

/-! ## The session of a run -/

/-- What a start keeps, it keeps while its failure is reported. -/
theorem respects_startIf {R : Session → Session → Prop} [IsPreorder Session R]
    (hstart : Respects R Override.start)
    (herror : ∀ text, Respects R (onMachine (Machine.error text))) (on : Bool) :
    Respects R (startIf on) := by
  unfold startIf
  split
  · refine hstart.attempt.bind fun r => ?_
    split
    · exact respects_pure _
    · exact Session.respects_report herror _ _ _
  · exact respects_pure _

theorem startIf_moves (on : Bool) : Respects (Moves OpenedLast) (startIf on) :=
  respects_startIf start_moves (fun _ => Session.showing_moves (Machine.adds_error _)) on

/-- What a start and a session keep, they keep one after the other. -/
theorem respects_converse {R : Session → Session → Prop} [IsPreorder Session R] {on : Bool}
    (hstart : Respects R (startIf on)) (hrun : Respects R Session.run) :
    Respects R (converse on) := by
  refine hstart.bind fun started => ?_
  split
  · exact hrun
  · exact respects_pure _

theorem converse_moves (on : Bool) : Respects (Moves OpenedLast) (converse on) :=
  respects_converse (startIf_moves on) Session.run_moves

/-- If the session may not begin, nothing has been written. -/
theorem startIf_false {on : Bool} {s s' : Session} (h : startIf on s = (.ok false, s')) :
    ∃ es, s'.machine.trace = s.machine.trace ++ es ∧ ∀ e ∈ es, e.written? = none := by
  unfold startIf at h
  split at h
  · obtain ⟨r, t, hattempt, h⟩ := bind_eq_ok h
    rw [attempt_apply] at hattempt
    obtain ⟨es, t', htrace, -, ⟨e, hstart, hes, -⟩ | ⟨c, hstart, -⟩⟩ :=
      start_cases (T := OpenedLast) s
    · rw [hstart] at hattempt
      obtain ⟨hr, rfl⟩ := Prod.mk.inj hattempt
      rw [← Except.ok.inj hr] at h
      dsimp only at h
      split at h
      · obtain ⟨-, rfl⟩ := Prod.mk.inj h
        refine ⟨es ++ [.logged .error s!"[FAIL] {e.message}"], ?_, ?_⟩
        · rw [← List.append_assoc, ← htrace]
          rfl
        · intro ev hev
          rcases List.mem_append.1 hev with hev | hev
          · exact hes ev hev
          · rw [List.mem_singleton.1 hev]
            rfl
      · exact absurd h (by simp)
    · rw [hstart] at hattempt
      obtain ⟨hr, rfl⟩ := Prod.mk.inj hattempt
      rw [← Except.ok.inj hr] at h
      exact absurd h (by simp)
  · exact absurd h (by simp)

/-- The exit code one means that nothing was written, or that the override is still running. -/
theorem converse_cases {on : Bool} {s s' : Session} {code : Nat}
    (h : converse on s = (.ok code, s')) :
    (code = 1 ∧ ∃ es, s'.machine.trace = s.machine.trace ++ es ∧ ∀ e ∈ es, e.written? = none) ∨
      (s'.override.phase.isRunning = true ↔ code = 1) := by
  obtain ⟨started, t, hstart, h⟩ := bind_eq_ok h
  cases started with
  | true => exact .inr (Session.isRunning_of_run h)
  | false =>
    obtain ⟨hcode, rfl⟩ := Prod.mk.inj h
    exact .inl ⟨(Except.ok.inj hcode).symm, startIf_false hstart⟩

theorem perform_session (v : Override) (on : Bool) (m : Machine) :
    (Task.session v on).perform m =
      ((converse on (.opening v m)).1, (converse on (.opening v m)).2.machine) := rfl

/-- **A session that is prepared** is all that is left of the program. -/
theorem run_of_prepare {words : List String} {opts : Options} {v : Override} {on : Bool}
    {m m₁ : Machine} (h : prepare words m = (.ok (.ok (opts, .session v on)), m₁)) :
    run words m =
      ((converse on (.opening v m₁)).1.map fun code =>
          ⟨code, "", "", if opts.verbose then .all else .infos⟩,
        (converse on (.opening v m₁)).2.machine) := by
  have hperform := perform_session v on m₁
  rw [run, bind_ok h]
  rcases hconverse : converse on (.opening v m₁) with ⟨e | code, t⟩
  · rw [hconverse] at hperform
    exact bind_error hperform _
  · rw [hconverse] at hperform
    exact bind_ok hperform _

/-- The run ends with a session that leaves its override running. What was read of the interface in
hand is kept as the original address. -/
def LeavesRunning (words : List String) (m m' : Machine) (es : List Event) : Prop :=
  ∃ opts v on m₁ s c, prepare words m = (.ok (.ok (opts, .session v on)), m₁) ∧
    converse on (.opening v m₁) = (.ok 1, s) ∧ s.machine = m' ∧
    s.override.phase = .running c ∧ HeldAsRead es ⟨c.iface, some c.original⟩

/-- **The session of a run**, with all that came before it. -/
theorem converse_accounted {v : Override} {on : Bool} {m m₁ : Machine} {s : Session} {code : Nat}
    (hopens : Opens v.link m m₁) (hfresh : ∃ settings w, v = .fresh v.link settings w)
    (h : converse on (.opening v m₁) = (.ok code, s)) :
    ∃ es, s.machine.trace = m.trace ++ es ∧
      (code ≠ 1 → ∀ n, Restored es n) ∧
      (code = 1 → (∀ e ∈ es, e.written? = none) ∨
        ∃ c, s.override.phase = .running c ∧ HeldAsRead es ⟨c.iface, some c.original⟩) := by
  obtain ⟨es, htrace, hquiet, hlast⟩ := hopens
  obtain ⟨settings, w, hv⟩ := hfresh
  have hmoves := converse_moves on (.opening v m₁)
  rw [h] at hmoves
  obtain ⟨-, es', htrace', hcourse⟩ := hmoves
  have hsound : v.Sound v.link := by
    rw [hv]
    exact Override.sound_fresh _ _ _
  have hend := (accounted_opening hquiet hlast).of_course hsound hcourse
  have hsound' := hsound.of_course hcourse
  have hall : s.machine.trace = m.trace ++ (es ++ [.held v.link.name v.link.address] ++ es') := by
    rw [htrace', Session.opening, Machine.trace_record, htrace]
    simp only [List.append_assoc]
  refine ⟨_, hall, fun hcode n => ?_, fun hcode => ?_⟩
  · rcases converse_cases h with ⟨hone, -⟩ | hrunning
    · exact absurd hone hcode
    · refine hend.restored n fun c hc => ?_
      have hr : s.override.phase.isRunning = true := by rw [hc]; rfl
      exact absurd (hrunning.1 hr) hcode
  · rcases converse_cases h with ⟨-, written, hwritten, hnone⟩ | hrunning
    · have hsame : es' = written := List.append_cancel_left (htrace'.symm.trans hwritten)
      refine .inl fun e he => ?_
      rcases List.mem_append.1 he with he | he
      · exact not_written_of_opening v.link hquiet e he
      · rw [hsame] at he
        exact hnone e he
    · obtain ⟨c, hc⟩ := Phase.exists_of_isRunning (hrunning.2 hcode)
      have hcycle : s.override.phase.cycle? = some c := by rw [hc]; rfl
      have hsuits := hsound'.fits.suits hcycle
      refine .inr ⟨c, hc, ?_⟩
      rw [hsuits.iface_eq, ← hsuits.original_eq]
      exact hend.held

/-- **What a run leaves behind.** If the exit code is not one, the last write to each interface was
of the address that was read when the interface was opened. If it is one, either nothing has been
written at all, or the override is still running and keeps that address. -/
theorem run_restores {words : List String} {m m' : Machine} {r : Result}
    (h : run words m = (.ok r, m')) :
    ∃ es, m'.trace = m.trace ++ es ∧
      (r.code ≠ 1 → ∀ n, Restored es n) ∧
      (r.code = 1 → (∀ e ∈ es, e.written? = none) ∨ LeavesRunning words m m' es) := by
  obtain ⟨prepared, m₁, hprepare, h⟩ := bind_eq_ok h
  have hgrows := adds_prepare words m
  rw [hprepare] at hgrows
  obtain ⟨-, es, htrace, hquiet⟩ := hgrows
  have hnone : ∀ e ∈ es, e.written? = none := fun e he => (hquiet e he).written?_eq
  have hrestored : ∀ n, Restored es n := fun n => restored_of_not_written fun e he a hw =>
    absurd ((hnone e he).symm.trans hw) (by simp)
  rcases prepared with bye | ⟨opts, task⟩
  · obtain ⟨-, rfl⟩ := Prod.mk.inj h
    exact ⟨es, htrace, fun _ => hrestored, fun _ => .inl hnone⟩
  · obtain ⟨code, m₂, hperform, h⟩ := bind_eq_ok h
    obtain ⟨hr, rfl⟩ := Prod.mk.inj h
    rw [← Except.ok.inj hr]
    cases task with
    | done code' =>
      obtain ⟨-, rfl⟩ := Prod.mk.inj hperform
      exact ⟨es, htrace, fun _ => hrestored, fun _ => .inl hnone⟩
    | session v on =>
      obtain ⟨hopens, hfresh⟩ := opens_of_prepare hprepare
      rw [perform_session] at hperform
      obtain ⟨hcode, hmachine⟩ := Prod.mk.inj hperform
      have hconverse : converse on (.opening v m₁) =
          (.ok code, (converse on (.opening v m₁)).2) := Prod.ext hcode rfl
      obtain ⟨es', htrace', hother, hone⟩ := converse_accounted hopens hfresh hconverse
      rw [hmachine] at htrace'
      refine ⟨es', htrace', hother, fun hcode' => (hone hcode').imp_right fun hleft => ?_⟩
      obtain ⟨c, hc, hheld⟩ := hleft
      rw [show code = 1 from hcode'] at hconverse
      exact ⟨opts, v, on, m₁, _, c, hprepare, hconverse, hmachine, hc, hheld⟩

/-- A machine with one interface, whose user quits at once. -/
def quitting : Machine where
  host := Session.plainHost "darwin"
  files := []
  drawn := 0
  outcomes := [.finished 0 (some "ether aa:bb:cc:dd:ee:ff") none]
  typed := [.line "quit"]
  trace := []

/-- The words that ask for a start before the first prompt. -/
def startingWords : List String := ["-i", "eth0", "--address", "02:11:22:33:44:55", "--on"]

/-- A start and the restore at the end are two writes, and the second is of the address read. -/
theorem run_restores_quitting :
    run startingWords quitting = (.ok ⟨0, "", "", .infos⟩, (run startingWords quitting).2) ∧
      (run startingWords quitting).2.trace.filterMap Event.written? =
        [("eth0", "02:11:22:33:44:55"), ("eth0", "aa:bb:cc:dd:ee:ff")] ∧
      ∀ n, Restored (run startingWords quitting).2.trace n := by
  have hok : run startingWords quitting =
      (.ok ⟨0, "", "", .infos⟩, (run startingWords quitting).2) := by
    have hcode : (run startingWords quitting).1.toOption = some ⟨0, "", "", .infos⟩ := by
      decide +kernel
    rcases hrun : run startingWords quitting with ⟨e | r, m⟩
    · rw [hrun] at hcode
      exact absurd hcode (by simp [Except.toOption])
    · rw [hrun] at hcode
      rw [show r = ⟨0, "", "", .infos⟩ from Option.some.inj hcode]
  obtain ⟨es, htrace, hrestored, -⟩ := run_restores hok
  have hes : (run startingWords quitting).2.trace = es := htrace
  refine ⟨hok, by decide +kernel, ?_⟩
  rw [hes]
  exact hrestored (by decide)

end Program

end LinkOverride
