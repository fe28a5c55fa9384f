import LinkOverride.Proofs.Origin
import LinkOverride.Proofs.Refusal
import LinkOverride.Proofs.Skipping

/-!
# What the commands of a run are

A run of the program makes calls of two kinds. Before the session, and at a line that names another
interface, an interface is read without privilege. All other calls are writes, and each is made by a
start or a stop at one of the occasions that a run has for it: the start that the command line asks
for, a line that is typed, or the restore at the end.

`Grounded` says what a write relies on. The interface in hand is the one read last before it was taken
in hand, all that a start needs has been checked, and the writer is as privileged as the settings
have it. This is so from the opening of the session on.
-/

namespace LinkOverride

open Machine (Adds)
open Override (onMachine)
open Settings (Parameter)
open Step

/-! ## What a write relies on -/

namespace Session

/-- The session of a run that began on the machine `m` has all that a write relies on. -/
structure Grounded (m : Machine) (s : Session) : Prop where
  host_eq : s.machine.host = m.host
  accounted : ∃ es l, s.machine.trace = m.trace ++ es ∧ s.override.Sound l ∧
    Accounted es l s.override
  platform_eq : s.override.writer.platform = none
  withSudo_eq : s.override.writer.runner.withSudo = s.override.settings.withSudo
  primed : s.Primed

/-- From one session to the other, all that a write relies on stays so. -/
def KeepsGrounded (m : Machine) (s s' : Session) : Prop := s.Grounded m → s'.Grounded m

instance (m : Machine) : IsPreorder Session (KeepsGrounded m) where
  refl _ h := h
  trans _ _ _ h h' hg := h' (h hg)

variable {α : Type} {m : Machine} {s t u : Session} {before : List Event} {c : Call}

/-- It is kept by a course that leaves the writer and its privilege alone. -/
theorem Grounded.of_moves (hg : s.Grounded m) (hmoves : Moves OpenedLast s t)
    (hprimed : KeepsPrimed s t) (hwriter : t.override.writer = s.override.writer)
    (hsudo : t.override.settings.withSudo = s.override.settings.withSudo) : t.Grounded m := by
  obtain ⟨hhost, es', htrace', hcourse⟩ := hmoves
  obtain ⟨es, l, htrace, hsound, haccounted⟩ := hg.accounted
  refine ⟨hhost.trans hg.host_eq, ⟨es ++ es', taken l es', ?_, hsound.of_course hcourse,
    haccounted.of_course hsound hcourse⟩, ?_, ?_, hprimed hg.primed⟩
  · rw [htrace', htrace, List.append_assoc]
  · rw [hwriter]
    exact hg.platform_eq
  · rw [hwriter, hsudo]
    exact hg.withSudo_eq

theorem keepsGrounded_of_stands {x : Step Session α} (hmoves : Respects (Moves OpenedLast) x)
    (hprimed : Respects KeepsPrimed x) (hstands : Respects Stands x) :
    Respects (KeepsGrounded m) x :=
  fun s hg => hg.of_moves (hmoves s) (hprimed s) (hstands s).writer_eq (hstands s).withSudo_eq

theorem keepsGrounded_onMachine {x : Step Machine α} (hx : Adds Event.IsQuiet x) :
    Respects (KeepsGrounded m) (onMachine x) :=
  fun s hg => hg.of_moves (onMachine_moves hx s) (keepsPrimed_onMachine hx s) rfl rfl

theorem keepsGrounded_talk {x : Step Machine α} (hx : Adds Event.IsTalk x) :
    Respects (KeepsGrounded m) (onMachine x) :=
  keepsGrounded_onMachine (hx.mono fun _ he => he.isQuiet)

theorem keepsGrounded_start : Respects (KeepsGrounded m) Override.start :=
  keepsGrounded_of_stands start_moves keepsPrimed_start stands_start

theorem keepsGrounded_execute (line : String) : Respects (KeepsGrounded m) (execute line) :=
  keepsGrounded_of_stands (execute_moves line) (keepsPrimed_execute line) (stands_execute line)

theorem keepsGrounded_consume : Respects (KeepsGrounded m) consume :=
  keepsGrounded_onMachine (Machine.adds_of_eq (fun _ => rfl) fun _ => rfl)

theorem keepsGrounded_carryOut (line : String) : Respects (KeepsGrounded m) (carryOut line) :=
  respects_carryOut (keepsGrounded_execute line) fun _ =>
    keepsGrounded_talk (Machine.adds_error _)

theorem keepsGrounded_loop (typed : List Typed) : Respects (KeepsGrounded m) (loop typed) := by
  have hinterrupted : Respects (KeepsGrounded m) interrupted :=
    (keepsGrounded_talk (Machine.adds_showText _)).bind fun _ => respects_pure _
  exact respects_loop keepsGrounded_consume hinterrupted keepsGrounded_carryOut typed

theorem Passes.grounded {front : List Typed} (h : Passes front s t) (hg : s.Grounded m) :
    t.Grounded m :=
  h.rel (R := KeepsGrounded m) keepsGrounded_consume keepsGrounded_carryOut hg

/-- A cycle that is made ready is made ready of a grounded session. -/
theorem keepsGrounded_readyCycle : Respects (KeepsGrounded m) Override.readyCycle := by
  have hmoves : Respects (Moves OpenedLast) Override.readyCycle := by
    intro s
    obtain ⟨es, s', hadv, -, ⟨e, h, -⟩ | ⟨k, h, -⟩⟩ := readyCycle_cases (T := OpenedLast) s
    · rw [h]
      exact hadv.moves
    · rw [h]
      exact hadv.moves
  exact keepsGrounded_of_stands hmoves keepsPrimed_readyCycle stands_readyCycle

theorem Grounded.of_reaches {v : Override.Verb} (hg : t.Grounded m) (h : v.Reaches t u) :
    u.Grounded m := by
  cases h with
  | on ready =>
    have hkeeps := keepsGrounded_readyCycle (m := m) t hg
    rwa [ready] at hkeeps
  | off => exact hg

end Session

/-! ## The words of a write -/

/-- What stands before a command that writes an address. -/
def Settings.privilege (s : Settings) (user : Option Int) : List String :=
  if s.withSudo && user.any (· != 0) then ["sudo"] else []

/-- What stands behind the interface in a command that writes an address. -/
def Platform.writing : Platform → String → List String
  | bsd, a => ["ether", a]
  | darwin, a => ["ether", a]
  | linux, a => ["hw", "ether", a]
  | android, a => ["hw", "ether", a]

theorem Platform.arguments_eq (p : Platform) (n a : String) : p.arguments n a = n :: p.writing a := by
  cases p <;> rfl

namespace Session

variable {m : Machine} {u : Session} {before : List Event} {c : Call}

/-- **A write of a grounded session** has just these words, for an interface that has been read. -/
theorem Grounded.write (hg : u.Grounded m) {a : Act} {k : Cycle}
    (hready : a.Ready u.override.phase k)
    (h : Makes (onMachine (u.override.writer.write k.iface (a.address k))) u (m.trace ++ before) c) :
    k.iface = u.override.link.name ∧ Address.isCanonical (a.address k).toList = true ∧
      (∃ b, Event.opened u.override.link.name b ∈ before) ∧
      ∃ p, Platform.detect? m.host.platform = some p ∧
        c.command = u.override.settings.privilege m.host.user ++
          Link.program :: u.override.link.name :: p.writing (a.address k) := by
  have hcycle := Act.cycle?_of_ready hready
  obtain ⟨es, l, htrace, hsound, haccounted⟩ := hg.accounted
  have hname : k.iface = u.override.link.name :=
    (hsound.fits.suits hcycle).iface_eq.trans hsound.name_eq.symm
  refine ⟨hname, ?_, ?_, ?_⟩
  · have hcanonical := hg.primed.canonical k hcycle
    cases a with
    | starting => exact hcanonical.desired
    | stopping => exact hcanonical.original
  · obtain ⟨front, back, hes, hlast, -⟩ := haccounted.held
    have hbefore : es <+: before := by
      have hfrom := h.1
      rwa [htrace, List.prefix_append_right_inj] at hfrom
    obtain ⟨e, he, hopened⟩ := List.mem_filterMap.1 (List.mem_of_getLast? hlast)
    have hmem : e ∈ before := by
      refine hbefore.subset ?_
      rw [hes]
      exact List.mem_append_left _ he
    cases e with
    | opened n b =>
      refine ⟨b, ?_⟩
      rw [hsound.name_eq, ← Option.some.inj hopened]
      exact hmem
    | _ => exact absurd hopened (by simp [Event.opened?])
  · obtain ⟨p, hp, hcommand⟩ := makes_write h
    rw [Writer.platformOn, hg.platform_eq, hg.host_eq] at hp
    refine ⟨p, hp, ?_⟩
    rw [hcommand, hname, Writer.fullCommand, Runner.fullCommand, Runner.needsSudo, hg.withSudo_eq,
      hg.host_eq, Platform.arguments_eq, Settings.privilege]
    split
    · rfl
    · rfl

end Session

namespace Program

variable {words : List String} {s : Settings} {o opts : Options} {v : Override} {on : Bool}
  {m m₁ m' : Machine} {t u : Session} {verb : Override.Verb} {before after : List Event} {c : Call}

/-! ## The opening of a session -/

/-- **A session is grounded** when it opens. -/
theorem grounded_opening (h : prepare words m = (.ok (.ok (opts, .session v on)), m₁)) :
    (Session.opening v m₁).Grounded m := by
  obtain ⟨⟨es, htrace, hquiet, hlast⟩, settings, w, hv⟩ := opens_of_prepare h
  have hhost := (adds_prepare words m).1
  rw [h] at hhost
  have hsound : v.Sound v.link := by
    rw [hv]
    exact Override.sound_fresh _ _ _
  obtain ⟨s, m₂, -, -, hwork⟩ := session_of_prepare h
  obtain ⟨p, iface, -, -, -, hbegin⟩ := session_of_work hwork
  obtain ⟨address, m₃, -, -, -, hwriter, -⟩ := session_of_beginSession hbegin
  refine ⟨hhost, ⟨_, v.link, ?_, hsound, accounted_opening hquiet hlast⟩, ?_, ?_,
    primed_of_prepare h⟩
  · rw [Session.opening, Machine.trace_record, htrace, List.append_assoc]
  · show v.writer.platform = none
    rw [hwriter]
    rfl
  · show v.writer.runner.withSudo = v.settings.withSudo
    rw [hwriter]
    rfl

theorem grounded_of_session (h : sessionOf? words m = some u) : u.Grounded m := by
  obtain ⟨opts, v, on, m₁, hprepare, hstart⟩ := sessionOf?_eq_some.1 h
  have hkeeps : Respects (Session.KeepsGrounded m) (startIf on) :=
    respects_startIf Session.keepsGrounded_start
      (fun _ => Session.keepsGrounded_talk (Machine.adds_error _)) on
  have hgrounded := hkeeps _ (grounded_opening hprepare)
  rwa [hstart] at hgrounded

/-! ## The prompt -/

theorem keepsTyped_loadSettings (words : List String) :
    Respects Machine.KeepsTyped (loadSettings words) := by
  have hload : ∀ asked, Respects Machine.KeepsTyped (Settings.load asked) := by
    intro asked m
    rw [Settings.load_eq_loadFrom, Settings.loadFrom_eq]
    rfl
  have hshown : ∀ items, Respects Machine.KeepsTyped (Machine.display items) :=
    fun _ => Machine.keepsTyped_note _
  refine (hload _).bind fun s => ?_
  have hrest : Respects Machine.KeepsTyped (pure s : Step Machine Settings) := respects_pure s
  dsimp only
  split
  · split
    · exact ((hshown _).bind fun _ => hshown _).bind fun _ => hrest
    · exact (respects_pure ()).bind fun _ => hrest
  · exact (respects_pure ()).bind fun _ => hrest

theorem keepsTyped_openChecked (iface : String) (address : Value) :
    Respects Machine.KeepsTyped (openChecked iface address) := by
  have hvalue : Respects Machine.KeepsTyped (Machine.readAddressValue address) := by
    unfold Machine.readAddressValue
    split
    · exact Machine.keepsTyped_readAddress _
    · exact (respects_ofExcept _).bind fun _ => respects_fail _
  unfold openChecked
  split
  · exact hvalue.bind fun _ => Link.keepsTyped_acquire iface _
  · exact Link.keepsTyped_acquire iface _

theorem typed_of_prepare (h : prepare words m = (.ok (.ok (opts, .session v on)), m₁)) :
    m₁.typed = m.typed := by
  obtain ⟨s, m₂, hload, -, hwork⟩ := session_of_prepare h
  obtain ⟨p, iface, -, -, -, hbegin⟩ := session_of_work hwork
  obtain ⟨address, m₃, -, hopen, rfl, -⟩ := session_of_beginSession hbegin
  have hloaded := keepsTyped_loadSettings words m
  rw [hload] at hloaded
  have hopened := keepsTyped_openChecked iface opts.address m₂
  rw [hopen] at hopened
  exact Eq.trans hopened hloaded

/-- Nothing is taken from the prompt before the session. -/
theorem typed_of_session (h : sessionOf? words m = some u) : u.machine.typed = m.typed := by
  obtain ⟨opts, v, on, m₁, hprepare, hstart⟩ := sessionOf?_eq_some.1 h
  have hkeeps : Respects Session.KeepsTyped (startIf on) :=
    respects_startIf (fun s => (Session.stands_start s).keepsTyped) (fun _ _ => rfl) on
  have htyped := hkeeps (.opening v m₁)
  rw [hstart] at htyped
  have hprompt := typed_of_prepare hprepare
  exact Eq.trans htyped hprompt

/-! ## Reading before a session -/

theorem reads_openChecked (n : String) (address : Value) :
    Respects (Link.Reads n) (openChecked n address) := by
  unfold openChecked
  split
  · exact Link.reads_bind_left (Machine.adds_readAddressValue _ address) fun _ =>
      Link.reads_acquire n
  · exact Link.reads_acquire n

theorem reads_beginSession (s : Settings) (o : Options) (p : Platform) (n : String) :
    Respects (Link.Reads n) (beginSession s o p n) := by
  refine Link.reads_bind_right (reads_openChecked n o.address).attempt fun r => ?_
  split
  · split
    · exact Machine.mute_of_talk (adds_refuse _)
    · exact Machine.mute_of_talk (adds_refuse _)
    · exact respects_fail _
  · exact (Machine.mute_debug _).bind fun _ =>
      (Machine.mute_of_talk (Machine.adds_showText _)).bind fun _ => respects_pure _

/-- What needs no session runs no command, and what prepares a session may read its interface. -/
theorem work_reads (s : Settings) (o : Options) (m : Machine) :
    Machine.Between m (work s o m).2 [] ∨
      ∃ n, o.iface = .str n ∧ Link.Reads n m (work s o m).2 := by
  have hmute : ∀ {x : Step Machine Task}, Adds Event.IsMute x → Machine.Between m (x m).2 [] :=
    fun hx => Machine.between_of_grows (hx m)
  unfold work
  split
  · exact .inl (hmute ((Machine.mute_of_talk adds_makeFile).bind fun _ => respects_pure _))
  split
  · exact .inl (hmute ((Machine.mute_of_talk (Display.adds_configuration _ _ _)).bind fun _ =>
      respects_pure _))
  rw [bind_ok (Step.current_apply m)]
  cases Platform.detect? m.host.platform with
  | none =>
    exact .inl (hmute ((Machine.mute_of_talk (Machine.adds_error _)).bind fun _ =>
      respects_pure _))
  | some p =>
    cases o.iface with
    | str n =>
      dsimp only
      split
      · exact .inl (hmute (Machine.mute_of_talk adds_noInterface))
      · exact .inr ⟨n, rfl, reads_beginSession s o p n m⟩
    | _ => exact .inl (hmute (Machine.mute_of_talk adds_noInterface))

/-! ## Where a command may come from -/

/-- The interface is asked for when the program is started, or by a line that is typed. -/
inductive Asked (words : List String) (m : Machine) (n : String) : Prop
  | started {s : Settings} {o : Options} {m₁ : Machine} (loaded : loadSettings words m = (.ok s, m₁))
      (accepted : CommandLine.parse s words = .accepted o) (named : o.iface = .str n)
  | typed {l : String} (line : Typed.line l ∈ m.typed)
      (set : Request.ofLine (Text.strip l) = .set (Parameter.name .iface) n)

/-- The sessions of a run at which a verb is performed. -/
inductive Occasion (words : List String) (m : Machine) : Override.Verb → Session → Prop
  /-- A start is asked for on the command line. -/
  | first {opts : Options} {v : Override} {m₁ : Machine}
      (prepared : prepare words m = (.ok (.ok (opts, .session v true)), m₁)) :
      Occasion words m .on (.opening v m₁)
  /-- The verb is typed. -/
  | asked {u t : Session} {verb : Override.Verb} {l : String} {front back : List Typed}
      (session : sessionOf? words m = some u) (typed : m.typed = front ++ .line l :: back)
      (passes : Session.Passes front u t)
      (spelled : Override.Verb.ofLine? (Text.strip l) = some verb) : Occasion words m verb t.consumed
  /-- The override is still running at the end of the loop. -/
  | last {u t : Session} {ending : Session.Ending} (session : sessionOf? words m = some u)
      (ends : Session.loop m.typed u = (.ok ending, t))
      (running : t.override.phase.isRunning = true) : Occasion words m .off t.restoring

theorem Occasion.grounded (h : Occasion words m verb t) : t.Grounded m := by
  cases h with
  | first prepared => exact grounded_opening prepared
  | asked session typed passes spelled =>
    exact Session.keepsGrounded_consume _ (passes.grounded (grounded_of_session session))
  | @last u t ending session ends running =>
    have hloop := Session.keepsGrounded_loop (m := m) m.typed u (grounded_of_session session)
    rw [ends] at hloop
    have hinfo : Respects (Session.KeepsGrounded m)
        (onMachine (Machine.info "[*] Restoring original address before exit")) :=
      Session.keepsGrounded_onMachine (Machine.adds_note ⟨rfl, rfl, rfl, rfl⟩)
    exact hinfo t hloop

/-! ## The calls of a session -/

open Session (Makes)

theorem makes_startIf {s : Session} (h : Makes (startIf on) s before c) :
    on = true ∧ Makes Override.start s before c := by
  cases on with
  | false => exact absurd h (Session.not_makes_of_hushed (respects_pure true))
  | true =>
    refine ⟨rfl, Makes.of_bind_hushed (x := Override.start.attempt) h fun r => ?_⟩
    split
    · exact respects_pure _
    · exact Session.hushed_report _ _ _

theorem makes_converse {s : Session} (h : Makes (converse on) s before c) :
    on = true ∧ Makes Override.start s before c ∨
      ∃ u, startIf on s = (.ok true, u) ∧ Makes Session.run u before c := by
  have hnext : ∀ started : Bool, Respects Session.Extends
      (if started then Session.run else pure 1 : Step Session Nat) := by
    intro started
    split
    · exact Session.extends_of_moves Session.run_moves
    · exact respects_pure _
  rcases h.of_bind hnext with hstart | ⟨started, u, hstarted, hrun⟩
  · exact .inl (makes_startIf hstart)
  · cases started with
    | true => exact .inr ⟨u, hstarted, hrun⟩
    | false => exact absurd hrun (Session.not_makes_of_hushed (respects_pure 1))

/-- **A call of a session** is a read that a typed line asks for, or made at an occasion. -/
theorem call_of_converse (hprepare : prepare words m = (.ok (.ok (opts, .session v on)), m₁))
    (h : Makes (converse on) (.opening v m₁) before c) :
    (∃ n, Asked words m n ∧ c.command = [Link.program, n]) ∨
      ∃ verb t, Occasion words m verb t ∧ Makes verb.perform t before c := by
  rcases makes_converse h with ⟨rfl, hstart⟩ | ⟨u, hstarted, hrun⟩
  · exact .inr ⟨.on, _, .first hprepare, hstart⟩
  · have hsession : sessionOf? words m = some u :=
      sessionOf?_eq_some.2 ⟨opts, v, on, m₁, hprepare, hstarted⟩
    have htyped := typed_of_session hsession
    rcases Session.makes_run hrun with hloop | ⟨ending, t, hends, hrunning, hstop⟩
    · rw [htyped] at hloop
      obtain ⟨front, l, back, t, hsplit, hpasses, hexecute⟩ := Session.makes_loop hloop
      rcases Session.makes_execute hexecute with ⟨n, hset, hcommand⟩ | ⟨verb, hverb, hmakes⟩
      · refine .inl ⟨n, .typed ?_ hset, hcommand⟩
        rw [hsplit]
        exact List.mem_append_right _ List.mem_cons_self
      · exact .inr ⟨verb, _, .asked hsession hsplit hpasses hverb, hmakes⟩
    · rw [htyped] at hends
      exact .inr ⟨.off, _, .last hsession hends hrunning, hstop⟩

/-! ## The calls of a run -/

/-- A call that is made before the session reads its interface, whatever follows without a call. -/
theorem asked_of_work {es : List Event} (hload : loadSettings words m = (.ok s, m₁))
    (hparse : CommandLine.parse s words = .accepted o)
    (hrest : Machine.Between (work s o m₁).2 m' []) (htrace : m'.trace = m.trace ++ es)
    (hc : Event.called c ∈ es) : ∃ n, Asked words m n ∧ c.command = [Link.program, n] := by
  have hloaded := between_loadSettings hload
  rcases work_reads s o m₁ with hmute | ⟨n, hiface, hreads⟩
  · exact absurd (((hloaded.trans hmute).trans hrest).mem htrace hc) List.not_mem_nil
  · exact ⟨n, .started hload hparse hiface,
      ((hreads.after hloaded).before hrest).command_eq htrace hc⟩

/-- **A call of a run** reads an interface that is asked for, or is made at an occasion. -/
theorem call_of_run (h : (run words m).2.trace = m.trace ++ before ++ .called c :: after) :
    (∃ n, Asked words m n ∧ c.command = [Link.program, n]) ∨
      ∃ verb t, Occasion words m verb t ∧ Makes verb.perform t (m.trace ++ before) c := by
  have hto : (m.trace ++ before) ++ [.called c] <+: (run words m).2.trace := by
    rw [h]
    exact ⟨after, by simp⟩
  have hmem : ∀ {es : List Event}, Event.called c ∈ before ++ .called c :: es :=
    List.mem_append_right _ List.mem_cons_self
  rw [List.append_assoc] at h
  rcases hload : loadSettings words m with ⟨e | s, m₀⟩
  · have hmute := Machine.between_of_grows (Machine.mute_of_talk (adds_loadSettings words) m)
    have hprepare : prepare words m = (.error e, m₀) := bind_error hload _
    rw [run, bind_error hprepare] at h
    rw [hload] at hmute
    exact absurd (hmute.mem h hmem) List.not_mem_nil
  by_cases hparse : ∃ o, CommandLine.parse s words = .accepted o
  · obtain ⟨o, ho⟩ := hparse
    have hasked : ∀ m' es, Machine.Between (work s o m₀).2 m' [] → m'.trace = m.trace ++ es →
        Event.called c ∈ es → ∃ n, Asked words m n ∧ c.command = [Link.program, n] :=
      fun _ _ => asked_of_work hload ho
    have hstay := fun m' => Machine.between_of_grows (Machine.grows_refl Event.IsMute m')
    rcases hwork : work s o m₀ with ⟨e | code | ⟨v, on⟩, m₁⟩
    · rw [hwork] at hasked
      rw [run_of_workError hload ho hwork] at h
      exact .inl (hasked m₁ _ (hstay m₁) h hmem)
    · rw [hwork] at hasked
      obtain ⟨verbosity, hrun⟩ := run_of_done hload ho hwork
      rw [hrun] at h
      exact .inl (hasked m₁ _ (hstay m₁) h hmem)
    · rw [hwork] at hasked
      have hprepare : prepare words m = (.ok (.ok (o, .session v on)), m₁) :=
        prepare_of_accepted hload ho hwork
      have hheld : Machine.Between m₁ (Session.opening v m₁).machine [] :=
        ⟨[.held v.link.name v.link.address], rfl, rfl⟩
      rw [run_of_prepare hprepare] at hto
      -- the call is made before the session opens, or by the session
      rcases Session.prefix_concat_or hto
        (Session.extends_of_moves (converse_moves on) (.opening v m₁)) with ⟨back, hback⟩ | hlate
      · refine .inl (hasked _ (before ++ .called c :: back) hheld ?_ hmem)
        rw [← hback]
        simp
      · exact call_of_converse hprepare ⟨hlate, hto⟩
  · rw [run_of_not_accepted hload fun o ho => hparse ⟨o, ho⟩] at h
    exact absurd ((between_loadSettings hload).mem h hmem) List.not_mem_nil

/-- **What the commands of a run are.** Each one reads an interface that is asked for, and is just the
program and its name. Or it is the write of a verb at one of its occasions. Then it is to the
interface in hand, which has been read before; its address is canonical, the desired one for a start
and the original one for a stop; and it is prefixed just if the settings want it and the user is known
to be no superuser. -/
theorem run_calls (h : (run words m).2.trace = m.trace ++ before ++ .called c :: after) :
    (∃ n, Asked words m n ∧ c.command = [Link.program, n]) ∨
      ∃ verb t u a p, Occasion words m verb t ∧ verb.Reaches t u ∧
        Makes (onMachine (u.override.writer.write u.override.link.name a)) u (m.trace ++ before) c ∧
        verb.address? u.override.phase = some a ∧ Address.isCanonical a.toList = true ∧
        (∃ b, Event.opened u.override.link.name b ∈ before) ∧
        Platform.detect? m.host.platform = some p ∧
        c.command = u.override.settings.privilege m.host.user ++
          Link.program :: u.override.link.name :: p.writing a := by
  refine (call_of_run h).imp_right fun hoccasion => ?_
  obtain ⟨verb, t, ht, hmakes⟩ := hoccasion
  obtain ⟨u, act, k, hreaches, hready, haddress, hwrite⟩ := Session.makes_verb hmakes
  obtain ⟨hname, hcanonical, hopened, p, hp, hcommand⟩ :=
    (ht.grounded.of_reaches hreaches).write hready hwrite
  rw [hname] at hwrite
  exact ⟨verb, t, u, act.address k, p, ht, hreaches, hwrite, haddress, hcanonical, hopened, hp,
    hcommand⟩

/-- A start that is asked for on the command line writes as the superuser, and is no read. -/
theorem run_calls_quitting :
    ∃ before c after verb t u a, (run startingWords quitting).2.trace = before ++ .called c :: after ∧
      c.command = ["sudo", "ifconfig", "eth0", "ether", "02:11:22:33:44:55"] ∧
      Occasion startingWords quitting verb t ∧ verb.Reaches t u ∧
      verb.address? u.override.phase = some a ∧
      ∃ b, Event.opened u.override.link.name b ∈ before := by
  have hcommands : ((run startingWords quitting).2.trace.filterMap Event.call?).map (·.command) =
      [["ifconfig", "eth0"], ["sudo", "ifconfig", "eth0", "ether", "02:11:22:33:44:55"],
        ["sudo", "ifconfig", "eth0", "ether", "aa:bb:cc:dd:ee:ff"]] := by
    decide +kernel
  have hmem : ["sudo", "ifconfig", "eth0", "ether", "02:11:22:33:44:55"] ∈
      ((run startingWords quitting).2.trace.filterMap Event.call?).map (·.command) := by
    rw [hcommands]
    exact .tail _ (.head _)
  obtain ⟨c, hc, hcommand⟩ := List.mem_map.1 hmem
  obtain ⟨e, he, hcall⟩ := List.mem_filterMap.1 hc
  obtain ⟨before, after, htrace⟩ := List.append_of_mem he
  cases e with
  | called c' =>
    rw [Option.some.inj hcall] at htrace
    have hsplit : (run startingWords quitting).2.trace =
        quitting.trace ++ before ++ .called c :: after := htrace
    rcases run_calls hsplit with
      ⟨n, -, hread⟩ | ⟨verb, t, u, a, p, ht, hreaches, -, haddress, -, hopened, -⟩
    · exact absurd (hread.symm.trans hcommand) (by simp)
    · exact ⟨before, c, after, verb, t, u, a, htrace, hcommand, ht, hreaches, haddress, hopened⟩
  | _ => exact absurd hcall (by simp [Event.call?])

end Program

end LinkOverride
