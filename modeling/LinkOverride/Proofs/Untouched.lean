import LinkOverride.Proofs.Origin
import LinkOverride.Proofs.Span

/-!
# A platform that is not known

The platform is looked up for each write and not before. So on a platform that is not known an
override still reads its settings, begins cycles and takes interfaces in hand, and only the write
fails, at the end of a start or of a stop. What must not come of that is a half-done change: no command
is run, no address of an interface is taken for another, nothing is ever running, and a cycle that has
begun stays as it is for good, since neither a start nor a stop gets past its write.

`Spares ops s t` says so of one step and of a run alike: what may have come between the two sessions
is an interface that one of the operations has handed over, and the beginning of a cycle.
-/

namespace LinkOverride

open Step

/-- An event that tells of no command, and of no address that an interface has been given. -/
def Event.IsInert (e : Event) : Prop := e.call? = none ∧ e.noted? = none

namespace Session

variable {s t u : Session} {ops ops' : List Operation}

/-- The platform of the override is not known. -/
def Unserved (s : Session) : Prop := s.override.writer.platformOn s.machine.host = none

/-- No interface has been touched by the operations. -/
structure Spares (ops : List Operation) (s t : Session) : Prop where
  grows : s.machine.Grows Event.IsInert t.machine
  writer_eq : t.override.writer = s.override.writer
  link : t.override.link = s.override.link ∨ .attach t.override.link ∈ ops
  phase : t.override.phase = s.override.phase ∨
    s.override.phase.cycle? = none ∧ ∃ c, t.override.phase = .configured c

/-! ## From one session to the next -/

theorem Spares.refl (ops : List Operation) (s : Session) : Spares ops s s :=
  ⟨Machine.grows_refl _ _, rfl, .inl rfl, .inl rfl⟩

theorem Spares.trans (h : Spares ops s t) (h' : Spares ops' t u) : Spares (ops ++ ops') s u where
  grows := h.grows.trans h'.grows
  writer_eq := h'.writer_eq.trans h.writer_eq
  link := by
    rcases h'.link with hsame | hgiven
    · rw [hsame]
      exact h.link.imp_right (List.mem_append_left ops')
    · exact .inr (List.mem_append_right ops hgiven)
  phase := by
    rcases h'.phase with hsame | ⟨hfree, hbegun⟩
    · rw [hsame]
      exact h.phase
    · rcases h.phase with hsame | ⟨-, c, hc⟩
      · rw [hsame] at hfree
        exact .inr ⟨hfree, hbegun⟩
      · -- A cycle has begun already, so that none could begin now.
        rw [hc] at hfree
        exact absurd hfree (by simp [Phase.cycle?])

theorem Spares.unserved (h : Spares ops s t) (hs : s.Unserved) : t.Unserved := by
  rw [Unserved, h.writer_eq, h.grows.1]
  exact hs

theorem Spares.not_running (h : Spares ops s t) (hs : s.override.phase.isRunning = false) :
    t.override.phase.isRunning = false := by
  rcases h.phase with hsame | ⟨-, c, hc⟩
  · rw [hsame, hs]
  · rw [hc]
    rfl

theorem Spares.cycle?_eq (h : Spares ops s t) {c : Cycle}
    (hc : s.override.phase.cycle? = some c) : t.override.phase.cycle? = some c := by
  rcases h.phase with hsame | ⟨hfree, -⟩
  · rw [hsame, hc]
  · rw [hc] at hfree
    exact absurd hfree (by simp)

/-- New settings touch no interface. -/
theorem spares_settings (ops : List Operation) (s : Session) (settings : Settings) :
    Spares ops s ⟨s.machine, { s.override with settings := settings }⟩ :=
  ⟨Machine.grows_refl _ _, rfl, .inl rfl, .inl rfl⟩

/-! ## Operations -/

/-- **To begin a cycle** touches no interface. -/
theorem spares_configure (ops : List Operation) (s : Session) :
    Spares ops s (Override.configure s).2 := by
  obtain ⟨es, t, hadvances, hquiet, hconfigure⟩ := configure_cases (T := Operation.Free) s
  obtain ⟨-, es', htrace', hmute⟩ := hushed_begins.configure s
  have hleft : (Override.configure s).2 = t := by
    rcases hconfigure with ⟨e, h, -⟩ | ⟨c, h, -⟩
    · rw [h]
    · rw [h]
  rw [hleft] at htrace' ⊢
  rw [← List.append_cancel_left (hadvances.trace_eq.symm.trans htrace')] at hmute
  have hgrows : s.machine.Grows Event.IsInert t.machine :=
    ⟨hadvances.host_eq, es, hadvances.trace_eq, fun e he => ⟨hmute e he, (hquiet e he).noted?_eq⟩⟩
  rcases hconfigure with ⟨e, -, hsame⟩ | ⟨c, hok, hbegun⟩
  · exact ⟨hgrows, by rw [hsame], .inl (by rw [hsame]), .inl (by rw [hsame])⟩
  · exact ⟨hgrows, by rw [hbegun], .inl (by rw [hbegun]),
      .inr ⟨(override_of_configure hok).1, c, by rw [hbegun]⟩⟩

theorem spares_readyCycle (ops : List Operation) (s : Session) :
    Spares ops s (Override.readyCycle s).2 := by
  cases hp : s.override.phase with
  | unconfigured last =>
    rw [readyCycle_of_unconfigured hp]
    exact spares_configure ops s
  | configured c =>
    rw [readyCycle_of_configured hp]
    exact .refl ops s
  | running c =>
    rw [readyCycle_of_running hp]
    exact .refl ops s

theorem spares_attach (l : Link) (s : Session) : Spares [.attach l] s (Override.attach l s).2 := by
  cases hc : s.override.phase.cycle? with
  | some c =>
    rw [attach_of_busy hc]
    exact .refl _ s
  | none =>
    rw [attach_of_free hc]
    refine ⟨⟨rfl, [.held l.name l.address], rfl, ?_⟩, rfl, .inr List.mem_cons_self, .inl rfl⟩
    intro e he
    rw [List.mem_singleton.1 he]
    exact ⟨rfl, rfl⟩

/-- **A start** that has its cycle ready fails at the write, and leaves the cycle. -/
theorem start_of_unserved {c : Cycle} (hs : s.Unserved) (hready : Override.readyCycle s = (.ok c, t)) :
    Override.start s = (.error (.unsupportedPlatform
      (s.override.writer.platform.getD s.machine.host.platform)), t) := by
  have hspares := spares_readyCycle [] s
  rw [hready] at hspares
  rw [start_eq, bind_ok hready, perform_of_unknown .starting c (hspares.unserved hs),
    hspares.writer_eq, hspares.grows.1]

/-- **A stop** of a cycle fails at the write, and leaves the cycle. -/
theorem stop_of_unserved {c : Cycle} (hs : s.Unserved) (hc : s.override.phase.cycle? = some c) :
    Override.stop s = (.error (.unsupportedPlatform
      (s.override.writer.platform.getD s.machine.host.platform)), s) := by
  rw [stop_eq_of_some hc, perform_of_unknown .stopping c hs]

theorem spares_verb (hs : s.Unserved) (ops : List Operation) (v : Override.Verb) :
    Spares ops s (v.perform s).2 := by
  cases v with
  | on =>
    show Spares ops s (Override.start s).2
    have hspares := spares_readyCycle ops s
    rcases hready : Override.readyCycle s with ⟨e | c, t⟩
    · rw [hready] at hspares
      rwa [start_of_not_ready hready]
    · rw [hready] at hspares
      rwa [start_of_unserved hs hready]
  | off =>
    show Spares ops s (Override.stop s).2
    cases hc : s.override.phase.cycle? with
    | none =>
      rw [stop_eq_of_none hc]
      exact .refl ops s
    | some c =>
      rw [stop_of_unserved hs hc]
      exact .refl ops s

/-- **One operation**, other than a line of a session. -/
theorem spares_perform {op : Operation} (hs : s.Unserved) (hline : ¬op.IsLine) :
    Spares [op] s (op.perform s).2 := by
  cases op with
  | configure =>
    rw [Operation.perform_configure]
    exact spares_configure _ s
  | start => exact spares_verb hs _ .on
  | stop => exact spares_verb hs _ .off
  | attach l => exact spares_attach l s
  | command line =>
    rw [Operation.perform, Override.command]
    cases Override.Verb.ofLine? line with
    | none => exact .refl _ s
    | some v => exact spares_verb hs _ v
  | execute line => exact absurd trivial hline
  | setParameter name value =>
    rw [Operation.perform, bind_ok (Override.current_apply s), Settings.setNamed]
    cases Settings.Parameter.named? name with
    | none => exact .refl _ s
    | some p => exact spares_settings _ s _
  | applyProfile name => exact spares_settings _ s _

/-! ## Runs -/

/-- **Any run of operations**, by induction on the run: each of them leaves the platform unknown for
the next one. -/
theorem spares_after (hs : s.Unserved) (hlines : ∀ op ∈ ops, ¬op.IsLine) :
    Spares ops s (s.after ops) := by
  induction ops generalizing s with
  | nil => exact .refl [] s
  | cons op ops ih =>
    have hstep := spares_perform hs (hlines op List.mem_cons_self)
    exact hstep.trans (ih (hstep.unserved hs) fun op' h => hlines op' (List.mem_cons_of_mem _ h))

/-- **A platform that is not known is never touched.** Let `s` be what an override comes to after some
operations, and `t` what it comes to after some more. No command has been run, and no interface has
been given an address: the one in hand is the first one or one that was handed over, just as it was
then. Nothing is running. A start that has its cycle ready, and a stop of a cycle, fail with the
identifier of the platform and leave the cycle there; and the cycle of `s`, if there is one, is still
that of `t`. -/
theorem unserved_untouched {m : Machine} {l : Link} {settings : Settings} {w : Writer}
    (hrejected : Platform.detect? (w.platform.getD m.host.platform) = none)
    {before after : List Operation} (hlines : ∀ op ∈ before ++ after, ¬op.IsLine) :
    let identifier := w.platform.getD m.host.platform
    let s := Session.after before ⟨m, .fresh l settings w⟩
    let t := s.after after
    (∃ es, t.machine.trace = m.trace ++ es ∧ ∀ e ∈ es, e.call? = none ∧ e.noted? = none) ∧
    (t.override.link = l ∨ .attach t.override.link ∈ before ++ after) ∧
    t.override.phase.isRunning = false ∧
    (∀ (op : Operation) c u, op.verb? = some .on → Override.readyCycle t = (.ok c, u) →
      op.perform t = (.error (.unsupportedPlatform identifier), u)) ∧
    (∀ (op : Operation) c, op.verb? = some .off → t.override.phase.cycle? = some c →
      op.perform t = (.error (.unsupportedPlatform identifier), t)) ∧
    ∀ c, s.override.phase.cycle? = some c → t.override.phase.cycle? = some c := by
  intro identifier s t
  have hfresh : Unserved ⟨m, .fresh l settings w⟩ := hrejected
  have hbefore : Spares before ⟨m, .fresh l settings w⟩ s :=
    spares_after hfresh fun op h => hlines op (List.mem_append_left after h)
  have hafter : Spares after s t :=
    spares_after (hbefore.unserved hfresh) fun op h => hlines op (List.mem_append_right before h)
  have hwhole := hbefore.trans hafter
  have hunserved := hwhole.unserved hfresh
  have hidentifier : t.override.writer.platform.getD t.machine.host.platform = identifier := by
    rw [hwhole.writer_eq, hwhole.grows.1]
    rfl
  refine ⟨hwhole.grows.2, hwhole.link, hwhole.not_running rfl, ?_, ?_, fun c hc => hafter.cycle?_eq hc⟩
  · intro op c u hon hready
    rw [Operation.perform_of_verb hon, ← hidentifier]
    exact start_of_unserved hunserved hready
  · intro op c hoff hc
    rw [Operation.perform_of_verb hoff, ← hidentifier]
    exact stop_of_unserved hunserved hc

/-- A fresh override whose platform is not known. -/
def onPlan9 : Session where
  machine := permittingOne
  override := .fresh ⟨"eth0", some "aa:bb:cc:dd:ee:ff"⟩
    { Settings.initial with iface := "eth0", address := "02:11:22:33:44:55" }
    ⟨some "plan9", ⟨true, .null⟩⟩

/-- A cycle begins, a start and a stop of it fail, and another interface is refused: the cycle is
still there, and can still not be stopped. -/
theorem unserved_untouched_plan9 :
    let t := (onPlan9.after [.configure]).after
      [.start, .command "mac.changer off", .attach ⟨"eth1", some "02:00:00:00:00:01"⟩]
    t.override.phase.cycle? = some ⟨"eth0", "aa:bb:cc:dd:ee:ff", "02:11:22:33:44:55"⟩ ∧
      t.override.phase.isRunning = false ∧
      Operation.stop.perform t = (.error (.unsupportedPlatform "plan9"), t) := by
  have hrejected : Platform.detect? "plan9" = none := by decide
  have hlines : ∀ op ∈ [Operation.configure] ++ [.start, .command "mac.changer off",
      .attach ⟨"eth1", some "02:00:00:00:00:01"⟩], ¬op.IsLine := by
    simp [Operation.IsLine]
  have hbegun : (onPlan9.after [.configure]).override.phase.cycle? =
      some ⟨"eth0", "aa:bb:cc:dd:ee:ff", "02:11:22:33:44:55"⟩ := by decide +kernel
  obtain ⟨-, -, hidle, -, hstop, hstays⟩ := @unserved_untouched onPlan9.machine
    onPlan9.override.link onPlan9.override.settings onPlan9.override.writer hrejected _ _ hlines
  have hcycle := hstays _ hbegun
  exact ⟨hcycle, hidle, hstop .stop _ rfl hcycle⟩

end Session

end LinkOverride
