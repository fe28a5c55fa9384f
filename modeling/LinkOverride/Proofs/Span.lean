import LinkOverride.Proofs.Digits
import LinkOverride.Proofs.Ending

/-!
# The span of a cycle

A cycle spans the operations from the one that begins it to the stop that succeeds. What it consists
of is settled when it begins: the interface in hand, the address which that is known to have, and the
canonical form of the address that is wanted then. Within the span other settings may be stored, other
interfaces offered, and starts and stops may fail, any number of times and in any order; nothing of it
touches the cycle, and no digit is drawn. So all starts of a cycle write the same address, and a
random one is made of digits that no other cycle has.

`Unstopped` says of a run that none of its operations is a stop that succeeds. The step law is
`cycle?_perform_of_some`, and `cycle?_after` carries it through a run.
-/

namespace LinkOverride

open Step

/-- The address that a text asks for, in canonical form: the digits that come next if it asks for a
random one, and else those that it writes. -/
def Address.Canonical (text : String) (next : List (Fin 16)) (address : String) : Prop :=
  Text.strip text = randomWord ∧ address = String.ofList (ofDigits next) ∨
    ∃ ds, Written (Text.strip text).toList ds ∧ address = String.ofList (ofDigits ds)

theorem Machine.canonical_of_read {m : Machine} {text address : String}
    (h : Address.read (m.digitsOf text) text = .ok address) :
    Address.Canonical text m.nextDigits address := by
  have hread : Machine.readAddress text m = (.ok address, m.drawnFor text) := by
    rw [readAddress_apply, h]
    rfl
  by_cases hrandom : Text.strip text = Address.randomWord
  · rw [readAddress_of_random hrandom] at hread
    exact .inl ⟨hrandom, (Except.ok.inj (Prod.mk.inj hread).1).symm⟩
  by_cases hwritten : ∃ ds, Address.Written (Text.strip text).toList ds
  · obtain ⟨ds, hds⟩ := hwritten
    rw [readAddress_of_written hds] at hread
    exact .inr ⟨ds, hds, (Except.ok.inj (Prod.mk.inj hread).1).symm⟩
  · obtain ⟨fault, hfault⟩ := readAddress_of_not_written hrandom hwritten m
    rw [hread] at hfault
    exact absurd (Prod.mk.inj hfault).1 (by simp)

variable {s t : Session} {c : Cycle} {e : Failure}

/-- **What a cycle consists of** when it begins. -/
theorem parts_of_configure (h : Override.configure s = (.ok c, t)) :
    s.override.link = ⟨c.iface, some c.original⟩ ∧
      Address.Canonical s.override.settings.address s.machine.nextDigits c.desired := by
  cases hfree : s.override.obstacle? with
  | some e =>
    rw [configure_of_obstacle hfree] at h
    exact absurd (Prod.mk.inj h).1 (by simp)
  | none =>
    cases hr : Address.read (s.machine.digitsOf s.override.settings.address)
        s.override.settings.address with
    | error fault =>
      rw [configure_of_invalid hfree hr] at h
      exact absurd (Prod.mk.inj h).1 (by simp)
    | ok desired =>
      cases ha : s.override.link.address with
      | none =>
        rw [configure_of_unknown hfree hr ha] at h
        exact absurd (Prod.mk.inj h).1 (by simp)
      | some original =>
        rw [configure_of_known hfree hr ha] at h
        obtain rfl := Except.ok.inj (Prod.mk.inj h).1
        exact ⟨by rw [← ha], Machine.canonical_of_read hr⟩

/-! ## Starting and stopping -/

/-- A cycle that is ready for a start is still there after it, however the start ends. -/
theorem cycle?_of_ready (h : Override.readyCycle s = (.ok c, t)) :
    (Override.start s).2.override.phase.cycle? = some c := by
  have hover := readyCycle_ok h
  have hc : Act.starting.Ready t.override.phase c := by
    rw [hover]
    rfl
  rw [start_eq, bind_ok h]
  obtain ⟨-, u, -, ⟨e, herror, hsame, -⟩ | ⟨hok, hdone⟩⟩ :=
    Act.starting.perform_cases (T := fun _ _ => True) hc
  · rw [herror, hsame, hover]
    rfl
  · rw [hok, hdone]
    rfl

theorem start_of_not_ready (h : Override.readyCycle s = (.error e, t)) :
    Override.start s = (.error e, t) := by
  rw [start_eq, bind_error h]

theorem cycle?_start (h : s.override.phase.cycle? = some c) :
    (Override.start s).2.override.phase.cycle? = some c := by
  cases hp : s.override.phase with
  | unconfigured last =>
    rw [hp] at h
    exact absurd h (by simp [Phase.cycle?])
  | configured d =>
    rw [hp] at h
    obtain rfl := Option.some.inj h
    exact cycle?_of_ready (readyCycle_of_configured hp)
  | running d => rw [start_of_not_ready (readyCycle_of_running hp), hp, ← h, hp]

/-! ## One operation -/

namespace Operation

variable {op : Operation}

/-- A cycle that begins is there, whether or not a start goes on to write its address. -/
theorem cycle?_of_configure (hop : op.MayBegin) (h : Override.configure s = (.ok c, t)) :
    (op.perform s).2.override.phase.cycle? = some c := by
  obtain ⟨hfree, hover⟩ := override_of_configure h
  rcases hop with rfl | hv
  · rw [perform_configure, h, hover]
    rfl
  · rw [perform_of_verb hv]
    exact cycle?_of_ready ((readyCycle_of_free hfree).trans h)

/-- **Without a cycle** there is none afterwards, unless one has begun. -/
theorem cycle?_perform_of_none (hline : ¬op.IsLine) (h : s.override.phase.cycle? = none) :
    (op.perform s).2.override.phase.cycle? = none ∨
      ∃ c t, op.MayBegin ∧ Override.configure s = (.ok c, t) ∧
        (op.perform s).2.override.phase.cycle? = some c := by
  by_cases hbegin : op.MayBegin
  · rcases hconfigure : Override.configure s with ⟨e | c, t⟩
    · have hsame := override_of_configure_error hconfigure
      refine .inl ?_
      rcases hbegin with rfl | hv
      · rw [perform_configure, hconfigure, hsame, h]
      · rw [perform_of_verb hv]
        show (Override.start s).2.override.phase.cycle? = none
        rw [start_of_not_ready ((readyCycle_of_free h).trans hconfigure), hsame, h]
    · exact .inr ⟨c, t, hbegin, rfl, cycle?_of_configure hbegin hconfigure⟩
  by_cases hstop : op.verb? = some .off
  · refine .inl ?_
    rw [perform_of_verb hstop]
    show (Override.stop s).2.override.phase.cycle? = none
    rw [stop_eq_of_none h, h]
  · exact .inl (by rw [(perform_of_aside hline hbegin hstop s).1, h])

/-- The operation is a stop that succeeds. -/
def Ends (op : Operation) (s : Session) : Prop :=
  op.verb? = some .off ∧ (op.perform s).1 = .ok ()

theorem cycle?_of_ends (h : op.Ends s) : (op.perform s).2.override.phase.cycle? = none := by
  obtain ⟨hstop, hok⟩ := h
  rw [perform_of_verb hstop] at hok ⊢
  change (Override.stop s).1 = .ok () at hok
  show (Override.stop s).2.override.phase.cycle? = none
  obtain ⟨-, t, -, ⟨e, herror, -⟩ | ⟨c, -, hstop, hdone⟩⟩ := stop_cases (T := fun _ _ => True) s
  · rw [herror] at hok
    exact absurd hok (by simp)
  · rw [hstop, hdone]
    rfl

/-- **A cycle stays** as it is, whatever is done, until a stop succeeds. -/
theorem cycle?_perform_of_some (hline : ¬op.IsLine) (h : s.override.phase.cycle? = some c)
    (hends : ¬op.Ends s) : (op.perform s).2.override.phase.cycle? = some c := by
  rcases Classical.em op.MayBegin with (rfl | hv) | hbegin
  · rw [perform_configure, configure_of_busy h, h]
  · rw [perform_of_verb hv]
    exact cycle?_start h
  by_cases hstop : op.verb? = some .off
  · have hfails : (Override.stop s).1 ≠ .ok () := fun hok => hends ⟨hstop, by
      rw [perform_of_verb hstop]
      exact hok⟩
    rw [perform_of_verb hstop]
    show (Override.stop s).2.override.phase.cycle? = some c
    obtain ⟨-, t, -, ⟨e, herror, hsame⟩ | ⟨d, -, hok, -⟩⟩ := stop_cases (T := fun _ _ => True) s
    · rw [herror, hsame, h]
    · exact absurd (by rw [hok]) hfails
  · rw [(perform_of_aside hline hbegin hstop s).1, h]

/-- **A cycle that was not there** has begun with the operation. -/
theorem exists_configure_of_new (hline : ¬op.IsLine) (hnew : s.override.phase.cycle? ≠ some c)
    (h : (op.perform s).2.override.phase.cycle? = some c) :
    op.MayBegin ∧ ∃ t, Override.configure s = (.ok c, t) := by
  cases hcycle : s.override.phase.cycle? with
  | none =>
    rcases cycle?_perform_of_none hline hcycle with hnone | ⟨d, t, hbegin, hd, hsome⟩
    · rw [hnone] at h
      exact absurd h (by simp)
    · rw [hsome] at h
      rw [← Option.some.inj h]
      exact ⟨hbegin, t, hd⟩
  | some d =>
    by_cases hends : op.Ends s
    · rw [cycle?_of_ends hends] at h
      exact absurd h (by simp)
    · rw [cycle?_perform_of_some hline hcycle hends] at h
      exact absurd (hcycle.trans h) hnew

/-- With a cycle no other begins, so that no digit is drawn. -/
theorem not_draws_of_cycle (h : s.override.phase.cycle? = some c) : ¬op.Draws s.override := by
  rintro ⟨-, hfree, -⟩
  rw [(Override.of_obstacle?_eq_none hfree).1] at h
  exact absurd h (by simp)

end Operation

/-! ## Runs -/

namespace Session

/-- No operation of the run is a stop that succeeds. -/
def Unstopped (s : Session) : List Operation → Prop
  | [] => True
  | op :: ops => ¬op.Ends s ∧ Unstopped (op.perform s).2 ops

variable {op : Operation} {ops : List Operation}

theorem after_append (s : Session) (ops ops' : List Operation) :
    s.after (ops ++ ops') = (s.after ops).after ops' := List.foldl_append

/-- **A cycle through a run**: while no stop succeeds it stays, and no digit is drawn. -/
theorem cycle?_after (hlines : ∀ op ∈ ops, ¬op.IsLine) (h : s.override.phase.cycle? = some c)
    (hops : s.Unstopped ops) :
    (s.after ops).override.phase.cycle? = some c ∧
      (s.after ops).machine.drawn = s.machine.drawn := by
  induction ops generalizing s with
  | nil => exact ⟨h, rfl⟩
  | cons op ops ih =>
    have hline : ¬op.IsLine := hlines op List.mem_cons_self
    obtain ⟨hends, hrest⟩ := hops
    have hstep := Operation.cycle?_perform_of_some hline h hends
    have hdrawn := Operation.drawn_perform_of_not_draws hline (Operation.not_draws_of_cycle h)
    obtain ⟨hcycle, hafter⟩ := ih (fun op' h' => hlines op' (List.mem_cons_of_mem _ h')) hstep hrest
    exact ⟨hcycle, hafter.trans hdrawn⟩

/-- What has been drawn is not drawn again. -/
theorem drawn_le_after (hlines : ∀ op ∈ ops, ¬op.IsLine) (s : Session) :
    s.machine.drawn ≤ (s.after ops).machine.drawn := by
  induction ops generalizing s with
  | nil => exact Nat.le_refl _
  | cons op ops ih =>
    have hstep : s.machine.drawn ≤ (op.perform s).2.machine.drawn := by
      by_cases hdraws : op.Draws s.override
      · rw [Operation.drawn_perform_of_draws hdraws]
        exact Nat.le_add_right _ _
      · exact Nat.le_of_eq
          (Operation.drawn_perform_of_not_draws (hlines op List.mem_cons_self) hdraws).symm
    exact Nat.le_trans hstep (ih (fun op' h' => hlines op' (List.mem_cons_of_mem _ h')) _)

/-- **A cycle is fixed when it begins.** In any run, let `op` be an operation of it, `t` what it
finds and `u` what it leaves. It draws twelve digits if it comes to read a text that asks for a
random address, and else none, and none that are drawn later have been drawn before. If it begins a
cycle, that is made of the interface in hand, its known address and the canonical form of the address
that is wanted, and stays as it is through all that follows, without a digit being drawn, until a stop
succeeds; which ends it. No cycle is there that has not begun so. -/
theorem cycle_fixed (s : Session) {before : List Operation} {op : Operation}
    (hlines : ∀ op' ∈ before ++ op :: ops, ¬op'.IsLine) :
    let t := s.after before
    let u := s.after (before ++ [op])
    let v := s.after (before ++ op :: ops)
    (op.Draws t.override → u.machine.drawn = t.machine.drawn + 12) ∧
    (¬op.Draws t.override → u.machine.drawn = t.machine.drawn) ∧
    u.machine.drawn ≤ v.machine.drawn ∧
    (∀ c t', op.MayBegin → Override.configure t = (.ok c, t') →
      t.override.link = ⟨c.iface, some c.original⟩ ∧
        Address.Canonical t.override.settings.address t.machine.nextDigits c.desired ∧
        u.override.phase.cycle? = some c ∧
        (u.Unstopped ops →
          v.override.phase.cycle? = some c ∧ v.machine.drawn = u.machine.drawn)) ∧
    (op.Ends t → u.override.phase.cycle? = none) ∧
    ∀ c, t.override.phase.cycle? ≠ some c → u.override.phase.cycle? = some c →
      op.MayBegin ∧ ∃ t', Override.configure t = (.ok c, t') := by
  intro t u v
  have hline : ¬op.IsLine := hlines op (List.mem_append_right _ List.mem_cons_self)
  have hops : ∀ op' ∈ ops, ¬op'.IsLine := fun op' h' =>
    hlines op' (List.mem_append_right _ (List.mem_cons_of_mem _ h'))
  have hu : u = (op.perform t).2 := after_append s before [op]
  have hv : v = u.after ops := by
    rw [show v = s.after (before ++ [op] ++ ops) by rw [List.append_assoc]; rfl, after_append]
  refine ⟨fun h => ?_, fun h => ?_, ?_, fun c t' hbegin hc => ?_, fun h => ?_, fun c hnew h => ?_⟩
  · rw [hu]
    exact Operation.drawn_perform_of_draws h
  · rw [hu]
    exact Operation.drawn_perform_of_not_draws hline h
  · rw [hv]
    exact drawn_le_after hops u
  · obtain ⟨hlink, hcanonical⟩ := parts_of_configure hc
    have hcycle : u.override.phase.cycle? = some c := by
      rw [hu]
      exact Operation.cycle?_of_configure hbegin hc
    refine ⟨hlink, hcanonical, hcycle, fun hunstopped => ?_⟩
    rw [hv]
    exact cycle?_after hops hcycle hunstopped
  · rw [hu]
    exact Operation.cycle?_of_ends h
  · rw [hu] at h
    exact Operation.exists_configure_of_new hline hnew h

/-- A fresh override that wants a random address, on a machine that permits the second of three
commands only. -/
def wantingRandom : Session where
  machine := { permittingOne with outcomes := [.notPermitted, .finished 0 none none, .notPermitted] }
  override := .fresh ⟨"eth0", some "aa:bb:cc:dd:ee:ff"⟩
    { Settings.initial with iface := "eth0", address := "<random mac>" } ⟨none, ⟨true, .null⟩⟩

/-- A start that fails, another address, a start that succeeds and a stop that fails: the cycle is
that of the first start, and so is the one address that has been drawn. -/
theorem cycle_fixed_wantingRandom :
    let ops : List Operation :=
      [.setParameter "mac.changer.address" "02:11:22:33:44:55", .start, .stop]
    (∀ op ∈ [] ++ .start :: ops, ¬op.IsLine) ∧ (wantingRandom.after [.start]).Unstopped ops ∧
      (wantingRandom.after (.start :: ops)).override.phase.cycle? =
        some ⟨"eth0", "aa:bb:cc:dd:ee:ff", "00:00:00:00:00:00"⟩ ∧
      (wantingRandom.after (.start :: ops)).machine.drawn = 12 := by
  intro ops
  have hlines : ∀ op ∈ [] ++ .start :: ops, ¬op.IsLine := by simp [ops, Operation.IsLine]
  have hstart : Override.configure wantingRandom =
      (.ok ⟨"eth0", "aa:bb:cc:dd:ee:ff", "00:00:00:00:00:00"⟩, _) := rfl
  have hunstopped : (wantingRandom.after [.start]).Unstopped ops := by
    change Unstopped _ [_, _, _]
    refine ⟨fun h => ?_, ⟨fun h => ?_, ⟨fun h => ?_, trivial⟩⟩⟩
    · exact absurd h.1 (by simp [Operation.verb?])
    · exact absurd h.1 (by simp [Operation.verb?])
    · exact absurd (show Except.error _ = Except.ok () from h.2) (by simp)
  obtain ⟨hdraws, -, -, hbegins, -⟩ := cycle_fixed wantingRandom hlines
  obtain ⟨-, -, -, hstays⟩ := hbegins _ _ (.inr rfl) hstart
  obtain ⟨hcycle, hdrawn⟩ := hstays hunstopped
  exact ⟨hlines, hunstopped, hcycle, hdrawn.trans (hdraws ⟨.inr rfl, rfl, by decide⟩)⟩

end Session

end LinkOverride
