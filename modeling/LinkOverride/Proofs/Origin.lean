import LinkOverride.Proofs.Calls
import LinkOverride.Proofs.Readiness
import LinkOverride.Proofs.Standing

/-!
# Where a command comes from

Each command of a session is made by one step of it: by a line that names another interface, by a
start, or by a stop. `Makes x s before c` says that the step `x`, begun at the session `s`, makes the
call `c` when the trace has come to `before`. Since a trace only grows, two steps in a row make a call
in one of them, and so the call can be followed into the step that it comes from.
-/

namespace LinkOverride

open Machine (Adds)
open Override (onMachine)
open Step

namespace Override.Verb

/-- The session at which a verb writes. A start makes its cycle ready before. -/
inductive Reaches : Verb → Session → Session → Prop
  | on {t u : Session} {k : Cycle} (ready : readyCycle t = (.ok k, u)) : Reaches .on t u
  | off (t : Session) : Reaches .off t t

/-- The address that a verb writes. -/
def address? : Verb → Phase → Option String
  | on, p => p.desired?
  | off, p => p.original?

end Override.Verb

namespace Session

variable {α β : Type} {s t u : Session} {before : List Event} {c : Call}

/-! ## Making a call -/

/-- The step makes the call, when the trace has come to `before`. -/
def Makes (x : Step Session α) (s : Session) (before : List Event) (c : Call) : Prop :=
  s.machine.trace <+: before ∧ before ++ [.called c] <+: (x s).2.machine.trace

/-- The trace has grown. -/
def Extends (s s' : Session) : Prop := s.machine.trace <+: s'.machine.trace

instance : IsPreorder Session Extends where
  refl s := List.prefix_refl s.machine.trace
  trans _ _ _ := List.IsPrefix.trans

theorem extends_of_moves {T : List Event → Link → Prop} {x : Step Session α}
    (hx : Respects (Moves T) x) : Respects Extends x := by
  intro s
  obtain ⟨-, es, htrace, -⟩ := hx s
  exact ⟨es, htrace.symm⟩

theorem extends_of_stands {x : Step Session α} (hx : Respects Stands x) : Respects Extends x := by
  intro s
  obtain ⟨-, es, htrace, -⟩ := (hx s).machine.2
  exact ⟨es, htrace.symm⟩

/-- Of two beginnings of a trace, the shorter lies before the last event of the longer. -/
theorem prefix_concat_or {es es' whole : List Event} {e : Event} (h : es ++ [e] <+: whole)
    (h' : es' <+: whole) : es ++ [e] <+: es' ∨ es' <+: es := by
  rcases List.prefix_or_prefix_of_prefix h h' with hearly | hlate
  · exact .inl hearly
  · rcases List.prefix_concat_iff.1 hlate with hlast | hlate
    · rw [hlast]
      exact .inl List.prefix_rfl
    · exact .inr hlate

/-- What two steps make, one of them makes. -/
theorem makes_or_makes {x : Step Session α} {y : Step Session β} {r : Except Failure α}
    (hx : x s = (r, t)) (hy : Extends t (y t).2) (hfrom : s.machine.trace <+: before)
    (hto : before ++ [.called c] <+: (y t).2.machine.trace) :
    Makes x s before c ∨ Makes y t before c := by
  rcases prefix_concat_or hto hy with hearly | hlate
  · exact .inl ⟨hfrom, by rwa [hx]⟩
  · exact .inr ⟨hlate, hto⟩

/-- **Two steps in a row** make a call in one of them. -/
theorem Makes.of_bind {x : Step Session α} {f : α → Step Session β}
    (h : Makes (x >>= f) s before c) (hf : ∀ a, Respects Extends (f a)) :
    Makes x s before c ∨ ∃ a t, x s = (.ok a, t) ∧ Makes (f a) t before c := by
  obtain ⟨hfrom, hto⟩ := h
  rcases hx : x s with ⟨e | a, t⟩
  · rw [bind_error hx] at hto
    exact .inl ⟨hfrom, by rwa [hx]⟩
  · rw [bind_ok hx] at hto
    exact (makes_or_makes hx (hf a t) hfrom hto).imp_right fun h => ⟨a, t, rfl, h⟩

theorem Makes.mem {x : Step Session α} {es : List Event} (h : Makes x s before c)
    (htrace : (x s).2.machine.trace = s.machine.trace ++ es) : Event.called c ∈ es := by
  obtain ⟨⟨front, rfl⟩, hto⟩ := h
  rw [htrace, List.append_assoc, List.prefix_append_right_inj] at hto
  exact hto.subset (List.mem_append_right _ List.mem_cons_self)

/-! ## Steps without a call -/

/-- Nothing has been run. -/
def Hushed (s s' : Session) : Prop := s.machine.Grows Event.IsMute s'.machine

instance : IsPreorder Session Hushed where
  refl s := refl_of (Machine.Grows Event.IsMute) s.machine
  trans _ _ _ h h' := Machine.Grows.trans h h'

theorem extends_of_hushed {x : Step Session α} (hx : Respects Hushed x) : Respects Extends x := by
  intro s
  obtain ⟨-, es, htrace, -⟩ := hx s
  exact ⟨es, htrace.symm⟩

theorem not_makes_of_hushed {x : Step Session α} (hx : Respects Hushed x) :
    ¬Makes x s before c := by
  intro h
  obtain ⟨-, es, htrace, hes⟩ := hx s
  exact absurd (hes _ (h.mem htrace)) (by simp [Event.IsMute, Event.call?])

/-- After a step that runs nothing, the call is made by the next one. -/
theorem Makes.of_hushed_bind {x : Step Session α} {f : α → Step Session β}
    (h : Makes (x >>= f) s before c) (hx : Respects Hushed x) (hf : ∀ a, Respects Extends (f a)) :
    ∃ a t, x s = (.ok a, t) ∧ Makes (f a) t before c :=
  (h.of_bind hf).resolve_left (not_makes_of_hushed hx)

theorem Makes.of_current {f : Override → Step Session α}
    (h : Makes (Override.current >>= f) s before c) : Makes (f s.override) s before c := h

/-- Before steps that run nothing, the call is made by the first one. -/
theorem Makes.of_bind_hushed {x : Step Session α} {f : α → Step Session β}
    (h : Makes (x >>= f) s before c) (hf : ∀ a, Respects Hushed (f a)) : Makes x s before c := by
  rcases h.of_bind fun a => extends_of_hushed (hf a) with h | ⟨a, t, -, h⟩
  · exact h
  · exact absurd h (not_makes_of_hushed (hf a))

theorem hushed_onMachine {x : Step Machine α} (hx : Adds Event.IsMute x) :
    Respects Hushed (onMachine x) := fun s => hx s.machine

theorem hushed_talk {x : Step Machine α} (hx : Adds Event.IsTalk x) :
    Respects Hushed (onMachine x) := hushed_onMachine (Machine.mute_of_talk hx)

theorem hushed_note {e : Event} (h : e.IsMute) : Respects Hushed (onMachine (Machine.note e)) :=
  hushed_onMachine (Machine.adds_note h)

theorem hushed_current : Respects Hushed Override.current := refl_of Hushed

theorem hushed_modify (f : Override → Override) : Respects Hushed (Override.modify f) :=
  fun s => refl_of (Machine.Grows Event.IsMute) s.machine

theorem hushed_readAddress (text : String) :
    Respects Hushed (onMachine (Machine.readAddress text)) :=
  hushed_onMachine (Machine.adds_readAddress _ text)

/-- **To begin a cycle** runs nothing, and neither does taking an interface in hand. -/
theorem hushed_begins : (Law.keeping Hushed).Begins where
  current := hushed_current
  readAddress := hushed_readAddress
  setPhase _ := hushed_modify _
  setLink _ := hushed_modify _
  debug _ := hushed_note rfl
  held _ := hushed_note rfl

theorem hushed_looks : (Law.keeping Hushed).Looks where
  current := hushed_current
  shown _ := hushed_note rfl

theorem hushed_named (name : String) (r : Except Failure α) : Respects Hushed (named name r) :=
  Law.named (L := .keeping Hushed) name r

/-! ## Operations on an override -/

/-- **An address is written** by the one command that the writer has for it. -/
theorem makes_write {n a : String} (h : Makes (onMachine (s.override.writer.write n a)) s before c) :
    ∃ p, s.override.writer.platformOn s.machine.host = some p ∧
      c.command = s.override.writer.fullCommand s.machine.host p n a := by
  cases hp : s.override.writer.platformOn s.machine.host with
  | none =>
    have hw := Writer.write_apply_of_none hp n a
    have hmem : Event.called c ∈ [] := h.mem (by rw [onMachine_of_eq hw, List.append_nil])
    exact absurd hmem List.not_mem_nil
  | some p =>
    have hw := Writer.write_apply_of_some hp n a
    have hmem := h.mem (by rw [onMachine_of_eq hw]; exact Runner.after_trace _ _ _)
    refine ⟨p, rfl, ?_⟩
    rcases List.mem_cons.1 hmem with hlogged | hcalled
    · exact absurd hlogged (by simp)
    · rw [Event.called.inj (List.mem_singleton.1 hcalled)]
      rfl

theorem makes_perform {a : Act} {k : Cycle} (h : Makes (a.perform k) s before c) :
    Makes (onMachine (s.override.writer.write k.iface (a.address k))) s before c := by
  have hnoted : Respects Hushed (onMachine (Machine.note (.noted (a.address k)))) :=
    hushed_note rfl
  have hinfo : Respects Hushed (onMachine (Machine.info (a.announcement k).message)) :=
    hushed_note rfl
  have haddress := h.of_bind_hushed fun _ => (hushed_modify _).bind fun _ => hinfo
  exact haddress.of_current.of_bind_hushed fun _ => (hushed_modify _).bind fun _ => hnoted

theorem makes_start (h : Makes Override.start s before c) :
    ∃ k t, Override.readyCycle s = (.ok k, t) ∧ Makes (Act.starting.perform k) t before c := by
  rw [start_eq] at h
  exact h.of_hushed_bind hushed_begins.readyCycle fun k => extends_of_stands (stands_perform .starting k)

theorem makes_stop (h : Makes Override.stop s before c) :
    ∃ k, s.override.phase.cycle? = some k ∧ Makes (Act.stopping.perform k) s before c := by
  obtain ⟨hfrom, hto⟩ := h
  cases hk : s.override.phase.cycle? with
  | none =>
    rw [stop_eq_of_none hk] at hto
    exact absurd ⟨hfrom, hto⟩ (not_makes_of_hushed (respects_fail .notConfigured))
  | some k =>
    rw [stop_eq_of_some hk] at hto
    exact ⟨k, rfl, hfrom, hto⟩

/-- **A verb writes** the address that it is for, once a start has made its cycle ready. -/
theorem makes_verb {v : Override.Verb} (h : Makes v.perform t before c) :
    ∃ u a k, v.Reaches t u ∧ Act.Ready a u.override.phase k ∧
      v.address? u.override.phase = some (a.address k) ∧
      Makes (onMachine (u.override.writer.write k.iface (a.address k))) u before c := by
  cases v with
  | on =>
    obtain ⟨k, u, hready, hperform⟩ := makes_start h
    have hphase : u.override.phase = .configured k := by rw [readyCycle_ok hready]
    refine ⟨u, .starting, k, .on hready, hphase, ?_, makes_perform hperform⟩
    rw [hphase]
    rfl
  | off =>
    obtain ⟨k, hk, hperform⟩ := makes_stop h
    refine ⟨t, .stopping, k, .off t, hk, ?_, makes_perform hperform⟩
    rw [Override.Verb.address?, Phase.original?, hk]
    rfl

/-! ## Lines -/

theorem makes_acquire {n : String}
    (h : Makes (onMachine (Link.acquire n .unprivileged)) s before c) :
    c.command = [Link.program, n] := by
  obtain ⟨m, ⟨-, es, htrace, hes⟩, hacquire⟩ := Link.acquire_cases n s.machine
  have hreading : Link.IsReading n (.called c) → c.command = [Link.program, n] := by
    intro hc
    cases hc with
    | called o => rfl
  rcases hacquire with ⟨e, hacquire⟩ | ⟨a, hacquire⟩
  · exact hreading (hes _ (h.mem (by rw [onMachine_of_eq hacquire, htrace])))
  · have hmem : Event.called c ∈ es ++ [.opened n a] := h.mem (by
      rw [onMachine_of_eq hacquire, Machine.trace_record, htrace, List.append_assoc])
    rcases List.mem_append.1 hmem with hmem | hmem
    · exact hreading (hes _ hmem)
    · exact absurd (List.mem_singleton.1 hmem) (by simp)

/-- **Only to name another interface** is one read. -/
theorem makes_setParameter {name value : String}
    (h : Makes (setParameter name value) s before c) :
    name = Settings.Parameter.name .iface ∧ c.command = [Link.program, value] := by
  have hprepare : Makes (prepare name value) s before c := by
    refine h.of_bind_hushed fun _ => hushed_current.bind fun o => (hushed_named _ _).bind fun _ => ?_
    exact (hushed_modify _).bind fun _ => hushed_talk (Machine.adds_showText _)
  have hchosen := hprepare.of_current
  split at hchosen
  · exact absurd hchosen (not_makes_of_hushed ((hushed_readAddress _).bind fun _ => respects_pure _))
  · split at hchosen
    · next hiface => exact ⟨hiface.1, makes_acquire (hchosen.of_bind_hushed hushed_begins.attach)⟩
    · exact absurd hchosen (not_makes_of_hushed (respects_pure _))

/-- **A line makes a call** if it names another interface, or asks for a start or a stop. -/
theorem makes_execute {line : String} (h : Makes (execute line) s before c) :
    (∃ n, Request.ofLine line = .set (Settings.Parameter.name .iface) n ∧
        c.command = [Link.program, n]) ∨
      ∃ v, Override.Verb.ofLine? line = some v ∧ Makes v.perform s before c := by
  have hgoesOn : ∀ _ : Unit, Respects Hushed (pure true : Step Session Bool) :=
    fun _ => respects_pure true
  have hrest (hset : ∀ name value, Request.ofLine line ≠ .set name value)
      (hother : Request.ofLine line ≠ .other) : ¬Makes (execute line) s before c :=
    not_makes_of_hushed (hushed_looks.execute (fun name value hr => absurd hr (hset name value))
      fun hr => absurd hr hother)
  cases hr : Request.ofLine line with
  | set name value =>
    rw [execute_of_set hr] at h
    obtain ⟨rfl, hcommand⟩ := makes_setParameter (h.of_bind_hushed hgoesOn)
    exact .inl ⟨value, rfl, hcommand⟩
  | other =>
    rw [execute_of_other hr] at h
    have hcommand : Makes (Override.command line) s before c := h.of_bind_hushed hgoesOn
    rw [Override.command] at hcommand
    cases hv : Override.Verb.ofLine? line with
    | none =>
      rw [hv] at hcommand
      exact absurd hcommand (not_makes_of_hushed (respects_fail _))
    | some v =>
      rw [hv] at hcommand
      exact .inr ⟨v, rfl, hcommand⟩
  | _ => exact absurd h (hrest (by simp [hr]) (by simp [hr]))

/-! ## The session -/

theorem hushed_report {α : Type} (e : Failure) (text : String) (a : α) :
    Respects Hushed (if e.isReported then do
      onMachine (Machine.error text)
      return a
    else fail e : Step Session α) :=
  respects_report (fun _ => hushed_talk (Machine.adds_error _)) e text a

theorem makes_carryOut {line : String} (h : Makes (carryOut line) s before c) :
    Makes (execute line) s before c := by
  refine Makes.of_bind_hushed (x := (execute line).attempt) h fun r => ?_
  split
  · exact respects_pure _
  · exact hushed_report _ _ _

/-- **A call of the loop** is made by a line, after all lines before it. -/
theorem makes_loop {typed : List Typed} (h : Makes (loop typed) s before c) :
    ∃ front l back t, typed = front ++ .line l :: back ∧ Passes front s t ∧
      Makes (execute (Text.strip l)) t.consumed before c := by
  have hinterrupted : Respects Hushed interrupted :=
    (hushed_talk (Machine.adds_showText _)).bind fun _ => respects_pure _
  have hconsume : Respects Hushed consume :=
    fun s => ⟨rfl, [], (List.append_nil _).symm, by simp⟩
  induction typed generalizing s with
  | nil => exact absurd h (not_makes_of_hushed hinterrupted)
  | cons x rest ih =>
    cases x with
    | endOfInput =>
      exact absurd h (not_makes_of_hushed (hconsume.bind fun _ => hinterrupted))
    | interrupt =>
      exact absurd h (not_makes_of_hushed (hconsume.bind fun _ => hinterrupted))
    | line l =>
      obtain ⟨hfrom, hto⟩ := h
      have hhere : Makes (carryOut (Text.strip l)) s.consumed before c →
          ∃ front l' back u, Typed.line l :: rest = front ++ .line l' :: back ∧ Passes front s u ∧
            Makes (execute (Text.strip l')) u.consumed before c :=
        fun hcarry => ⟨[], l, rest, s, rfl, .nil s, makes_carryOut hcarry⟩
      rcases hcarry : carryOut (Text.strip l) s.consumed with ⟨e | goesOn, t⟩
      · by_cases he : e = .interrupted
        · rw [he] at hcarry
          rw [loop_of_interrupted hcarry] at hto
          rcases makes_or_makes hcarry (extends_of_moves interrupted_moves t) hfrom hto with
            hmade | hmade
          · exact hhere hmade
          · exact absurd hmade (not_makes_of_hushed hinterrupted)
        · rw [loop_of_error hcarry he] at hto
          exact hhere ⟨hfrom, by rwa [hcarry]⟩
      · cases goesOn with
        | false =>
          rw [loop_of_quit hcarry] at hto
          exact hhere ⟨hfrom, by rwa [hcarry]⟩
        | true =>
          rw [loop_of_goesOn hcarry] at hto
          rcases makes_or_makes hcarry (extends_of_moves (loop_moves rest) t) hfrom hto with
            hmade | hmade
          · exact hhere hmade
          · obtain ⟨front, l', back, u, rfl, hpasses, hexecute⟩ := ih hmade
            exact ⟨.line l :: front, l', back, u, rfl, .cons hcarry hpasses, hexecute⟩

/-- A running override is stopped when the session ends, once this has been announced. -/
theorem hushed_reported (message : Failure → String) (r : Except Failure Unit) :
    Respects Hushed (match r with
      | .ok () => pure false
      | .error e =>
        if e.isReported then do
          onMachine (Machine.error (message e))
          return true
        else fail e : Step Session Bool) := by
  split
  · exact respects_pure _
  · exact hushed_report _ _ _

theorem makes_restore (h : Makes restore s before c) : Makes Override.stop s.restoring before c := by
  have hinfo : Respects Hushed
      (onMachine (Machine.info "[*] Restoring original address before exit")) := hushed_note rfl
  have hreport := hushed_reported fun e =>
    s!"[FAIL] Could not restore original address: {e.message}"
  have hstop : Respects Extends Override.stop := extends_of_moves (T := OpenedLast) stop_moves
  obtain ⟨a, t, ht, hrest⟩ := h.of_hushed_bind hinfo fun _ =>
    hstop.attempt.bind fun r => extends_of_hushed (hreport r)
  have hstopped : Makes Override.stop.attempt t before c := hrest.of_bind_hushed hreport
  rw [← (Prod.mk.inj ht).2] at hstopped
  exact hstopped

/-- **A call of a session** is one of its loop, or one of the restore at its end. -/
theorem makes_run (h : Makes run s before c) :
    Makes (loop s.machine.typed) s before c ∨
      ∃ ending t, loop s.machine.typed s = (.ok ending, t) ∧ t.override.phase.isRunning = true ∧
        Makes Override.stop t.restoring before c := by
  obtain ⟨hfrom, hto⟩ := h
  rcases hloop : loop s.machine.typed s with ⟨e | ending, t⟩
  · rw [run_of_error hloop] at hto
    exact .inl ⟨hfrom, by rwa [hloop]⟩
  · cases hr : t.override.phase.isRunning with
    | false =>
      rw [run_of_idle hloop hr] at hto
      exact .inl ⟨hfrom, by rwa [hloop]⟩
    | true =>
      rw [run_of_running hloop hr] at hto
      have hcode : ∀ failed : Bool, Respects Hushed
          (pure (if failed then 1 else ending.code) : Step Session Nat) := fun _ => respects_pure _
      have hextends := (extends_of_moves restore_moves).bind fun failed =>
        extends_of_hushed (hcode failed)
      rcases makes_or_makes hloop (hextends t) hfrom hto with hmade | hmade
      · exact .inl hmade
      · exact .inr ⟨ending, t, rfl, hr, makes_restore (hmade.of_bind_hushed hcode)⟩

end Session

end LinkOverride
