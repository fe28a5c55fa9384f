import LinkOverride.Proofs.Issue

/-!
# Which commands have a time limit

A session has one writer, and its runner has the time limit in force. No operation replaces it, so all
commands that write an address have that limit, at whatever time of the session they are run. The
commands that read an interface are run by another runner, which has no limit: the one before the
session and those that a line asks for. So a run keeps to its limit just if there is none, or if
nothing is read by a command.

`Call.Limited` says so of one call. The parts of an operation add such calls only, and from there the
law passes to lines, to sessions and to runs.
-/

namespace LinkOverride

open Machine (Adds Between)
open Override (onMachine)
open Step

/-! ## Calls of one kind -/

namespace Machine

/-- All calls between the machines are of one kind. -/
def CallsOnly (P : Call → Prop) (m m' : Machine) : Prop :=
  ∃ calls, Between m m' calls ∧ ∀ c ∈ calls, P c

variable {P : Call → Prop} {m m' m'' : Machine}

theorem callsOnly_of_mute (h : Between m m' []) : CallsOnly P m m' := ⟨[], h, by simp⟩

theorem CallsOnly.trans (h : CallsOnly P m m') (h' : CallsOnly P m' m'') : CallsOnly P m m'' := by
  obtain ⟨calls, hbetween, hcalls⟩ := h
  obtain ⟨calls', hbetween', hcalls'⟩ := h'
  refine ⟨calls ++ calls', hbetween.trans hbetween', fun c hc => ?_⟩
  exact (List.mem_append.1 hc).elim (hcalls c) (hcalls' c)

instance (P : Call → Prop) : IsPreorder Machine (CallsOnly P) where
  refl m := callsOnly_of_mute (between_of_grows (grows_refl _ m))
  trans _ _ _ := CallsOnly.trans

end Machine

open Machine (CallsOnly)

/-! ## The calls of a session -/

namespace Call

/-- The call reads an interface. -/
def IsReading (c : Call) : Prop := ∃ name, c.command = [Link.program, name]

/-- A read without a limit, or a write within the limit. -/
inductive Limited (limit : Value) (c : Call) : Prop
  | reads (reading : c.IsReading) (unlimited : c.timeout = .null)
  | writes {name address : String} (writing : writeIn? c.command = some (name, address))
      (limited : c.timeout = limit)

variable {limit : Value} {c : Call}

theorem not_isReading_of_writeIn? {name address : String}
    (h : writeIn? c.command = some (name, address)) : ¬c.IsReading := by
  rintro ⟨n, hn⟩
  rw [hn, writeIn?_read] at h
  exact absurd h (by simp)

/-- **A call keeps to the limit** unless it is a read and there is a limit. -/
theorem Limited.timeout_eq_iff (h : c.Limited limit) :
    c.timeout = limit ↔ limit = .null ∨ ¬c.IsReading := by
  cases h with
  | reads reading unlimited =>
    rw [unlimited, or_iff_left (not_not_intro reading)]
    exact eq_comm
  | writes writing limited => exact iff_of_true limited (.inr (not_isReading_of_writeIn? writing))

end Call

theorem Link.Reads.callsOnly {name : String} {limit : Value} {m m' : Machine}
    (h : Link.Reads name m m') : CallsOnly (Call.Limited limit) m m' := by
  rcases h with hmute | ⟨o, hread⟩
  · exact Machine.callsOnly_of_mute hmute
  · refine ⟨_, hread, fun c hc => ?_⟩
    rw [List.mem_singleton.1 hc]
    exact .reads ⟨name, rfl⟩ rfl

namespace Session

/-- The writer stays the same, and all calls keep to its limit as far as calls do. -/
structure KeepsLimit (s s' : Session) : Prop where
  writer_eq : s'.override.writer = s.override.writer
  calls : s.machine.CallsOnly (Call.Limited s.override.writer.runner.timeout) s'.machine

instance : IsPreorder Session KeepsLimit where
  refl s := ⟨rfl, refl_of (CallsOnly _) s.machine⟩
  trans _ _ _ h h' := by
    refine ⟨h'.writer_eq.trans h.writer_eq, h.calls.trans ?_⟩
    rw [← h.writer_eq]
    exact h'.calls

theorem keepsLimit_mute {α : Type} {x : Step Machine α} (hx : Adds Event.IsMute x) :
    Respects KeepsLimit (onMachine x) :=
  fun s => ⟨rfl, Machine.callsOnly_of_mute (Machine.between_of_grows (hx s.machine))⟩

theorem keepsLimit_note {e : Event} (h : e.IsMute) :
    Respects KeepsLimit (onMachine (Machine.note e)) := keepsLimit_mute (Machine.adds_note h)

theorem keepsLimit_modify {f : Override → Override} (h : ∀ o, (f o).writer = o.writer) :
    Respects KeepsLimit (Override.modify f) :=
  fun s => ⟨h s.override, refl_of (CallsOnly _) s.machine⟩

/-- **A write** is made by the writer of the session, and so within its limit. -/
theorem keepsLimit_write (s : Session) (name address : String) :
    KeepsLimit s (onMachine (s.override.writer.write name address) s).2 := by
  refine ⟨rfl, ?_⟩
  show CallsOnly _ s.machine (s.override.writer.write name address s.machine).2
  rcases s.override.write_cases name address s.machine with
    ⟨e, hw⟩ | ⟨call, message, m', hwrites, -, htrace, hw⟩
  · rw [hw]
    exact refl_of (CallsOnly _) s.machine
  · have hleft : (s.override.writer.write name address s.machine).2 = m' := by
      rcases hw with ⟨e, hw, -⟩ | ⟨done, hw, -⟩
      · rw [hw]
      · rw [hw]
    rw [hleft]
    refine ⟨[call], ⟨_, htrace, rfl⟩, fun c hc => ?_⟩
    rw [List.mem_singleton.1 hc]
    exact .writes hwrites.writeIn?_eq hwrites.timeout_eq

/-- **The parts of a line** keep to the limit, apart from a read. -/
theorem keepsLimit_lines : (Law.keeping KeepsLimit).Lines where
  current := refl_of KeepsLimit
  readAddress text := keepsLimit_mute (Machine.adds_readAddress _ text)
  setPhase _ := keepsLimit_modify fun _ => rfl
  setLink _ := keepsLimit_modify fun _ => rfl
  debug _ := keepsLimit_note rfl
  held _ := keepsLimit_note rfl
  write name address s := keepsLimit_write s name address
  noted _ := keepsLimit_note rfl
  info _ := keepsLimit_note rfl
  acquire name s := ⟨rfl, (Link.reads_acquire name s.machine).callsOnly⟩
  store _ _ := keepsLimit_modify fun _ => rfl
  shown _ := keepsLimit_note rfl

theorem keepsLimit_carryOut (line : String) : Respects KeepsLimit (carryOut line) :=
  respects_carryOut (keepsLimit_lines.execute fun _ => keepsLimit_lines.command (respects_fail _))
    fun _ => keepsLimit_note rfl

/-- **A session** keeps to its limit, whatever is typed and however its commands end. -/
theorem keepsLimit_run : Respects KeepsLimit run := by
  have hconsume : Respects KeepsLimit consume :=
    keepsLimit_mute (Machine.adds_of_eq (fun _ => rfl) fun _ => rfl)
  have hinterrupted : Respects KeepsLimit interrupted :=
    (keepsLimit_mute (Machine.mute_of_talk (Machine.adds_showText _))).bind fun _ =>
      respects_pure _
  exact respects_run (respects_loop hconsume hinterrupted keepsLimit_carryOut)
    (respects_restore keepsLimit_lines.stop (keepsLimit_note rfl) fun _ => keepsLimit_note rfl)

end Session

/-! ## The calls of a run -/

namespace Program

variable {words : List String} {s : Settings} {o : Options} {m m₁ : Machine}

theorem keepsLimit_converse (on : Bool) : Respects Session.KeepsLimit (converse on) :=
  respects_converse
    (respects_startIf Session.keepsLimit_lines.start (fun _ => Session.keepsLimit_note rfl) on)
    Session.keepsLimit_run

/-- The calls of a run keep to the limit that its command line leaves in force. -/
theorem callsOnly_run (hload : loadSettings words m = (.ok s, m₁))
    (hparse : CommandLine.parse s words = .accepted o) :
    m.CallsOnly (Call.Limited o.timeout) (run words m).2 := by
  have hloaded : m.CallsOnly (Call.Limited o.timeout) m₁ :=
    Machine.callsOnly_of_mute (between_loadSettings hload)
  have hworked : m₁.CallsOnly (Call.Limited o.timeout) (work s o m₁).2 := by
    rcases work_reads s o m₁ with hmute | ⟨n, -, hreads⟩
    · exact Machine.callsOnly_of_mute hmute
    · exact hreads.callsOnly
  rcases hwork : work s o m₁ with ⟨e | code | ⟨v, on⟩, m₂⟩
  · rw [hwork] at hworked
    rw [run_of_workError hload hparse hwork]
    exact hloaded.trans hworked
  · rw [hwork] at hworked
    obtain ⟨verbosity, hrun⟩ := run_of_done hload hparse hwork
    rw [hrun]
    exact hloaded.trans hworked
  · rw [hwork] at hworked
    have hlimit : v.writer.runner.timeout = o.timeout := by
      obtain ⟨p, iface, -, -, -, hbegin⟩ := session_of_work hwork
      obtain ⟨address, m₃, -, -, -, hv, -⟩ := session_of_beginSession hbegin
      rw [hv]
      rfl
    have hheld : m₂.CallsOnly (Call.Limited o.timeout) (Session.opening v m₂).machine :=
      Machine.callsOnly_of_mute ⟨[.held v.link.name v.link.address], rfl, rfl⟩
    have hconverse := (keepsLimit_converse on (.opening v m₂)).calls
    rw [show (Session.opening v m₂).override = v from rfl, hlimit] at hconverse
    rw [run_of_prepare (prepare_of_accepted hload hparse hwork)]
    exact ((hloaded.trans hworked).trans hheld).trans hconverse

/-- **The time limit of a run.** Each command of a run reads an interface, or writes an address. All
writes have the limit in force; no read has one. So all commands have the limit in force just if there
is none, or none of the commands is a read. -/
theorem run_limited (hload : loadSettings words m = (.ok s, m₁))
    (hparse : CommandLine.parse s words = .accepted o) :
    ∃ es, (run words m).2.trace = m.trace ++ es ∧
      (∀ c, .called c ∈ es → c.IsReading ∧ c.timeout = .null ∨
        (∃ name address, writeIn? c.command = some (name, address)) ∧ c.timeout = o.timeout) ∧
      ((∀ c, .called c ∈ es → c.timeout = o.timeout) ↔
        o.timeout = .null ∨ ∀ c, .called c ∈ es → ¬c.IsReading) := by
  obtain ⟨calls, ⟨es, htrace, hes⟩, hcalls⟩ := callsOnly_run hload hparse
  have hlimited : ∀ c, Event.called c ∈ es → c.Limited o.timeout := by
    intro c hc
    refine hcalls c ?_
    rw [← hes]
    exact List.mem_filterMap.2 ⟨.called c, hc, rfl⟩
  refine ⟨es, htrace, fun c hc => ?_, ?_, ?_⟩
  · cases hlimited c hc with
    | reads reading unlimited => exact .inl ⟨reading, unlimited⟩
    | writes writing limited => exact .inr ⟨⟨_, _, writing⟩, limited⟩
  · intro hall
    by_cases hnull : o.timeout = .null
    · exact .inl hnull
    · exact .inr fun c hc =>
        ((hlimited c hc).timeout_eq_iff.1 (hall c hc)).resolve_left hnull
  · intro h c hc
    exact (hlimited c hc).timeout_eq_iff.2 (h.imp_right fun hnone => hnone c hc)

/-- The words that ask for a start, with a limit of two and a half seconds. -/
def limitedWords : List String := startingWords ++ ["--timeout", "2.5"]

/-- One read without a limit, and two writes. -/
theorem calls_of_limitedWords :
    ((run limitedWords quitting).2.trace.filterMap Event.call?).map
      (fun c => (c.command, c.timeout matches .null)) =
      [ (["ifconfig", "eth0"], true),
        (["sudo", "ifconfig", "eth0", "ether", "02:11:22:33:44:55"], false),
        (["sudo", "ifconfig", "eth0", "ether", "aa:bb:cc:dd:ee:ff"], false) ] := by
  decide +kernel

theorem exists_read_of_limitedWords :
    ∃ c, Event.called c ∈ (run limitedWords quitting).2.trace ∧ c.IsReading ∧ c.timeout = .null := by
  obtain ⟨c, calls, hcalls, hc, -⟩ := List.map_eq_cons_iff.1 calls_of_limitedWords
  obtain ⟨hcommand, hnull⟩ := Prod.mk.inj hc
  have hmem : c ∈ (run limitedWords quitting).2.trace.filterMap Event.call? := by
    rw [hcalls]
    exact List.mem_cons_self
  obtain ⟨e, he, hcall⟩ := List.mem_filterMap.1 hmem
  refine ⟨c, ?_, ⟨"eth0", hcommand⟩, ?_⟩
  · cases e with
    | called c' =>
      rw [← Option.some.inj hcall]
      exact he
    | _ => exact absurd hcall (by simp [Event.call?])
  · cases ht : c.timeout with
    | null => rfl
    | _ =>
      rw [ht] at hnull
      exact absurd hnull (by simp)

/-- There the writes keep to the limit, and the commands as a whole do not. -/
theorem run_limited_seconds :
    ∃ o, loadSettings limitedWords quitting = (.ok .initial, quitting) ∧
      CommandLine.parse .initial limitedWords = .accepted o ∧ o.timeout ≠ .null ∧
      (∀ c, Event.called c ∈ (run limitedWords quitting).2.trace →
        c.IsReading ∨ c.timeout = o.timeout) ∧
      ¬∀ c, Event.called c ∈ (run limitedWords quitting).2.trace → c.timeout = o.timeout := by
  have hload : loadSettings limitedWords quitting = (.ok .initial, quitting) := rfl
  obtain ⟨o, hparse, hlimit⟩ : ∃ o, CommandLine.parse .initial limitedWords = .accepted o ∧
      o.timeout ≠ .null := ⟨_, rfl, nofun⟩
  obtain ⟨es, htrace, hkinds, hiff⟩ := run_limited hload hparse
  rw [show quitting.trace = [] from rfl, List.nil_append] at htrace
  rw [htrace]
  obtain ⟨c, hc, hread, -⟩ := exists_read_of_limitedWords
  rw [htrace] at hc
  refine ⟨o, hload, hparse, hlimit, fun c hc => ?_, fun hall => ?_⟩
  · exact (hkinds c hc).imp (fun h => h.1) fun h => h.2
  · rcases hiff.1 hall with hnull | hnone
    · exact hlimit hnull
    · exact hnone c hc hread

/-- A command without a limit, in a run that has one. -/
theorem read_without_limit :
    ∃ o c, loadSettings limitedWords quitting = (.ok .initial, quitting) ∧
      CommandLine.parse .initial limitedWords = .accepted o ∧
      Event.called c ∈ (run limitedWords quitting).2.trace ∧ c.timeout ≠ o.timeout := by
  obtain ⟨c, hc, -, hnull⟩ := exists_read_of_limitedWords
  refine ⟨_, c, rfl, rfl, hc, ?_⟩
  rw [hnull]
  exact nofun

end Program

end LinkOverride
