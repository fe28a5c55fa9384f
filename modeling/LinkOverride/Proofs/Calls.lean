import LinkOverride.Proofs.Restoration

/-!
# The commands that are run

The calls of a trace, in order. Before a session there is at most one, which reads the interface of
the session without privilege; all else that is done there runs no command.

`Machine.Between` gives the calls that lie between two machines. A step is mute if it adds no call,
and to read an interface adds one at most.
-/

namespace LinkOverride

open Machine (Adds)
open Step

namespace Event

def call? : Event → Option Call
  | called c => some c
  | _ => none

/-- An event that is no call. -/
def IsMute (e : Event) : Prop := e.call? = none

theorem IsTalk.isMute {e : Event} (h : e.IsTalk) : e.IsMute := by
  cases h <;> rfl

end Event

namespace Machine

/-- The calls between two machines. -/
def Between (m m' : Machine) (calls : List Call) : Prop :=
  ∃ es, m'.trace = m.trace ++ es ∧ es.filterMap Event.call? = calls

variable {m m' m'' : Machine} {calls calls' : List Call}

theorem Between.trans (h : Between m m' calls) (h' : Between m' m'' calls') :
    Between m m'' (calls ++ calls') := by
  obtain ⟨es, htrace, rfl⟩ := h
  obtain ⟨es', htrace', rfl⟩ := h'
  exact ⟨es ++ es', by rw [htrace', htrace, List.append_assoc], List.filterMap_append⟩

theorem Between.mem {es : List Event} {c : Call} (h : Between m m' calls)
    (htrace : m'.trace = m.trace ++ es) (hc : Event.called c ∈ es) : c ∈ calls := by
  obtain ⟨es', htrace', rfl⟩ := h
  rw [← List.append_cancel_left (htrace.symm.trans htrace')]
  exact List.mem_filterMap.2 ⟨.called c, hc, rfl⟩

theorem between_of_grows (h : Grows Event.IsMute m m') : Between m m' [] := by
  obtain ⟨-, es, htrace, hes⟩ := h
  exact ⟨es, htrace, List.filterMap_eq_nil_iff.2 hes⟩

theorem mute_of_talk {α : Type} {x : Step Machine α} (h : Adds Event.IsTalk x) :
    Adds Event.IsMute x := h.mono fun _ he => he.isMute

theorem mute_debug (text : String) : Adds Event.IsMute (debug text) := adds_note rfl

end Machine

/-! ## Reading an interface -/

namespace Link

open Machine (Between)

/-- At most one call lies between the machines, which reads the interface without privilege. -/
def Reads (name : String) (m m' : Machine) : Prop :=
  Between m m' [] ∨ ∃ o, Between m m' [⟨[program, name], .null, o⟩]

section Reads

variable {name : String} {m m' m'' : Machine}

theorem Reads.after (h : Between m m' []) (h' : Reads name m' m'') : Reads name m m'' := by
  rcases h' with h' | ⟨o, h'⟩
  · exact .inl (h.trans h')
  · exact .inr ⟨o, h.trans h'⟩

theorem Reads.before (h : Reads name m m') (h' : Between m' m'' []) : Reads name m m'' := by
  rcases h with h | ⟨o, h⟩
  · exact .inl (h.trans h')
  · exact .inr ⟨o, h.trans h'⟩

theorem Reads.command_eq {es : List Event} {c : Call} (h : Reads name m m')
    (htrace : m'.trace = m.trace ++ es) (hc : Event.called c ∈ es) : c.command = [program, name] := by
  rcases h with h | ⟨o, h⟩
  · exact absurd (h.mem htrace hc) List.not_mem_nil
  · rw [List.mem_singleton.1 (h.mem htrace hc)]

theorem Reads.write?_eq_none {es : List Event} (h : Reads name m m')
    (htrace : m'.trace = m.trace ++ es) : ∀ e ∈ es, e.write? = none := by
  intro e he
  cases e with
  | called c =>
    rw [Event.write?, h.command_eq htrace he]
    exact writeIn?_read name
  | _ => rfl

end Reads

section Bind

variable {α β : Type} {name : String} {x : Step Machine α} {f : α → Step Machine β}

theorem reads_bind_left (hx : Adds Event.IsMute x) (hf : ∀ a, Respects (Reads name) (f a)) :
    Respects (Reads name) (x >>= f) := by
  intro m
  have hbetween := Machine.between_of_grows (hx m)
  rcases h : x m with ⟨e | a, m'⟩
  · rw [h] at hbetween
    rw [bind_error h]
    exact .inl hbetween
  · rw [h] at hbetween
    rw [bind_ok h]
    exact (hf a m').after hbetween

theorem reads_bind_right (hx : Respects (Reads name) x) (hf : ∀ a, Adds Event.IsMute (f a)) :
    Respects (Reads name) (x >>= f) := by
  intro m
  have hreads := hx m
  rcases h : x m with ⟨e | a, m'⟩
  · rw [h] at hreads
    rwa [bind_error h]
  · rw [h] at hreads
    rw [bind_ok h]
    exact hreads.before (Machine.between_of_grows (hf a m'))

theorem reads_of_mute (hx : Adds Event.IsMute x) : Respects (Reads name) x :=
  fun m => .inl (Machine.between_of_grows (hx m))

end Bind

theorem mute_ownText (name : String) : Adds Event.IsMute (ownText name) :=
  respects_ownText name Machine.mute_debug

theorem reads_fromCommand (name : String) :
    Respects (Reads name) (fromCommand name .unprivileged) := by
  have hrun : Respects (Reads name) (Runner.unprivileged.run [program, name]) := by
    intro m
    rw [Runner.run_apply]
    exact .inr ⟨_, _, Runner.after_trace _ _ m, rfl⟩
  refine reads_bind_right hrun.attempt fun r => ?_
  split
  · split
    · exact respects_fail _
    · exact respects_pure _
  · exact respects_fail _
  · exact respects_fail _

/-- **Opening an interface** runs at most one command. -/
theorem reads_acquire (name : String) : Respects (Reads name) (acquire name .unprivileged) := by
  have htext : Respects (Reads name) (addressText? name .unprivileged) := by
    refine reads_bind_left (mute_ownText name) fun own => ?_
    split
    · exact reads_of_mute (respects_pure _)
    · exact reads_fromCommand name
  have hread : Respects (Reads name) (readAddress name .unprivileged) := by
    refine reads_bind_right htext fun found => ?_
    split
    · exact respects_fail _
    · refine (Machine.adds_readAddress _ _).attempt.bind fun r => ?_
      split
      · exact respects_pure _
      · exact respects_fail _
      · exact respects_fail _
  have hopened : ∀ a, Adds Event.IsMute (Machine.note (.opened name a)) :=
    fun a => Machine.adds_note rfl
  exact reads_bind_right hread fun a => (hopened a).bind fun _ => respects_pure _

end Link

end LinkOverride
