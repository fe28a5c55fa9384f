import LinkOverride.Proofs.Growth

/-!
# The course of an override

All that can happen to an override is one of five changes. Nothing may happen to it but new settings;
another interface may be taken in hand; a cycle may begin; and the address of a cycle may be written,
which fails or is done. Each change says which events go with it, when it is possible, and what is
left. A course is a sequence of changes.

Every operation on an override follows a course, so a law of courses is a law of all that operations
can do, in any order and with any failures.

Which interfaces may be taken is left open. `T es l` says that `l` may be taken after the events
`es`, which the change itself brings about.
-/

namespace LinkOverride

/-! ## Writing an address of a cycle -/

/-- The two addresses of a cycle are written by the two acts. -/
inductive Act
  | starting
  | stopping
  deriving DecidableEq, Repr

namespace Act

def address : Act → Cycle → String
  | starting, c => c.desired
  | stopping, c => c.original

def Ready : Act → Phase → Cycle → Prop
  | starting, p, c => p = .configured c
  | stopping, p, c => p.cycle? = some c

def result : Act → Cycle → Phase
  | starting, c => .running c
  | stopping, c => .unconfigured (some c.iface)

def announcement : Act → Cycle → Announcement
  | starting, c => .set c.desired
  | stopping, c => .restored c.original

theorem cycle?_of_ready {a : Act} {p : Phase} {c : Cycle} (h : a.Ready p c) : p.cycle? = some c := by
  cases a with
  | starting => rw [show p = .configured c from h]; rfl
  | stopping => exact h

theorem address_announcement (a : Act) (c : Cycle) : (a.announcement c).address = a.address c := by
  cases a <;> rfl

/-- Writes the address, and tells of it. -/
def perform (a : Act) (c : Cycle) : Step Session Unit := do
  Override.writeAddress c.iface (a.address c)
  Override.setPhase (a.result c)
  Override.onMachine (Machine.info (a.announcement c).message)

end Act

theorem start_eq : Override.start = Override.readyCycle >>= Act.starting.perform := rfl

theorem stop_eq_of_some {s : Session} {c : Cycle} (h : s.override.phase.cycle? = some c) :
    Override.stop s = Act.stopping.perform c s := by
  rw [Override.stop, Step.bind_ok (show Override.current s = (.ok s.override, s) from rfl), h]
  rfl

theorem stop_eq_of_none {s : Session} (h : s.override.phase.cycle? = none) :
    Override.stop s = (.error .notConfigured, s) := by
  rw [Override.stop, Step.bind_ok (show Override.current s = (.ok s.override, s) from rfl), h]
  rfl

/-! ## Changes -/

/-- The call writes the address to the interface, as the override's writer has it. -/
structure Override.Writes (o : Override) (h : Host) (name address : String) (call : Call) : Prop where
  command_eq : ∃ p, o.writer.platformOn h = some p ∧
    call.command = o.writer.fullCommand h p name address
  timeout_eq : call.timeout = o.writer.runner.timeout

theorem Override.Writes.writeIn?_eq {o : Override} {h : Host} {name address : String} {call : Call}
    (hw : o.Writes h name address call) : writeIn? call.command = some (name, address) := by
  obtain ⟨p, -, hc⟩ := hw.command_eq
  rw [hc, Writer.fullCommand]
  exact writeIn?_fullCommand _ _ _ _ _

/-- What can happen to an override, with the events that tell of it. -/
inductive Change (T : List Event → Link → Prop) (h : Host) :
    Override → List Event → Override → Prop
  | idle {o : Override} {es : List Event} (settings : Settings) (quiet : ∀ e ∈ es, e.IsQuiet) :
      Change T h o es { o with settings := settings }
  | took {o : Override} {es : List Event} (l : Link) (free : o.phase.cycle? = none)
      (quiet : ∀ e ∈ es, e.IsQuiet) (admitted : T es l) :
      Change T h o (es ++ [.held l.name l.address]) { o with link := l }
  | configured {o : Override} {original desired message : String} (free : o.phase.cycle? = none)
      (named : o.link.name ≠ "") (known : o.link.address = some original)
      (wanted : ∃ digits, Address.read digits o.settings.address = .ok desired) :
      Change T h o [.logged .debug message]
        { o with phase := .configured ⟨o.link.name, original, desired⟩ }
  | failed {o : Override} {c : Cycle} {call : Call} {message : String} (a : Act)
      (ready : a.Ready o.phase c) (writes : o.Writes h c.iface (a.address c) call)
      (failed : call.outcome.isSuccess = false) :
      Change T h o [.logged .debug message, .called call] o
  | done {o : Override} {c : Cycle} {call : Call} {message : String} (a : Act)
      (ready : a.Ready o.phase c) (writes : o.Writes h c.iface (a.address c) call)
      (succeeded : call.outcome.isSuccess = true) :
      Change T h o
        [ .logged .debug message, .called call, .noted (a.address c),
          .logged .info (a.announcement c).message ]
        { o with
          link := { o.link with address := some (a.address c) }
          phase := a.result c }

/-- One change after the other. -/
inductive Course (T : List Event → Link → Prop) (h : Host) (o : Override) :
    List Event → Override → Prop
  | nil : Course T h o [] o
  | snoc {o' o'' : Override} {es es' : List Event} :
      Course T h o es o' → Change T h o' es' o'' → Course T h o (es ++ es') o''

section Course

variable {T : List Event → Link → Prop} {h : Host} {o o' o'' : Override} {es es' : List Event}

theorem Course.trans (h₁ : Course T h o es o') (h₂ : Course T h o' es' o'') :
    Course T h o (es ++ es') o'' := by
  induction h₂ with
  | nil => rwa [List.append_nil]
  | snoc _ hchange ih =>
    rw [← List.append_assoc]
    exact ih.snoc hchange

theorem Change.course (hc : Change T h o es o') : Course T h o es o' := by
  rw [← List.nil_append es]
  exact Course.nil.snoc hc

theorem Change.mono {T' : List Event → Link → Prop} (hT : ∀ es l, T es l → T' es l)
    (hc : Change T h o es o') : Change T' h o es o' := by
  cases hc with
  | idle settings quiet => exact .idle settings quiet
  | took l free quiet admitted => exact .took l free quiet (hT _ _ admitted)
  | configured free named known wanted => exact .configured free named known wanted
  | failed a ready writes hf => exact .failed a ready writes hf
  | done a ready writes hs => exact .done a ready writes hs

theorem Course.mono {T' : List Event → Link → Prop} (hT : ∀ es l, T es l → T' es l)
    (hc : Course T h o es o') : Course T' h o es o' := by
  induction hc with
  | nil => exact .nil
  | snoc _ hchange ih => exact ih.snoc (hchange.mono hT)

end Course

/-! ## Sessions -/

/-- One change between two sessions. -/
structure Advances (T : List Event → Link → Prop) (s : Session) (es : List Event) (s' : Session) :
    Prop where
  host_eq : s'.machine.host = s.machine.host
  trace_eq : s'.machine.trace = s.machine.trace ++ es
  change : Change T s.machine.host s.override es s'.override

/-- A course between two sessions. -/
def Moves (T : List Event → Link → Prop) (s s' : Session) : Prop :=
  s'.machine.host = s.machine.host ∧
    ∃ es, s'.machine.trace = s.machine.trace ++ es ∧
      Course T s.machine.host s.override es s'.override

section Moves

variable {T : List Event → Link → Prop}

theorem Advances.moves {s s' : Session} {es : List Event} (h : Advances T s es s') : Moves T s s' :=
  ⟨h.host_eq, es, h.trace_eq, h.change.course⟩

theorem moves_refl (s : Session) : Moves T s s :=
  ⟨rfl, [], (List.append_nil _).symm, .nil⟩

theorem Moves.trans {s s' s'' : Session} (h₁ : Moves T s s') (h₂ : Moves T s' s'') :
    Moves T s s'' := by
  obtain ⟨hhost, es, htrace, hc⟩ := h₁
  obtain ⟨hhost', es', htrace', hc'⟩ := h₂
  rw [hhost] at hc'
  refine ⟨hhost'.trans hhost, es ++ es', ?_, hc.trans hc'⟩
  rw [htrace', htrace, List.append_assoc]

instance : IsPreorder Session (Moves T) where
  refl := moves_refl
  trans _ _ _ := Moves.trans

end Moves

end LinkOverride
