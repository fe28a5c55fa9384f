import LinkOverride.Conversation
import LinkOverride.Proofs.Course
import LinkOverride.Proofs.Respect

/-!
# What operations are made of

An operation is made of a few parts: it looks at the override, reads a text as an address, changes the
phase or the interface in hand, writes an address, and tells of what it has done. A line of a session
has some more: it opens an interface, stores a setting, and shows something. So a property that steps
in a row have from one another is a property of all operations as soon as the parts have it.

`Law` is such a property. What the parts have to have is said in layers: the parts that begin a cycle,
those that write, those that show something, and those of a line. Which law it is does not matter for
how the parts are put together, and that is said here once. A law that some parts do not have can still
be had by the operations that are made of the others.
-/

namespace LinkOverride

open Override (onMachine)
open Step

/-- The failure is that a line asks for nothing that is known. -/
def Failure.isUnknown : Failure → Bool
  | unknownCommand _ => true
  | _ => false

/-- **A property of steps that steps in a row have from one another.** The failures that an operation
comes to by itself are all reported, and that a line is unknown is not among them. -/
structure Law where
  Holds : {α : Type} → Step Session α → Prop
  pure : ∀ {α : Type} (a : α), Holds (Pure.pure a)
  fail : ∀ {α : Type} {e : Failure}, e.isReported = true → e.isUnknown = false →
    Holds (Step.fail e : Step Session α)
  bind : ∀ {α β : Type} {x : Step Session α} {f : α → Step Session β},
    Holds x → (∀ a, Holds (f a)) → Holds (x >>= f)

namespace Law

/-- A relation between what a step has found and what it leaves. -/
def keeping (R : Session → Session → Prop) [IsPreorder Session R] : Law where
  Holds := Respects R
  pure := respects_pure
  fail := fun _ _ => respects_fail _
  bind := Respects.bind

/-! ## Parts -/

/-- The parts that begin a cycle, or take an interface in hand. -/
structure Begins (L : Law) : Prop where
  current : L.Holds Override.current
  readAddress : ∀ text, L.Holds (onMachine (Machine.readAddress text))
  setPhase : ∀ p, L.Holds (Override.setPhase p)
  setLink : ∀ f : Link → Link, L.Holds (Override.modify fun o => { o with link := f o.link })
  debug : ∀ message, L.Holds (onMachine (Machine.debug message))
  held : ∀ l : Link, L.Holds (onMachine (Machine.note (.held l.name l.address)))

/-- The parts that write an address. -/
structure Writes (L : Law) : Prop where
  current : L.Holds Override.current
  write : ∀ name address,
    L.Holds (Override.current >>= fun o => onMachine (o.writer.write name address))
  setPhase : ∀ p, L.Holds (Override.setPhase p)
  setLink : ∀ f : Link → Link, L.Holds (Override.modify fun o => { o with link := f o.link })
  noted : ∀ address, L.Holds (onMachine (Machine.note (.noted address)))
  info : ∀ message, L.Holds (onMachine (Machine.info message))

/-- The parts that look at the override and show something. -/
structure Looks (L : Law) : Prop where
  current : L.Holds Override.current
  shown : ∀ items, L.Holds (onMachine (Machine.display items))

/-- The parts of starting and stopping. -/
structure Operates (L : Law) : Prop extends L.Begins, L.Writes

/-- The parts of a line. -/
structure Lines (L : Law) : Prop extends L.Operates, L.Looks where
  acquire : ∀ name, L.Holds (onMachine (Link.acquire name .unprivileged))
  store : ∀ (p : Settings.Parameter) value,
    L.Holds (Override.modify fun o => { o with settings := o.settings.set p value })

variable {L : Law}

/-! ## Cycles -/

theorem Begins.configure (h : L.Begins) : L.Holds Override.configure := by
  refine L.bind h.current fun o => ?_
  split
  · exact L.fail rfl rfl
  dsimp only
  split
  · exact L.fail rfl rfl
  split
  · exact L.fail rfl rfl
  refine L.bind (h.readAddress _) fun desired => ?_
  split
  · exact L.fail rfl rfl
  · exact L.bind (h.setPhase _) fun _ => L.bind (h.debug _) fun _ => L.pure _

theorem Begins.readyCycle (h : L.Begins) : L.Holds Override.readyCycle := by
  refine L.bind h.current fun o => ?_
  split
  · exact L.fail rfl rfl
  · exact L.pure _
  · exact h.configure

theorem Begins.attach (h : L.Begins) (l : Link) : L.Holds (Override.attach l) := by
  refine L.bind h.current fun o => ?_
  split
  · exact L.fail rfl rfl
  · exact L.bind (h.setLink fun _ => l) fun _ => h.held l

/-! ## Starting and stopping -/

theorem Writes.writeAddress (h : L.Writes) (name address : String) :
    L.Holds (Override.writeAddress name address) := by
  -- The override that the write looks at is the one that is there, so the two are one part.
  have hsplit : Override.writeAddress name address =
      (Override.current >>= fun o => onMachine (o.writer.write name address)) >>= fun _ =>
        (Override.modify fun o => { o with link := { o.link with address := some address } }) >>=
          fun _ => onMachine (Machine.note (.noted address)) := by
    rw [bind_assoc]
    rfl
  rw [hsplit]
  exact L.bind (h.write name address) fun _ =>
    L.bind (h.setLink fun l => { l with address := some address }) fun _ => h.noted address

theorem Writes.perform (h : L.Writes) (a : Act) (c : Cycle) : L.Holds (a.perform c) :=
  L.bind (h.writeAddress _ _) fun _ => L.bind (h.setPhase _) fun _ => h.info _

theorem Writes.stop (h : L.Writes) : L.Holds Override.stop := by
  refine L.bind h.current fun o => ?_
  split
  · exact L.fail rfl rfl
  · exact h.perform .stopping _

theorem Operates.start (h : L.Operates) : L.Holds Override.start := by
  rw [start_eq]
  exact L.bind h.readyCycle (h.perform .starting)

theorem Operates.verb (h : L.Operates) (v : Override.Verb) : L.Holds v.perform := by
  cases v with
  | on => exact h.start
  | off => exact h.stop

theorem Operates.command (h : L.Operates) {line : String}
    (hunknown : L.Holds (Step.fail (.unknownCommand line) : Step Session Unit)) :
    L.Holds (Override.command line) := by
  rw [Override.command]
  split
  · exact h.verb _
  · exact hunknown

/-! ## Lines -/

theorem named {α : Type} (name : String) (r : Except Failure α) : L.Holds (Session.named name r) := by
  cases r with
  | ok a => exact L.pure a
  | error e => exact L.fail rfl rfl

/-- An address is read, or an interface is opened and taken in hand. -/
theorem Looks.prepare (h : L.Looks) (name : String) {value : String}
    (hread : L.Holds (onMachine (Machine.readAddress value)))
    (hopen : L.Holds (onMachine (Link.acquire value .unprivileged) >>= Override.attach)) :
    L.Holds (Session.prepare name value) := by
  refine L.bind h.current fun o => ?_
  split
  · exact L.bind hread fun _ => L.pure ()
  · split
    · exact hopen
    · exact L.pure ()

/-- A setting is stored if its name is known. -/
theorem setParameter_eq (name value : String) :
    Session.setParameter name value = Session.prepare name value >>= fun _ =>
      match Settings.Parameter.named? name with
      | some p => (Override.modify fun o => { o with settings := o.settings.set p value }) >>=
          fun _ => onMachine (Machine.showText s!"{name} => {value}")
      | none => Step.fail (.misconfigured (.parameterUnknown name)) := by
  refine congrArg (Session.prepare name value >>= ·) (funext fun _ => funext fun s => ?_)
  rw [bind_ok (show Override.current s = (.ok s.override, s) from rfl), Settings.setNamed]
  cases Settings.Parameter.named? name <;> rfl

theorem Looks.setParameter (h : L.Looks) {name value : String}
    (hprepare : L.Holds (Session.prepare name value))
    (hstore : ∀ p : Settings.Parameter,
      L.Holds (Override.modify fun o => { o with settings := o.settings.set p value })) :
    L.Holds (Session.setParameter name value) := by
  rw [setParameter_eq]
  refine L.bind hprepare fun _ => ?_
  split
  · exact L.bind (hstore _) fun _ => h.shown _
  · exact L.fail rfl rfl

/-- **A line** has what is shown, what setting a parameter has, and what a command of the override
has. -/
theorem Looks.execute (h : L.Looks) {line : String}
    (hset : ∀ name value, Request.ofLine line = .set name value →
      L.Holds (Session.setParameter name value))
    (hcommand : Request.ofLine line = .other → L.Holds (Override.command line)) :
    L.Holds (Session.execute line) := by
  have hgoesOn : ∀ _ : Unit, L.Holds (Pure.pure true : Step Session Bool) := fun _ => L.pure true
  unfold Session.execute
  cases hr : Request.ofLine line with
  | nothing => exact L.pure true
  | quit => exact L.pure false
  | help => exact L.bind (h.shown _) hgoesOn
  | status => exact L.bind (L.bind h.current fun _ => h.shown _) hgoesOn
  | get name =>
    exact L.bind (L.bind h.current fun _ => L.bind (named name _) fun _ => h.shown _) hgoesOn
  | set name value => exact L.bind (hset name value hr) hgoesOn
  | other => exact L.bind (hcommand hr) hgoesOn

theorem Lines.setParameter (h : L.Lines) (name value : String) :
    L.Holds (Session.setParameter name value) :=
  h.toLooks.setParameter
    (h.toLooks.prepare name (h.readAddress value) (L.bind (h.acquire value) h.attach))
    fun p => h.store p value

theorem Lines.execute (h : L.Lines) {line : String}
    (hcommand : Request.ofLine line = .other → L.Holds (Override.command line)) :
    L.Holds (Session.execute line) :=
  h.toLooks.execute (fun name value _ => h.setParameter name value) hcommand

end Law

end LinkOverride
