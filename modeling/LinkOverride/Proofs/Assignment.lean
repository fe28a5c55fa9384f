import LinkOverride.Proofs.Readiness

/-!
# Giving a value to a parameter

A line that gives a value to a parameter is carried out as a whole or not at all. The value is looked
at first: an address must be one that can be read, and an interface must be the one in hand or, between
two cycles, one whose address can be read now. Only then are the interface in hand and the settings
changed, and after that nothing can fail any more. So the settings and the interface in hand never part
ways, and what has been given is what is shown when it is asked for.

`Admits` says when a value is accepted, and which interface is in hand then. What a request shows is
the text that is handed to the display.
-/

namespace LinkOverride

open Settings (Parameter)
open Step

/-- What a line with the word `set` and at least two more asks for. -/
theorem Request.exists_sets {line verb name third : String} {rest : List String}
    (hwords : Text.words line = verb :: name :: third :: rest) (hverb : Text.lower verb = "set") :
    ∃ value, Sets line name value :=
  ⟨_, ofLine_eq_set_iff.1 (ofLine_of_words hwords hverb)⟩

namespace Session

/-- **The session accepts a value for a parameter**, and has an interface in hand then. -/
inductive Admits (s : Session) (value : String) : Parameter → Link → Prop
  | address (readable : Machine.Accepts value) : Admits s value .address s.override.link
  | held (same : value = s.override.link.name) : Admits s value .iface s.override.link
  | other {l : Link} {m : Machine} (differs : value ≠ s.override.link.name)
      (free : s.override.phase.cycle? = none)
      (acquired : Link.acquire value .unprivileged s.machine = (.ok l, m)) :
      Admits s value .iface l

variable {s t : Session} {value : String} {q : Parameter} {l : Link}

/-! ## The interface in hand -/

theorem Admits.name_eq (h : s.Admits value .iface l) : l.name = value := by
  cases h with
  | held same => exact same.symm
  | other _ _ acquired => exact (Link.known_of_acquire acquired).1

theorem Admits.link_eq (h : s.Admits value q l) (hsame : q = .iface → value = s.override.link.name) :
    l = s.override.link := by
  cases h with
  | address _ => rfl
  | held _ => rfl
  | other differs _ _ => exact absurd (hsame rfl) differs

theorem Admits.acquired (h : s.Admits value .iface l) (hother : value ≠ s.override.link.name) :
    s.override.phase.cycle? = none ∧
      ∃ m, Link.acquire value .unprivileged s.machine = (.ok l, m) := by
  cases h with
  | held same => exact absurd same hother
  | other _ free acquired => exact ⟨free, _, acquired⟩

/-! ## Looking at the value -/

/-- A value that is accepted changes nothing but the interface in hand. -/
theorem prepare_of_admits (h : s.Admits value q l) :
    ∃ m, prepare q.name value s = (.ok (), ⟨m, { s.override with link := l }⟩) := by
  cases h with
  | address readable =>
    by_cases hrandom : value = Address.randomWord
    · exact ⟨s.machine, by rw [hrandom]; exact prepare_random s⟩
    · obtain ⟨a, m, hread⟩ := readable s.machine
      exact ⟨m, prepare_address hrandom hread⟩
  | held same => exact ⟨s.machine, prepare_held same⟩
  | other differs free acquired =>
    exact ⟨_, (prepare_acquired differs acquired).trans (attach_of_free free)⟩

/-- A value that is not accepted changes nothing. -/
theorem prepare_of_not_admits (h : ∀ l, ¬s.Admits value q l) :
    ∃ e m, prepare q.name value s = (.error e, ⟨m, s.override⟩) := by
  cases q with
  | address =>
    have hrandom : value ≠ Address.randomWord := by
      rintro rfl
      exact h _ (.address (Machine.accepts_of_random (by decide +kernel)))
    rcases hread : Machine.readAddress value s.machine with ⟨e | a, m⟩
    · exact ⟨e, m, prepare_address hrandom hread⟩
    · exact absurd (.address (Machine.accepts_of_readAddress hread)) (h _)
  | iface =>
    have hother : value ≠ s.override.link.name := fun same => h _ (.held same)
    rcases hacquire : Link.acquire value .unprivileged s.machine with ⟨e | l, m⟩
    · exact ⟨e, m, prepare_unread hother hacquire⟩
    · cases hc : s.override.phase.cycle? with
      | none => exact absurd (.other hother hc hacquire) (h l)
      | some c => exact ⟨_, m, (prepare_acquired hother hacquire).trans (attach_of_busy hc)⟩

/-! ## The line -/

theorem setParameter_of_admits (h : s.Admits value q l) :
    ∃ m, setParameter q.name value s =
      (.ok (), ⟨m, { s.override with link := l, settings := s.override.settings.set q value }⟩) := by
  obtain ⟨m, hprepare⟩ := prepare_of_admits h
  exact ⟨_, setParameter_of_prepared hprepare⟩

theorem setParameter_of_not_admits {p : String} (h : ∀ q l, p = q.name → ¬s.Admits value q l) :
    ∃ e m, setParameter p value s = (.error e, ⟨m, s.override⟩) := by
  cases hp : Parameter.named? p with
  | none => exact ⟨_, _, setParameter_of_unknown hp value s⟩
  | some q =>
    obtain rfl := Parameter.name_of_named? hp
    obtain ⟨e, m, hprepare⟩ := prepare_of_not_admits fun l => h q l rfl
    exact ⟨e, m, bind_error hprepare _⟩

/-- What a parameter is set to is shown when it is asked for. -/
theorem execute_get {line : String} (h : Request.Gets line q.name) (s : Session) :
    execute line s = (.ok true, ⟨s.machine.record
      (.shown [.text s!"{q.name}: {s.override.settings.get q}"]), s.override⟩) := by
  have hget : getParameter q.name s = (.ok (), ⟨s.machine.record
      (.shown [.text s!"{q.name}: {s.override.settings.get q}"]), s.override⟩) := by
    rw [getParameter, bind_ok (Override.current_apply s), Settings.getNamed, Parameter.named?_name]
    rfl
  rw [execute, Request.ofLine_of_gets h]
  exact bind_ok hget _

/-- **All or nothing.** A line that gives a value to a parameter succeeds if and only if the parameter
is known and the value accepted. Then the parameter has that value, and the other one the value that
it had; the interface in hand has the name that is set, is the same as before if the name is, and else
is the one that has been read by this line, between two cycles. A request for the parameter shows the
value. If the line fails, nothing about the override has changed. -/
theorem execute_set {line verb p third : String} {rest : List String}
    (hwords : Text.words line = verb :: p :: third :: rest) (hverb : Text.lower verb = "set")
    (s : Session) :
    ∃ value, Request.Sets line p value ∧
      ((∃ q l t, p = q.name ∧ s.Admits value q l ∧ execute line s = (.ok true, t) ∧
          t.override =
            { s.override with link := l, settings := s.override.settings.set q value } ∧
          t.override.settings.get q = value ∧
          (∀ q' ≠ q, t.override.settings.get q' = s.override.settings.get q') ∧
          (q = .iface → l.name = value) ∧
          ((q = .iface → value = s.override.link.name) → l = s.override.link) ∧
          (q = .iface → value ≠ s.override.link.name → s.override.phase.cycle? = none ∧
            ∃ m, Link.acquire value .unprivileged s.machine = (.ok l, m)) ∧
          ∀ line', Request.Gets line' p → execute line' t =
            (.ok true, ⟨t.machine.record (.shown [.text s!"{p}: {value}"]), t.override⟩)) ∨
        (∀ q l, p = q.name → ¬s.Admits value q l) ∧
          ∃ e t, execute line s = (.error e, t) ∧ t.override = s.override) := by
  obtain ⟨value, hsets⟩ := Request.exists_sets hwords hverb
  refine ⟨value, hsets, ?_⟩
  rw [execute_of_set (Request.ofLine_of_sets hsets)]
  by_cases hadmits : ∃ q l, p = q.name ∧ s.Admits value q l
  · obtain ⟨q, l, rfl, hl⟩ := hadmits
    obtain ⟨m, hset⟩ := setParameter_of_admits hl
    have hstored := Settings.get_set_self s.override.settings q value
    refine .inl ⟨q, l, _, rfl, hl, bind_ok hset _, rfl, hstored, ?_, ?_, hl.link_eq, ?_, ?_⟩
    · exact fun q' hne => Settings.get_set_of_ne _ value hne
    · rintro rfl
      exact hl.name_eq
    · rintro rfl
      exact hl.acquired
    · intro line' hline'
      rw [execute_get hline']
      dsimp only
      rw [hstored]
  · have hnone : ∀ q l, p = q.name → ¬s.Admits value q l :=
      fun q l hp hl => hadmits ⟨q, l, hp, hl⟩
    obtain ⟨e, m, hset⟩ := setParameter_of_not_admits hnone
    exact .inr ⟨hnone, e, _, bind_error hset _, rfl⟩

/-- A fresh override on a machine whose next command tells the address of an interface. -/
def offering : Session where
  machine := { permittingOne with
    outcomes := [.finished 0 (some "eth1:\n ether 02:00:00:00:00:01\n") none] }
  override := .fresh ⟨"eth0", some "aa:bb:cc:dd:ee:ff"⟩ Settings.initial ⟨none, ⟨true, .null⟩⟩

/-- Another interface is taken in hand under the name that is set. -/
theorem execute_set_offering :
    Text.words "Set mac.changer.iface  eth1 " = ["Set", "mac.changer.iface", "eth1"] ∧
      Text.lower "Set" = "set" ∧
      ∃ value t, Request.Sets "Set mac.changer.iface  eth1 " "mac.changer.iface" value ∧
        execute "Set mac.changer.iface  eth1 " offering = (.ok true, t) ∧
        t.override.settings.get .iface = value ∧ t.override.link.name = value := by
  have hwords : Text.words "Set mac.changer.iface  eth1 " =
      ["Set", "mac.changer.iface", "eth1"] := by decide
  have hverb : Text.lower "Set" = "set" := by decide
  have hok : (execute "Set mac.changer.iface  eth1 " offering).1 = .ok true := by rfl
  refine ⟨hwords, hverb, ?_⟩
  obtain ⟨value, hsets, h⟩ := execute_set hwords hverb offering
  rcases h with ⟨q, l, t, hq, -, hexecute, hover, hstored, -, hname, -⟩ | ⟨-, e, t, herror, -⟩
  · cases q with
    | iface => exact ⟨value, t, hsets, hexecute, hstored, by rw [hover]; exact hname rfl⟩
    | address => exact absurd hq (by decide)
  · rw [herror] at hok
    exact absurd hok (by simp)

end Session

end LinkOverride
