import LinkOverride.Override

/-!
# Reading a trace

Three kinds of events tell of an address that is written: the command that writes it, the note that
the interface in hand is known to have it, and the announcement to the user. They are told apart
here, and each is read without regard to what the program meant by it: a command is known by its
words, an announcement by its text.

Two interfaces can be read off a trace. `taken` is the interface in hand as it was known when it was
taken; `mirrored` is what it has become by the commands that succeeded since.
-/

namespace LinkOverride

/-- The interface and the address of a command that writes an address, with `sudo` or without. -/
def writeIn? : List String → Option (String × String)
  | ["ifconfig", n, "ether", a] => some (n, a)
  | ["ifconfig", n, "hw", "ether", a] => some (n, a)
  | ["sudo", "ifconfig", n, "ether", a] => some (n, a)
  | ["sudo", "ifconfig", n, "hw", "ether", a] => some (n, a)
  | _ => none

theorem writeIn?_read (n : String) : writeIn? [Link.program, n] = none := rfl

/-- On every platform the command that writes an address is known as such. -/
theorem writeIn?_fullCommand (r : Runner) (user : Option Int) (p : Platform) (n a : String) :
    writeIn? (r.fullCommand user (Link.program :: p.arguments n a)) = some (n, a) := by
  rw [Runner.fullCommand]
  split
  · cases p <;> rfl
  · cases p <;> rfl

def Outcome.isSuccess : Outcome → Bool
  | .finished status _ _ => status == 0
  | _ => false

/-! ## Announcements -/

/-- What the user is told of an address that has been written. -/
inductive Announcement
  | set (address : String)
  | restored (address : String)
  deriving DecidableEq, Repr

namespace Announcement

def address : Announcement → String
  | set a => a
  | restored a => a

def setHeading : String := "[OK] Interface mac address set to "

def restoredHeading : String := "[OK] Interface mac address restored to "

def message : Announcement → String
  | set a => setHeading ++ a
  | restored a => restoredHeading ++ a

/-- What a message announces, if it is one of the two announcements. -/
def ofMessage? (m : String) : Option Announcement :=
  match setHeading.toList.isPrefixOf? m.toList with
  | some a => some (set (String.ofList a))
  | none => (restoredHeading.toList.isPrefixOf? m.toList).map fun a => restored (String.ofList a)

theorem isPrefixOf?_append (front back : List Char) :
    front.isPrefixOf? (front ++ back) = some back := by
  induction front with
  | nil => rfl
  | cons c front ih =>
    show (if c == c then front.isPrefixOf? (front ++ back) else none) = some back
    rw [if_pos (beq_self_eq_true c)]
    exact ih

theorem ofMessage?_message (a : Announcement) : ofMessage? a.message = some a := by
  cases a with
  | set a => simp only [ofMessage?, message, String.toList_append, isPrefixOf?_append,
      String.ofList_toList]
  | restored a =>
    have h : setHeading.toList.isPrefixOf? (restoredHeading.toList ++ a.toList) = none := rfl
    simp only [ofMessage?, message, String.toList_append, h, isPrefixOf?_append, Option.map_some,
      String.ofList_toList]

end Announcement

/-! ## Events -/

namespace Event

/-- The interface and the address of a command that is to write an address. -/
def write? : Event → Option (String × String)
  | called c => writeIn? c.command
  | _ => none

/-- The interface and the address of a command that has written an address. -/
def written? : Event → Option (String × String)
  | called c => if c.outcome.isSuccess then writeIn? c.command else none
  | _ => none

def announced? : Event → Option Announcement
  | logged .info m => Announcement.ofMessage? m
  | _ => none

def noted? : Event → Option String
  | noted a => some a
  | _ => none

def held? : Event → Option Link
  | held n a => some ⟨n, a⟩
  | _ => none

def opened? : Event → Option Link
  | opened n a => some ⟨n, some a⟩
  | _ => none

/-- An event that tells of no write and of no other interface in hand. -/
structure IsQuiet (e : Event) : Prop where
  write?_eq : e.write? = none
  announced?_eq : e.announced? = none
  noted?_eq : e.noted? = none
  held?_eq : e.held? = none

theorem written?_of_write? {e : Event} (h : e.write? = none) : e.written? = none := by
  cases e with
  | called c =>
    have hc : writeIn? c.command = none := h
    simp [written?, hc]
  | _ => rfl

theorem IsQuiet.written?_eq {e : Event} (h : e.IsQuiet) : e.written? = none :=
  written?_of_write? h.write?_eq

theorem isQuiet_logged {level : Level} (h : level ≠ .info) (m : String) :
    (logged level m).IsQuiet := by
  cases level with
  | info => exact absurd rfl h
  | _ => exact ⟨rfl, rfl, rfl, rfl⟩

theorem isQuiet_shown (items : List Shown) : (shown items).IsQuiet := ⟨rfl, rfl, rfl, rfl⟩

theorem isQuiet_wrote (p : Path) (t : String) : (wrote p t).IsQuiet := ⟨rfl, rfl, rfl, rfl⟩

theorem isQuiet_opened (n a : String) : (opened n a).IsQuiet := ⟨rfl, rfl, rfl, rfl⟩

theorem isQuiet_called {c : Call} (h : writeIn? c.command = none) : (called c).IsQuiet :=
  ⟨h, rfl, rfl, rfl⟩

end Event

/-- What stands in a trace of two parts stands in one of them. -/
theorem split_append {α : Type} {es es' front back : List α} {e : α}
    (h : es ++ es' = front ++ e :: back) :
    (∃ mid, es = front ++ e :: mid ∧ back = mid ++ es') ∨
      ∃ mid, front = es ++ mid ∧ es' = mid ++ e :: back := by
  rcases List.append_eq_append_iff.1 h with ⟨mid, hfront, hes'⟩ | ⟨mid, hes, hback⟩
  · exact .inr ⟨mid, hfront, hes'⟩
  · rcases List.cons_eq_append_iff.1 hback with ⟨hmid, hes'⟩ | ⟨mid', hmid, hback'⟩
    · rw [hmid, List.append_nil] at hes
      exact .inr ⟨[], by rw [hes, List.append_nil], hes'⟩
    · exact .inl ⟨mid', hmid ▸ hes, hback'⟩

/-! ## The interface in hand -/

/-- The interface in hand, as it was known when it was taken. -/
def taken (l : Link) (es : List Event) : Link := es.foldl (fun l e => e.held?.getD l) l

/-- The interface in hand after an event, if writing an address gives it that address. -/
def mirrorOne (l : Link) (e : Event) : Link :=
  match e.held?, e.written? with
  | some other, _ => other
  | none, some (_, a) => { l with address := some a }
  | none, none => l

/-- The interface in hand, with the address of the last write since it was taken that succeeded. -/
def mirrored (l : Link) (es : List Event) : Link := es.foldl mirrorOne l

theorem taken_append (l : Link) (es es' : List Event) :
    taken l (es ++ es') = taken (taken l es) es' := List.foldl_append

theorem mirrored_append (l : Link) (es es' : List Event) :
    mirrored l (es ++ es') = mirrored (mirrored l es) es' := List.foldl_append

theorem taken_of_not_held {l : Link} {es : List Event} (h : ∀ e ∈ es, e.held? = none) :
    taken l es = l := by
  induction es with
  | nil => rfl
  | cons e es ih =>
    have he : e.held? = none := h e (by simp)
    rw [taken, List.foldl_cons, he]
    exact ih fun e' he' => h e' (List.mem_cons_of_mem _ he')

theorem mirrored_of_quiet {l : Link} {es : List Event} (h : ∀ e ∈ es, e.IsQuiet) :
    mirrored l es = l := by
  induction es with
  | nil => rfl
  | cons e es ih =>
    have he : mirrorOne l e = l := by
      rw [mirrorOne, (h e (by simp)).held?_eq, (h e (by simp)).written?_eq]
    rw [mirrored, List.foldl_cons, he]
    exact ih fun e' he' => h e' (List.mem_cons_of_mem _ he')

/-! ## The interface read last -/

/-- The interface whose address has been read last, with that address. -/
def lastOpened? (es : List Event) : Option Link := (es.filterMap Event.opened?).getLast?

theorem lastOpened?_opened (es : List Event) (n a : String) :
    lastOpened? (es ++ [.opened n a]) = some ⟨n, some a⟩ := by
  rw [lastOpened?, List.filterMap_append, show [Event.opened n a].filterMap Event.opened? =
    [⟨n, some a⟩] from rfl, List.getLast?_append, List.getLast?_singleton, Option.some_or]

theorem lastOpened?_append {es : List Event} (es' : List Event) {l : Link}
    (h : lastOpened? es = some l) : lastOpened? (es' ++ es) = some l := by
  rw [lastOpened?, List.filterMap_append, List.getLast?_append]
  rw [lastOpened?] at h
  rw [h, Option.some_or]

theorem lastOpened?_append_of_not {es es' : List Event} (h : ∀ e ∈ es', e.opened? = none) :
    lastOpened? (es ++ es') = lastOpened? es := by
  rw [lastOpened?, List.filterMap_append, List.filterMap_eq_nil_iff.2 h, List.append_nil,
    lastOpened?]

end LinkOverride
