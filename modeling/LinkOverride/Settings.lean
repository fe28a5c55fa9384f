import LinkOverride.Step
import LinkOverride.Value

/-!
# Settings

The parameters of the program with their defaults, and the profiles that give an interface and an
address a name.
-/

namespace LinkOverride

structure Profile where
  iface : String
  address : String
  description : String
  deriving DecidableEq, Repr

structure Settings where
  iface : String
  address : String
  withSudo : Bool
  /-- The time limit of commands; without a value they may run forever. -/
  timeout : Value
  /-- The name of the profile that is applied if none is asked for. -/
  defaultProfile : Value
  profiles : Keyed Profile
  /-- Where the settings came from, in order. -/
  sources : List String

namespace Settings

def initial : Settings := ⟨"", Address.randomWord, true, .null, .null, [], []⟩

/-! ## Parameters -/

inductive Parameter
  | iface
  | address
  deriving DecidableEq, Repr

namespace Parameter

def all : List Parameter := [iface, address]

def name : Parameter → String
  | iface => "mac.changer.iface"
  | address => "mac.changer.address"

def named? (s : String) : Option Parameter := all.find? (·.name == s)

@[simp] theorem named?_name (p : Parameter) : named? p.name = some p := by
  cases p <;> decide

theorem name_of_named? {s : String} {p : Parameter} (h : named? s = some p) : p.name = s := by
  simpa using List.find?_some h

end Parameter

def get (s : Settings) : Parameter → String
  | .iface => s.iface
  | .address => s.address

def set (s : Settings) (p : Parameter) (v : String) : Settings :=
  match p with
  | .iface => { s with iface := v }
  | .address => { s with address := v }

@[simp] theorem get_set_self (s : Settings) (p : Parameter) (v : String) :
    (s.set p v).get p = v := by
  cases p <;> rfl

theorem get_set_of_ne (s : Settings) {p q : Parameter} (v : String) (h : q ≠ p) :
    (s.set p v).get q = s.get q := by
  cases p <;> cases q <;> first | rfl | exact absurd rfl h

/-- The value of a parameter, by its name. -/
def getNamed (s : Settings) (name : String) : Except Failure String :=
  match Parameter.named? name with
  | some p => .ok (s.get p)
  | none => .error (.noSuchKey name)

def setNamed (s : Settings) (name value : String) : Except Failure Settings :=
  match Parameter.named? name with
  | some p => .ok (s.set p value)
  | none => .error (.noSuchKey name)

/-! ## Profiles -/

/-- A profile without an interface leaves the interface as it is. -/
def withProfile (s : Settings) (p : Profile) : Settings :=
  { s with iface := if p.iface = "" then s.iface else p.iface, address := p.address }

/-- The settings under a profile of the given name, if there is one. -/
def applyProfile? (s : Settings) (name : String) : Option Settings :=
  (s.profiles.find? name).map s.withProfile

end Settings

end LinkOverride
