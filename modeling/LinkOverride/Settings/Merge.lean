import LinkOverride.Decimal.Reading
import LinkOverride.Settings
import LinkOverride.Text.Lower
import LinkOverride.Text.Words
import LinkOverride.Value.Text

/-!
# Merging settings

Settings are changed by documents and by the environment. A document gives defaults, profiles and
the name of the default profile; what it does not mention stays. The time limit of a document is
read before anything is changed, the other parts are taken over one by one.
-/

namespace LinkOverride.Settings

/-! ## Time limits -/

/-- Nothing, nought and its digit: no limit. -/
def isNoLimit : Value → Bool
  | .null => true
  | .bool b => !b
  | .int i => i == 0
  | .float f => f == 0.0
  | .str s => s == "" || s == "0"
  | _ => false

def readNumber (s : String) : Except Failure Float :=
  match Decimal.readFloat? s with
  | some f => .ok f
  | none => .error (.badValue (.notNumber (Text.quoted s)))

/-- A time limit in seconds, or no value if there is no limit. -/
def readTimeout (v : Value) : Except Failure Value :=
  if isNoLimit v then .ok .null
  else match v with
    | .bool b => .ok (.float (if b then 1.0 else 0.0))
    | .int i =>
      match Decimal.ofInt? i with
      | some f => .ok (.float f)
      | none => .error .tooLarge
    | .float f => .ok (.float f)
    | .str s => (readNumber s).map .float
    | other =>
      match other.shown? with
      | some t => .error (.badValue (.notTimeout t))
      | none => .error (.badValue .tooLongToWrite)

theorem readTimeout_of_isNoLimit {v : Value} (h : isNoLimit v = true) :
    readTimeout v = .ok .null := by
  simp [readTimeout, h]

/-! ## Documents -/

/-- Whether a section mentions a key. A text mentions what it contains, a list what it lists. -/
def mentions (part : Value) (key : String) : Except Failure Bool :=
  match part with
  | .table es => .ok (Keyed.holds es key)
  | .str s => .ok (Text.holdsRun key.toList s.toList)
  | .list vs => .ok (vs.any (·.isText key))
  | _ => .error .wrongKind

/-- The value under a key that is mentioned. Only a table has values under its keys. -/
def valueUnder (part : Value) (key : String) : Except Failure Value :=
  match part with
  | .table es =>
    match Keyed.find? es key with
    | some v => .ok v
    | none => .error (.noSuchKey key)
  | _ => .error .wrongKind

def under? (part : Value) (key : String) : Except Failure (Option Value) := do
  if ← mentions part key then return some (← valueUnder part key) else return none

/-- Takes over one value if the section has it. -/
def takeOver (part : Value) (key : String) (use : Value → Except Failure (Settings → Settings)) :
    Step Settings Unit := do
  match ← .ofExcept (under? part key) with
  | none => pure ()
  | some v =>
    let change ← .ofExcept (use v)
    .modify change

def mergeDefaults (part : Value) : Step Settings Unit := do
  let limit ← .ofExcept do
    match ← under? part "timeout" with
    | some v => return some (← readTimeout v)
    | none => return none
  takeOver part "iface" fun v => do
    let t ← v.text
    return fun s => { s with iface := t }
  takeOver part "address" fun v => do
    let t ← v.text
    return fun s => { s with address := t }
  takeOver part "sudo" fun v => return fun s => { s with withSudo := v.isTruthy }
  match limit with
  | some t => .modify fun s => { s with timeout := t }
  | none => pure ()

/-- The text under a key of a table, or a default. -/
def textUnder (es : Entries) (key default : String) : Except Failure String :=
  match es.find? key with
  | some v => v.text
  | none => .ok default

def readProfile (es : Entries) : Except Failure Profile := do
  let iface ← textUnder es "iface" ""
  let address ← textUnder es "address" Address.randomWord
  let description ← textUnder es "description" ""
  return ⟨iface, address, description⟩

/-- Entries that are no tables are no profiles. -/
def mergeProfile (name : String) (v : Value) : Step Settings Unit :=
  match v with
  | .table es => do
    let p ← .ofExcept (readProfile es)
    .modify fun s => { s with profiles := s.profiles.insert name p }
  | _ => pure ()

def mergeEach : Entries → Step Settings Unit
  | [] => pure ()
  | (name, v) :: es => do
    mergeProfile name v
    mergeEach es

def mergeProfiles (part : Value) : Step Settings Unit :=
  match part with
  | .table es => mergeEach es
  | _ => .fail .profilesNotTable

/-- Merges a document that came from `source`. -/
def merge (doc : Entries) (source : String) : Step Settings Unit := do
  mergeDefaults ((doc.find? "defaults").getD (.table []))
  mergeProfiles ((doc.find? "profiles").getD (.table []))
  match doc.find? "default_profile" with
  | some v => .modify fun s => { s with defaultProfile := v }
  | none => pure ()
  .modify fun s => { s with sources := s.sources ++ [source] }

/-! ## The environment -/

def variableName (name : String) : String := "MAC_CHANGER_" ++ name

def addSource (s : Settings) (name : String) : Settings :=
  { s with sources := s.sources ++ ["env:" ++ variableName name] }

/-- Uses a variable of the environment unless it is empty. -/
def useText (env : Keyed String) (name : String) (change : String → Settings → Settings)
    (s : Settings) : Settings :=
  match env.find? (variableName name) with
  | none => s
  | some v => if v = "" then s else (change v s).addSource name

def isYes (s : String) : Bool := ["1", "true", "yes"].contains (Text.lower s)

def useSudo (env : Keyed String) (s : Settings) : Settings :=
  match env.find? (variableName "SUDO") with
  | none => s
  | some v => { s with withSudo := isYes v }.addSource "SUDO"

/-- The settings under a time limit of the environment, or the text that gives none. -/
def useTimeout (env : Keyed String) (s : Settings) : Settings × Option String :=
  match env.find? (variableName "TIMEOUT") with
  | none => (s, none)
  | some v =>
    match readTimeout (.str v) with
    | .ok t => ({ s with timeout := t }.addSource "TIMEOUT", none)
    | .error _ => (s, some v)

/-- The settings under the environment, and the warning that it calls for. -/
def underEnvironment (env : Keyed String) (s : Settings) : Settings × Option String :=
  let s := useText env "IFACE" (fun v s => { s with iface := v }) s
  let s := useText env "ADDRESS" (fun v s => { s with address := v }) s
  let s := useText env "PROFILE" (fun v s => { s with defaultProfile := .str v }) s
  let (s, rejected) := useTimeout env (useSudo env s)
  (s, rejected.map fun v => "Ignoring invalid " ++ variableName "TIMEOUT" ++ ": " ++ Text.quoted v)

end LinkOverride.Settings
