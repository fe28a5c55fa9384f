import LinkOverride.Settings.Merge

/-!
# The command line

Words that begin with a hyphen are options. A long option may be shortened as far as it stays the
only one, and takes its word behind an equals sign or from the next place; a short option takes it
right behind its letter too, and options without a word may be written together behind one hyphen.
A lone pair of hyphens ends the options. All words are sorted before any option takes effect.

The rules are those of argparse in its releases 3.11.0 to 3.11.7. Later releases read a few rare forms
in another way, and these are not followed.
-/

namespace LinkOverride

inductive Opt
  | help
  | profile
  | showConfig
  | initConfig
  | iface
  | address
  | noSudo
  | timeout
  | on
  | verbose
  | version
  deriving DecidableEq, Repr

namespace Opt

def all : List Opt :=
  [help, profile, showConfig, initConfig, iface, address, noSudo, timeout, on, verbose, version]

def spellings : Opt → List String
  | help => ["-h", "--help"]
  | profile => ["--profile"]
  | showConfig => ["--show-config"]
  | initConfig => ["--init-config"]
  | iface => ["-i", "--iface"]
  | address => ["-a", "--address"]
  | noSudo => ["--no-sudo"]
  | timeout => ["--timeout"]
  | on => ["--on"]
  | verbose => ["-v", "--verbose"]
  | version => ["--version"]

def label (o : Opt) : String := "/".intercalate o.spellings

def takesWord : Opt → Bool
  | profile => true
  | iface => true
  | address => true
  | timeout => true
  | _ => false

/-- All spellings, in the order in which they are listed. -/
def table : List (String × Opt) := all.flatMap fun o => o.spellings.map fun s => (s, o)

def spelled? (s : String) : Option Opt := (table.find? (·.1 == s)).map (·.2)

end Opt

/-! ## What may be wrong -/

inductive UsageFault
  | ambiguous (word : String) (candidates : List String)
  | wordMissing (o : Opt)
  | wordIgnored (o : Opt) (word : String)
  | notNumber (o : Opt) (word : String)
  | unrecognized (words : List String)
  deriving DecidableEq, Repr

namespace UsageFault

def message : UsageFault → String
  | ambiguous w cs => s!"ambiguous option: {w} could match " ++ ", ".intercalate cs
  | wordMissing o => s!"argument {o.label}: expected one argument"
  | wordIgnored o w => s!"argument {o.label}: ignored explicit argument {Text.quoted w}"
  | notNumber o w => s!"argument {o.label}: invalid float value: {Text.quoted w}"
  | unrecognized ws => s!"unrecognized arguments: {Text.unwords ws}"

end UsageFault

/-! ## Sorting the words -/

/-- An option with the word attached to it. -/
structure Named where
  option : Opt
  isShort : Bool
  attached : Option String
  deriving DecidableEq, Repr

inductive Mark
  | word
  | named (n : Named)
  | unknown
  /-- The pair of hyphens that ends the options. -/
  | separator
  deriving DecidableEq, Repr

/-- The text before the first equals sign and behind it. -/
def cutAtEquals (cs : List Char) : List Char × Option (List Char) :=
  match cs.dropWhile (· != '=') with
  | [] => (cs, none)
  | _ :: rest => (cs.takeWhile (· != '='), some rest)

def isShortSpelling (s : String) : Bool := s.length == 2

/-- The options that a long word may be short for, each with its attached word. -/
def longCandidates (cs : List Char) : List (String × Named) :=
  let (front, attached) := cutAtEquals cs
  (Opt.table.filter fun e => front.isPrefixOf e.1.toList).map fun e =>
    (e.1, ⟨e.2, isShortSpelling e.1, attached.map String.ofList⟩)

/-- A short option with its word right behind it. -/
def shortCandidates (cs : List Char) : List (String × Named) :=
  Opt.table.filterMap fun e =>
    if e.1.toList = cs.take 2 then some (e.1, ⟨e.2, true, some (String.ofList (cs.drop 2))⟩)
    else if cs.isPrefixOf e.1.toList then some (e.1, ⟨e.2, isShortSpelling e.1, none⟩)
    else none

def candidates (cs : List Char) : List (String × Named) :=
  match cs with
  | '-' :: '-' :: _ => longCandidates cs
  | _ => shortCandidates cs

/-- A hyphen, digits, and perhaps a point with digits behind it. -/
def isNegativeNumber : List Char → Bool
  | '-' :: cs =>
    match cs.dropWhile Text.isDecimalDigit with
    | [] => !cs.isEmpty
    | ['\n'] => cs.length != 1
    | '.' :: ds =>
      let rest := ds.dropWhile Text.isDecimalDigit
      decide (rest.length < ds.length) && (rest.isEmpty || rest == ['\n'])
    | _ => false
  | _ => false

def sortWord (w : String) : Except UsageFault Mark :=
  match w.toList with
  | '-' :: _ :: _ =>
    match Opt.spelled? w with
    | some o => .ok (.named ⟨o, isShortSpelling w, none⟩)
    | none =>
      let (front, attached) := cutAtEquals w.toList
      match Opt.spelled? (String.ofList front), attached with
      | some o, some a => .ok (.named ⟨o, front.length == 2, some (String.ofList a)⟩)
      | _, _ =>
        match candidates w.toList with
        | [] =>
          if isNegativeNumber w.toList || w.toList.contains ' ' then .ok .word else .ok .unknown
        | [(_, n)] => .ok (.named n)
        | cs => .error (.ambiguous w (cs.map (·.1)))
  | _ => .ok .word

def sortWords : List String → Except UsageFault (List (String × Mark))
  | [] => .ok []
  | w :: ws =>
    if w = "--" then .ok ((w, .separator) :: ws.map fun w => (w, .word))
    else do
      let m ← sortWord w
      let ms ← sortWords ws
      return (w, m) :: ms

/-! ## Taking effect -/

/-- The options in force. An option whose only word is the separator gets an empty list. -/
structure Options where
  profile : Value
  showConfig : Bool
  initConfig : Bool
  iface : Value
  address : Value
  withSudo : Bool
  timeout : Value
  on : Bool
  verbose : Bool

def Options.ofSettings (s : Settings) : Options where
  profile := .null
  showConfig := false
  initConfig := false
  iface := .str s.iface
  address := .str s.address
  withSudo := s.withSudo
  timeout := s.timeout
  on := false
  verbose := false

/-- How reading a command line ends. -/
inductive Reading
  | accepted (o : Options)
  | helpAsked
  | versionAsked
  | refused (f : UsageFault)

namespace CommandLine

/-- What the command line has come to. -/
structure Progress where
  options : Options
  extras : List String

def wordValue (w : String) : Value := if w = "--" then .list [] else .str w

def timeLimit (w : String) : Except UsageFault Value :=
  match Decimal.readFloat? w with
  | some f => .ok (.float f)
  | none => .error (.notNumber .timeout w)

def timeoutValue (w : String) : Except UsageFault Value :=
  if w = "--" then .ok (.list []) else timeLimit w

def change (p : Progress) (f : Options → Options) : Progress := { p with options := f p.options }

/-- The effect of an option with its word, if it takes one. -/
def effect (o : Opt) (w : String) (p : Progress) : Except Reading Progress :=
  match o with
  | .help => .error .helpAsked
  | .version => .error .versionAsked
  | .profile => .ok (change p ({ · with profile := wordValue w }))
  | .showConfig => .ok (change p ({ · with showConfig := true }))
  | .initConfig => .ok (change p ({ · with initConfig := true }))
  | .iface => .ok (change p ({ · with iface := wordValue w }))
  | .address => .ok (change p ({ · with address := wordValue w }))
  | .noSudo => .ok (change p ({ · with withSudo := false }))
  | .timeout =>
    match timeoutValue w with
    | .ok v => .ok (change p ({ · with timeout := v }))
    | .error f => .error (.refused f)
  | .on => .ok (change p ({ · with on := true }))
  | .verbose => .ok (change p ({ · with verbose := true }))

def effects : List (Opt × String) → Progress → Except Reading Progress
  | [], p => .ok p
  | (o, w) :: es, p => do effects es (← effect o w p)

/-- The options written together behind one hyphen, and the one that still needs a word. -/
def unfold (o : Opt) (isShort : Bool) (all : List Char) :
    List Char → Except UsageFault (List (Opt × String) × Option Opt)
  | [] => if o.takesWord then .ok ([(o, "")], none) else .error (.wordIgnored o "")
  | c :: cs =>
    if o.takesWord then .ok ([(o, String.ofList (c :: cs))], none)
    else if !isShort then .error (.wordIgnored o (String.ofList all))
    else match Opt.spelled? (String.ofList ['-', c]) with
      | none => .error (.wordIgnored o (String.ofList (c :: cs)))
      | some next =>
        if cs.isEmpty then
          if next.takesWord then .ok ([(o, "")], some next) else .ok ([(o, ""), (next, "")], none)
        else do
          let (es, open_) ← unfold next true cs cs
          return ((o, "") :: es, open_)

def unfoldNamed (n : Named) : Except UsageFault (List (Opt × String) × Option Opt) :=
  match n.attached with
  | none => if n.option.takesWord then .ok ([], some n.option) else .ok ([(n.option, "")], none)
  | some a => unfold n.option n.isShort a.toList a.toList

def read : List (String × Mark) → Progress → Except Reading Progress
  | [], p => .ok p
  | (_, .named n) :: ms, p =>
    match unfoldNamed n with
    | .error f => .error (.refused f)
    | .ok (es, none) => do read ms (← effects es p)
    | .ok (es, some o) =>
      match ms with
      | (w, .word) :: ms => do read ms (← effects (es ++ [(o, w)]) p)
      | _ => .error (.refused (.wordMissing o))
  | (w, _) :: ms, p => read ms { p with extras := p.extras ++ [w] }

/-- A time limit of the settings that is a text is read as a number. One from the command line has
become a number or an empty list. -/
def settleTimeout (o : Options) : Except UsageFault Options :=
  match o.timeout with
  | .str s => (timeLimit s).map fun v => { o with timeout := v }
  | _ => .ok o

/-- The options in the end, if every word has found its use. -/
def finish (p : Progress) : Except Reading Options :=
  match settleTimeout p.options with
  | .error f => .error (.refused f)
  | .ok o => if p.extras.isEmpty then .ok o else .error (.refused (.unrecognized p.extras))

def settle (r : Except Reading Options) : Reading :=
  match r with
  | .ok o => .accepted o
  | .error r => r

/-- The options of a command line, over the settings. -/
def parse (s : Settings) (words : List String) : Reading :=
  match sortWords words with
  | .error f => .refused f
  | .ok ms => settle do finish (← read ms ⟨.ofSettings s, []⟩)

end CommandLine

end LinkOverride
