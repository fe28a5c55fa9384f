import LinkOverride.CommandLine
import LinkOverride.Text.Template
import LinkOverride.Text.Wrap

/-!
# The help text

The help lists all options and shows the interface and the address that are used by default. These
two descriptions are templates, so a percent sign in a default is a placeholder. One of the items that
a placeholder can name is the group of the option; it has no text of its own, and what is written for
it is another text in every run.
-/

namespace LinkOverride.CommandLine

def programName : String := "mac-changer"

def version : String := "1.0.0"

def versionText : String := s!"{programName} {version}\n"

/-- The column at which descriptions begin, and their width. -/
def helpColumn : Nat := 24
def helpWidth : Nat := 54

/-! ## Descriptions that show a default -/

def nothing : Text.Template.Item := .other "None"

def spellingsText (o : Opt) : String :=
  "[" ++ ", ".intercalate (o.spellings.map Text.quoted) ++ "]"

/-- What an option's description may refer to, among it the group that the option belongs to. -/
def parameters (group : String) (o : Opt) (dest default template : String) :
    Keyed Text.Template.Item :=
  [ ("option_strings", .other (spellingsText o)),
    ("dest", .text dest),
    ("nargs", nothing),
    ("const", nothing),
    ("default", .text default),
    ("type", nothing),
    ("choices", nothing),
    ("required", .no),
    ("help", .text template),
    ("metavar", nothing),
    ("container", .other group),
    ("prog", .text programName) ]

def indented (line : String) : String := String.ofList (List.replicate helpColumn ' ') ++ line

/-- The lines of a description. -/
def described (group : String) (o : Opt) (dest default template : String) :
    Except Failure (List String) := do
  let t ← Text.Template.fill (parameters group o dest default template) template
  return (Text.wrap helpWidth (Text.paragraph t)).map indented

def ifaceLines (group : String) (s : Settings) : Except Failure (List String) :=
  let shown := if s.iface = "" then "none" else s.iface
  described group .iface "iface" s.iface s!"Interface to operate on (default: {shown})"

def addressLines (group : String) (s : Settings) : Except Failure (List String) :=
  described group .address "address" s.address s!"Hardware address to apply (default: {s.address})"

/-! ## The text around them -/

def usageLines : List String :=
  [ "usage: mac-changer [-h] [--profile NAME] [--show-config] [--init-config]",
    "                   [-i IFACE] [-a ADDRESS] [--no-sudo] [--timeout TIMEOUT]",
    "                   [--on] [-v] [--version]",
    "",
    "Temporarily change the hardware address of a network interface",
    "",
    "options:",
    "  -h, --help            show this help message and exit",
    "  --profile NAME        Use named profile from config file",
    "  --show-config         Show current configuration and available profiles",
    "  --init-config         Initialize user config file with defaults" ]

def remainingLines : List String :=
  [ "  --no-sudo             Do not prefix ifconfig with sudo",
    "  --timeout TIMEOUT     Seconds to wait for ifconfig (default: wait forever)",
    "  --on                  Turn the changer on before entering the session",
    "  -v, --verbose         Enable verbose logging",
    "  --version             show program's version number and exit",
    "",
    "Examples:",
    "  # Interactive session on eth0 with a random address",
    "  mac-changer --iface eth0",
    "",
    "  # Apply a fixed address right away",
    "  mac-changer --iface en7 --address 02:11:22:33:44:55 --on",
    "",
    "  # Use a saved profile",
    "  mac-changer --profile cafe",
    "",
    "Session commands:",
    "  mac.changer on | mac.changer off | set <param> <value> | get <param>",
    "  status | help | quit",
    "        " ]

def helpLines (group : String) (s : Settings) : Except Failure (List String) := do
  let iface ← ifaceLines group s
  let address ← addressLines group s
  return usageLines ++ ["  -i IFACE, --iface IFACE"] ++ iface ++
    ["  -a ADDRESS, --address ADDRESS"] ++ address ++ remainingLines

def helpText (group : String) (s : Settings) : Except Failure String := do
  let ls ← helpLines group s
  return String.join (ls.map (· ++ "\n"))

/-! ## Leaving the program -/

/-- What is printed when the command line itself ends the program. -/
structure Farewell where
  code : Nat
  out : String
  err : String
  deriving DecidableEq, Repr

def refusal (f : UsageFault) : Farewell := ⟨2, "", s!"{programName}: error: {f.message}\n"⟩

/-- Either the options, or the last words of the program. -/
def answer (group : String) (s : Settings) (words : List String) :
    Except Failure (Except Farewell Options) :=
  match parse s words with
  | .accepted o => .ok (.ok o)
  | .helpAsked => (helpText group s).map fun t => .error ⟨0, t, ""⟩
  | .versionAsked => .ok (.error ⟨0, versionText, ""⟩)
  | .refused f => .ok (.error (refusal f))

end LinkOverride.CommandLine
