import LinkOverride.Address
import LinkOverride.Text.Quoted

/-!
# Failures

Why a step did not succeed. Some failures belong to the program: it reports them and goes on. The
others end whatever runs. The wording of a failure is in its `message` and nowhere else.
-/

namespace LinkOverride

/-! ## The operating system -/

inductive SystemFault
  | notFound (name : String)
  | notPermitted (name : String)
  | isDirectory (path : String)
  | notDirectory (path : String)
  | alreadyExists (path : String)
  | unreadable (reason path : String)
  deriving DecidableEq, Repr

namespace SystemFault

def code : SystemFault → Nat
  | notFound _ => 2
  | unreadable _ _ => 5
  | notPermitted _ => 13
  | alreadyExists _ => 17
  | notDirectory _ => 20
  | isDirectory _ => 21

def reason : SystemFault → String
  | notFound _ => "No such file or directory"
  | notPermitted _ => "Permission denied"
  | isDirectory _ => "Is a directory"
  | notDirectory _ => "Not a directory"
  | alreadyExists _ => "File exists"
  | unreadable r _ => r

def subject : SystemFault → String
  | notFound n => n
  | notPermitted n => n
  | isDirectory p => p
  | notDirectory p => p
  | alreadyExists p => p
  | unreadable _ p => p

def message (f : SystemFault) : String := s!"[Errno {f.code}] {f.reason}: {Text.quoted f.subject}"

end SystemFault

/-! ## Commands -/

/-- A command that did not finish, or that finished with a status other than zero. -/
structure CommandFault where
  command : List String
  /-- The exit status, if the command finished. -/
  status : Option Int
  output : String
  deriving DecidableEq, Repr

namespace CommandFault

def statusText : Option Int → String
  | none => "None"
  | some code => toString code

/-- The output without outer blanks, or the status if nothing was put out. -/
def detail (f : CommandFault) : String :=
  let out := Text.strip f.output
  if out = "" then s!"exit status {statusText f.status}" else out

def message (f : CommandFault) : String := s!"'{Text.unwords f.command}' failed: {f.detail}"

end CommandFault

/-! ## Configuration -/

/-- What keeps an address from being read off an interface. -/
inductive Unreadable
  | notRun (f : CommandFault)
  | refused (output : String)
  deriving DecidableEq, Repr

def Unreadable.message : Unreadable → String
  | notRun f => f.message
  | refused output =>
    let out := Text.strip output
    if out = "" then "ifconfig failed" else out

def addressMessage (value : String) (fault : Address.Fault) : String :=
  s!"Invalid hardware address '{value}': {fault.message}"

inductive Misconfigured
  | interfaceNotSet
  | otherInterface (wanted held : String)
  | addressUnknown (name : String)
  | addressUnread (name : String) (reason : Unreadable)
  | addressMissing (name : String)
  | addressUnusable (name value : String) (fault : Address.Fault)
  | parameterUnknown (name : String)
  deriving DecidableEq, Repr

def Misconfigured.message : Misconfigured → String
  | interfaceNotSet => "mac.changer.iface is not set"
  | otherInterface wanted held =>
    s!"mac.changer.iface is {wanted} but the session interface is {held}, " ++
      "its address cannot be restored"
  | addressUnknown name => s!"Hardware address of {name} is unknown, cannot restore it later"
  | addressUnread name reason => s!"Cannot read hardware address of {name}: {reason.message}"
  | addressMissing name => s!"Interface {name} has no hardware address"
  | addressUnusable name value fault =>
    s!"Interface {name} reports an unusable address: {addressMessage value fault}"
  | parameterUnknown name => s!"Unknown parameter: {name}"

/-! ## Values -/

/-- What is wrong with a value where a certain kind of value is needed. -/
inductive ValueFault
  /-- A text that writes no number. -/
  | notNumber (quoted : String)
  /-- A value that no number can be made of. -/
  | notTimeout (shown : String)
  /-- A text that is no document. -/
  | malformed
  /-- A whole number of too many digits to be written. -/
  | tooLongToWrite
  /-- A whole number of too many digits to be read. -/
  | tooLongToRead (digits : Nat)
  /-- A place holder of an unknown kind. -/
  | unknownPlaceholder (shown : String) (code : String) (index : Nat)
  | unfinishedPlaceholder
  | unfinishedPlaceholderName
  | widthTooBig
  | precisionTooBig
  deriving DecidableEq, Repr

def limitAdvice : String :=
  "use sys.set_int_max_str_digits() to increase the limit"

def ValueFault.message : ValueFault → String
  | notNumber q => s!"could not convert string to float: {q}"
  | notTimeout t => s!"invalid timeout: {t}"
  | malformed => "TOMLDecodeError"
  | tooLongToWrite =>
    "Exceeds the limit (4300 digits) for integer string conversion; " ++ limitAdvice
  | tooLongToRead n =>
    s!"Exceeds the limit (4300 digits) for integer string conversion: value has {n} digits; " ++
      limitAdvice
  | unknownPlaceholder c code i => s!"unsupported format character '{c}' (0x{code}) at index {i}"
  | unfinishedPlaceholder => "incomplete format"
  | unfinishedPlaceholderName => "incomplete format key"
  | widthTooBig => "width too big"
  | precisionTooBig => "precision too big"

/-! ## All failures -/

inductive Failure
  | alreadyConfigured
  | notConfigured
  | invalidAddress (value : String) (fault : Address.Fault)
  | misconfigured (cause : Misconfigured)
  | unsupportedPlatform (identifier : String)
  | commandFailed (fault : CommandFault)
  | unknownCommand (line : String)
  | noSuchKey (key : String)
  | system (fault : SystemFault)
  | badValue (fault : ValueFault)
  /-- A value of the wrong kind is searched, indexed or looked up. -/
  | wrongKind
  /-- The profiles of a document are no table. -/
  | profilesNotTable
  /-- A whole number is too large for a double. -/
  | tooLarge
  /-- Bytes that are no text. -/
  | undecodable
  /-- A value that is no text stands in a cell of a table. -/
  | notRenderable
  | interrupted
  deriving DecidableEq, Repr

namespace Failure

def message : Failure → String
  | alreadyConfigured =>
    "mac.changer has already been configured, you will need to turn it off to re-configure"
  | notConfigured => "mac.changer is not running"
  | invalidAddress value fault => addressMessage value fault
  | misconfigured cause => cause.message
  | unsupportedPlatform identifier =>
    s!"OS {identifier} is not supported by mac.changer module."
  | commandFailed fault => fault.message
  | unknownCommand line => s!"Unknown command: {line}"
  | noSuchKey key => Text.quoted key
  | system fault => fault.message
  | badValue fault => fault.message
  | wrongKind => ""
  | profilesNotTable => ""
  | tooLarge => ""
  | undecodable => "UnicodeDecodeError"
  | notRenderable => ""
  | interrupted => ""

/-- The failures that the program reports to its user. -/
def isReported : Failure → Bool
  | alreadyConfigured => true
  | notConfigured => true
  | invalidAddress _ _ => true
  | misconfigured _ => true
  | unsupportedPlatform _ => true
  | commandFailed _ => true
  | unknownCommand _ => true
  | _ => false

/-- The failures that make a configuration file be skipped. -/
def skipsFile : Failure → Bool
  | system _ => true
  | badValue _ => true
  | undecodable => true
  | _ => false

end Failure

end LinkOverride
