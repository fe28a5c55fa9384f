import LinkOverride.Text.Lower
import LinkOverride.Text.Words

/-!
# Platforms

The platforms whose way of writing a hardware address is known. What follows the interface name on
the command line depends on the platform alone.
-/

namespace LinkOverride

inductive Platform
  | bsd
  | darwin
  | linux
  | android
  deriving DecidableEq, Repr

namespace Platform

/-- The name under which a platform is logged. -/
def label : Platform → String
  | bsd => "BSD"
  | darwin => "DARWIN"
  | linux => "LINUX"
  | android => "ANDROID"

/-- A word of the command line: fixed, or the address to be written. -/
inductive Part
  | word (w : String)
  | address
  deriving DecidableEq, Repr

def Part.fill (address : String) : Part → String
  | word w => w
  | .address => address

def parts : Platform → List Part
  | bsd => [.word "ether", .address]
  | darwin => [.word "ether", .address]
  | linux => [.word "hw", .word "ether", .address]
  | android => [.word "hw", .word "ether", .address]

/-- The arguments that write `address` to `name`. -/
def arguments (p : Platform) (name address : String) : List String :=
  name :: p.parts.map (Part.fill address)

/-- The platform that an identifier of the operating system names, in any case. -/
def detect? (identifier : String) : Option Platform :=
  let cs := Text.lowerChars identifier.toList
  if cs = "darwin".toList then some darwin
  else if Text.holdsRun "bsd".toList cs then some bsd
  else if "linux".toList.isPrefixOf cs then some linux
  else if cs = "android".toList then some android
  else none

end Platform

end LinkOverride
