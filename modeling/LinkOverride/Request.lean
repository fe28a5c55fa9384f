import LinkOverride.Override
import LinkOverride.Text.Lower

/-!
# Requests

What a typed line asks for. The first word counts in any case; a line that is none of the requests
known here is left to the override.
-/

namespace LinkOverride

inductive Request
  | nothing
  | quit
  | help
  | status
  | get (name : String)
  | set (name value : String)
  | other
  deriving DecidableEq, Repr

namespace Request

def quitWords : List String := ["exit", "q", "quit"]

/-- What follows the first two words, without outer blanks. -/
def thirdOn (line : String) : String :=
  String.ofList (Text.trim (Text.afterWord (Text.afterWord line.toList)))

def ofLine (line : String) : Request :=
  match Text.words line with
  | [] => nothing
  | first :: rest =>
    let verb := Text.lower first
    if quitWords.contains verb then quit
    else if verb = "help" then help
    else if verb = "status" then status
    else match verb, rest with
      | "get", [name] => get name
      | "set", name :: _ :: _ => set name (thirdOn line)
      | _, _ => other

end Request

end LinkOverride
