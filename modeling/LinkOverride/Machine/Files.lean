import LinkOverride.Machine

/-!
# Files

Files are found by their location. A directory exists if something lies below it: a file, the home
directory or the working directory.
-/

namespace LinkOverride.Machine

def locate (m : Machine) (p : Path) : Path := p.location m.host.cwd

/-- The locations that are known to exist. -/
def places (m : Machine) : List Path :=
  m.host.home.location m.host.cwd :: m.host.cwd.location m.host.cwd :: m.files.map (·.1)

def contentAt? (m : Machine) (l : Path) : Option Content :=
  match m.files.find? (·.1 == l) with
  | some (_, c) => some c
  | none => if l.names.isEmpty || m.places.any (l.leadsTo ·) then some .directory else none

def content? (m : Machine) (p : Path) : Option Content := m.contentAt? (m.locate p)

def fileExists (m : Machine) (p : Path) : Bool := (m.content? p).isSome

def isFileAt (m : Machine) (l : Path) : Bool :=
  match m.contentAt? l with
  | some (.bytes _) => true
  | some (.unreadable _) => true
  | _ => false

/-- The text of a file. -/
def readText (p : Path) : Step Machine String := fun m =>
  match m.content? p with
  | none => (.error (.system (.notFound p.text)), m)
  | some .directory => (.error (.system (.isDirectory p.text)), m)
  | some (.unreadable reason) => (.error (.system (.unreadable reason p.text)), m)
  | some (.bytes b) =>
    match String.fromUTF8? b with
    | some s => (.ok s, m)
    | none => (.error .undecodable, m)

def putContent (l : Path) (c : Content) (m : Machine) : Machine :=
  { m with files := (l, c) :: m.files.filter (·.1 != l) }

/-- Puts a text into a file, which may be new. -/
def writeText (p : Path) (text : String) : Step Machine Unit := fun m =>
  match m.content? p with
  | some .directory => (.error (.system (.isDirectory p.text)), m)
  | _ =>
    let l := m.locate p
    (.ok (), (m.putContent l (.bytes text.toUTF8)).record (.wrote l text))

/-- Makes sure that a directory exists, with all that lie above it. -/
def makeDirectory (p : Path) : Step Machine Unit := fun m =>
  let l := m.locate p
  if l.ancestors.any m.isFileAt then (.error (.system (.notDirectory p.text)), m)
  else if m.isFileAt l then (.error (.system (.alreadyExists p.text)), m)
  else (.ok (), m)

/-- Reading changes nothing. -/
@[simp] theorem readText_state (p : Path) (m : Machine) : (readText p m).2 = m := by
  unfold readText
  repeat' split
  all_goals rfl

@[simp] theorem locate_putContent (l : Path) (c : Content) (m : Machine) (p : Path) :
    (m.putContent l c).locate p = m.locate p := rfl

theorem contentAt?_putContent (l : Path) (c : Content) (m : Machine) :
    (m.putContent l c).contentAt? l = some c := by
  simp [contentAt?, putContent]

theorem content?_putContent (p : Path) (c : Content) (m : Machine) :
    (m.putContent (m.locate p) c).content? p = some c := by
  rw [content?, locate_putContent, contentAt?_putContent]

theorem find?_putContent_of_ne {l l' : Path} (h : l' ≠ l) (c : Content) (m : Machine) :
    (m.putContent l c).files.find? (·.1 == l') = m.files.find? (·.1 == l') := by
  rw [putContent, List.find?_cons_of_neg (by simpa using Ne.symm h), List.find?_filter]
  refine congrArg (List.find? · m.files) (funext fun f => ?_)
  by_cases hf : f.1 = l'
  · simp [hf, h]
  · simp [hf]

/-- What is not stored is no file, though it may be a directory. -/
theorem isFileAt_of_not_stored {m : Machine} {l : Path} (h : m.files.find? (·.1 == l) = none) :
    m.isFileAt l = false := by
  rw [isFileAt, contentAt?, h]
  dsimp only
  cases l.names.isEmpty || m.places.any (l.leadsTo ·) <;> rfl

theorem isFileAt_putContent_of_ne {l l' : Path} (h : l' ≠ l) (c : Content) (m : Machine) :
    (m.putContent l c).isFileAt l' = m.isFileAt l' := by
  have hsame := find?_putContent_of_ne h c m
  cases hfind : m.files.find? (·.1 == l') with
  | none => rw [isFileAt_of_not_stored hfind, isFileAt_of_not_stored (hsame.trans hfind)]
  | some f =>
    rw [isFileAt, isFileAt, contentAt?, contentAt?, hsame, hfind]

end LinkOverride.Machine
