/-!
# Paths

A path is a root and the names below it. Empty names and single dots say nothing and are dropped;
double dots are kept in the text of a path and resolved, by the text alone, where the path is
looked up. Two leading slashes are a root of their own, three or more are one.
-/

namespace LinkOverride

structure Path where
  root : String
  names : List String
  deriving DecidableEq, Repr

namespace Path

def splitNames (cs : List Char) : List String :=
  let step := fun (c : Char) (acc : List Char × List (List Char)) =>
    if c = '/' then ([], acc.1 :: acc.2) else (c :: acc.1, acc.2)
  let parts := cs.foldr step ([], [])
  ((parts.1 :: parts.2).map String.ofList).filter fun n => n != "" && n != "."

def rootOf : List Char → String
  | '/' :: '/' :: '/' :: _ => "/"
  | '/' :: '/' :: _ => "//"
  | '/' :: _ => "/"
  | _ => ""

def ofString (s : String) : Path := ⟨rootOf s.toList, splitNames s.toList⟩

instance : Coe String Path := ⟨ofString⟩

def isAbsolute (p : Path) : Bool := p.root != ""

/-- An absolute second path replaces the first. -/
def join (p q : Path) : Path := if q.isAbsolute then q else ⟨p.root, p.names ++ q.names⟩

instance : HDiv Path String Path := ⟨fun p s => p.join (ofString s)⟩

def text (p : Path) : String :=
  if p.root = "" ∧ p.names = [] then "." else p.root ++ "/".intercalate p.names

/-! ## Locations -/

def resolveFrom (above : List String) : List String → List String
  | [] => above.reverse
  | n :: ns => if n = ".." then resolveFrom above.tail ns else resolveFrom (n :: above) ns

/-- The path without double dots. Each takes away the name before it, and at the root it says
nothing. -/
def resolved (p : Path) : Path := ⟨p.root, resolveFrom [] p.names⟩

/-- Where a path leads from the working directory. -/
def location (p cwd : Path) : Path := (cwd.join p).resolved

/-- Whether a path is another one or lies above it. -/
def leadsTo (p q : Path) : Bool := p.root == q.root && p.names.isPrefixOf q.names

def parent (p : Path) : Path := ⟨p.root, p.names.dropLast⟩

/-- All paths above one, from the root down. -/
def ancestors (p : Path) : List Path :=
  (List.range p.names.length).map fun n => ⟨p.root, p.names.take n⟩

/-- A name at the end stays at the end. -/
theorem resolveFrom_concat (above ns : List String) {n : String} (h : n ≠ "..") :
    resolveFrom above (ns ++ [n]) = resolveFrom above ns ++ [n] := by
  induction ns generalizing above with
  | nil => simp [resolveFrom, h]
  | cons m ns ih =>
    rw [List.cons_append, resolveFrom, resolveFrom]
    split
    · exact ih _
    · exact ih _

/-- What is named in a directory lies below the place of the directory. -/
theorem location_concat (p cwd : Path) {n : String} (h : n ≠ "..") :
    (⟨p.root, p.names ++ [n]⟩ : Path).location cwd =
      ⟨(p.location cwd).root, (p.location cwd).names ++ [n]⟩ := by
  have hjoin : cwd.join ⟨p.root, p.names ++ [n]⟩ =
      ⟨(cwd.join p).root, (cwd.join p).names ++ [n]⟩ := by
    cases hroot : p.root != "" with
    | true => simp [join, isAbsolute, hroot]
    | false => simp [join, isAbsolute, hroot, List.append_assoc]
  rw [location, hjoin, resolved, resolveFrom_concat _ _ h]
  rfl

theorem length_of_mem_ancestors {p q : Path} (h : q ∈ p.ancestors) :
    q.names.length < p.names.length := by
  obtain ⟨n, hn, rfl⟩ := List.mem_map.1 h
  rw [List.mem_range] at hn
  rwa [List.length_take_of_le (Nat.le_of_lt hn)]

end Path

end LinkOverride
