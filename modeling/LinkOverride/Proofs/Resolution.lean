import LinkOverride.Proofs.InOrder
import LinkOverride.Proofs.Layers
import LinkOverride.Settings.Load
import Mathlib.Algebra.Group.Nat.Defs

/-!
# Where settings come from

Each file puts a layer over the settings, the environment puts its own over those of the files, and
the profile comes last. For each setting the last layer that gives it counts, so the settings can be
written down at once, without the order of the changes: `resolved` does so.

A file that is skipped with a warning should give nothing. It may give something in one case: if it
holds a whole number of too many digits to be written, what stands before the number stays. So there
are two layers to resolve the settings from. `givenBy` is what all files gave, and `givenByLoaded` is
what the loaded files gave; the settings come from the first, and from the second unless that case
occurs.
-/

namespace LinkOverride

namespace Machine

/-- The machine after some events. -/
def recordAll (es : List Event) (m : Machine) : Machine := { m with trace := m.trace ++ es }

@[simp] theorem recordAll_nil (m : Machine) : m.recordAll [] = m := by
  rw [recordAll, List.append_nil]

theorem recordAll_append (es es' : List Event) (m : Machine) :
    m.recordAll (es ++ es') = (m.recordAll es).recordAll es' := by
  simp only [recordAll, List.append_assoc]

theorem recordAll_inj {es es' : List Event} {m : Machine} :
    m.recordAll es = m.recordAll es' ↔ es = es' := by
  constructor
  · intro h
    exact List.append_cancel_left (congrArg trace h)
  · rintro rfl
    rfl

@[simp] theorem recordAll_host (es : List Event) (m : Machine) :
    (m.recordAll es).host = m.host := rfl

theorem readText_apply (p : Path) (m : Machine) : readText p m = ((readText p m).1, m) :=
  Prod.ext rfl (readText_state p m)

/-- What is read in a place depends on nothing but its content. -/
theorem readText_congr {p : Path} {m m' : Machine} (h : m'.content? p = m.content? p) :
    (readText p m').1 = (readText p m).1 := by
  rw [readText, readText, h]
  rcases m.content? p with _ | b | _ | reason
  · rfl
  · dsimp only
    cases String.fromUTF8? b <;> rfl
  · rfl
  · rfl

end Machine

namespace Settings

open Step

/-! ## What is found in a place -/

/-- The document that a text holds. -/
def documentIn (r : Except Failure String) : Except Failure Entries := do
  match Toml.readDocument (← r) with
  | .ok es => return es
  | .error .malformed => .error (.badValue .malformed)
  | .error (.tooLong n) => .error (.badValue (.tooLongToRead n))

theorem readDocument_apply (p : Path) (m : Machine) :
    readDocument p m = (documentIn (Machine.readText p m).1, m) := by
  rw [readDocument, bind_apply, Machine.readText_apply]
  cases (Machine.readText p m).1 with
  | error e => rfl
  | ok t =>
    show _ = (documentIn (.ok t), m)
    rw [documentIn]
    dsimp only [bind, Except.bind]
    rcases Toml.readDocument t with (_ | n) | es
    · rfl
    · rfl
    · rfl

/-- What comes of a place in which settings are looked for. -/
inductive Found
  | absent
  | loaded (doc : Entries)
  /-- The file fails. A layer may have been given before the failure. -/
  | failed (given : Layer) (cause : Failure)

/-- What comes of a document: all of it is given, or a part. -/
def foundIn (r : Except Failure Entries) : Found :=
  match r with
  | .error e => .failed .empty e
  | .ok doc =>
    match gather (steps doc) with
    | (_, none) => .loaded doc
    | (l, some e) => .failed l e

def foundAt (m : Machine) (p : Path) : Found :=
  if m.fileExists p then foundIn (documentIn (Machine.readText p m).1) else .absent

theorem foundAt_congr {p : Path} {m m' : Machine} (h : m'.content? p = m.content? p) :
    foundAt m' p = foundAt m p := by
  rw [foundAt, foundAt, Machine.readText_congr h, Machine.fileExists, Machine.fileExists, h]

/-- What has happened does not change what is found. -/
theorem foundAt_recordAll (p : Path) (es : List Event) (m : Machine) :
    foundAt (m.recordAll es) p = foundAt m p :=
  foundAt_congr rfl

namespace Found

def layer : Found → Layer
  | absent => .empty
  | loaded doc => .ofDocument doc
  | failed l _ => l

def document? : Found → Option Entries
  | loaded doc => some doc
  | _ => none

/-- What is reported of a file. -/
def report (p : Path) : Found → List Event
  | absent => []
  | loaded _ => [.logged .debug s!"Loaded config from {p.text}"]
  | failed _ e => [.logged .warning s!"Failed to load {p.text}: {e.message}"]

end Found

/-- A document gives what can be read of it, whether it is loaded or not. -/
theorem layer_foundIn (doc : Entries) : (foundIn (.ok doc)).layer = (gather (steps doc)).1 := by
  rw [foundIn]
  rcases hgather : gather (steps doc) with ⟨l, _ | e⟩
  · have hall : (gather (steps doc)).1 = .ofDocument doc := gather_steps (by rw [hgather])
    rw [hgather] at hall
    exact hall.symm
  · rfl

theorem skip_apply (p : Path) (e : Failure) (s : Settings) (m : Machine) :
    loadFile.skip p e s m =
      if e.skipsFile then
        (.ok s, m.recordAll [.logged .warning s!"Failed to load {p.text}: {e.message}"])
      else (.error e, m) := by
  rw [loadFile.skip]
  cases e.skipsFile with
  | false => rfl
  | true => rfl

/-- **Loading a file** puts over the settings what the file gives, and reports it. -/
theorem loadFile_apply (p : Path) (s : Settings) (m : Machine) :
    loadFile p s m =
      match foundAt m p with
      | .absent => (.ok s, m)
      | .loaded doc =>
        (.ok { (Layer.ofDocument doc).cover s with sources := s.sources ++ [p.text] },
          m.recordAll [.logged .debug s!"Loaded config from {p.text}"])
      | .failed l e =>
        if e.skipsFile then
          (.ok (l.cover s),
            m.recordAll [.logged .warning s!"Failed to load {p.text}: {e.message}"])
        else (.error e, m) := by
  rw [loadFile, bind_ok (current_apply m), foundAt]
  cases m.fileExists p with
  | false => rfl
  | true =>
    have hattempt : (readDocument p).attempt m =
        (.ok (documentIn (Machine.readText p m).1), m) := by
      rw [attempt_apply, readDocument_apply]
    rw [if_neg (by simp), if_pos rfl, bind_ok hattempt]
    cases documentIn (Machine.readText p m).1 with
    | error e => exact skip_apply p e s m
    | ok doc =>
      dsimp only [foundIn]
      rw [merge_apply]
      rcases hgather : gather (steps doc) with ⟨l, _ | e⟩
      · have hall : (gather (steps doc)).1 = .ofDocument doc := gather_steps (by rw [hgather])
        rw [hgather] at hall
        dsimp only at hall
        rw [hall]
        rfl
      · exact skip_apply p e (l.cover s) m

/-- The places that hold a file that is loaded, in order, with its document. -/
def loadedAmong (m : Machine) (ps : List Path) : List (Path × Entries) :=
  ps.filterMap fun p => (foundAt m p).document?.map (p, ·)

/-- What all files give together. -/
def givenBy (m : Machine) (ps : List Path) : Layer :=
  Layer.sum (ps.map fun p => (foundAt m p).layer)

/-- What is reported of all files. -/
def reportOf (m : Machine) (ps : List Path) : List Event :=
  ps.flatMap fun p => (foundAt m p).report p

/-- The settings under a layer that comes from some sources. -/
def put (l : Layer) (sources : List String) (s : Settings) : Settings :=
  { l.cover s with sources := s.sources ++ sources }

@[simp] theorem put_empty (s : Settings) : put .empty [] s = s := by
  rw [put, Layer.empty_cover, List.append_nil]

theorem put_put (a b : Layer) (xs ys : List String) (s : Settings) :
    put b ys (put a xs s) = put (a ++ b) (xs ++ ys) s := by
  rw [put, put, put, Layer.append_cover]
  simp only [Layer.cover, List.append_assoc]

/-- If the file fails, the failure makes it be skipped. -/
def Skips (m : Machine) (p : Path) : Prop :=
  ∀ l e, foundAt m p = .failed l e → e.skipsFile = true

theorem skips_recordAll {p : Path} {es : List Event} {m : Machine} :
    Skips (m.recordAll es) p ↔ Skips m p := by
  rw [Skips, Skips, foundAt_recordAll]

theorem loadFile_of_skips {p : Path} {m : Machine} (h : Skips m p) (s : Settings) :
    loadFile p s m =
      (.ok (put (foundAt m p).layer ((loadedAmong m [p]).map (·.1.text)) s),
        m.recordAll ((foundAt m p).report p)) := by
  rw [loadFile_apply, loadedAmong, List.filterMap_cons]
  cases hfound : foundAt m p with
  | absent => exact Prod.ext (congrArg Except.ok (put_empty s).symm) (Machine.recordAll_nil m).symm
  | loaded doc => rfl
  | failed l e =>
    dsimp only
    rw [if_pos (h l e hfound)]
    simp [put, Found.layer, Found.document?, Found.report, Layer.cover]

theorem skips_of_loadFile {p : Path} {s t : Settings} {m m' : Machine}
    (h : loadFile p s m = (.ok t, m')) : Skips m p := by
  intro l e hfound
  rw [loadFile_apply, hfound] at h
  by_contra hskips
  dsimp only at h
  rw [if_neg hskips] at h
  exact absurd h (by simp)

theorem loadedAmong_cons (m : Machine) (p : Path) (ps : List Path) :
    loadedAmong m (p :: ps) = loadedAmong m [p] ++ loadedAmong m ps :=
  List.filterMap_append (l := [p])

/-- **Loading files one after the other** puts over the settings what all of them give. -/
theorem loadFiles_of_skips {ps : List Path} {m : Machine} (h : ∀ p ∈ ps, Skips m p) (s : Settings) :
    loadFiles ps s m =
      (.ok (put (givenBy m ps) ((loadedAmong m ps).map (·.1.text)) s),
        m.recordAll (reportOf m ps)) := by
  induction ps generalizing s m with
  | nil => exact Prod.ext (congrArg Except.ok (put_empty s).symm) (Machine.recordAll_nil m).symm
  | cons p ps ih =>
    have hsame := fun q => foundAt_recordAll q ((foundAt m p).report p) m
    rw [loadFiles, bind_ok (loadFile_of_skips (h p (.head _)) s),
      ih fun q hq => skips_recordAll.2 (h q (.tail _ hq)), put_put, loadedAmong_cons m p ps,
      List.map_append, ← Machine.recordAll_append]
    simp only [givenBy, reportOf, loadedAmong, hsame, List.map_cons, Layer.sum_cons,
      List.flatMap_cons]

theorem skips_of_loadFiles {ps : List Path} {s t : Settings} {m m' : Machine}
    (h : loadFiles ps s m = (.ok t, m')) : ∀ p ∈ ps, Skips m p := by
  induction ps generalizing s m with
  | nil => exact fun p hp => absurd hp (List.not_mem_nil)
  | cons p ps ih =>
    obtain ⟨s₁, m₁, hfile, hrest⟩ := bind_eq_ok h
    have hskips := skips_of_loadFile hfile
    rw [loadFile_of_skips hskips] at hfile
    obtain ⟨-, rfl⟩ := Prod.mk.inj hfile
    intro q hq
    rcases List.mem_cons.1 hq with rfl | hq
    · exact hskips
    · exact skips_recordAll.1 (ih hrest q hq)

/-! ## The environment -/

section Environment

variable (env : Keyed String)

/-- A variable that is set and not empty. -/
def textOf? (name : String) : Option String := (env.find? (variableName name)).filter (· ≠ "")

def sudoOf? : Option Bool := (env.find? (variableName "SUDO")).map isYes

/-- The time limit of the environment, if it can be read. -/
def limitOf? : Option Value :=
  (env.find? (variableName "TIMEOUT")).bind fun v => (readTimeout (.str v)).toOption

/-- A time limit of the environment that cannot be read. -/
def rejectedLimit? : Option String :=
  (env.find? (variableName "TIMEOUT")).filter fun _ => (limitOf? env).isNone

def Layer.ofEnvironment : Layer where
  ifaces := (textOf? env "IFACE").toList
  addresses := (textOf? env "ADDRESS").toList
  sudos := (sudoOf? env).toList
  timeouts := (limitOf? env).toList
  definitions := []
  defaultProfiles := ((textOf? env "PROFILE").map .str).toList

/-- The name of a variable as a source, if it gives something. -/
def sourceIf {α : Type} (o : Option α) (name : String) : List String :=
  (o.map fun _ => "env:" ++ variableName name).toList

def environmentSources : List String :=
  sourceIf (textOf? env "IFACE") "IFACE" ++ sourceIf (textOf? env "ADDRESS") "ADDRESS" ++
    sourceIf (textOf? env "PROFILE") "PROFILE" ++ sourceIf (sudoOf? env) "SUDO" ++
    sourceIf (limitOf? env) "TIMEOUT"

end Environment

/-- A variable that is used gives one value, which `give` makes a layer. -/
theorem useText_eq (env : Keyed String) (name : String) (change : String → Settings → Settings)
    (give : Option String → Layer) (hnone : give none = .empty)
    (hsome : ∀ v s, change v s = (give (some v)).cover s) (s : Settings) :
    useText env name change s =
      put (give (textOf? env name)) (sourceIf (textOf? env name) name) s := by
  rw [useText, textOf?]
  cases env.find? (variableName name) with
  | none => rw [Option.filter_none, hnone, sourceIf, Option.map_none, Option.toList_none, put_empty]
  | some v =>
    by_cases hv : v = ""
    · rw [Option.filter_some, if_neg (by simpa using hv), hnone, sourceIf, Option.map_none,
        Option.toList_none, put_empty]
      exact if_pos hv
    · rw [Option.filter_some, if_pos (by simpa using hv)]
      dsimp only
      rw [if_neg hv, hsome]
      rfl

theorem useSudo_eq (env : Keyed String) (s : Settings) :
    useSudo env s =
      put { Layer.empty with sudos := (sudoOf? env).toList } (sourceIf (sudoOf? env) "SUDO") s := by
  rw [useSudo, sudoOf?]
  cases env.find? (variableName "SUDO") with
  | none => exact (put_empty s).symm
  | some v => rfl

theorem useTimeout_eq (env : Keyed String) (s : Settings) :
    useTimeout env s =
      (put { Layer.empty with timeouts := (limitOf? env).toList } (sourceIf (limitOf? env) "TIMEOUT")
        s, rejectedLimit? env) := by
  rw [useTimeout, rejectedLimit?, limitOf?]
  cases env.find? (variableName "TIMEOUT") with
  | none => exact Prod.ext (put_empty s).symm rfl
  | some v =>
    dsimp only [Option.bind_some]
    cases readTimeout (.str v) with
    | ok t => rfl
    | error e => exact Prod.ext (put_empty s).symm rfl

/-- **The environment is one more layer.** -/
theorem underEnvironment_eq (env : Keyed String) (s : Settings) :
    underEnvironment env s =
      (put (.ofEnvironment env) (environmentSources env) s,
        (rejectedLimit? env).map fun v =>
          "Ignoring invalid " ++ variableName "TIMEOUT" ++ ": " ++ Text.quoted v) := by
  have hiface := useText_eq env "IFACE" (fun v s => { s with iface := v })
    (fun o => { Layer.empty with ifaces := o.toList }) rfl fun v s => rfl
  have haddress := useText_eq env "ADDRESS" (fun v s => { s with address := v })
    (fun o => { Layer.empty with addresses := o.toList }) rfl fun v s => rfl
  have hprofile := useText_eq env "PROFILE" (fun v s => { s with defaultProfile := .str v })
    (fun o => { Layer.empty with defaultProfiles := (o.map .str).toList }) rfl fun v s => rfl
  rw [underEnvironment]
  dsimp only
  rw [hiface, haddress, hprofile, useSudo_eq, useTimeout_eq, put_put, put_put, put_put, put_put]
  simp only [Layer.append_def, Layer.empty, List.append_nil, List.nil_append, Layer.ofEnvironment,
    environmentSources, List.append_assoc]

/-! ## Settings written down at once -/

/-- The settings that the environment and the files give. For each of them the environment comes
first, then the last file that gives it, then the default. -/
def resolved (env : Keyed String) (l : Layer) (files : List String) : Settings where
  iface := (textOf? env "IFACE" <|> l.ifaces.getLast?).getD ""
  address := (textOf? env "ADDRESS" <|> l.addresses.getLast?).getD Address.randomWord
  withSudo := (sudoOf? env <|> l.sudos.getLast?).getD true
  timeout := (limitOf? env <|> l.timeouts.getLast?).getD .null
  defaultProfile := ((textOf? env "PROFILE").map Value.str <|> l.defaultProfiles.getLast?).getD .null
  profiles := Keyed.inOrder l.definitions
  sources := files ++ environmentSources env

theorem put_environment (env : Keyed String) (l : Layer) (files : List String) :
    put (.ofEnvironment env) (environmentSources env) (put l files initial) =
      resolved env l files := by
  have hlast : ∀ {α : Type} (o : Option α) (xs : List α) (d : α),
      o.toList.getLast?.getD (xs.getLast?.getD d) = (o <|> xs.getLast?).getD d := by
    intro α o xs d
    cases o with
    | none => rfl
    | some a => rfl
  simp only [put, Layer.cover, Layer.ofEnvironment, resolved, initial, hlast, List.nil_append,
    List.foldl_nil]
  rw [← Keyed.insertAll_eq]
  rfl

/-- What the files give that are loaded. -/
def givenByLoaded (m : Machine) (ps : List Path) : Layer :=
  Layer.sum ((loadedAmong m ps).map fun f => .ofDocument f.2)

theorem empty_of_failed {m : Machine} {p : Path} {l : Layer} {e : Failure}
    (h : foundAt m p = .failed l e) (he : LeavesNothing e) : l = .empty := by
  rw [foundAt] at h
  split at h
  · cases hread : documentIn (Machine.readText p m).1 with
    | error e' =>
      rw [hread] at h
      exact (Found.failed.inj h).1.symm
    | ok doc =>
      rw [hread, foundIn] at h
      have hempty := @gather_steps_of_leavesNothing doc e
      rcases hgather : gather (steps doc) with ⟨l', _ | e'⟩
      · rw [hgather] at h
        exact absurd h (by simp)
      · rw [hgather] at h hempty
        obtain ⟨rfl, rfl⟩ := Found.failed.inj h
        exact hempty rfl he
  · exact absurd h (by simp)

/-- **What all files give is what the loaded files give**, if no file fails after it has given
something. -/
theorem givenBy_eq_givenByLoaded {m : Machine} {ps : List Path}
    (h : ∀ p ∈ ps, ∀ l e, foundAt m p = .failed l e → l = .empty) :
    givenBy m ps = givenByLoaded m ps := by
  induction ps with
  | nil => rfl
  | cons p ps ih =>
    have hrest := ih fun q hq => h q (.tail _ hq)
    rw [givenBy, givenByLoaded] at hrest ⊢
    rw [List.map_cons, Layer.sum_cons, hrest, loadedAmong, loadedAmong, List.filterMap_cons]
    cases hfound : foundAt m p with
    | absent => rfl
    | loaded doc => rfl
    | failed l e =>
      rw [h p (.head _) l e hfound]
      rfl

/-! ## The profile -/

/-- A value that can name a profile. -/
def nameIn? : Value → Option String
  | .str n => if n = "" then none else some n
  | _ => none

/-- The name of the profile to be applied: the one asked for, or the default. -/
def wantedName? (asked : Option String) (s : Settings) : Option String :=
  asked.filter (· ≠ "") <|> nameIn? s.defaultProfile

/-- The settings under the profile that is wanted, if there is one of that name. -/
def underProfile (asked : Option String) (s : Settings) : Settings :=
  ((wantedName? asked s).bind s.applyProfile?).getD s

/-- A profile changes nothing but the interface and the address. -/
theorem underProfile_eq (asked : Option String) (s : Settings) :
    ∃ iface address, underProfile asked s = { s with iface, address } := by
  rw [underProfile]
  cases wantedName? asked s with
  | none => exact ⟨s.iface, s.address, rfl⟩
  | some n =>
    rw [Option.bind_some, applyProfile?]
    cases s.profiles.find? n with
    | none => exact ⟨s.iface, s.address, rfl⟩
    | some p => exact ⟨_, _, rfl⟩

def profileReport (asked : Option String) (s : Settings) : List Event :=
  let label := (activeProfile asked s).text?.getD ""
  if (activeProfile asked s).isTruthy then
    if ((wantedName? asked s).bind s.applyProfile?).isSome then
      [.logged .debug s!"Applied profile: {label}"]
    else [.logged .warning s!"Profile not found: {label}"]
  else []

theorem wantedName?_eq (asked : Option String) (s : Settings) :
    wantedName? asked s = nameIn? (activeProfile asked s) := by
  cases asked with
  | none => rfl
  | some n =>
    rw [wantedName?, Option.filter_some]
    by_cases hn : n = ""
    · rw [if_neg (by simpa using hn), activeProfile, if_pos hn]
      rfl
    · rw [if_pos (by simpa using hn), activeProfile, if_neg hn, nameIn?, if_neg hn]
      rfl

theorem nameIn?_of_not_isTruthy {v : Value} (h : v.isTruthy = false) : nameIn? v = none := by
  cases v with
  | str n =>
    have hn : n = "" := by simpa using h
    rw [hn]
    rfl
  | _ => rfl

theorem lookUp_eq_ok {s : Settings} {v : Value} {found : Option Settings} (hv : v.isTruthy = true)
    (h : lookUp s v = .ok found) : found = (nameIn? v).bind s.applyProfile? := by
  cases v with
  | str n =>
    have hn : n ≠ "" := by simpa using hv
    rw [nameIn?, if_neg hn]
    exact (Except.ok.inj h).symm
  | list vs => exact absurd h (by simp [lookUp])
  | table es => exact absurd h (by simp [lookUp])
  | _ => exact (Except.ok.inj h).symm

theorem text?_of_text {v : Value} {t : String} (h : v.text = .ok t) : v.text? = some t := by
  rw [← text_toOption, h]
  rfl

theorem applyActive_eq {asked : Option String} {s t : Settings} {m m' : Machine}
    (h : applyActive asked s m = (.ok t, m')) :
    t = underProfile asked s ∧ m' = m.recordAll (profileReport asked s) := by
  rw [applyActive] at h
  rw [underProfile, profileReport, wantedName?_eq]
  generalize activeProfile asked s = v at h ⊢
  cases hv : v.isTruthy with
  | false =>
    rw [hv] at h
    obtain ⟨hs, hm⟩ := Prod.mk.inj h
    rw [← Except.ok.inj hs, ← hm, nameIn?_of_not_isTruthy hv]
    exact ⟨rfl, (Machine.recordAll_nil m).symm⟩
  | true =>
    rw [hv, if_neg (by simp)] at h
    obtain ⟨found, m₁, hfound, h⟩ := bind_eq_ok h
    obtain ⟨label, m₂, hlabel, h⟩ := bind_eq_ok h
    obtain ⟨hlookUp, rfl⟩ := Prod.mk.inj hfound
    obtain ⟨htext, rfl⟩ := Prod.mk.inj hlabel
    rw [← lookUp_eq_ok hv hlookUp, text?_of_text htext, if_pos rfl, Option.getD_some]
    cases found with
    | none =>
      obtain ⟨hs, hm⟩ := Prod.mk.inj h
      exact ⟨(Except.ok.inj hs).symm, hm.symm⟩
    | some s' =>
      obtain ⟨hs, hm⟩ := Prod.mk.inj h
      exact ⟨(Except.ok.inj hs).symm, hm.symm⟩

/-! ## All together -/

/-- The settings that come from the environment and the files before a profile is applied. -/
def beforeProfile (m : Machine) (l : Layer) : Settings :=
  resolved m.host.env l ((loadedAmong m (searchPaths m.host)).map (·.1.text))

def environmentReport (env : Keyed String) : List Event :=
  match rejectedLimit? env with
  | some v =>
    [.logged .warning ("Ignoring invalid " ++ variableName "TIMEOUT" ++ ": " ++ Text.quoted v)]
  | none => []

theorem applyEnvironment_apply (s : Settings) (m : Machine) :
    applyEnvironment s m =
      (.ok (put (.ofEnvironment m.host.env) (environmentSources m.host.env) s),
        m.recordAll (environmentReport m.host.env)) := by
  rw [applyEnvironment, bind_ok (current_apply m), underEnvironment_eq, environmentReport]
  cases rejectedLimit? m.host.env with
  | none => exact Prod.ext rfl (Machine.recordAll_nil m).symm
  | some v => rfl

theorem load_of_skips {m : Machine} (h : ∀ p ∈ searchPaths m.host, Skips m p)
    (asked : Option String) :
    load asked m =
      applyActive asked (beforeProfile m (givenBy m (searchPaths m.host)))
        ((m.recordAll (reportOf m (searchPaths m.host))).recordAll
          (environmentReport m.host.env)) := by
  rw [load, bind_ok (current_apply m), bind_ok (loadFiles_of_skips h initial),
    bind_ok (applyEnvironment_apply _ _), Machine.recordAll_host, put_environment]
  rfl

theorem skips_of_load {asked : Option String} {m m' : Machine} {s : Settings}
    (h : load asked m = (.ok s, m')) : ∀ p ∈ searchPaths m.host, Skips m p := by
  rw [load, bind_ok (current_apply m)] at h
  obtain ⟨s₁, m₁, hfiles, -⟩ := bind_eq_ok h
  exact skips_of_loadFiles hfiles

/-- **Loading settings.** Where they come from, and what is reported. The files that fail do not
count, if none of them gives something and then fails since a whole number has too many digits to be
written. -/
theorem load_resolved {asked : Option String} {m m' : Machine} {s : Settings}
    (h : load asked m = (.ok s, m')) :
    s = underProfile asked (beforeProfile m (givenBy m (searchPaths m.host))) ∧
      ((∀ p ∈ searchPaths m.host, ∀ l,
          foundAt m p = .failed l (.badValue .tooLongToWrite) → l = .empty) →
        s = underProfile asked (beforeProfile m (givenByLoaded m (searchPaths m.host)))) ∧
      m'.trace = m.trace ++ reportOf m (searchPaths m.host) ++ environmentReport m.host.env ++
        profileReport asked (beforeProfile m (givenBy m (searchPaths m.host))) := by
  have hskips := skips_of_load h
  rw [load_of_skips hskips] at h
  obtain ⟨rfl, rfl⟩ := applyActive_eq h
  refine ⟨rfl, fun hcause => ?_, rfl⟩
  have hempty : ∀ p ∈ searchPaths m.host, ∀ l e, foundAt m p = .failed l e → l = .empty := by
    intro p hp l e hfound
    by_cases he : e = .badValue .tooLongToWrite
    · exact hcause p hp l (he ▸ hfound)
    · exact empty_of_failed hfound ⟨hskips p hp l e hfound, he⟩
  rw [givenBy_eq_givenByLoaded hempty]

/-! ## Machines with one file -/

/-- A machine with a file in the working directory. -/
def holding (env : Keyed String) (text : String) : Machine where
  host := ⟨env, Path.ofString "/root", Path.ofString "/work", "linux", none, fun _ => Fin.last 15, ""⟩
  files := [(⟨"/", ["work", ".mac-changer.toml"]⟩, .bytes text.toUTF8)]
  drawn := 0
  outcomes := []
  typed := []
  trace := []

/-- Of given settings it can be computed that they are loaded, and what holds of them. -/
theorem exists_of_load (asked : Option String) (m : Machine) {P : Settings → Machine → Bool}
    (h : (match load asked m with
      | (.ok s, m') => P s m'
      | (.error _, _) => false) = true) :
    ∃ s m', load asked m = (.ok s, m') ∧ P s m' = true := by
  rcases hload : load asked m with ⟨e | s, m'⟩
  · rw [hload] at h
    exact absurd h (by simp)
  · rw [hload] at h
    exact ⟨s, m', rfl, h⟩

/-- The file names a profile and leaves `sudo` to the environment. -/
def holdingProfile : Machine :=
  holding [("MAC_CHANGER_SUDO", "no")] <| "default_profile = 'lab'\n[defaults]\niface = 'eth0'\n" ++
    "address = '5-4-3-2-1-0'\n[profiles.lab]\naddress = '0-1-2-3-4-5'\n"

theorem load_resolved_holdingProfile :
    ∃ s m', load none holdingProfile = (.ok s, m') ∧
      (s.iface, s.address, s.withSudo) = ("eth0", "0-1-2-3-4-5", false) ∧
      s = underProfile none (beforeProfile holdingProfile
        (givenByLoaded holdingProfile (searchPaths holdingProfile.host))) := by
  have heval : (load none holdingProfile).1.toOption.map
      (fun s => (s.iface, s.address, s.withSudo)) = some ("eth0", "0-1-2-3-4-5", false) := by
    decide +kernel
  have hloads : ((searchPaths holdingProfile.host).all fun p =>
      match foundAt holdingProfile p with
      | .failed _ _ => false
      | _ => true) = true := by
    decide +kernel
  rcases hload : load none holdingProfile with ⟨e | s, m'⟩
  · rw [hload] at heval
    exact absurd heval (by simp [Except.toOption])
  · rw [hload] at heval
    refine ⟨s, m', rfl, Option.some.inj heval, (load_resolved hload).2.1 fun p hp l hfound => ?_⟩
    have hfails := List.all_eq_true.1 hloads p hp
    rw [hfound] at hfails
    exact absurd hfails (by simp)

/-! ## A file that is given in part

The address is a number of more than three thousand hexadecimal digits. It can be read, but it has
too many decimal digits to be written, and the interface before it has been taken over. The text is
too long to be computed with, so what stands before the last digits is read for all that may follow.
-/

/-- A whole number of too many digits has no text. -/
theorem text_int_of_le {k : Nat} (h : 10 ^ Value.maxDigits ≤ k) :
    (Value.int k).text = .error (.badValue .tooLongToWrite) := by
  have hlength : Value.maxDigits < (Nat.toDigits 10 k).length := by
    rw [← Nat.not_le, Nat.length_toDigits_le_iff (by decide) (by decide), Nat.not_lt]
    exact h
  have hnone : Value.intText? k = none := if_pos hlength
  rw [Value.text, Value.text?_int, hnone]

section Zeros

open Toml

theorem unifyLines_zeros (n : Nat) :
    unifyLines (List.replicate n '0' ++ ['\n']) = List.replicate n '0' ++ ['\n'] := by
  induction n with
  | zero => rfl
  | succ n ih =>
    have hstep : ∀ cs, unifyLines ('0' :: cs) = '0' :: unifyLines cs := fun cs => rfl
    rw [List.replicate_succ, List.cons_append, hstep, ih]

theorem moreDigits_zeros (n : Nat) :
    moreDigits isHexDigit (List.replicate n '0' ++ ['\n']) = (List.replicate n '0', ['\n']) := by
  induction n with
  | zero => rfl
  | succ n ih =>
    have hstep : ∀ cs, moreDigits isHexDigit ('0' :: cs) =
        ('0' :: (moreDigits isHexDigit cs).1, (moreDigits isHexDigit cs).2) := fun cs => rfl
    rw [List.replicate_succ, List.cons_append, hstep, ih]

theorem foldl_zeros (n a : Nat) :
    (List.replicate n '0').foldl (fun n d => 16 * n + (hexValue? d).getD 0) a = 16 ^ n * a := by
  induction n generalizing a with
  | zero => simp
  | succ n ih =>
    have hzero : (hexValue? '0').getD 0 = 0 := by decide
    rw [List.replicate_succ, List.foldl_cons, ih, hzero, Nat.add_zero, Nat.pow_succ, Nat.mul_assoc]

theorem plain_zeros (n : Nat) :
    plain ('0' :: 'x' :: '1' :: '0' :: (List.replicate n '0' ++ ['\n'])) =
      .ok (.int (16 ^ (n + 1) : Nat), ['\n']) := by
  have hplain : ∀ cs, plain ('0' :: 'x' :: '1' :: '0' :: cs) =
      .ok (.int (valueIn 16 ('1' :: '0' :: (moreDigits isHexDigit cs).1)),
        (moreDigits isHexDigit cs).2) := fun cs => rfl
  have hvalue : valueIn 16 ('1' :: '0' :: List.replicate n '0') = 16 ^ (n + 1) := by
    rw [Nat.pow_succ]
    exact foldl_zeros n 16
  rw [hplain, moreDigits_zeros, hvalue]

/-- An interface, and an address up to the first digits of a number. -/
def partFront : List Char :=
  ['[', 'd', 'e', 'f', 'a', 'u', 'l', 't', 's', ']', '\n'] ++
    ['i', 'f', 'a', 'c', 'e', ' ', '=', ' ', '\'', 'e', 't', 'h', '1', '\'', '\n'] ++
    ['a', 'd', 'd', 'r', 'e', 's', 's', ' ', '=', ' ', '0', 'x', '1', '0']

def partText (n : Nat) : String :=
  String.ofList (partFront ++ (List.replicate n '0' ++ ['\n']))

def partDocument (k : Nat) : Entries :=
  [("defaults", .table [("iface", .str "eth1"), ("address", .int k)])]

/-- The line of the address, from its second letter to the first digits of the number. -/
def partLine (cs : List Char) : List Char :=
  ['d', 'd', 'r', 'e', 's', 's', ' ', '=', ' ', '0', 'x', '1', '0'] ++ cs

theorem readLines_part {cs : List Char} {k : Nat}
    (h : plain ('0' :: 'x' :: '1' :: '0' :: cs) = .ok (.int k, ['\n'])) (fuel : Nat) :
    (readLines (fuel + 4) .empty (partFront ++ cs)).map (·.root) = .ok (partDocument k) := by
  let d : Draft := ⟨[("defaults", .table [("iface", .str "eth1")])],
    Marks.none.settle.declare ["defaults"], ["defaults"]⟩
  have hfirst : readLines (fuel + 4) .empty (partFront ++ cs) =
      readLines (fuel + 2) d ('a' :: partLine cs) := rfl
  have hpair : pair ('a' :: partLine cs) =
      plain ('0' :: 'x' :: '1' :: '0' :: cs) >>= fun p => .ok ((["address"], p.1), p.2) := rfl
  have hstatement : statement d ('a' :: partLine cs) =
      pair ('a' :: partLine cs) >>= fun r =>
        orMalformed (d.assign? r.1.1 r.1.2) >>= fun d => .ok (d, r.2) := rfl
  rw [hpair, h] at hstatement
  rw [hfirst, readLines]
  split
  · next heq => exact absurd heq (by simp [skipGap, isGap])
  · next rest heq => exact absurd (List.cons.inj heq).1 (by decide)
  · rw [show skipGap ('a' :: partLine cs) = 'a' :: partLine cs from rfl, hstatement]
    rfl

theorem readDocument_part (n : Nat) :
    Toml.readDocument (partText n) = .ok (partDocument (16 ^ (n + 1))) := by
  have hfront : ∀ cs, unifyLines (partFront ++ cs) = partFront ++ unifyLines cs := fun cs => rfl
  have hlength : ∀ cs : List Char, (partFront ++ cs).length + 1 = cs.length + 37 + 4 := by
    intro cs
    rw [List.length_append, show partFront.length = 40 from rfl]
    omega
  rw [Toml.readDocument, partText, String.toList_ofList, hfront, unifyLines_zeros, hlength]
  exact readLines_part (plain_zeros n) _

end Zeros

/-- The interface is given, and then the address cannot be written. -/
theorem gather_part {k : Nat} (h : 10 ^ Value.maxDigits ≤ k) :
    gather (steps (partDocument k)) =
      (⟨["eth1"], [], [], [], [], []⟩, some (.badValue .tooLongToWrite)) := by
  have hsteps : steps (partDocument k) =
      .ok .empty :: .ok ⟨["eth1"], [], [], [], [], []⟩ :: giveAddress (.int k) ::
        [.ok .empty, .ok .empty, .ok .empty] := rfl
  rw [hsteps, giveAddress, text_int_of_le h]
  rfl

theorem foundAt_of_none {m : Machine} {p : Path} (h : m.content? p = none) :
    foundAt m p = .absent := by
  rw [foundAt, Machine.fileExists, h]
  rfl

theorem foundAt_of_text {m : Machine} {p : Path} {text : String}
    (h : m.content? p = some (.bytes text.toUTF8)) :
    foundAt m p = foundIn (documentIn (.ok text)) := by
  have hutf : String.fromUTF8? text.toUTF8 = some text := dif_pos text.isValidUTF8
  rw [foundAt, Machine.fileExists, Machine.readText, h, Option.isSome_some, if_pos rfl]
  dsimp only
  rw [hutf]

theorem documentIn_of_readDocument {text : String} {doc : Entries}
    (h : Toml.readDocument text = .ok doc) : documentIn (.ok text) = .ok doc := by
  rw [documentIn]
  dsimp only [bind, Except.bind]
  rw [h]
  rfl

theorem foundAt_work (env : Keyed String) (text : String) :
    foundAt (holding env text) (Path.ofString "/work" / ".mac-changer.toml") =
      foundIn (documentIn (.ok text)) :=
  foundAt_of_text rfl

/-- Settings are looked for in five places, and the file is in one of them. -/
theorem foundAt_holding (text : String) :
    (searchPaths (holding [] text).host).map (foundAt (holding [] text)) =
      [.absent, .absent, .absent, foundIn (documentIn (.ok text)), .absent] := by
  have hcontents : (searchPaths (holding [] text).host).map (holding [] text).content? =
      [none, none, none, some (.bytes text.toUTF8), none] := rfl
  simp only [searchPaths, List.map_cons, List.map_nil, List.cons.injEq, and_true] at hcontents ⊢
  obtain ⟨hsystem, huser, hhome, -, hother⟩ := hcontents
  exact ⟨foundAt_of_none hsystem, foundAt_of_none huser, foundAt_of_none hhome,
    foundAt_work [] text, foundAt_of_none hother⟩

/-- The file fails after it has given an interface. -/
def foundPart : Found := .failed ⟨["eth1"], [], [], [], [], []⟩ (.badValue .tooLongToWrite)

theorem foundAt_part {n : Nat} (h : 10 ^ Value.maxDigits ≤ 16 ^ (n + 1)) :
    (searchPaths (holding [] (partText n)).host).map (foundAt (holding [] (partText n))) =
      [.absent, .absent, .absent, foundPart, .absent] := by
  rw [foundAt_holding, documentIn_of_readDocument (readDocument_part n), foundIn, gather_part h]
  rfl

theorem load_part {text : String}
    (h : (searchPaths (holding [] text).host).map (foundAt (holding [] text)) =
      [.absent, .absent, .absent, foundPart, .absent]) :
    (∃ s m', load none (holding [] text) = (.ok s, m') ∧ s.iface = "eth1") ∧
      loadedAmong (holding [] text) (searchPaths (holding [] text).host) = [] := by
  have hmem : ∀ p ∈ searchPaths (holding [] text).host, foundAt (holding [] text) p = .absent ∨
      foundAt (holding [] text) p = foundPart := by
    intro p hp
    have hmap := List.mem_map_of_mem (f := foundAt (holding [] text)) hp
    rw [h] at hmap
    simp only [List.mem_cons, List.not_mem_nil, or_false] at hmap
    tauto
  have hskips : ∀ p ∈ searchPaths (holding [] text).host, Skips (holding [] text) p := by
    intro p hp l e hfound
    rcases hmem p hp with habsent | hfailed
    · exact absurd (hfound.symm.trans habsent) (by simp)
    · rw [(Found.failed.inj (hfound.symm.trans hfailed)).2]
      rfl
  have hgiven : givenBy (holding [] text) (searchPaths (holding [] text).host) =
      ⟨["eth1"], [], [], [], [], []⟩ := by
    have hlayers : givenBy (holding [] text) (searchPaths (holding [] text).host) = Layer.sum
        (((searchPaths (holding [] text).host).map (foundAt (holding [] text))).map Found.layer) := by
      rw [List.map_map]
      rfl
    rw [hlayers, h]
    rfl
  refine ⟨?_, List.filterMap_eq_nil_iff.2 fun p hp => ?_⟩
  · rw [load_of_skips hskips, hgiven]
    exact ⟨_, _, rfl, rfl⟩
  · rcases hmem p hp with habsent | hfailed
    · rw [habsent]
      rfl
    · rw [hfailed]
      rfl

/-- The file fails and nothing is loaded, and still the interface of the file is taken. The number
has 3601 hexadecimal digits. -/
theorem load_keeps_part :
    (∃ s m', load none (holding [] (partText 3599)) = (.ok s, m') ∧ s.iface = "eth1") ∧
      loadedAmong (holding [] (partText 3599)) (searchPaths (holding [] (partText 3599)).host) = [] ∧
      (underProfile none (beforeProfile (holding [] (partText 3599))
        (givenByLoaded (holding [] (partText 3599))
          (searchPaths (holding [] (partText 3599)).host)))).iface = "" := by
  have hdigits : 10 ^ Value.maxDigits ≤ 16 ^ (3599 + 1) := by decide +kernel
  obtain ⟨hload, hloaded⟩ := load_part (foundAt_part hdigits)
  refine ⟨hload, hloaded, ?_⟩
  rw [givenByLoaded, hloaded]
  rfl

end Settings

end LinkOverride
