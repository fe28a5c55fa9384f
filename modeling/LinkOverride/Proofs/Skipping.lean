import LinkOverride.Proofs.Stopping

/-!
# Files that are skipped

A file that is skipped should have no effect: the settings should be those of a machine without it,
and what is reported should differ by its warning only. Here loading is compared with loading without
some places. To be without a place is said in two ways: the search leaves it out, or the machine has
nothing there.

What is loaded depends on nothing but what is found in each place. So the loading is written down as
a function of that, `through`, and the places that are come to are known beforehand, `reached`. Two
loadings can then be compared place by place.

Main statement: places can be left out that hold a file that is skipped, if none of these files gives
something before it fails.
-/

namespace LinkOverride.Settings

open Step

/-! ## Loading as a function of what is found -/

namespace Found

/-- The settings after a place, or why the loading stops there. -/
def onto (p : Path) (f : Found) (s : Settings) : Except Failure Settings :=
  match f with
  | absent => .ok s
  | loaded doc => .ok { (Layer.ofDocument doc).cover s with sources := s.sources ++ [p.text] }
  | failed l e => if e.skipsFile then .ok (l.cover s) else .error e

/-- The loading goes on after the place. -/
def passes : Found → Bool
  | failed _ e => e.skipsFile
  | _ => true

@[simp] theorem passes_absent : absent.passes = true := rfl

/-- The place holds a file that is skipped and gives nothing. -/
def IsMute (f : Found) : Prop := ∃ e, f = failed .empty e ∧ e.skipsFile = true

theorem IsMute.onto {f : Found} (h : f.IsMute) (p : Path) (s : Settings) : f.onto p s = .ok s := by
  obtain ⟨e, rfl, he⟩ := h
  rw [Found.onto, if_pos he, Layer.empty_cover]

theorem IsMute.passes {f : Found} (h : f.IsMute) : f.passes = true := by
  obtain ⟨e, rfl, he⟩ := h
  exact he

end Found

/-- The settings after the files in some places, or why the loading stops. -/
def through (found : Path → Found) : List Path → Settings → Except Failure Settings
  | [], s => .ok s
  | p :: ps, s => (found p).onto p s >>= through found ps

/-- The places up to the first that stops the loading. -/
def reached (found : Path → Found) (ps : List Path) : List Path :=
  ps.takeWhile fun p => (found p).passes

theorem reached_cons (found : Path → Found) (p : Path) (ps : List Path) :
    reached found (p :: ps) = if (found p).passes then p :: reached found ps else [] :=
  List.takeWhile_cons

theorem reportOf_cons (m : Machine) (p : Path) (ps : List Path) :
    reportOf m (p :: ps) = (foundAt m p).report p ++ reportOf m ps :=
  List.flatMap_cons

theorem loadFile_of_passes {p : Path} {m : Machine} (h : (foundAt m p).passes = true)
    (s : Settings) :
    ∃ t, (foundAt m p).onto p s = .ok t ∧
      loadFile p s m = (.ok t, m.recordAll ((foundAt m p).report p)) := by
  rw [loadFile_apply]
  cases hfound : foundAt m p with
  | absent => exact ⟨s, rfl, Prod.ext rfl (Machine.recordAll_nil m).symm⟩
  | loaded doc => exact ⟨_, rfl, rfl⟩
  | failed l e =>
    rw [hfound, Found.passes] at h
    exact ⟨l.cover s, if_pos h, if_pos h⟩

theorem loadFile_of_not_passes {p : Path} {m : Machine} (h : (foundAt m p).passes = false)
    (s : Settings) : ∃ e, (foundAt m p).onto p s = .error e ∧ loadFile p s m = (.error e, m) := by
  rw [loadFile_apply]
  cases hfound : foundAt m p with
  | failed l e =>
    rw [hfound, Found.passes, ← Bool.not_eq_true] at h
    exact ⟨e, if_neg h, if_neg h⟩
  | _ => exact absurd (hfound ▸ h) (by simp [Found.passes])

/-- **Loading files one after the other** depends on nothing but what is found in their places. -/
theorem loadFiles_eq (ps : List Path) (s : Settings) (m : Machine) :
    loadFiles ps s m =
      (through (foundAt m) ps s, m.recordAll (reportOf m (reached (foundAt m) ps))) := by
  induction ps generalizing s m with
  | nil => exact Prod.ext rfl (Machine.recordAll_nil m).symm
  | cons p ps ih =>
    rw [loadFiles, through, reached_cons]
    cases hpasses : (foundAt m p).passes with
    | false =>
      obtain ⟨e, honto, hfile⟩ := loadFile_of_not_passes hpasses s
      rw [bind_error hfile, honto]
      exact Prod.ext rfl (Machine.recordAll_nil m).symm
    | true =>
      obtain ⟨t, honto, hfile⟩ := loadFile_of_passes hpasses s
      -- The report stands between this file and the next, and nothing that is found depends on it.
      have hsame : foundAt (m.recordAll ((foundAt m p).report p)) = foundAt m :=
        funext fun q => foundAt_recordAll q _ m
      have hreport : ∀ qs, reportOf (m.recordAll ((foundAt m p).report p)) qs = reportOf m qs :=
        fun qs => by rw [reportOf, reportOf, hsame]
      rw [bind_ok hfile, ih, hsame, hreport, honto, ← Machine.recordAll_append]
      rfl

/-! ## After the files -/

/-- What comes after the files, and what is reported then. -/
def finish (env : Keyed String) (asked : Option String) (r : Except Failure Settings) :
    Except Failure Settings × List Event :=
  match r with
  | .error e => (.error e, [])
  | .ok s =>
    let t := put (.ofEnvironment env) (environmentSources env) s
    match underNamed (activeProfile asked t) t with
    | .ok u => (.ok u, environmentReport env ++ profileReport asked t)
    | .error e => (.error e, environmentReport env)

/-- Loading settings, with files looked for in some places. -/
def loadFrom (ps : List Path) (asked : Option String) : Step Machine Settings := do
  let s ← loadFiles ps initial
  let s ← applyEnvironment s
  applyActive asked s

theorem load_eq_loadFrom (asked : Option String) (m : Machine) :
    load asked m = loadFrom (searchPaths m.host) asked m := rfl

/-- **Loading settings** depends on nothing but the environment and what is found in the places. -/
theorem loadFrom_eq (ps : List Path) (asked : Option String) (m : Machine) :
    loadFrom ps asked m =
      ((finish m.host.env asked (through (foundAt m) ps initial)).1,
        m.recordAll (reportOf m (reached (foundAt m) ps) ++
          (finish m.host.env asked (through (foundAt m) ps initial)).2)) := by
  rw [loadFrom, bind_apply, loadFiles_eq]
  cases through (foundAt m) ps initial with
  | error e => exact Prod.ext rfl (congrArg m.recordAll (List.append_nil _).symm)
  | ok s =>
    dsimp only
    rw [bind_ok (applyEnvironment_apply _ _), Machine.recordAll_host, applyActive_apply, finish]
    generalize put (.ofEnvironment m.host.env) (environmentSources m.host.env) s = t
    cases underNamed (activeProfile asked t) t with
    | error e => rw [Machine.recordAll_append]
    | ok u => rw [Machine.recordAll_append, Machine.recordAll_append]

/-! ## Without some places -/

section Without

variable {P ps : List Path}

/-- **To leave out places with a file that is skipped and gives nothing** changes no settings. -/
theorem through_filter {found : Path → Found} (h : ∀ p ∈ P, (found p).IsMute) (s : Settings) :
    through found (ps.filter (· ∉ P)) s = through found ps s := by
  induction ps generalizing s with
  | nil => rfl
  | cons p ps ih =>
    by_cases hp : p ∈ P
    · rw [List.filter_cons_of_neg (by simpa using hp), ih, through, (h p hp).onto]
      rfl
    · rw [List.filter_cons_of_pos (by simpa using hp), through, through]
      cases (found p).onto p s with
      | error e => rfl
      | ok t => exact ih t

theorem reached_filter {found : Path → Found} (h : ∀ p ∈ P, (found p).IsMute) :
    reached found (ps.filter (· ∉ P)) = (reached found ps).filter (· ∉ P) := by
  induction ps with
  | nil => rfl
  | cons p ps ih =>
    by_cases hp : p ∈ P
    · rw [List.filter_cons_of_neg (by simpa using hp), ih, reached_cons, (h p hp).passes, if_pos rfl,
        List.filter_cons_of_neg (by simpa using hp)]
    · rw [List.filter_cons_of_pos (by simpa using hp), reached_cons, reached_cons, ih]
      split
      · rw [List.filter_cons_of_pos (by simpa using hp)]
      · rfl

/-- The second machine is the first, but that it has nothing in some places. -/
structure Lacks (P : List Path) (m m' : Machine) : Prop where
  host : m'.host = m.host
  content : ∀ p ∈ searchPaths m.host, m'.content? p = if p ∈ P then none else m.content? p

variable {m m' : Machine}

theorem Lacks.foundAt (h : Lacks P m m') {p : Path} (hp : p ∈ searchPaths m.host) :
    foundAt m' p = if p ∈ P then .absent else foundAt m p := by
  have hcontent := h.content p hp
  by_cases hP : p ∈ P
  · rw [if_pos hP] at hcontent ⊢
    exact foundAt_of_none hcontent
  · rw [if_neg hP] at hcontent ⊢
    exact foundAt_congr hcontent

/-- To have nothing in some places is as good as to leave them out. -/
theorem through_of_absent
    (h : ∀ p ∈ ps, foundAt m' p = if p ∈ P then .absent else foundAt m p) (s : Settings) :
    through (foundAt m') ps s = through (foundAt m) (ps.filter (· ∉ P)) s := by
  induction ps generalizing s with
  | nil => rfl
  | cons p ps ih =>
    have hrest := ih fun q hq => h q (.tail _ hq)
    rw [through, h p (.head _)]
    by_cases hp : p ∈ P
    · rw [if_pos hp, List.filter_cons_of_neg (by simpa using hp), ← hrest]
      rfl
    · rw [if_neg hp, List.filter_cons_of_pos (by simpa using hp), through]
      cases (foundAt m p).onto p s with
      | error e => rfl
      | ok t => exact hrest t

theorem reportOf_of_absent
    (h : ∀ p ∈ ps, foundAt m' p = if p ∈ P then .absent else foundAt m p) :
    reportOf m' (reached (foundAt m') ps) =
      reportOf m (reached (foundAt m) (ps.filter (· ∉ P))) := by
  induction ps with
  | nil => rfl
  | cons p ps ih =>
    have hrest := ih fun q hq => h q (.tail _ hq)
    have hhere := h p (.head _)
    by_cases hp : p ∈ P
    · rw [if_pos hp] at hhere
      rw [reached_cons, hhere, if_pos Found.passes_absent, reportOf_cons, hhere, hrest,
        List.filter_cons_of_neg (by simpa using hp)]
      rfl
    · rw [if_neg hp] at hhere
      rw [reached_cons, hhere, List.filter_cons_of_pos (by simpa using hp), reached_cons]
      split
      · rw [reportOf_cons, reportOf_cons, hhere, hrest]
      · rfl

end Without

/-- A machine that has nothing in some places loads what is loaded if they are left out. -/
theorem load_of_lacks {P : List Path} {m m' : Machine} (hlacks : Lacks P m m')
    {asked : Option String} {r : Except Failure Settings} {es : List Event}
    (h : loadFrom ((searchPaths m.host).filter (· ∉ P)) asked m = (r, m.recordAll es)) :
    load asked m' = (r, m'.recordAll es) := by
  rw [loadFrom_eq] at h
  obtain ⟨rfl, hevents⟩ := Prod.mk.inj h
  rw [load_eq_loadFrom, loadFrom_eq, hlacks.host, through_of_absent fun p hp => hlacks.foundAt hp,
    reportOf_of_absent fun p hp => hlacks.foundAt hp, Machine.recordAll_inj.1 hevents]

/-- **A file that is skipped has no effect**, if it does not give something and then fail since a
whole number has too many digits to be written. Without some files of this kind, the settings are the
same or the same failure stops the loading, and only the warnings for these files are missing. -/
theorem load_without {P : List Path} {m : Machine}
    (hskipped : ∀ p ∈ P, ∃ l e, foundAt m p = .failed l e ∧ e.skipsFile = true ∧
      (e = .badValue .tooLongToWrite → l = .empty))
    (asked : Option String) :
    ∃ r after,
      load asked m =
        (r, m.recordAll (reportOf m (reached (foundAt m) (searchPaths m.host)) ++ after)) ∧
      loadFrom ((searchPaths m.host).filter (· ∉ P)) asked m =
        (r, m.recordAll (reportOf m
          ((reached (foundAt m) (searchPaths m.host)).filter (· ∉ P)) ++ after)) ∧
      ∀ m', Lacks P m m' → load asked m' =
        (r, m'.recordAll (reportOf m
          ((reached (foundAt m) (searchPaths m.host)).filter (· ∉ P)) ++ after)) := by
  have hmute : ∀ p ∈ P, (foundAt m p).IsMute := by
    intro p hp
    obtain ⟨l, e, hfound, he, hpart⟩ := hskipped p hp
    have hempty : l = .empty := by
      by_cases hlong : e = .badValue .tooLongToWrite
      · exact hpart hlong
      · exact empty_of_failed hfound ⟨he, hlong⟩
    exact ⟨e, hempty ▸ hfound, he⟩
  have hwithout := loadFrom_eq ((searchPaths m.host).filter (· ∉ P)) asked m
  rw [through_filter hmute, reached_filter hmute] at hwithout
  exact ⟨_, _, loadFrom_eq _ _ _, hwithout, fun m' hlacks => load_of_lacks hlacks hwithout⟩

/-! ## Machines with and without a file -/

theorem lacks_of_map {P : List Path} {m m' : Machine} (hhost : m'.host = m.host)
    (h : (searchPaths m.host).map m'.content? =
      (searchPaths m.host).map fun p => if p ∈ P then none else m.content? p) : Lacks P m m' :=
  ⟨hhost, List.map_inj_left.1 h⟩

/-- The home directory holds a file that cannot be read, the working directory one that is loaded. -/
def holdingLocked : Machine :=
  let m := holding [] "[defaults]\niface = 'eth1'\n"
  let locked := (⟨"/", ["root", ".mac-changer.toml"]⟩, .unreadable "Input/output error")
  { m with files := locked :: m.files }

theorem load_without_holdingLocked :
    ∃ r, (load none holdingLocked).1 = r ∧
      (load none (holding [] "[defaults]\niface = 'eth1'\n")).1 = r ∧
      r.toOption.map (·.iface) = some "eth1" := by
  have hfound : foundAt holdingLocked (Path.ofString "/root" / ".mac-changer.toml") =
      .failed .empty (.system (.unreadable "Input/output error" "/root/.mac-changer.toml")) := rfl
  have hskipped : ∀ p ∈ [Path.ofString "/root" / ".mac-changer.toml"], ∃ l e,
      foundAt holdingLocked p = .failed l e ∧ e.skipsFile = true ∧
        (e = .badValue .tooLongToWrite → l = .empty) := by
    intro p hp
    rw [List.mem_singleton.1 hp]
    exact ⟨_, _, hfound, rfl, fun _ => rfl⟩
  have hlacks : Lacks [Path.ofString "/root" / ".mac-changer.toml"] holdingLocked
      (holding [] "[defaults]\niface = 'eth1'\n") := lacks_of_map rfl rfl
  have heval : (load none holdingLocked).1.toOption.map (·.iface) = some "eth1" := by
    decide +kernel
  obtain ⟨r, after, hload, -, hwithout⟩ := load_without hskipped none
  rw [hload] at heval
  exact ⟨r, by rw [hload], by rw [hwithout _ hlacks], heval⟩

/-- The machine without any file. -/
def emptied (m : Machine) : Machine := { m with files := [] }

/-- The file is skipped, and still the interface is another one if it is not there. The number has
3601 hexadecimal digits. -/
theorem load_differs_without_part :
    (∃ l e, foundAt (holding [] (partText 3599)) (Path.ofString "/work" / ".mac-changer.toml") =
        .failed l e ∧ e.skipsFile = true) ∧
      Lacks [Path.ofString "/work" / ".mac-changer.toml"] (holding [] (partText 3599))
        (emptied (holding [] (partText 3599))) ∧
      (load none (holding [] (partText 3599))).1.toOption.map (·.iface) = some "eth1" ∧
      (load none (emptied (holding [] (partText 3599)))).1.toOption.map (·.iface) = some "" := by
  have hdigits : 10 ^ Value.maxDigits ≤ 16 ^ (3599 + 1) := by decide +kernel
  have hplaces := foundAt_part hdigits
  obtain ⟨⟨s, m', hload, hiface⟩, -⟩ := load_part hplaces
  refine ⟨?_, lacks_of_map rfl rfl, ?_, by decide +kernel⟩
  · simp only [searchPaths, List.map_cons, List.cons.injEq] at hplaces
    exact ⟨_, _, hplaces.2.2.2.1, rfl⟩
  · rw [hload]
    exact congrArg some hiface

end LinkOverride.Settings
