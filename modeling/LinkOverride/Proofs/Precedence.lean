import LinkOverride.Proofs.Stopping

/-!
# The order in which sources count

Each source of a parameter overrides those before it: the default, the files in order, the
environment. The environment should be above all files. But last of all comes the profile, and it is
a file that names it if nobody else does. So a file can override the environment, if it is not by a
parameter of its own but by the name of a profile that has it.

Main statement: a parameter has what the environment gives just if the profile that the files choose
does not give something else.
-/

namespace LinkOverride

/-- What a profile gives for a parameter. An interface that is empty is none. -/
def Profile.gives? (p : Profile) : Settings.Parameter → Option String
  | .iface => if p.iface = "" then none else some p.iface
  | .address => some p.address

namespace Settings

/-- The variable that gives a parameter. -/
def Parameter.envName : Parameter → String
  | .iface => "IFACE"
  | .address => "ADDRESS"

theorem get_withProfile (s : Settings) (p : Profile) (param : Parameter) :
    (s.withProfile p).get param = (p.gives? param).getD (s.get param) := by
  cases param with
  | iface =>
    rw [get, get, withProfile, Profile.gives?]
    split
    · rfl
    · rfl
  | address => rfl

namespace Layer

/-- The last value that is given for a parameter. -/
def gives? (l : Layer) : Parameter → Option String
  | .iface => l.ifaces.getLast?
  | .address => l.addresses.getLast?

/-- The last definition of a profile. -/
def profile? (l : Layer) (name : String) : Option Profile := Keyed.find? l.definitions.reverse name

/-- The profile that is named last as the default profile. -/
def chosen? (l : Layer) : Option Profile :=
  (l.defaultProfiles.getLast?.bind nameIn?).bind l.profile?

end Layer

theorem get_resolved (env : Keyed String) (l : Layer) (files : List String) (param : Parameter) :
    (resolved env l files).get param =
      (textOf? env param.envName <|> l.gives? param).getD (initial.get param) := by
  cases param with
  | iface => rfl
  | address => rfl

theorem applyProfile?_resolved (env : Keyed String) (l : Layer) (files : List String)
    (name : String) :
    (resolved env l files).applyProfile? name =
      (l.profile? name).map (resolved env l files).withProfile := by
  rw [applyProfile?, Layer.profile?, ← Keyed.find?_insertAll, Keyed.insertAll_eq]
  rfl

/-- **The order in which sources count**: the profile, the environment, the files, the default. -/
theorem get_underProfile (asked : Option String) (m : Machine) (param : Parameter) :
    (underProfile asked (loadedSettings m)).get param =
      (((wantedName? asked (loadedSettings m)).bind
          (givenBy m (searchPaths m.host)).profile?).bind (·.gives? param) <|>
        textOf? m.host.env param.envName <|>
        (givenBy m (searchPaths m.host)).gives? param).getD (initial.get param) := by
  rw [underProfile]
  cases wantedName? asked (loadedSettings m) with
  | none => exact get_resolved _ _ _ param
  | some name =>
    rw [Option.bind_some, Option.bind_some, loadedSettings, beforeProfile, applyProfile?_resolved]
    cases (givenBy m (searchPaths m.host)).profile? name with
    | none => exact get_resolved _ _ _ param
    | some p =>
      rw [Option.map_some, Option.getD_some, get_withProfile, get_resolved, Option.bind_some]
      cases p.gives? param with
      | none => rfl
      | some v => rfl

/-- If nobody names a profile, the files choose one. -/
theorem wantedName?_resolved {env : Keyed String} (h : textOf? env "PROFILE" = none) (l : Layer)
    (files : List String) :
    wantedName? none (resolved env l files) = l.defaultProfiles.getLast?.bind nameIn? := by
  have hname : (resolved env l files).defaultProfile = l.defaultProfiles.getLast?.getD .null := by
    rw [resolved, h]
    rfl
  rw [wantedName?, hname]
  cases l.defaultProfiles.getLast? with
  | none => rfl
  | some v => rfl

/-- **The environment overrides the files**, unless they choose a profile that gives something else.
Then it is the profile that counts. -/
theorem load_under_environment {m m' : Machine} {s : Settings} {param : Parameter} {a : String}
    (hparam : textOf? m.host.env param.envName = some a)
    (hprofile : textOf? m.host.env "PROFILE" = none) (h : load none m = (.ok s, m')) :
    s.get param =
        ((givenBy m (searchPaths m.host)).chosen?.bind (·.gives? param)).getD a ∧
      (s.get param = a ↔
        ∀ v, (givenBy m (searchPaths m.host)).chosen?.bind (·.gives? param) = some v → v = a) := by
  have hget : s.get param =
      ((givenBy m (searchPaths m.host)).chosen?.bind (·.gives? param)).getD a := by
    rw [(load_eq_ok h).1, get_underProfile, loadedSettings, beforeProfile,
      wantedName?_resolved hprofile, hparam, Layer.chosen?]
    generalize Option.bind (Option.bind _ _) _ = o
    cases o with
    | none => rfl
    | some v => rfl
  refine ⟨hget, ?_⟩
  rw [hget]
  cases (givenBy m (searchPaths m.host)).chosen?.bind (·.gives? param) with
  | none => simp
  | some v => simp

/-- The file gives another address and defines a profile, but it does not choose it. -/
def holdingUnchosen : Machine :=
  holding [("MAC_CHANGER_ADDRESS", "02:00:00:00:00:05")] <|
    "[defaults]\naddress = '0-1-2-3-4-5'\n[profiles.cafe]\niface = 'wlan0'\n"

theorem load_under_environment_holdingUnchosen :
    ∃ s m', load none holdingUnchosen = (.ok s, m') ∧ s.get .address = "02:00:00:00:00:05" := by
  have hloads : (load none holdingUnchosen).1.isOk = true := by decide +kernel
  have hchosen : (givenBy holdingUnchosen (searchPaths holdingUnchosen.host)).chosen? = none := by
    decide +kernel
  rcases hload : load none holdingUnchosen with ⟨e | s, m'⟩
  · rw [hload] at hloads
    exact absurd hloads (by simp [Except.isOk, Except.toBool])
  · refine ⟨s, m', rfl, (load_under_environment rfl rfl hload).2.2 ?_⟩
    rw [hchosen]
    exact fun v hv => absurd hv (by simp)

/-- The file chooses a profile without an address, and that is enough to bring back the default. -/
theorem load_overrides_environment :
    (load none (holding [("MAC_CHANGER_ADDRESS", "02:00:00:00:00:05")]
      "default_profile = 'cafe'\n[profiles.cafe]\niface = 'wlan0'\n")).1.toOption.map
        (fun s => (s.iface, s.address)) = some ("wlan0", "<random mac>") := by
  decide +kernel

end Settings

end LinkOverride
