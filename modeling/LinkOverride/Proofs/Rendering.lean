import LinkOverride.Proofs.Remainder
import LinkOverride.Proofs.TimeLimit

/-!
# What can be shown of the settings

The settings are shown in two tables with lines around them, and a cell of a table holds a text and
nothing else. What is loaded for the interface, the address and the profiles is made a text at once,
and a time limit that is loaded always has one. The default profile is kept as the document gives it,
whatever kind of value that is.

Main statement: settings that are loaded can be shown just if their default profile is a text or
counts as not given. If so, there is a line for each source and for each place that is searched, and
a row for each profile; if not, everything before the first table is shown and no more.
-/

namespace LinkOverride

/-- A text, or a value that counts as not given and is not shown at all. -/
def Value.Showable (v : Value) : Prop := v.isTruthy = true → ∃ t, v = .str t

namespace Display

open Step
open Settings (searchPaths)

variable {v : Value}

/-! ## Cells -/

theorem cell_of_ne_str (h : ¬∃ t, v = .str t) : cell v = .error .notRenderable := by
  cases v with
  | str t => exact absurd ⟨t, rfl⟩ h
  | _ => rfl

theorem defaultProfileRows_of_showable (h : v.Showable) :
    ∃ rows, defaultProfileRows v = .ok rows := by
  rw [defaultProfileRows]
  cases hv : v.isTruthy with
  | false => exact ⟨[], rfl⟩
  | true =>
    obtain ⟨t, rfl⟩ := h hv
    exact ⟨_, rfl⟩

theorem defaultProfileRows_of_not_showable (h : ¬v.Showable) :
    defaultProfileRows v = .error .notRenderable := by
  obtain ⟨hv, hstr⟩ := Classical.not_imp.1 h
  rw [defaultProfileRows, if_pos hv, cell_of_ne_str hstr]
  rfl

theorem cellOrDash_str (t : String) : cellOrDash (.str t) = .ok (orDash t) := by
  rw [cellOrDash, orDash, Value.isTruthy_str]
  by_cases ht : t = ""
  · rw [ht]
    rfl
  · rw [if_pos (by simpa using ht), if_neg ht]
    rfl

/-- A time limit has a text. -/
theorem timeoutText_of_isLimit (h : v.IsLimit) : ∃ t, timeoutText v = .ok t := by
  cases h with
  | unlimited => exact ⟨"none", rfl⟩
  | missing => exact ⟨"none", rfl⟩
  | seconds f =>
    rw [timeoutText]
    split
    · exact ⟨_, Value.text_of_text?_eq_some (Value.text?_float f)⟩
    · exact ⟨"none", rfl⟩

theorem settingsRows_of_limit {s : Settings} {limit : String}
    (h : timeoutText s.timeout = .ok limit) :
    settingsRows (.str s.iface) (.str s.address) s =
      (defaultProfileRows s.defaultProfile).map fun rows =>
        [ [Settings.Parameter.name .iface, orDash s.iface],
          [Settings.Parameter.name .address, s.address],
          ["sudo", if s.withSudo then "True" else "False"],
          ["timeout", limit] ] ++ rows := by
  rw [settingsRows, cellOrDash_str, h]
  cases defaultProfileRows s.defaultProfile with
  | error e => rfl
  | ok rows => rfl

/-! ## The page -/

/-- A line of text. -/
def line (s : String) : Event := .shown [.text s]

/-- What stands before the settings: a line for each source, or one that says that there is none, and
a line for each place that is searched. -/
def front (m : Machine) (s : Settings) : List Event :=
  [line "[bold cyan]Configuration Sources[/bold cyan]"] ++
    (if s.sources.isEmpty then
      [line "  [dim]No config files found (using built-in defaults)[/dim]"]
    else s.sources.map fun source => line ("  [green][OK][/green] " ++ source)) ++
    [.shown [], line "[bold cyan]Config Search Paths[/bold cyan]"] ++
    (searchPaths m.host).map (fun p => line (pathLine m p)) ++
    [.shown [], line "[bold cyan]Current Settings[/bold cyan]"]

def settingsGrid (rows : List (List String)) : Event :=
  .shown [.grid ⟨true, [("Setting", "cyan"), ("Value", "white")], rows⟩]

/-- What stands behind the settings, if there are profiles. -/
def back (rows : List (List String)) : List Event :=
  if rows.isEmpty then []
  else
    [ .shown [], line "[bold cyan]Available Profiles[/bold cyan]",
      .shown [.grid ⟨true, [("Profile", "cyan"), ("Interface", "white"), ("Address", "white"),
        ("Description", "dim")], rows⟩],
      line "[dim]* = default profile[/dim]" ]

/-- The row of a profile. The one that is named as the default has a mark behind its name. -/
inductive RowOf (default : Value) (e : String × Profile) : List String → Prop
  | marked (h : default = .str e.1) :
      RowOf default e
        [e.1 ++ " [yellow]*[/yellow]", orDash e.2.iface, e.2.address, e.2.description]
  | plain (h : default ≠ .str e.1) :
      RowOf default e [e.1, orDash e.2.iface, e.2.address, e.2.description]

theorem rowOf_profileRow (s : Settings) (e : String × Profile) :
    RowOf s.defaultProfile e (profileRow s e) := by
  rw [profileRow]
  cases hdefault : s.defaultProfile.isText e.1 with
  | true => exact .marked (Value.isText_iff.1 hdefault)
  | false =>
    rw [if_neg Bool.false_ne_true, String.append_empty]
    exact .plain fun heq => Bool.eq_false_iff.1 hdefault (Value.isText_iff.2 heq)

theorem rowsOf_profiles (s : Settings) :
    List.Forall₂ (RowOf s.defaultProfile) s.profiles (profiles s).rows :=
  List.forall₂_map_right_iff.2 (List.forall₂_same.2 fun e _ => rowOf_profileRow s e)

theorem showLines_apply (ls : List String) (m : Machine) :
    showLines ls m = (.ok (), m.recordAll (ls.map line)) := by
  induction ls generalizing m with
  | nil => exact Prod.ext rfl (Machine.recordAll_nil m).symm
  | cons l ls ih =>
    have hline : Machine.showText l m = (.ok (), m.recordAll [line l]) := rfl
    rw [showLines, bind_ok hline, ih, ← Machine.recordAll_append]
    rfl

theorem display_apply (items : List Shown) (m : Machine) :
    Machine.display items m = (.ok (), m.recordAll [.shown items]) := rfl

theorem front_eq (m : Machine) (s : Settings) :
    front m s = [line "[bold cyan]Configuration Sources[/bold cyan]"] ++
      (sourceLines s).map line ++ [.shown []] ++
      [line "[bold cyan]Config Search Paths[/bold cyan]"] ++
      ((searchPaths m.host).map (pathLine m)).map line ++ [.shown []] ++
      [line "[bold cyan]Current Settings[/bold cyan]"] := by
  rw [front, sourceLines, List.map_map]
  split
  · rfl
  · rw [List.map_map]
    simp only [List.append_assoc]
    rfl

/-- The table of profiles is shown if there are any. -/
theorem back_apply (s : Settings) (m : Machine) :
    (if s.profiles.isEmpty then pure () else do
      blankLine
      Machine.showText "[bold cyan]Available Profiles[/bold cyan]"
      Machine.showGrid (profiles s)
      Machine.showText "[dim]* = default profile[/dim]" : Step Machine Unit) m =
      (.ok (), m.recordAll (back (profiles s).rows)) := by
  have hrows : (profiles s).rows.isEmpty = s.profiles.isEmpty := List.isEmpty_map
  rw [back, hrows]
  cases s.profiles.isEmpty with
  | true => exact Prod.ext rfl (Machine.recordAll_nil m).symm
  | false =>
    rw [if_neg Bool.false_ne_true, if_neg Bool.false_ne_true, blankLine,
      bind_ok (display_apply _ _), Machine.showText, bind_ok (display_apply _ _),
      Machine.showGrid, bind_ok (display_apply _ _), Machine.showText, display_apply]
    simp only [← Machine.recordAll_append]
    rfl

/-- **To show the configuration** is to show one thing after the other, until a cell cannot hold what
it should. -/
theorem configuration_apply (iface address : Value) (s : Settings) (m : Machine) :
    configuration iface address s m =
      match settingsRows iface address s with
      | .ok rows =>
        (.ok (), m.recordAll (front m s ++ [settingsGrid rows] ++ back (profiles s).rows))
      | .error e => (.error e, m.recordAll (front m s)) := by
  rw [configuration, bind_ok (current_apply m), front_eq, Machine.showText,
    bind_ok (display_apply _ _), bind_ok (showLines_apply _ _), blankLine,
    bind_ok (display_apply _ _), Machine.showText, bind_ok (display_apply _ _),
    bind_ok (showLines_apply _ _), bind_ok (display_apply _ _), Machine.showText,
    bind_ok (display_apply _ _)]
  simp only [← Machine.recordAll_append]
  cases settingsRows iface address s with
  | error e => rfl
  | ok rows =>
    rw [bind_ok (ofExcept_apply _ _), Machine.showGrid, bind_ok (display_apply _ _)]
    dsimp only
    rw [Machine.recordAll_append _ (back _), Machine.recordAll_append _ [settingsGrid rows]]
    exact back_apply s _

end Display

/-! ## Settings that are loaded -/

namespace Settings

/-- A file that fails gives no default profile. -/
theorem defaultProfiles_of_failed {m : Machine} {p : Path} {l : Layer} {e : Failure}
    (h : foundAt m p = .failed l e) : l.defaultProfiles = [] := by
  rw [foundAt] at h
  split at h
  · cases hdoc : documentIn (Machine.readText p m).1 with
    | error e' =>
      rw [hdoc] at h
      rw [← (Found.failed.inj h).1]
      rfl
    | ok doc =>
      rw [hdoc, foundIn_ok_eq_failed] at h
      have hnone : (gather (steps doc)).1.defaultProfiles = [] :=
        gather_steps_defaultProfiles (by rw [h])
      rwa [h] at hnone
  · exact absurd h (by simp)

/-- The files give the default profiles that the loaded documents name. -/
theorem defaultProfiles_givenBy (m : Machine) (ps : List Path) :
    (givenBy m ps).defaultProfiles =
      (loadedAmong m ps).filterMap fun f => f.2.find? "default_profile" := by
  induction ps with
  | nil => rfl
  | cons p ps ih =>
    rw [loadedAmong_cons, List.filterMap_append, ← ih, givenBy, List.map_cons, Layer.sum_cons,
      loadedAmong, List.filterMap_cons]
    show (foundAt m p).layer.defaultProfiles ++ (givenBy m ps).defaultProfiles = _
    refine congrArg (· ++ (givenBy m ps).defaultProfiles) ?_
    cases hfound : foundAt m p with
    | absent => rfl
    | failed l e => exact defaultProfiles_of_failed hfound
    | loaded doc =>
      show (doc.find? "default_profile").toList = [(p, doc)].filterMap _
      rw [List.filterMap_cons]
      cases Keyed.find? doc "default_profile" with
      | none => rfl
      | some v => rfl

/-- What is given for the default profile: by the environment, or by the last loaded file that gives
one. -/
def givenDefault? (m : Machine) : Option Value :=
  (textOf? m.host.env "PROFILE").map .str <|>
    ((loadedAmong m (searchPaths m.host)).filterMap fun f => f.2.find? "default_profile").getLast?

variable {asked : Option String} {m m' : Machine} {s : Settings}

/-- Applying a profile changes neither the default profile nor what profiles there are. -/
theorem defaultProfile_of_load (h : load asked m = (.ok s, m')) :
    s.defaultProfile = (givenDefault? m).getD .null ∧ (Keyed.keys s.profiles).Nodup := by
  obtain ⟨iface, address, hs⟩ := underProfile_eq asked (loadedSettings m)
  rw [(load_eq_ok h).1, hs, givenDefault?, ← defaultProfiles_givenBy]
  refine ⟨rfl, ?_⟩
  show (Keyed.keys (Keyed.inOrder _)).Nodup
  rw [← Keyed.insertAll_eq]
  exact Keyed.nodup_keys_insertAll _

end Settings

namespace Display

open Settings (givenDefault?)

/-- **Settings that are loaded** can be shown just if what is given for the default profile is a text
or counts as not given. Then there is a line for each source and each place that is searched, and a row
for each profile, in order, with a mark in that of the default profile alone. If not, the table of the
settings cannot be shown, nor what follows it. -/
theorem configuration_of_load {asked : Option String} {m m' : Machine} {s : Settings}
    (h : Settings.load asked m = (.ok s, m')) (n : Machine) :
    s.defaultProfile = (givenDefault? m).getD .null ∧
      ∃ rows, List.Forall₂ (RowOf s.defaultProfile) s.profiles rows ∧
        (Keyed.keys s.profiles).Nodup ∧
        (s.defaultProfile.Showable →
          ∃ settings, settingsRows (.str s.iface) (.str s.address) s = .ok settings ∧
            configuration (.str s.iface) (.str s.address) s n =
              (.ok (), n.recordAll (front n s ++ [settingsGrid settings] ++ back rows))) ∧
        (¬s.defaultProfile.Showable →
          configuration (.str s.iface) (.str s.address) s n =
            (.error .notRenderable, n.recordAll (front n s))) := by
  obtain ⟨hdefault, hnodup⟩ := Settings.defaultProfile_of_load h
  obtain ⟨limit, hlimit⟩ := timeoutText_of_isLimit
    (LimitSource.isLimitOf_of_yields (LimitSource.yields_of_load h)).isLimit
  have hrows := settingsRows_of_limit hlimit
  refine ⟨hdefault, (profiles s).rows, rowsOf_profiles s, hnodup, ?_, ?_⟩
  · intro hshowable
    obtain ⟨profile, hprofile⟩ := defaultProfileRows_of_showable hshowable
    rw [hprofile] at hrows
    refine ⟨_, hrows, ?_⟩
    rw [configuration_apply, hrows]
    rfl
  · intro hnot
    rw [defaultProfileRows_of_not_showable hnot] at hrows
    rw [configuration_apply, hrows]
    rfl

/-- The file names one of its two profiles as the default. -/
def holdingDefault : Machine :=
  Settings.holding [] <|
    "default_profile = 'lab'\n[profiles.cafe]\niface = 'wlan0'\n[profiles.lab]\niface = 'eth1'\n"

theorem configuration_of_load_holdingDefault :
    ∃ s m', Settings.load none holdingDefault = (.ok s, m') ∧
      (configuration (.str s.iface) (.str s.address) s m').1 = .ok () := by
  obtain ⟨s, m', hload, htext⟩ := Settings.exists_of_load none holdingDefault
    (P := fun s _ => s.defaultProfile.isText "lab") (by decide +kernel)
  obtain ⟨-, rows, -, -, hshown, -⟩ := configuration_of_load hload m'
  obtain ⟨settings, -, hdone⟩ := hshown fun _ => ⟨"lab", Value.isText_iff.1 htext⟩
  exact ⟨s, m', hload, by rw [hdone]⟩

/-- The default profile is a number. It is loaded, with a warning that there is no such profile, but
it cannot be shown. -/
theorem number_not_shown :
    ∃ s m', Settings.load none (Settings.holding [] "default_profile = 5\n") = (.ok s, m') ∧
      (configuration (.str s.iface) (.str s.address) s m').1 = .error .notRenderable := by
  obtain ⟨s, m', hload, hfails⟩ := Settings.exists_of_load none
    (Settings.holding [] "default_profile = 5\n")
    (P := fun s m' =>
      decide ((configuration (.str s.iface) (.str s.address) s m').1 = .error .notRenderable))
    (by decide +kernel)
  exact ⟨s, m', hload, of_decide_eq_true hfails⟩

end Display

end LinkOverride
