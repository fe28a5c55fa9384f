import LinkOverride.Proofs.LongOption

/-!
# The profile on the command line

The settings are loaded before the options are read, so the words are looked through for a profile
beforehand. That look is simpler than the reading of options. It knows one spelling only, and takes
whatever stands behind its first occurrence; but an option may be shortened, may have its word
attached, and may be given again.

`profilesGiven` says which profiles the words give, by their spelling alone. If the options are
accepted, the last of these is the profile in force. So the two agree exactly if no profile is given,
or the name behind the first full spelling is the last that is given.
-/

namespace LinkOverride

/-! ## The last profile given -/

/-- The profiles that the words give, the attached names and those behind the option. -/
def profilesGiven (words : List String) : List Value :=
  (LongOption.profile.wordsGiven words).map CommandLine.wordValue

theorem ne_null_of_mem_profilesGiven {words : List String} {v : Value}
    (h : v ∈ profilesGiven words) : v ≠ .null := by
  rw [profilesGiven] at h
  obtain ⟨w, -, rfl⟩ := List.mem_map.1 h
  rw [CommandLine.wordValue]
  split
  · simp
  · simp

/-- **The profile of the options** is the last that the words give. -/
theorem CommandLine.profile_of_parse {s : Settings} {words : List String} {o : Options}
    (h : parse s words = .accepted o) :
    o.profile = (profilesGiven words).getLast?.getD .null := by
  have hputs := puts_of_parse (l := .profile) h nofun
  rw [LongOption.Puts] at hputs
  rw [profilesGiven, List.getLast?_map]
  split at hputs
  · next hlast =>
    rw [hlast]
    exact hputs
  · next w hlast =>
    rw [hlast]
    exact (Except.ok.inj hputs).symm

/-! ## Looking for a profile beforehand -/

namespace Program

open Step

theorem askedProfile_eq (words : List String) :
    askedProfile words = Link.wordAfter? "--profile" words := by
  induction words with
  | nil => rfl
  | cons w ws ih => rw [askedProfile, Link.wordAfter?, ih]

theorem askedProfile_eq_some {words : List String} {name : String} :
    askedProfile words = some name ↔
      ∃ front back, words = front ++ "--profile" :: name :: back ∧ "--profile" ∉ front := by
  rw [askedProfile_eq, Link.wordAfter?_eq_some]
  simp only [and_comm]

/-- What is found beforehand is given, by one spelling or another. -/
theorem profilesGiven_ne_nil {words : List String} {name : String}
    (h : askedProfile words = some name) : profilesGiven words ≠ [] := by
  rw [profilesGiven, Ne, List.map_eq_nil_iff]
  induction words with
  | nil => exact absurd h (by simp [askedProfile])
  | cons w ws ih =>
    cases hgives : LongOption.profile.given? w with
    | none =>
      have hw : w ≠ "--profile" := by
        rintro rfl
        exact absurd hgives (by decide)
      rw [askedProfile, if_neg hw] at h
      rw [LongOption.wordsGiven_of_none ws hgives]
      exact ih h
    | some a =>
      cases a with
      | some a =>
        rw [LongOption.wordsGiven_attached ws hgives]
        exact List.cons_ne_nil _ _
      | none =>
        cases ws with
        | nil =>
          rw [askedProfile] at h
          split at h
          · exact absurd h (by simp)
          · exact absurd h (by simp [askedProfile])
        | cons name' ws =>
          rw [LongOption.wordsGiven_behind ws name' hgives]
          exact List.cons_ne_nil _ _

/-- The value of the option for a name that is asked for. -/
def profileValue : Option String → Value
  | none => .null
  | some name => .str name

/-- What `loadSettings` yields is loaded under the profile found beforehand. -/
theorem load_of_loadSettings {words : List String} {m m' : Machine} {s : Settings}
    (h : loadSettings words m = (.ok s, m')) :
    ∃ m₁, Settings.load (askedProfile words) m = (.ok s, m₁) := by
  obtain ⟨s', m₁, hload, h⟩ := bind_eq_ok h
  have hpure : ∀ {t t' : Machine}, (pure s' : Step Machine Settings) t = (.ok s, t') → s' = s :=
    fun hp => Except.ok.inj (Prod.mk.inj hp).1
  have hs : s' = s := by
    dsimp only at h
    cases hasked : askedProfile words with
    | none =>
      rw [hasked] at h
      exact hpure h
    | some name =>
      rw [hasked] at h
      dsimp only at h
      by_cases hmissing : name ≠ "" ∧ s'.profiles.holds name = false
      · rw [if_pos hmissing] at h
        obtain ⟨u, m₂, -, h⟩ := bind_eq_ok h
        obtain ⟨u', m₃, -, h⟩ := bind_eq_ok h
        exact hpure h
      · rw [if_neg hmissing] at h
        exact hpure h
  exact ⟨m₁, hs ▸ hload⟩

/-- What is found beforehand is the last profile given exactly if none is given, or the name behind
the first full spelling is the last. -/
theorem profileValue_eq_iff {words : List String} :
    profileValue (askedProfile words) = (profilesGiven words).getLast?.getD .null ↔
      profilesGiven words = [] ∨
        ∃ front name back, words = front ++ "--profile" :: name :: back ∧
          "--profile" ∉ front ∧ (profilesGiven words).getLast? = some (.str name) := by
  cases hasked : askedProfile words with
  | none =>
    constructor
    · intro h
      refine .inl (List.getLast?_eq_none_iff.1 ?_)
      cases hlast : (profilesGiven words).getLast? with
      | none => rfl
      | some v =>
        rw [hlast] at h
        exact absurd h.symm (ne_null_of_mem_profilesGiven (List.mem_of_getLast? hlast))
    · rintro (hnone | ⟨front, name, back, hsplit, hfront, -⟩)
      · rw [hnone]
        rfl
      · rw [askedProfile_eq_some.2 ⟨front, back, hsplit, hfront⟩] at hasked
        exact nomatch hasked
  | some name =>
    obtain ⟨front, back, hsplit, hfront⟩ := askedProfile_eq_some.1 hasked
    constructor
    · intro h
      refine .inr ⟨front, name, back, hsplit, hfront, ?_⟩
      cases hlast : (profilesGiven words).getLast? with
      | none =>
        rw [hlast] at h
        exact absurd h (by simp [profileValue])
      | some v =>
        rw [hlast] at h
        rw [← show Value.str name = v from h]
    · rintro (hnone | ⟨front', name', back', hsplit', hfront', hlast⟩)
      · exact absurd hnone (profilesGiven_ne_nil hasked)
      · rw [askedProfile_eq_some.2 ⟨front', back', hsplit', hfront'⟩] at hasked
        rw [hlast, Option.some.inj hasked]
        rfl

/-- **The profile in force and the profile loaded.** The settings are loaded under the name behind
the first full spelling of the option, and the options are read over them. The profile in force is
the last that is given. The two are the same exactly if none is given, or the name behind the first
full spelling is the last given. -/
theorem askedProfile_eq_iff {words : List String} {m m₁ : Machine} {s : Settings} {o : Options}
    (hload : loadSettings words m = (.ok s, m₁)) (hparse : CommandLine.parse s words = .accepted o) :
    (∃ m₀, Settings.load (askedProfile words) m = (.ok s, m₀)) ∧
      o.profile = (profilesGiven words).getLast?.getD .null ∧
      (profileValue (askedProfile words) = o.profile ↔
        profilesGiven words = [] ∨
          ∃ front name back, words = front ++ "--profile" :: name :: back ∧
            "--profile" ∉ front ∧ (profilesGiven words).getLast? = some (.str name)) ∧
      ∀ v on m₂, work s o m₁ = (.ok (.session v on), m₂) →
        ∃ iface address, o.iface = .str iface ∧ o.address = .str address ∧
          v.settings = inForce s o iface address := by
  have hprofile := CommandLine.profile_of_parse hparse
  refine ⟨load_of_loadSettings hload, hprofile, ?_, ?_⟩
  · rw [hprofile, profileValue_eq_iff]
  · intro v on m₂ hwork
    obtain ⟨p, iface, -, hiface, -, hbegin⟩ := session_of_work hwork
    obtain ⟨address, m₃, haddress, -, -, hv, -⟩ := session_of_beginSession hbegin
    exact ⟨iface, address, hiface, haddress, by rw [hv]; rfl⟩

/-- An attached name is in force, and is not found beforehand. -/
theorem attached_profile_not_asked :
    ∃ s m₁ o, loadSettings ["--profile=lab"] quitting = (.ok s, m₁) ∧
      CommandLine.parse s ["--profile=lab"] = .accepted o ∧ o.profile = .str "lab" ∧
      profileValue (askedProfile ["--profile=lab"]) ≠ o.profile := by
  have hload : loadSettings ["--profile=lab"] quitting = (.ok .initial, quitting) := rfl
  refine ⟨_, _, _, hload, rfl, rfl, ?_⟩
  intro h
  exact nomatch h

/-- A name behind the option is found beforehand, and is in force. -/
theorem askedProfile_eq_behind :
    ∃ s m₁ o, loadSettings ["-v", "--profile", "lab"] quitting = (.ok s, m₁) ∧
      CommandLine.parse s ["-v", "--profile", "lab"] = .accepted o ∧
      profileValue (askedProfile ["-v", "--profile", "lab"]) = o.profile := by
  have hload : loadSettings ["-v", "--profile", "lab"] quitting =
      (.ok .initial, (loadSettings ["-v", "--profile", "lab"] quitting).2) := rfl
  obtain ⟨o, hparse⟩ : ∃ o, CommandLine.parse .initial ["-v", "--profile", "lab"] = .accepted o :=
    ⟨_, rfl⟩
  obtain ⟨-, -, hiff, -⟩ := askedProfile_eq_iff hload hparse
  exact ⟨_, _, o, hload, hparse, hiff.2 (.inr ⟨["-v"], "lab", [], rfl, by decide, rfl⟩)⟩

end Program

end LinkOverride
