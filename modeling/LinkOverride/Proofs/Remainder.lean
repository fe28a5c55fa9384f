import LinkOverride.Proofs.InOrder
import LinkOverride.Proofs.Layers

/-!
# What a failing document leaves

A document that fails in the middle has already given what stands before the failure. The name of
the default profile and the sources come last, so they are never touched; all else is untouched just
if nothing is given before the first value that cannot be read. Reading the time limit in advance
sees to that for a limit that cannot be read, and for nothing more.
-/

namespace LinkOverride.Settings

/-! ## Layers that change nothing -/

/-- A last value that is always the default is no value. -/
theorem eq_nil_of_getLast?_getD {α : Type} {xs : List α} {a b : α} (hne : a ≠ b)
    (h : ∀ d, xs.getLast?.getD d = d) : xs = [] := by
  cases hlast : xs.getLast? with
  | none => exact List.getLast?_eq_none_iff.1 hlast
  | some x =>
    rw [hlast] at h
    exact absurd ((h a).symm.trans (h b)) hne

namespace Layer

theorem append_eq_empty {a b : Layer} : a ++ b = empty ↔ a = empty ∧ b = empty := by
  obtain ⟨a₁, a₂, a₃, a₄, a₅, a₆⟩ := a
  obtain ⟨b₁, b₂, b₃, b₄, b₅, b₆⟩ := b
  simp only [append_def, empty, mk.injEq, List.append_eq_nil_iff]
  tauto

/-- **A layer that changes no settings is empty.** -/
theorem eq_empty_of_cover {l : Layer} (h : ∀ s, l.cover s = s) : l = empty := by
  have htexts : ("" : String) ≠ "eth0" := by decide
  have hvalues : Value.null ≠ .bool true := by simp
  have hifaces : l.ifaces = [] := eq_nil_of_getLast?_getD htexts fun d =>
    congrArg Settings.iface (h { initial with iface := d })
  have haddresses : l.addresses = [] := eq_nil_of_getLast?_getD htexts fun d =>
    congrArg Settings.address (h { initial with address := d })
  have hsudos : l.sudos = [] := eq_nil_of_getLast?_getD Bool.false_ne_true fun d =>
    congrArg Settings.withSudo (h { initial with withSudo := d })
  have htimeouts : l.timeouts = [] := eq_nil_of_getLast?_getD hvalues fun d =>
    congrArg Settings.timeout (h { initial with timeout := d })
  have hnames : l.defaultProfiles = [] := eq_nil_of_getLast?_getD hvalues fun d =>
    congrArg Settings.defaultProfile (h { initial with defaultProfile := d })
  have hdefinitions : l.definitions = [] :=
    Keyed.eq_nil_of_insertAll (congrArg Settings.profiles (h initial))
  obtain ⟨_, _, _, _, _, _⟩ := l
  subst hifaces haddresses hsudos htimeouts hnames hdefinitions
  rfl

end Layer

/-! ## Failing at once -/

/-- The first value that cannot be read comes before anything is given. -/
inductive FailsAtOnce : List (Except Failure Layer) → Prop
  | here (e : Failure) (rs : List (Except Failure Layer)) : FailsAtOnce (.error e :: rs)
  | later {rs : List (Except Failure Layer)} : FailsAtOnce rs → FailsAtOnce (.ok .empty :: rs)

theorem failsAtOnce_iff {rs : List (Except Failure Layer)} :
    FailsAtOnce rs ↔ (∃ e, (gather rs).2 = some e) ∧ (gather rs).1 = .empty := by
  constructor
  · intro h
    induction h with
    | here e rs => exact ⟨⟨e, rfl⟩, rfl⟩
    | later _ ih => exact ih
  · intro h
    induction rs with
    | nil =>
      obtain ⟨⟨e, he⟩, -⟩ := h
      exact absurd he (by simp [gather])
    | cons r rs ih =>
      cases r with
      | error e => exact .here e rs
      | ok l =>
        obtain ⟨hfails, hempty⟩ := h
        obtain ⟨rfl, hrest⟩ := Layer.append_eq_empty.1 hempty
        exact .later (ih ⟨hfails, hrest⟩)

/-! ## What comes last -/

theorem defaultProfiles_of_defaultsSteps {part : Value} {l : Layer}
    (h : .ok l ∈ defaultsSteps part) : l.defaultProfiles = [] := by
  rw [defaultsSteps_eq, List.mem_append, List.mem_singleton] at h
  rcases h with hbefore | hlimit
  · exact Layer.separate_defaultProfiles.of_stepsBeforeLimit hbefore
  · apply Layer.separate_defaultProfiles.of_offer _ hlimit.symm
    intro v hv
    obtain ⟨t, -, rfl⟩ := map_eq_ok_iff.1 hv
    rfl

/-- A document that fails has not come to the name of the default profile. -/
theorem gather_steps_defaultProfiles {doc : Entries} {e : Failure}
    (h : (gather (steps doc)).2 = some e) : (gather (steps doc)).1.defaultProfiles = [] := by
  rw [steps, gather_append] at h ⊢
  cases hparts : (gather (defaultsSteps ((doc.find? "defaults").getD (.table [])) ++
      profileSteps ((doc.find? "profiles").getD (.table [])))).2 with
  | none =>
    rw [hparts] at h
    exact absurd h (by simp [gather])
  | some e' =>
    apply Layer.separate_defaultProfiles.of_gather
    intro l hl
    rcases List.mem_append.1 hl with hdefaults | hprofiles
    · exact defaultProfiles_of_defaultsSteps hdefaults
    · exact Layer.separate_defaultProfiles.of_profileSteps hprofiles

/-! ## Untouched settings -/

/-- Merging fails on what stands before the first failure. -/
theorem merge_eq_error_iff {doc : Entries} {source : String} {s t : Settings} {e : Failure} :
    merge doc source s = (.error e, t) ↔
      (gather (steps doc)).2 = some e ∧ (gather (steps doc)).1.cover s = t := by
  rw [merge_apply]
  rcases gather (steps doc) with ⟨l, _ | e'⟩
  · simp
  · simp

/-- **A document that fails.** It never changes the name of the default profile or the sources. It
changes nothing at all, whatever the settings are, just if the first value that cannot be read comes
before anything is given. -/
theorem merge_untouched_iff (doc : Entries) (source : String) :
    (∀ s t e, merge doc source s = (.error e, t) →
        t.defaultProfile = s.defaultProfile ∧ t.sources = s.sources) ∧
      ((∀ s t e, merge doc source s = (.error e, t) → t = s) ↔
        (∀ e, .error e ∉ steps doc) ∨ FailsAtOnce (steps doc)) := by
  refine ⟨?_, ?_, ?_⟩
  · intro s t e h
    obtain ⟨hfails, rfl⟩ := merge_eq_error_iff.1 h
    refine ⟨?_, rfl⟩
    show (gather (steps doc)).1.defaultProfiles.getLast?.getD s.defaultProfile = s.defaultProfile
    rw [gather_steps_defaultProfiles hfails]
    rfl
  · intro h
    cases hfails : (gather (steps doc)).2 with
    | none => exact .inl (gather_eq_none_iff.1 hfails)
    | some e =>
      have hempty : (gather (steps doc)).1 = .empty :=
        Layer.eq_empty_of_cover fun s => h s _ e (merge_eq_error_iff.2 ⟨hfails, rfl⟩)
      exact .inr (failsAtOnce_iff.2 ⟨⟨e, hfails⟩, hempty⟩)
  · intro h s t e hmerge
    obtain ⟨hfails, rfl⟩ := merge_eq_error_iff.1 hmerge
    rcases h with hnone | honce
    · exact absurd (mem_of_gather hfails) (hnone e)
    · rw [(failsAtOnce_iff.1 honce).2, Layer.empty_cover]

/-- The interface is taken over before the profiles turn out to be no table. -/
theorem merge_keeps_iface :
    ∃ t, merge [("defaults", .table [("iface", .str "eth1")]), ("profiles", .int 1)] "lab.toml"
        initial = (.error .profilesNotTable, t) ∧ t.iface ≠ initial.iface :=
  ⟨{ initial with iface := "eth1" }, rfl, by decide⟩

end LinkOverride.Settings
