import LinkOverride.Proofs.Resolution

/-!
# The sudo switch as a text

A document and the environment can both say whether commands are run with sudo. The environment only
has texts, and a document can have a text too. But each reads a text in its own way: for a document
every text but the empty one switches sudo on, for the environment three words do and every other text
switches it off.

Main statement: a text means the same in both just if it is empty or one of the three words. So if the
two differ, sudo is off in the environment and on in the document.
-/

namespace LinkOverride.Settings

/-- A merge that ends well leaves sudo as the document says, or as it was. -/
theorem withSudo_of_merge {doc : Entries} {source : String} {s s' : Settings}
    (h : merge doc source s = (.ok (), s')) :
    s'.withSudo = ((inDefaults? doc "sudo").map Value.isTruthy).getD s.withSudo := by
  have hall := @gather_steps doc
  rw [merge_apply] at h
  rcases hgather : gather (steps doc) with ⟨l, _ | e⟩
  · rw [hgather] at h hall
    have hl : l = .ofDocument doc := hall rfl
    rw [← (Prod.mk.inj h).2, hl]
    dsimp only [Layer.cover, Layer.ofDocument]
    cases inDefaults? doc "sudo" with
    | none => rfl
    | some v => rfl
  · rw [hgather] at h
    exact absurd h (by simp)

theorem withSudo_underEnvironment (env : Keyed String) (s : Settings) :
    (underEnvironment env s).1.withSudo = (sudoOf? env).getD s.withSudo := by
  rw [underEnvironment_eq]
  dsimp only [put, Layer.cover, Layer.ofEnvironment]
  cases sudoOf? env with
  | none => rfl
  | some b => rfl

/-- A document that gives one default, as a text. -/
def oneDefault (key text : String) : Entries := [("defaults", .table [(key, .str text)])]

/-- Sudo may be any text: a document with nothing else is merged. -/
theorem merge_oneDefault_sudo (t source : String) (s : Settings) :
    ∃ s', merge (oneDefault "sudo" t) source s = (.ok (), s') := by
  have hdone : (merge (oneDefault "sudo" t) source s).1 = .ok () := by
    rw [merge_apply]
    rfl
  exact ⟨_, Prod.ext hdone rfl⟩

theorem isYes_iff {t : String} : isYes t = true ↔ Text.lower t ∈ ["1", "true", "yes"] := by
  rw [isYes]
  exact List.contains_iff_mem

theorem ne_empty_of_isYes {t : String} (h : isYes t = true) : t ≠ "" := by
  rintro rfl
  exact absurd h (by decide)

/-- What a text means, in any document that is merged and in the environment. -/
theorem withSudo_of_text {env : Keyed String} {doc : Entries} {t source : String} {s s' : Settings}
    (henv : env.find? (variableName "SUDO") = some t) (hdoc : inDefaults? doc "sudo" = some (.str t))
    (h : merge doc source s = (.ok (), s')) :
    (s'.withSudo = true ↔ t ≠ "") ∧
      ((underEnvironment env s).1.withSudo = true ↔ Text.lower t ∈ ["1", "true", "yes"]) := by
  constructor
  · rw [withSudo_of_merge h, hdoc, Option.map_some, Option.getD_some, Value.isTruthy_str]
    simp
  · rw [withSudo_underEnvironment, sudoOf?, henv, Option.map_some, Option.getD_some, isYes_iff]

/-- **When a text means the same in both**: if it is empty or one of the three words. In every other
case the environment switches sudo off and the document switches it on, never the other way round. -/
theorem sudo_text_agrees_iff {env : Keyed String} {t : String}
    (h : env.find? (variableName "SUDO") = some t) (source : String) (s : Settings) :
    ∃ s', merge (oneDefault "sudo" t) source s = (.ok (), s') ∧
      (s'.withSudo = true ↔ t ≠ "") ∧
      ((underEnvironment env s).1.withSudo = true ↔ Text.lower t ∈ ["1", "true", "yes"]) ∧
      (s'.withSudo = (underEnvironment env s).1.withSudo ↔
        t = "" ∨ Text.lower t ∈ ["1", "true", "yes"]) ∧
      (s'.withSudo ≠ (underEnvironment env s).1.withSudo →
        s'.withSudo = true ∧ (underEnvironment env s).1.withSudo = false) := by
  obtain ⟨s', hmerge⟩ := merge_oneDefault_sudo t source s
  obtain ⟨hdoc, henv⟩ := withSudo_of_text h rfl hmerge
  -- What the environment switches on, the document switches on, as none of the words is empty.
  have hword : Text.lower t ∈ ["1", "true", "yes"] → t ≠ "" :=
    fun hyes => ne_empty_of_isYes (isYes_iff.2 hyes)
  refine ⟨s', hmerge, hdoc, henv, ?_, ?_⟩
  · rw [Bool.eq_iff_iff, hdoc, henv]
    constructor
    · exact fun hsame => or_iff_not_imp_left.2 hsame.1
    · rintro (hempty | hyes)
      · exact iff_of_false (not_not_intro hempty) fun hyes => hword hyes hempty
      · exact iff_of_true (hword hyes) hyes
  · intro hdiffers
    have hoff : (underEnvironment env s).1.withSudo = false := by
      refine Bool.eq_false_iff.2 fun hon => hdiffers ?_
      rw [hon, hdoc.2 (hword (henv.1 hon))]
    rw [hoff] at hdiffers
    exact ⟨Bool.ne_false_iff.1 hdiffers, hoff⟩

theorem sudo_text_agrees_iff_yes :
    ∃ s', merge (oneDefault "sudo" "Yes") "lab.toml" initial = (.ok (), s') ∧
      s'.withSudo = (underEnvironment [("MAC_CHANGER_SUDO", "Yes")] initial).1.withSudo := by
  obtain ⟨s', hmerge, -, -, hagrees, -⟩ :=
    @sudo_text_agrees_iff [("MAC_CHANGER_SUDO", "Yes")] "Yes" (by decide) "lab.toml" initial
  exact ⟨s', hmerge, hagrees.2 (.inr (by decide))⟩

/-- The word that switches sudo off in the environment leaves it on in a document. -/
theorem sudo_false_differs :
    (merge (oneDefault "sudo" "false") "lab.toml" initial).2.withSudo = true ∧
      (underEnvironment [("MAC_CHANGER_SUDO", "false")] initial).1.withSudo = false := by
  decide +kernel

end LinkOverride.Settings
