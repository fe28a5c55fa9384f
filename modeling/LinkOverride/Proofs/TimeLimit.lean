import LinkOverride.Proofs.ProfileOption
import LinkOverride.Proofs.Stopping
import LinkOverride.Proofs.WholeNumber

/-!
# The time limit in force

A limit of zero seconds is to mean that there is no limit. A limit may be given on the command line,
in the environment and in files; the last two are read by `readTimeout`, which turns a number that is
zero, and the text `0`, into no limit. Other texts that write zero stay a number, and so does
whatever the command line gives, which is read in another way.

`LimitSource` is what a limit in force comes from. Every such limit is told by its source, and whether
it is zero is told by the spelling of the source.
-/

namespace LinkOverride

/-! ## Zero -/

/-- The text writes a number that is zero. -/
def WritesZero (s : String) : Prop := ∃ f, Decimal.readFloat? s = some f ∧ (f == 0.0) = true

theorem writesZero_iff {s : String} {f : Float} (h : Decimal.readFloat? s = some f) :
    WritesZero s ↔ (f == 0.0) = true := by
  constructor
  · intro hwrites
    obtain ⟨g, hg, hzero⟩ := hwrites
    rwa [Option.some.inj (h.symm.trans hg)]
  · intro hzero
    exact ⟨f, h, hzero⟩

theorem not_writesZero {s : String} (h : Decimal.readFloat? s = none) : ¬WritesZero s := by
  intro hwrites
  obtain ⟨f, hread, -⟩ := hwrites
  exact absurd (h.symm.trans hread) (by simp)

namespace Value

/-- A number that is zero, or a text that writes one. -/
def IsZero : Value → Prop
  | bool b => b = false
  | int i => i = 0
  | float f => (f == 0.0) = true
  | str s => WritesZero s
  | _ => False

/-- A text that writes zero without being the digit alone. -/
def WritesLongZero (v : Value) : Prop := ∃ s, v = str s ∧ s ≠ "0" ∧ WritesZero s

/-- What a limit in force can be: none, a number, or the list that stands for a missing word. -/
inductive IsLimit : Value → Prop
  | unlimited : IsLimit null
  | seconds (f : Float) : IsLimit (float f)
  | missing : IsLimit (list [])

/-- A limit that is zero just if `kept`. If its source is `zero`, it is none just if not `kept`. -/
structure IsLimitOf (zero kept : Prop) (t : Value) : Prop where
  isLimit : t.IsLimit
  isZero_iff : t.IsZero ↔ kept
  null_iff : zero → (t = null ↔ ¬kept)

section

variable {zero kept : Prop}

theorem isLimitOf_null (h : ¬kept) : IsLimitOf zero kept null :=
  ⟨.unlimited, iff_of_false id h, fun _ => iff_of_true rfl h⟩

theorem isLimitOf_float {f : Float} (hkept : (f == 0.0) = true ↔ kept) (h : zero → kept) :
    IsLimitOf zero kept (float f) :=
  ⟨.seconds f, hkept, fun hzero => iff_of_false (by simp) (not_not_intro (h hzero))⟩

/-- A number that is not zero, nor is its source. -/
theorem isLimitOf_number {f : Float} (hf : (f == 0.0) = false) (hzero : ¬zero) (hkept : ¬kept) :
    IsLimitOf zero kept (float f) :=
  isLimitOf_float (iff_of_false (Bool.eq_false_iff.1 hf) hkept) fun h => absurd h hzero

end

theorem not_writesLongZero {v : Value} (h : ∀ s, v ≠ str s) : ¬v.WritesLongZero := by
  intro hlong
  obtain ⟨s, hs, -⟩ := hlong
  exact h s hs

theorem writesLongZero_str {s : String} (h : s ≠ "0") : (str s).WritesLongZero ↔ WritesZero s := by
  constructor
  · intro hlong
    obtain ⟨s', hs, -, hzero⟩ := hlong
    rwa [str.inj hs]
  · intro hzero
    exact ⟨s, rfl, h, hzero⟩

end Value

namespace Settings

/-! ## Values and limits -/

theorem not_writesLongZero_of_isNoLimit {v : Value} (h : isNoLimit v = true) :
    ¬v.WritesLongZero := by
  intro hlong
  obtain ⟨s, rfl, hs, hzero⟩ := hlong
  rw [isNoLimit, Bool.or_eq_true, beq_iff_eq, beq_iff_eq] at h
  rcases h with rfl | rfl
  · exact not_writesZero (by decide) hzero
  · exact hs rfl

theorem readNumber_eq_ok {s : String} {f : Float} (h : readNumber s = .ok f) :
    Decimal.readFloat? s = some f := by
  rw [readNumber] at h
  split at h
  · next g hg => rw [hg, Except.ok.inj h]
  · exact absurd h (by simp)

/-- What is read of a value that does not stand for no limit. -/
theorem readTimeout_cases {v t : Value} (hv : isNoLimit v = false) (h : readTimeout v = .ok t) :
    ∃ f, t = .float f ∧
      (v = .bool true ∧ f = 1.0 ∨ (∃ i, v = .int i ∧ Decimal.ofInt? i = some f) ∨ v = .float f ∨
        ∃ s, v = .str s ∧ Decimal.readFloat? s = some f) := by
  rw [readTimeout.eq_def, hv, if_neg (by simp)] at h
  cases v with
  | bool b =>
    obtain rfl : b = true := by simpa [isNoLimit] using hv
    exact ⟨1.0, (Except.ok.inj h).symm, .inl ⟨rfl, rfl⟩⟩
  | int i =>
    dsimp only at h
    split at h
    · next f hf => exact ⟨f, (Except.ok.inj h).symm, .inr (.inl ⟨i, rfl, hf⟩)⟩
    · exact absurd h (by simp)
  | float f => exact ⟨f, (Except.ok.inj h).symm, .inr (.inr (.inl rfl))⟩
  | str s =>
    obtain ⟨f, hnumber, rfl⟩ := map_eq_ok_iff.1 h
    exact ⟨f, rfl, .inr (.inr (.inr ⟨s, rfl, readNumber_eq_ok hnumber⟩))⟩
  | null => exact absurd hv (by simp [isNoLimit])
  | _ =>
    dsimp only at h
    split at h
    · exact absurd h (by simp)
    · exact absurd h (by simp)

/-- **What a value is read as** is zero only if the value is a text that writes zero at length; and a
value that is zero is read as no limit unless it is such a text. -/
theorem isLimitOf_of_readTimeout {v t : Value} (h : readTimeout v = .ok t) :
    t.IsLimitOf v.IsZero v.WritesLongZero := by
  cases hno : isNoLimit v with
  | true =>
    obtain rfl := Except.ok.inj ((readTimeout_of_isNoLimit hno).symm.trans h)
    exact Value.isLimitOf_null (not_writesLongZero_of_isNoLimit hno)
  | false =>
    obtain ⟨f, rfl, hv⟩ := readTimeout_cases hno h
    rcases hv with ⟨rfl, rfl⟩ | ⟨i, rfl, hi⟩ | rfl | ⟨s, rfl, hs⟩
    · have hone : ((1.0 : Float) == 0.0) = false := by decide +kernel
      exact Value.isLimitOf_number hone (by simp [Value.IsZero]) (Value.not_writesLongZero (by simp))
    · have hne : i ≠ 0 := by simpa [isNoLimit] using hno
      have hf := Decimal.ofInt?_not_zero hi hne
      exact Value.isLimitOf_number hf hne (Value.not_writesLongZero (by simp))
    · have hf : ¬(Value.float f).IsZero := Bool.eq_false_iff.1 hno
      exact Value.isLimitOf_number hno hf (Value.not_writesLongZero (by simp))
    · have hdigit : s ≠ "0" := by
        intro hs
        rw [hs] at hno
        exact absurd hno (by decide)
      have hlong := Value.writesLongZero_str hdigit
      exact Value.isLimitOf_float (((writesZero_iff hs).symm).trans hlong.symm) hlong.2

/-! ## The limit that is written -/

/-- What a document writes for the time limit, if all of its defaults can be read. -/
def limitWritten? (doc : Entries) : Option Value :=
  match (gather (defaultsSteps (defaultsOf doc))).2 with
  | none => inDefaults? doc "timeout"
  | some _ => none

/-- What the files write for the time limit, the last overriding the others. -/
def limitsWritten (m : Machine) (ps : List Path) : List Value :=
  ps.filterMap fun p => (documentAt m p).toOption.bind limitWritten?

/-- What the environment writes for it, if that can be read. -/
def limitVariable? (env : Keyed String) : Option Value :=
  ((env.find? (variableName "TIMEOUT")).map Value.str).filter fun v => (readTimeout v).isOk

/-- What is written for the time limit that the settings have. -/
def limitInSettings? (m : Machine) : Option Value :=
  limitVariable? m.host.env <|> (limitsWritten m (searchPaths m.host)).getLast?

theorem timeouts_of_stepsBeforeLimit (part : Value) :
    (gather (stepsBeforeLimit part)).1.timeouts = [] := by
  apply Layer.separate_timeouts.of_gather
  intro l hl
  exact Layer.separate_timeouts.of_stepsBeforeLimit hl

/-- If the defaults fail, they fail before a time limit is taken over. -/
theorem timeouts_of_defaults_failed {part : Value} {e : Failure}
    (h : (gather (defaultsSteps part)).2 = some e) :
    (gather (defaultsSteps part)).1.timeouts = [] := by
  rw [defaultsSteps_eq, gather_append] at h ⊢
  cases hfails : (gather (stepsBeforeLimit part)).2 with
  | some e' => exact timeouts_of_stepsBeforeLimit part
  | none =>
    rw [hfails] at h
    cases hoffer : offer part "timeout" giveTimeout with
    | error e' =>
      show ((gather (stepsBeforeLimit part)).1 ++ Layer.empty).timeouts = []
      rw [Layer.append_empty]
      exact timeouts_of_stepsBeforeLimit part
    | ok l =>
      rw [hoffer] at h
      exact absurd h (by simp [gather])

/-- If the defaults can be read, their time limit can. -/
theorem readTimeout_of_defaults {part v : Value} (h : (gather (defaultsSteps part)).2 = none)
    (hv : valueIn? part "timeout" = some v) : ∃ t, readTimeout v = .ok t := by
  cases hread : readTimeout v with
  | ok t => exact ⟨t, rfl⟩
  | error e =>
    have hoffer : offer part "timeout" giveTimeout = .error e :=
      offer_eq_error_iff.2 (.inr ⟨v, hv, by rw [giveTimeout, hread]; rfl⟩)
    exact absurd (error_mem_defaultsSteps.2 ⟨("timeout", giveTimeout), .head _, hoffer⟩)
      (gather_eq_none_iff.1 h e)

/-- **A document gives the time limit that it writes.** -/
theorem timeouts_of_steps (doc : Entries) :
    (limitWritten? doc).toList.map readTimeout = (gather (steps doc)).1.timeouts.map .ok := by
  rw [limitWritten?]
  cases hdefaults : (gather (defaultsSteps (defaultsOf doc))).2 with
  | some e =>
    rw [steps_eq, List.append_assoc, gather_append, hdefaults]
    dsimp only
    rw [timeouts_of_defaults_failed hdefaults]
    rfl
  | none =>
    have hrest : (gather (profileSteps (profilesOf doc) ++
        [.ok { Layer.empty with defaultProfiles := (doc.find? "default_profile").toList }])).1.timeouts
          = [] := by
      apply Layer.separate_timeouts.of_gather
      intro l hl
      rcases List.mem_append.1 hl with hprofile | hname
      · exact Layer.separate_timeouts.of_profileSteps hprofile
      · rw [Except.ok.inj (List.mem_singleton.1 hname)]
        rfl
    rw [steps_eq, List.append_assoc, gather_append, hdefaults]
    dsimp only
    rw [Layer.separate_timeouts.append, hrest, List.append_nil, gather_defaultsSteps hdefaults, inDefaults?_eq]
    dsimp only
    rw [← defaultsOf]
    cases hv : valueIn? (defaultsOf doc) "timeout" with
    | none => rfl
    | some v =>
      obtain ⟨t, ht⟩ := readTimeout_of_defaults hdefaults hv
      rw [Option.bind_some, Option.toList_some, List.map_singleton, ht]
      rfl

theorem layer_of_no_document {m : Machine} {p : Path} {e : Failure}
    (h : documentAt m p = .error e) : (foundAt m p).layer = .empty := by
  rw [foundAt]
  split
  · rw [← documentAt, h]
    rfl
  · rfl

/-- The files give the time limits that they write, one for one. -/
theorem timeouts_givenBy (m : Machine) (ps : List Path) :
    (limitsWritten m ps).map readTimeout = (givenBy m ps).timeouts.map .ok := by
  induction ps with
  | nil => rfl
  | cons p ps ih =>
    have hfile : ((documentAt m p).toOption.bind limitWritten?).toList.map readTimeout =
        (foundAt m p).layer.timeouts.map .ok := by
      cases hdoc : documentAt m p with
      | error e =>
        rw [layer_of_no_document hdoc]
        rfl
      | ok doc =>
        rw [foundAt_of_document hdoc, layer_foundIn]
        exact timeouts_of_steps doc
    have hsplit : limitsWritten m (p :: ps) =
        ((documentAt m p).toOption.bind limitWritten?).toList ++ limitsWritten m ps := by
      rw [limitsWritten, List.filterMap_cons]
      cases (documentAt m p).toOption.bind limitWritten? with
      | none => rfl
      | some v => rfl
    rw [hsplit, List.map_append, hfile, ih, ← List.map_append, ← Layer.separate_timeouts.append]
    rfl

theorem limitVariable?_map (env : Keyed String) :
    (limitVariable? env).map readTimeout = (limitOf? env).map .ok := by
  rw [limitVariable?, limitOf?]
  cases env.find? (variableName "TIMEOUT") with
  | none => rfl
  | some s =>
    rw [Option.map_some, Option.filter_some, Option.bind_some]
    cases hread : readTimeout (.str s) with
    | error e => rfl
    | ok t =>
      show (some (Value.str s)).map readTimeout = some (.ok t)
      rw [Option.map_some, hread]

/-- **The time limit of the settings** is read from what is written for it. -/
theorem timeout_of_load {asked : Option String} {m m' : Machine} {s : Settings}
    (h : load asked m = (.ok s, m')) :
    match limitInSettings? m with
    | none => s.timeout = .null
    | some v => readTimeout v = .ok s.timeout := by
  have hread : (limitInSettings? m).map readTimeout =
      (limitOf? m.host.env <|> (givenBy m (searchPaths m.host)).timeouts.getLast?).map .ok := by
    simp only [limitInSettings?, Option.orElse_eq_orElse, Option.orElse_eq_or, Option.map_or,
      limitVariable?_map, ← List.getLast?_map, timeouts_givenBy]
  have htimeout : s.timeout =
      (limitOf? m.host.env <|> (givenBy m (searchPaths m.host)).timeouts.getLast?).getD .null := by
    obtain ⟨iface, address, hunder⟩ := underProfile_eq asked (loadedSettings m)
    rw [(load_eq_ok h).1, hunder]
    rfl
  rw [htimeout]
  cases hlimit : (limitOf? m.host.env <|> (givenBy m (searchPaths m.host)).timeouts.getLast?) with
  | none =>
    rw [hlimit] at hread
    rw [Option.map_eq_none_iff.1 hread]
    rfl
  | some t =>
    rw [hlimit] at hread
    obtain ⟨v, hv, ht⟩ := Option.map_eq_some_iff.1 hread
    rw [hv]
    exact ht

end Settings

/-! ## The source of the limit in force -/

/-- What the limit in force comes from: the last word that the command line gives to the option, or
else what is written in the environment or in the files. -/
inductive LimitSource
  | option (word : String)
  | setting (v : Value)
  | nothing

namespace LimitSource

def ofSettings (m : Machine) : LimitSource :=
  match Settings.limitInSettings? m with
  | some v => setting v
  | none => nothing

def inForce (words : List String) (m : Machine) : LimitSource :=
  match (LongOption.timeout.wordsGiven words).getLast? with
  | some w => option w
  | none => ofSettings m

/-- The limit that a source stands for. -/
def Yields : LimitSource → Value → Prop
  | option w, t => CommandLine.timeoutValue w = .ok t
  | setting v, t => Settings.readTimeout v = .ok t
  | nothing, t => t = .null

/-- The source gives a number that is zero. -/
def IsZero : LimitSource → Prop
  | option w => WritesZero w
  | setting v => v.IsZero
  | nothing => False

/-- The source is zero and is not turned into no limit: a word of the command line, or a text that
is not the digit alone. -/
def KeepsZero : LimitSource → Prop
  | option w => WritesZero w
  | setting v => v.WritesLongZero
  | nothing => False

theorem timeoutValue_eq_ok {w : String} {t : Value} (h : CommandLine.timeoutValue w = .ok t) :
    w = "--" ∧ t = .list [] ∨ ∃ f, Decimal.readFloat? w = some f ∧ t = .float f := by
  rw [CommandLine.timeoutValue] at h
  split at h
  · next hw => exact .inl ⟨hw, (Except.ok.inj h).symm⟩
  · rw [CommandLine.timeLimit] at h
    split at h
    · next f hf => exact .inr ⟨f, hf, (Except.ok.inj h).symm⟩
    · exact absurd h (by simp)

/-- **A limit is zero just if its source keeps zero**, and a source that is zero puts no limit just
if it does not keep it. -/
theorem isLimitOf_of_yields {l : LimitSource} {t : Value} (h : l.Yields t) :
    t.IsLimitOf l.IsZero l.KeepsZero := by
  cases l with
  | option w =>
    rcases timeoutValue_eq_ok h with ⟨rfl, rfl⟩ | ⟨f, hread, rfl⟩
    · have hno : ¬WritesZero "--" := not_writesZero (by decide)
      exact ⟨.missing, iff_of_false id hno, fun hzero => absurd hzero hno⟩
    · exact Value.isLimitOf_float (writesZero_iff hread).symm id
  | setting v => exact Settings.isLimitOf_of_readTimeout h
  | nothing =>
    obtain rfl : t = .null := h
    exact Value.isLimitOf_null id

theorem yields_of_load {asked : Option String} {m m' : Machine} {s : Settings}
    (h : Settings.load asked m = (.ok s, m')) : (ofSettings m).Yields s.timeout := by
  have hwritten := Settings.timeout_of_load h
  rw [ofSettings]
  split at hwritten
  · next hno =>
    rw [hno]
    exact hwritten
  · next v hv =>
    rw [hv]
    exact hwritten

/-- What the command line gives comes before what is in the settings. -/
theorem yields_of_puts {words : List String} {m : Machine} {before after : Value}
    (h : (ofSettings m).Yields before) (hputs : LongOption.timeout.Puts words before after) :
    (inForce words m).Yields after := by
  rw [LongOption.Puts] at hputs
  rw [inForce]
  split at hputs
  · next hnone =>
    rw [hnone, hputs]
    exact h
  · next w hw =>
    rw [hw]
    exact hputs

end LimitSource

/-! ## How a limit is shown -/

namespace Decimal

/-- A character of a number that is written out. -/
def isNumeral (c : Char) : Bool := c.isDigit || ['.', 'e', '+', '-'].contains c

theorem isNumeral_of_mem_natDigits {n : Nat} : ∀ c ∈ natDigits n, isNumeral c = true := by
  intro c hc
  rw [isNumeral, Nat.isDigit_of_mem_toDigits (by decide) (by decide) hc, Bool.true_or]

theorem isNumeral_of_mem_zeros {n : Nat} : ∀ c ∈ zeros n, isNumeral c = true := by
  intro c hc
  rw [List.eq_of_mem_replicate hc]
  decide

theorem isNumeral_of_mem_exponentText {e : Int} : ∀ c ∈ exponentText e, isNumeral c = true := by
  have hsign : isNumeral (if e < 0 then '-' else '+') = true := by split <;> decide
  have hletter : isNumeral 'e' = true := by decide
  rw [exponentText]
  simp only [List.forall_mem_cons, List.forall_mem_append]
  exact ⟨hletter, hsign, isNumeral_of_mem_zeros, isNumeral_of_mem_natDigits⟩

theorem isNumeral_of_mem_layout {ds : List Char} (h : ∀ c ∈ ds, isNumeral c = true) (e : Int) :
    ∀ c ∈ layout ds e, isNumeral c = true := by
  have hpoint : isNumeral '.' = true := by decide
  have hnought : isNumeral '0' = true := by decide
  rw [layout.eq_def]
  split
  · split
    · simp only [List.forall_mem_cons, List.forall_mem_append]
      exact ⟨hnought, hpoint, isNumeral_of_mem_zeros, h⟩
    · dsimp only
      split
      · simp only [List.forall_mem_append, List.forall_mem_cons]
        exact ⟨⟨h, isNumeral_of_mem_zeros⟩, hpoint, hnought, by simp⟩
      · simp only [List.forall_mem_append, List.forall_mem_cons]
        exact ⟨fun c hc => h c (List.mem_of_mem_take hc), hpoint,
          fun c hc => h c (List.mem_of_mem_drop hc)⟩
  · split
    · simp
    · simp only [List.forall_mem_cons] at h ⊢
      exact ⟨h.1, isNumeral_of_mem_exponentText⟩
    · simp only [List.forall_mem_cons, List.forall_mem_append] at h ⊢
      exact ⟨h.1, hpoint, h.2, isNumeral_of_mem_exponentText⟩

theorem isNumeral_of_mem_magnitudeText {bits : UInt64} :
    ∀ c ∈ magnitudeText bits, isNumeral c = true := by
  have hpoint : isNumeral '.' = true := by decide
  have hnought : isNumeral '0' = true := by decide
  rw [magnitudeText]
  dsimp only
  split
  · simp only [List.forall_mem_cons]
    exact ⟨hnought, hpoint, hnought, by simp⟩
  · exact isNumeral_of_mem_layout isNumeral_of_mem_natDigits _

/-- No number is written with the word for no limit. -/
theorem floatText_ne_none (f : Float) : floatText f ≠ "none" := by
  have hletter : 'o' ∉ magnitudeText f.toBits := by
    intro h
    exact absurd (isNumeral_of_mem_magnitudeText _ h) (by decide)
  have hword : 'o' ∈ "none".toList := by decide
  intro h
  rw [floatText] at h
  split at h
  · exact absurd h (by decide)
  · dsimp only at h
    split at h
    · rw [← h, String.toList_ofList] at hword
      split at hword <;> simp at hword
    · rw [← h, String.toList_ofList] at hword
      split at hword <;> simp [hletter] at hword

end Decimal

namespace Display

/-- A limit is shown as none if there is none, if it is zero, and if its word is missing. -/
theorem timeoutText_eq_none {t : Value} (h : t.IsLimit) :
    timeoutText t = .ok "none" ↔ t = .null ∨ t.IsZero ∨ t = .list [] := by
  cases h with
  | unlimited => exact iff_of_true rfl (.inl rfl)
  | missing => exact iff_of_true rfl (.inr (.inr rfl))
  | seconds f =>
    cases hzero : f == 0.0 with
    | true =>
      have hshown : timeoutText (.float f) = .ok "none" := by
        rw [timeoutText, Value.isTruthy, hzero]
        rfl
      exact iff_of_true hshown (.inr (.inl hzero))
    | false =>
      have hshown : timeoutText (.float f) = .ok (Decimal.floatText f) := by
        rw [timeoutText, Value.isTruthy, hzero]
        exact Value.text_of_text?_eq_some (Value.text?_float f)
      refine iff_of_false ?_ ?_
      · rw [hshown]
        exact fun hnone => Decimal.floatText_ne_none f (Except.ok.inj hnone)
      · intro hcases
        rcases hcases with hnull | hfloat | hlist
        · exact nomatch hnull
        · exact Bool.eq_false_iff.1 hzero hfloat
        · exact nomatch hlist

theorem settingsRows_eq_ok {iface address : Value} {s : Settings} {rows : List (List String)}
    (h : settingsRows iface address s = .ok rows) :
    ∃ i a t profile, timeoutText s.timeout = .ok t ∧
      defaultProfileRows s.defaultProfile = .ok profile ∧
      rows = [ [Settings.Parameter.name .iface, i], [Settings.Parameter.name .address, a],
        ["sudo", if s.withSudo then "True" else "False"], ["timeout", t] ] ++ profile := by
  rw [settingsRows] at h
  obtain ⟨i, -, h⟩ := bind_eq_ok_iff.1 h
  obtain ⟨a, -, h⟩ := bind_eq_ok_iff.1 h
  obtain ⟨t, ht, h⟩ := bind_eq_ok_iff.1 h
  obtain ⟨profile, hprofile, h⟩ := bind_eq_ok_iff.1 h
  exact ⟨i, a, t, profile, ht, hprofile, (Except.ok.inj h).symm⟩

/-- The row of the limit is the only one that begins with its name. -/
theorem limitRow_mem_iff {iface address : Value} {s : Settings} {rows : List (List String)}
    (h : settingsRows iface address s = .ok rows) (text : String) :
    ["timeout", text] ∈ rows ↔ timeoutText s.timeout = .ok text := by
  obtain ⟨i, a, t, profile, ht, hprofile, rfl⟩ := settingsRows_eq_ok h
  have hother : ["timeout", text] ∉ profile := by
    rw [defaultProfileRows] at hprofile
    split at hprofile
    · obtain ⟨c, -, rfl⟩ := map_eq_ok_iff.1 hprofile
      simp
    · rw [← Except.ok.inj hprofile]
      simp
  rw [List.mem_append, or_iff_left hother, ht, Except.ok.injEq]
  simp only [Settings.Parameter.name, List.mem_cons, List.cons.injEq, List.not_mem_nil, and_true,
    or_false]
  have hne : "timeout" ≠ "mac.changer.iface" ∧ "timeout" ≠ "mac.changer.address" ∧
      "timeout" ≠ "sudo" := by decide
  simp [hne, eq_comm (a := text)]

end Display

/-! ## The run -/

namespace Program

/-- **The time limit in force** is what its source yields. It is zero just if the source is a word of
the command line that writes zero, or a text elsewhere that writes it with more than the digit; any
other source that is zero puts no limit. All commands of a session have this limit, and the
configuration shows `none` for it if there is no limit, and also if it is zero. -/
theorem limit_in_force {words : List String} {m m₁ : Machine} {s : Settings} {o : Options}
    (hload : loadSettings words m = (.ok s, m₁)) (hparse : CommandLine.parse s words = .accepted o) :
    (LimitSource.inForce words m).Yields o.timeout ∧
      (o.timeout.IsZero ↔ (LimitSource.inForce words m).KeepsZero) ∧
      ((LimitSource.inForce words m).IsZero →
        (o.timeout = .null ↔ ¬(LimitSource.inForce words m).KeepsZero)) ∧
      (∀ v on m₂, work s o m₁ = (.ok (.session v on), m₂) → v.writer.runner.timeout = o.timeout) ∧
      ∀ rows, Display.settingsRows o.iface o.address
          { s with withSudo := o.withSudo, timeout := o.timeout } = .ok rows →
        (["timeout", "none"] ∈ rows ↔
          o.timeout = .null ∨ (LimitSource.inForce words m).KeepsZero ∨ o.timeout = .list []) := by
  obtain ⟨m₀, hsettings⟩ := load_of_loadSettings hload
  have hbefore := LimitSource.yields_of_load hsettings
  have hno : ∀ t, LongOption.timeout.field (.ofSettings s) ≠ .str t := by
    intro t ht
    have hlimit := (LimitSource.isLimitOf_of_yields hbefore).isLimit
    rw [show s.timeout = .str t from ht] at hlimit
    exact nomatch hlimit
  have hyields : (LimitSource.inForce words m).Yields o.timeout :=
    LimitSource.yields_of_puts hbefore (CommandLine.puts_of_parse hparse hno)
  obtain ⟨hkind, hzero, hnone⟩ := LimitSource.isLimitOf_of_yields hyields
  refine ⟨hyields, hzero, hnone, ?_, ?_⟩
  · intro v on m₂ hwork
    obtain ⟨p, iface, -, -, -, hbegin⟩ := session_of_work hwork
    obtain ⟨address, m₃, -, -, -, hv, -⟩ := session_of_beginSession hbegin
    rw [hv]
    rfl
  · intro rows hrows
    rw [Display.limitRow_mem_iff hrows, Display.timeoutText_eq_none hkind, hzero]

/-- A limit of two and a half seconds, which is in force and is not zero. -/
theorem limit_in_force_seconds :
    ∃ s m₁ o, loadSettings ["--timeout", "2.5", "--show-config"] quitting = (.ok s, m₁) ∧
      CommandLine.parse s ["--timeout", "2.5", "--show-config"] = .accepted o ∧
      ¬WritesZero "2.5" ∧ ¬o.timeout.IsZero := by
  have hload : loadSettings ["--timeout", "2.5", "--show-config"] quitting =
      (.ok .initial, quitting) := rfl
  obtain ⟨o, hparse⟩ :
      ∃ o, CommandLine.parse .initial ["--timeout", "2.5", "--show-config"] = .accepted o := ⟨_, rfl⟩
  have hkept : ¬WritesZero "2.5" := by
    intro hwrites
    obtain ⟨f, hread, hzero⟩ := hwrites
    have hfloat : (Decimal.readFloat? "2.5").all (fun f => f == 0.0) = false := by decide +kernel
    rw [hread] at hfloat
    exact absurd (hzero.symm.trans hfloat) (by decide)
  obtain ⟨-, hiff, -⟩ := limit_in_force hload hparse
  exact ⟨_, _, o, hload, hparse, hkept, fun hzero => hkept (hiff.1 hzero)⟩

/-- Zero is given on the command line, and stays: the session has a limit of zero seconds for its
commands, and the configuration shows `none` for it. -/
theorem zero_option_kept :
    WritesZero "0" ∧ ∃ s m₁ o v on m₂ rows,
      loadSettings ["-i", "eth0", "--timeout", "0"] quitting = (.ok s, m₁) ∧
      CommandLine.parse s ["-i", "eth0", "--timeout", "0"] = .accepted o ∧
      work s o m₁ = (.ok (.session v on), m₂) ∧
      v.writer.runner.timeout.IsZero ∧ v.writer.runner.timeout ≠ .null ∧
      Display.settingsRows o.iface o.address
        { s with withSudo := o.withSudo, timeout := o.timeout } = .ok rows ∧
      ["timeout", "none"] ∈ rows := by
  have hzero : ((0.0 : Float) == 0.0) = true := by decide +kernel
  have hload : loadSettings ["-i", "eth0", "--timeout", "0"] quitting = (.ok .initial, quitting) := rfl
  let o : Options :=
    { Options.ofSettings .initial with iface := .str "eth0", timeout := .float 0.0 }
  have hparse : CommandLine.parse .initial ["-i", "eth0", "--timeout", "0"] = .accepted o := rfl
  obtain ⟨v, on, m₂, hwork⟩ : ∃ v on m₂, work .initial o quitting = (.ok (.session v on), m₂) :=
    ⟨_, _, _, rfl⟩
  have htimeout : v.writer.runner.timeout = .float 0.0 := by
    obtain ⟨p, iface, -, -, -, hbegin⟩ := session_of_work hwork
    obtain ⟨address, m₃, -, -, -, hv, -⟩ := session_of_beginSession hbegin
    rw [hv]
    rfl
  have hrows : Display.settingsRows o.iface o.address
      { Settings.initial with withSudo := o.withSudo, timeout := o.timeout } = .ok
        [["mac.changer.iface", "eth0"], ["mac.changer.address", "<random mac>"],
          ["sudo", "True"], ["timeout", "none"]] := rfl
  refine ⟨⟨0.0, rfl, hzero⟩, _, _, o, v, on, m₂, _, hload, hparse, hwork, ?_, ?_, hrows, by simp⟩
  · rw [htimeout]
    exact hzero
  · rw [htimeout]
    exact nofun

end Program

end LinkOverride
