import LinkOverride.Proofs.Resolution

/-!
# What stops the loading of settings

A file that cannot be used should be skipped. What is no document always is: a directory, a file that
cannot be read, bytes that are no text, a text that is malformed. Some documents are not, for three
reasons only, and `Stops` has one constructor for each. And once all files are read, a default
profile may be given that no profile can be looked up with.

Main statement: settings are loaded just if no file holds a document that stops the loading and a
profile can be looked up with what is given for its name.
-/

namespace LinkOverride.Settings

open Step

/-! ## Time limits -/

/-- A time limit that cannot be read makes the file be skipped, unless it is too large. -/
theorem readTimeout_eq_error {v : Value} {e : Failure} (h : readTimeout v = .error e) :
    e.skipsFile = true ∨ e = .tooLarge ∧ ∃ i, v = .int i ∧ Decimal.ofInt? i = none := by
  have hvalue : ∀ {fault : ValueFault}, Failure.badValue fault = e → e.skipsFile = true :=
    fun heq => heq ▸ rfl
  rw [readTimeout.eq_def] at h
  split at h
  · exact absurd h (by simp)
  · split at h
    · exact absurd h (by simp)
    · next i hlimit =>
      split at h
      · exact absurd h (by simp)
      · next hi => exact .inr ⟨(Except.error.inj h).symm, i, rfl, hi⟩
    · exact absurd h (by simp)
    · rw [readNumber] at h
      split at h
      · exact absurd h (by simp [Except.map])
      · exact .inl (hvalue (Except.error.inj h))
    · split at h
      · exact .inl (hvalue (Except.error.inj h))
      · exact .inl (hvalue (Except.error.inj h))

theorem readTimeout_of_tooLarge {i : Int} (h : Decimal.ofInt? i = none) :
    readTimeout (.int i) = .error .tooLarge := by
  have hnought : (Decimal.ofInt? 0).isSome = true := by decide +kernel
  have hi : isNoLimit (.int i) = false := by
    rw [isNoLimit, beq_eq_false_iff_ne]
    intro hzero
    rw [← hzero, h] at hnought
    exact absurd hnought (by simp)
  rw [readTimeout.eq_def, hi, if_neg (by simp)]
  simp only [h]

/-! ## Documents -/

def defaultsOf (doc : Entries) : Value := (doc.find? "defaults").getD (.table [])

def profilesOf (doc : Entries) : Value := (doc.find? "profiles").getD (.table [])

/-- The keys that are looked for in the defaults, and how their values are read. -/
def defaultsReaders : List (String × (Value → Except Failure Layer)) :=
  [("timeout", giveTimeout), ("iface", giveIface), ("address", giveAddress), ("sudo", giveSudo)]

/-- A document after which no file is read any more. -/
inductive Stops (doc : Entries) : Prop
  /-- The defaults are no table, and are searched for a key that they seem to have, or cannot be
  searched. -/
  | misled {key : String} (hkey : key ∈ defaultsReaders.map (·.1))
      (h : Misleads key (defaultsOf doc)) : Stops doc
  /-- The time limit is too large a whole number for a double. -/
  | tooLarge {i : Int} (h : inDefaults? doc "timeout" = some (.int i))
      (hi : Decimal.ofInt? i = none) : Stops doc
  /-- The defaults can be read, and then the profiles are no table. -/
  | profiles (h : ∀ e, .error e ∉ defaultsSteps (defaultsOf doc))
      (hp : ∀ es, profilesOf doc ≠ .table es) : Stops doc

theorem error_mem_defaultsSteps {part : Value} {e : Failure} :
    .error e ∈ defaultsSteps part ↔ ∃ k ∈ defaultsReaders, offer part k.1 k.2 = .error e := by
  have hcheck : Except.error e = (offer part "timeout" giveTimeout).map (fun _ => Layer.empty) ↔
      offer part "timeout" giveTimeout = .error e := by
    rw [eq_comm, map_eq_error_iff]
  simp only [defaultsSteps, defaultsReaders, List.mem_cons, List.not_mem_nil, or_false,
    exists_eq_or_imp, exists_eq_left, hcheck]
  simp only [eq_comm (a := Except.error e)]
  tauto

/-- What fails under a key of the defaults makes the file be skipped, unless it is a time limit that
is too large. -/
theorem give_eq_error {k : String × (Value → Except Failure Layer)} (hk : k ∈ defaultsReaders)
    {v : Value} {e : Failure} (h : k.2 v = .error e) :
    e.skipsFile = true ∨ k.1 = "timeout" ∧ ∃ i, v = .int i ∧ Decimal.ofInt? i = none := by
  have htext : ∀ {make : String → Layer}, v.text.map make = .error e → e.skipsFile = true :=
    fun h => text_eq_error (map_eq_error_iff.1 h) ▸ rfl
  simp only [defaultsReaders, List.mem_cons, List.not_mem_nil, or_false] at hk
  rcases hk with rfl | rfl | rfl | rfl
  · rcases readTimeout_eq_error (map_eq_error_iff.1 h) with hskips | ⟨-, hlarge⟩
    · exact .inl hskips
    · exact .inr ⟨rfl, hlarge⟩
  · exact .inl (htext h)
  · exact .inl (htext h)
  · exact absurd h (by simp [giveSudo])

theorem steps_eq (doc : Entries) :
    steps doc = defaultsSteps (defaultsOf doc) ++ profileSteps (profilesOf doc) ++
      [.ok { Layer.empty with defaultProfiles := (doc.find? "default_profile").toList }] := rfl

/-- The first failure of the defaults is the first failure of the document. -/
theorem gather_steps_of_defaults {doc : Entries} {e : Failure}
    (h : (gather (defaultsSteps (defaultsOf doc))).2 = some e) :
    (gather (steps doc)).2 = some e := by
  rw [steps_eq, List.append_assoc, gather_append, h]

/-- If the defaults are read, a failure is one of the profiles. -/
theorem gather_steps_of_profiles {doc : Entries}
    (h : (gather (defaultsSteps (defaultsOf doc))).2 = none) :
    (gather (steps doc)).2 = (gather (profileSteps (profilesOf doc))).2 := by
  rw [steps_eq, List.append_assoc, gather_append, h]
  dsimp only
  rw [gather_append]
  cases (gather (profileSteps (profilesOf doc))).2 with
  | none => rfl
  | some e => rfl

/-- A section that misleads fails in no other way. -/
theorem gather_defaultsSteps_of_misleads {part : Value} {key : String}
    (hkey : key ∈ defaultsReaders.map (·.1)) (h : Misleads key part) :
    (gather (defaultsSteps part)).2 = some .wrongKind := by
  obtain ⟨k, hk, rfl⟩ := List.mem_map.1 hkey
  have hmem : .error .wrongKind ∈ defaultsSteps part :=
    error_mem_defaultsSteps.2 ⟨k, hk, offer_eq_error_iff.2 (.inl ⟨h, rfl⟩)⟩
  cases hfails : (gather (defaultsSteps part)).2 with
  | none => exact absurd hmem (gather_eq_none_iff.1 hfails _)
  | some e =>
    obtain ⟨k', -, hoffer⟩ := error_mem_defaultsSteps.1 (mem_of_gather hfails)
    rcases offer_eq_error_iff.1 hoffer with ⟨-, hkind⟩ | ⟨v, hv, -⟩
    · rw [hkind]
    · rw [valueIn?_of_misleads h] at hv
      exact absurd hv (by simp)

/-- **The documents that stop the loading** are those whose first failure does not make the file be
skipped. -/
theorem stops_iff {doc : Entries} :
    Stops doc ↔ ∃ e, (gather (steps doc)).2 = some e ∧ e.skipsFile = false := by
  constructor
  · intro h
    cases h with
    | misled hkey h =>
      exact ⟨.wrongKind, gather_steps_of_defaults (gather_defaultsSteps_of_misleads hkey h), rfl⟩
    | @tooLarge i h hi =>
      rw [inDefaults?_eq] at h
      have hgive : giveTimeout (.int i) = .error .tooLarge := by
        rw [giveTimeout, readTimeout_of_tooLarge hi]
        rfl
      have hoffer : offer (defaultsOf doc) "timeout" giveTimeout = .error .tooLarge :=
        offer_eq_error_iff.2 (.inr ⟨_, h, hgive⟩)
      refine ⟨.tooLarge, gather_steps_of_defaults ?_, rfl⟩
      rw [defaultsSteps, hoffer]
      rfl
    | profiles h hp =>
      refine ⟨.profilesNotTable, ?_, rfl⟩
      rw [gather_steps_of_profiles (gather_eq_none_iff.2 h)]
      cases hpart : profilesOf doc with
      | table es => exact absurd hpart (hp es)
      | _ => rfl
  · rintro ⟨e, hfails, he⟩
    cases hdefaults : (gather (defaultsSteps (defaultsOf doc))).2 with
    | some e' =>
      obtain rfl : e' = e := Option.some.inj ((gather_steps_of_defaults hdefaults).symm.trans hfails)
      obtain ⟨k, hk, hoffer⟩ := error_mem_defaultsSteps.1 (mem_of_gather hdefaults)
      rcases offer_eq_error_iff.1 hoffer with ⟨hmisleads, -⟩ | ⟨v, hv, hgive⟩
      · exact .misled (List.mem_map_of_mem hk) hmisleads
      · rcases give_eq_error hk hgive with hskips | ⟨hkey, i, rfl, hi⟩
        · exact absurd (hskips.symm.trans he) (by simp)
        · rw [hkey] at hv
          exact .tooLarge (by rw [inDefaults?_eq]; exact hv) hi
    | none =>
      rw [gather_steps_of_profiles hdefaults] at hfails
      rcases error_of_profileSteps (mem_of_gather hfails) with rfl | ⟨-, hp⟩
      · exact absurd he (by simp [Failure.skipsFile])
      · exact .profiles (gather_eq_none_iff.1 hdefaults) hp

/-! ## Files -/

/-- The document that is found in a place, or why there is none. -/
def documentAt (m : Machine) (p : Path) : Except Failure Entries :=
  documentIn (Machine.readText p m).1

theorem skipsFile_of_readText {m : Machine} {p : Path} {e : Failure}
    (h : (Machine.readText p m).1 = .error e) : e.skipsFile = true := by
  rw [Machine.readText] at h
  cases hcontent : m.content? p with
  | none =>
    rw [hcontent] at h
    exact Except.error.inj h ▸ rfl
  | some c =>
    rw [hcontent] at h
    cases c with
    | directory => exact Except.error.inj h ▸ rfl
    | unreadable reason => exact Except.error.inj h ▸ rfl
    | bytes b =>
      dsimp only at h
      cases htext : String.fromUTF8? b with
      | none =>
        rw [htext] at h
        exact Except.error.inj h ▸ rfl
      | some text =>
        rw [htext] at h
        exact absurd h (by simp)

/-- What is no document is always skipped. -/
theorem skipsFile_of_documentAt {m : Machine} {p : Path} {e : Failure}
    (h : documentAt m p = .error e) : e.skipsFile = true := by
  rw [documentAt, documentIn] at h
  rcases bind_eq_error_iff.1 h with hread | ⟨text, -, h⟩
  · exact skipsFile_of_readText hread
  · cases hdoc : Toml.readDocument text with
    | ok es =>
      rw [hdoc] at h
      exact absurd h (by simp [pure, Except.pure])
    | error fault =>
      rw [hdoc] at h
      cases fault with
      | malformed => exact Except.error.inj h ▸ rfl
      | tooLong n => exact Except.error.inj h ▸ rfl

theorem foundIn_ok_eq_failed {doc : Entries} {l : Layer} {e : Failure} :
    foundIn (.ok doc) = .failed l e ↔ gather (steps doc) = (l, some e) := by
  rw [foundIn]
  rcases gather (steps doc) with ⟨l', _ | e'⟩
  · simp
  · simp

theorem foundAt_of_document {m : Machine} {p : Path} {doc : Entries}
    (h : documentAt m p = .ok doc) : foundAt m p = foundIn (.ok doc) := by
  have hexists : m.fileExists p = true := by
    rw [Machine.fileExists]
    cases hcontent : m.content? p with
    | some c => rfl
    | none =>
      rw [documentAt, Machine.readText, hcontent] at h
      exact absurd h (by simp [documentIn, bind, Except.bind])
  rw [foundAt, if_pos hexists, ← documentAt, h]

/-- A place is no hindrance just if it holds no document that stops the loading. -/
theorem skips_iff {m : Machine} {p : Path} :
    Skips m p ↔ ∀ doc, documentAt m p = .ok doc → ¬ Stops doc := by
  constructor
  · intro h doc hdoc hstops
    obtain ⟨e, hfails, he⟩ := stops_iff.1 hstops
    have hfound : foundAt m p = .failed (gather (steps doc)).1 e := by
      rw [foundAt_of_document hdoc]
      exact foundIn_ok_eq_failed.2 (Prod.ext rfl hfails)
    exact absurd ((h _ e hfound).symm.trans he) (by simp)
  · intro h l e hfound
    cases hdoc : documentAt m p with
    | ok doc =>
      rw [foundAt_of_document hdoc] at hfound
      have hgather := foundIn_ok_eq_failed.1 hfound
      by_contra hskips
      have hfails : (gather (steps doc)).2 = some e := by rw [hgather]
      exact h doc hdoc (stops_iff.2 ⟨e, hfails, Bool.eq_false_iff.2 hskips⟩)
    | error e' =>
      rw [foundAt, ← documentAt, hdoc] at hfound
      split at hfound
      · rw [← (Found.failed.inj hfound).2]
        exact skipsFile_of_documentAt hdoc
      · exact absurd hfound (by simp)

/-! ## The name of the profile -/

/-- A value that a profile can be looked up with and that has a text, or that asks for no profile. -/
def Nameable : Value → Prop
  | .int i => (Value.intText? i).isSome = true
  | .list vs => vs = []
  | .table es => es = []
  | _ => True

/-- The settings under the profile that a value names, or why it cannot be looked up. -/
def underNamed (v : Value) (s : Settings) : Except Failure Settings :=
  if v.isTruthy then do
    let found ← lookUp s v
    let _ ← v.text
    return found.getD s
  else .ok s

theorem underNamed_of_text {v : Value} {s : Settings} {found : Option Settings} {label : String}
    (hlookUp : lookUp s v = .ok found) (htext : v.text = .ok label) :
    ∃ t, underNamed v s = .ok t := by
  rw [underNamed, hlookUp, htext]
  cases v.isTruthy with
  | false => exact ⟨s, rfl⟩
  | true => exact ⟨found.getD s, rfl⟩

theorem not_underNamed_of_text {v : Value} {s : Settings} {found : Option Settings} {e : Failure}
    (hv : v.isTruthy = true) (hlookUp : lookUp s v = .ok found) (htext : v.text = .error e) :
    ¬ ∃ t, underNamed v s = .ok t := by
  rw [underNamed, if_pos hv, hlookUp, htext]
  simp [bind, Except.bind]

theorem not_underNamed_of_lookUp {v : Value} {s : Settings} {e : Failure}
    (hv : v.isTruthy = true) (hlookUp : lookUp s v = .error e) :
    ¬ ∃ t, underNamed v s = .ok t := by
  rw [underNamed, if_pos hv, hlookUp]
  simp [bind, Except.bind]

theorem underNamed_isOk_iff {v : Value} {s : Settings} :
    (∃ t, underNamed v s = .ok t) ↔ Nameable v := by
  cases v with
  | int i =>
    cases htext : Value.intText? i with
    | some label =>
      have hlabel : (Value.int i).text = .ok label := by rw [Value.text, Value.text?_int, htext]
      exact iff_of_true (underNamed_of_text rfl hlabel) (by rw [Nameable, htext, Option.isSome_some])
    | none =>
      have hnought : (Value.intText? 0).isSome = true := by decide +kernel
      have htruthy : (Value.int i).isTruthy = true := by
        refine bne_iff_ne.2 fun hzero => ?_
        rw [← hzero, htext] at hnought
        exact absurd hnought (by simp)
      have hlabel : (Value.int i).text = .error (.badValue .tooLongToWrite) := by
        rw [Value.text, Value.text?_int, htext]
      exact iff_of_false (not_underNamed_of_text htruthy rfl hlabel) (by simp [Nameable, htext])
  | list vs =>
    cases vs with
    | nil => exact iff_of_true ⟨s, rfl⟩ rfl
    | cons w ws =>
      exact iff_of_false (not_underNamed_of_lookUp rfl rfl) (by simp [Nameable])
  | table es =>
    cases es with
    | nil => exact iff_of_true ⟨s, rfl⟩ rfl
    | cons e es =>
      exact iff_of_false (not_underNamed_of_lookUp rfl rfl) (by simp [Nameable])
  | _ => exact iff_of_true (underNamed_of_text rfl rfl) trivial

/-- What comes of the profile does not depend on the machine. -/
theorem applyActive_apply (asked : Option String) (s : Settings) (m : Machine) :
    applyActive asked s m =
      match underNamed (activeProfile asked s) s with
      | .ok t => (.ok t, m.recordAll (profileReport asked s))
      | .error e => (.error e, m) := by
  rw [applyActive, underNamed, profileReport, wantedName?_eq]
  generalize activeProfile asked s = v
  cases hv : v.isTruthy with
  | false => exact Prod.ext rfl (Machine.recordAll_nil m).symm
  | true =>
    rw [if_neg (by simp), if_pos rfl, if_pos rfl]
    cases hlookUp : lookUp s v with
    | error e => rfl
    | ok found =>
      rw [← lookUp_eq_ok hv hlookUp]
      cases htext : v.text with
      | error e => rfl
      | ok label =>
        rw [text?_of_text htext]
        cases found with
        | none => rfl
        | some t => rfl

theorem applyActive_isOk_iff {asked : Option String} {s : Settings} {m : Machine} :
    (∃ t m', applyActive asked s m = (.ok t, m')) ↔ Nameable (activeProfile asked s) := by
  rw [applyActive_apply, ← underNamed_isOk_iff (s := s)]
  cases underNamed (activeProfile asked s) s with
  | ok t => exact iff_of_true ⟨t, _, rfl⟩ ⟨t, rfl⟩
  | error e => exact iff_of_false (by simp) (by simp)

/-! ## All together -/

/-- The settings that come of all files and the environment, before a profile is applied. -/
def loadedSettings (m : Machine) : Settings := beforeProfile m (givenBy m (searchPaths m.host))

theorem load_eq_ok {asked : Option String} {m m' : Machine} {s : Settings}
    (h : load asked m = (.ok s, m')) :
    s = underProfile asked (loadedSettings m) ∧
      m'.trace = m.trace ++ reportOf m (searchPaths m.host) ++ environmentReport m.host.env ++
        profileReport asked (loadedSettings m) := by
  rw [load_of_skips (skips_of_load h)] at h
  obtain ⟨hs, rfl⟩ := applyActive_eq h
  exact ⟨hs, rfl⟩

/-- **Settings are loaded** just if no file holds a document that stops the loading and a profile can
be looked up with what is given for its name. Then each file is reported once, and one that cannot be
used with a warning. -/
theorem load_isOk_iff (asked : Option String) (m : Machine) :
    ((∃ s m', load asked m = (.ok s, m')) ↔
        (∀ p ∈ searchPaths m.host, ∀ doc, documentAt m p = .ok doc → ¬ Stops doc) ∧
          Nameable (activeProfile asked (loadedSettings m))) ∧
      ∀ s m', load asked m = (.ok s, m') →
        m'.trace = m.trace ++ reportOf m (searchPaths m.host) ++ environmentReport m.host.env ++
          profileReport asked (loadedSettings m) := by
  refine ⟨⟨?_, ?_⟩, fun s m' h => (load_eq_ok h).2⟩
  · rintro ⟨s, m', h⟩
    have hskips := skips_of_load h
    rw [load_of_skips hskips] at h
    exact ⟨fun p hp => skips_iff.1 (hskips p hp), applyActive_isOk_iff.1 ⟨s, m', h⟩⟩
  · rintro ⟨hdocuments, hname⟩
    rw [load_of_skips fun p hp => skips_iff.2 (hdocuments p hp)]
    exact applyActive_isOk_iff.2 hname

/-- The time limit is two to the power of 1024 seconds. -/
def limitChars : List Char :=
  "[defaults]\ntimeout = 0x1".toList ++ List.replicate 256 '0' ++ ['\n']

theorem readDocument_limit :
    ∃ doc, Toml.readDocument (String.ofList limitChars) = .ok doc ∧
      (gather (steps doc)).2 = some .tooLarge := by
  -- The characters are read, for it takes far longer to take the text apart.
  have heval : (match (Toml.readLines ((Toml.unifyLines limitChars).length + 1) .empty
      (Toml.unifyLines limitChars)).map (·.root) with
      | .ok doc => decide ((gather (steps doc)).2 = some .tooLarge)
      | .error _ => false) = true := by
    decide +kernel
  rw [Toml.readDocument, String.toList_ofList]
  cases hread : (Toml.readLines ((Toml.unifyLines limitChars).length + 1) .empty
    (Toml.unifyLines limitChars)).map (·.root) with
  | error fault =>
    rw [hread] at heval
    exact absurd heval (by simp)
  | ok doc =>
    rw [hread] at heval
    exact ⟨doc, rfl, of_decide_eq_true heval⟩

/-- A time limit that is too large for a double is no reason to skip the file: nothing is loaded. -/
theorem load_stopped_by_limit :
    (∃ l, foundAt (holding [] (String.ofList limitChars))
        (Path.ofString "/work" / ".mac-changer.toml") = .failed l .tooLarge) ∧
      ∀ s m', load none (holding [] (String.ofList limitChars)) ≠ (.ok s, m') := by
  obtain ⟨doc, hread, hlimit⟩ := readDocument_limit
  have hfound : foundAt (holding [] (String.ofList limitChars))
      (Path.ofString "/work" / ".mac-changer.toml") = .failed (gather (steps doc)).1 .tooLarge := by
    rw [foundAt_work, documentIn_of_readDocument hread]
    exact foundIn_ok_eq_failed.2 (Prod.ext rfl hlimit)
  refine ⟨⟨_, hfound⟩, fun s m' hload => ?_⟩
  have hskips := skips_of_load hload _ (by simp [searchPaths, holding]) _ _ hfound
  exact absurd hskips (by simp [Failure.skipsFile])

end LinkOverride.Settings
