import LinkOverride.Proofs.Precedence

/-!
# The user's own file

A configuration file can be made for the user. It lies in the user's own directory, which is
wherever the environment and the home directory say, and it is written only if that can be made to
be a directory. Then it is the second of the files that are looked for when settings are loaded, so
what the file says must be what the loading takes up, unless something later says otherwise.

Main statement: making the file writes the file and nothing else, or it does nothing at all; and
once the file is made, settings are taken from it and it is not made again.
-/

namespace LinkOverride

namespace Machine

/-! ## Writing a file -/

/-- What is stored at a location. -/
def stored? (m : Machine) (l : Path) : Option Content := (m.files.find? (·.1 == l)).map (·.2)

/-- The machine after a text has been written. -/
def written (p : Path) (text : String) (m : Machine) : Machine :=
  (m.putContent (m.locate p) (.bytes text.toUTF8)).record (.wrote (m.locate p) text)

/-- A text is written into one file, and nothing else happens. -/
structure Writes (p : Path) (text : String) (m m' : Machine) : Prop where
  content : m'.content? p = some (.bytes text.toUTF8)
  others : ∀ l, l ≠ m.locate p → m'.stored? l = m.stored? l
  host : m'.host = m.host
  trace : m'.trace = m.trace ++ [.wrote (m.locate p) text]

variable (p : Path) (text : String) (m : Machine)

theorem writes_written : Writes p text m (m.written p text) where
  content := content?_putContent p _ m
  others _ hl := congrArg (Option.map _) (find?_putContent_of_ne hl _ m)
  host := rfl
  trace := rfl

theorem writeText_cases :
    m.content? p = some .directory ∧ (∃ e, writeText p text m = (.error e, m)) ∨
      m.content? p ≠ some .directory ∧ writeText p text m = (.ok (), m.written p text) := by
  rw [writeText]
  cases hcontent : m.content? p with
  | none => exact .inr ⟨by simp, rfl⟩
  | some c =>
    cases c with
    | directory => exact .inl ⟨rfl, _, rfl⟩
    | bytes b => exact .inr ⟨by simp, rfl⟩
    | unreadable reason => exact .inr ⟨by simp, rfl⟩

/-- The place is no file, and none lies above it. -/
def Admits : Prop :=
  (∀ l ∈ (m.locate p).ancestors, m.isFileAt l = false) ∧ m.isFileAt (m.locate p) = false

theorem makeDirectory_cases :
    m.Admits p ∧ makeDirectory p m = (.ok (), m) ∨
      ¬m.Admits p ∧ ∃ e, makeDirectory p m = (.error e, m) := by
  have hany : (m.locate p).ancestors.any m.isFileAt = true ↔
      ¬∀ l ∈ (m.locate p).ancestors, m.isFileAt l = false := by
    rw [List.any_eq_true]
    push Not
    simp
  rw [makeDirectory, Admits]
  split
  · next habove => exact .inr ⟨fun h => hany.1 habove h.1, _, rfl⟩
  · next habove =>
    rw [hany, not_not] at habove
    split
    · next hfile => exact .inr ⟨fun h => absurd (hfile.symm.trans h.2) (by simp), _, rfl⟩
    · next hfile => exact .inl ⟨⟨habove, Bool.eq_false_iff.2 hfile⟩, rfl⟩

variable {p m}

/-- A file in a directory leaves the directory one. -/
theorem Admits.written {n : String} (h : m.Admits p) (hn : n ≠ "..") :
    (m.written ⟨p.root, p.names ++ [n]⟩ text).Admits p := by
  have hplace : m.locate ⟨p.root, p.names ++ [n]⟩ =
      ⟨(m.locate p).root, (m.locate p).names ++ [n]⟩ := Path.location_concat p m.host.cwd hn
  have hsame : ∀ l : Path, l.names.length ≤ (m.locate p).names.length →
      (m.written ⟨p.root, p.names ++ [n]⟩ text).isFileAt l = m.isFileAt l := by
    intro l hl
    refine isFileAt_putContent_of_ne ?_ _ m
    intro heq
    rw [heq, hplace, List.length_append, List.length_singleton] at hl
    omega
  exact ⟨fun l hl => (hsame l (Nat.le_of_lt (Path.length_of_mem_ancestors hl))).trans (h.1 l hl),
    (hsame _ (Nat.le_refl _)).trans h.2⟩

end Machine

namespace Settings

open Step

/-! ## What the file says -/

/-- What the file of the user gives when it is made. -/
def firstLayer : Layer where
  ifaces := []
  addresses := [Address.randomWord]
  sudos := [true]
  timeouts := [.null]
  definitions :=
    [("cafe", ⟨"wlan0", Address.randomWord, "Fresh random address on the wireless card"⟩)]
  defaultProfiles := []

/-- The characters of the file, line by line. -/
def defaultFileChars : List Char := defaultFileLines.flatMap fun l => l.toList ++ ['\n']

theorem toList_defaultFile : defaultFile.toList = defaultFileChars := by
  rw [defaultFile, String.toList_join, List.flatMap_map, defaultFileChars]
  simp [String.toList_append]

/-- Whether a layer is the first one. Values cannot be compared, so they are looked at. -/
def isFirstLayer (l : Layer) : Bool :=
  match l with
  | ⟨ifaces, addresses, sudos, [.null], definitions, []⟩ =>
    ifaces == firstLayer.ifaces && addresses == firstLayer.addresses &&
      sudos == firstLayer.sudos && definitions == firstLayer.definitions
  | _ => false

theorem eq_firstLayer {l : Layer} (h : isFirstLayer l = true) : l = firstLayer := by
  rw [isFirstLayer.eq_def] at h
  split at h
  · simp only [Bool.and_eq_true, beq_iff_eq] at h
    obtain ⟨⟨⟨rfl, rfl⟩, rfl⟩, rfl⟩ := h
    rfl
  · exact absurd h (by simp)

/-- **The file can be read**, and all of it is given. -/
theorem readDocument_defaultFile :
    ∃ doc, Toml.readDocument defaultFile = .ok doc ∧ gather (steps doc) = (firstLayer, none) := by
  -- The characters are read, for it takes far longer to take the text apart.
  have heval : (match (Toml.readLines ((Toml.unifyLines defaultFileChars).length + 1) .empty
      (Toml.unifyLines defaultFileChars)).map (·.root) with
      | .ok doc => (gather (steps doc)).2.isNone && isFirstLayer (gather (steps doc)).1
      | .error _ => false) = true := by
    decide +kernel
  rw [Toml.readDocument, toList_defaultFile]
  cases hread : (Toml.readLines ((Toml.unifyLines defaultFileChars).length + 1) .empty
    (Toml.unifyLines defaultFileChars)).map (·.root) with
  | error fault =>
    rw [hread] at heval
    exact absurd heval (by simp)
  | ok doc =>
    rw [hread] at heval
    dsimp only at heval
    rw [Bool.and_eq_true, Option.isNone_iff_eq_none] at heval
    exact ⟨doc, rfl, Prod.ext (eq_firstLayer heval.2) heval.1⟩

theorem foundAt_defaultFile {m : Machine} {p : Path}
    (h : m.content? p = some (.bytes defaultFile.toUTF8)) :
    ∃ doc, foundAt m p = .loaded doc ∧ (foundAt m p).layer = firstLayer := by
  obtain ⟨doc, hread, hgather⟩ := readDocument_defaultFile
  have hdoc : foundAt m p = foundIn (.ok doc) := by
    rw [foundAt_of_text h, documentIn_of_readDocument hread]
  refine ⟨doc, ?_, ?_⟩
  · rw [hdoc, foundIn, hgather]
  · rw [hdoc, layer_foundIn, hgather]

/-! ## What is loaded -/

/-- What the files after the user's own give. -/
def givenLater (m : Machine) : Layer := givenBy m ((searchPaths m.host).drop 2)

/-- The profile that is applied last, if there is one of the name that is wanted. -/
def appliedProfile? (asked : Option String) (m : Machine) : Option Profile :=
  (wantedName? asked (loadedSettings m)).bind (givenBy m (searchPaths m.host)).profile?

/-- The settings take up the file of the user: it is a source of them and its profile is known, and
the rest is as the file has it unless a profile, the environment or a later file gives it. -/
structure TakesUp (p : Path) (asked : Option String) (m : Machine) (s : Settings) : Prop where
  source : p.text ∈ s.sources
  profile : s.profiles.holds "cafe" = true
  address : s.address = ((appliedProfile? asked m).map (·.address) <|>
    textOf? m.host.env "ADDRESS" <|> (givenLater m).addresses.getLast?).getD Address.randomWord
  withSudo : s.withSudo = (sudoOf? m.host.env <|> (givenLater m).sudos.getLast?).getD true
  timeout : s.timeout = (limitOf? m.host.env <|> (givenLater m).timeouts.getLast?).getD .null

/-- The last of several values, if one of them is known. -/
theorem getD_orElse_getLast? {α : Type} (o : Option α) (xs ys : List α) (a d : α) :
    (o <|> (xs ++ ([a] ++ ys)).getLast?).getD d = (o <|> ys.getLast?).getD a := by
  rw [List.getLast?_append, List.getLast?_append]
  cases o with
  | some b => rfl
  | none =>
    cases ys.getLast? with
    | none => rfl
    | some b => rfl

/-- The file of the user is the second. -/
theorem givenBy_of_found {m : Machine} (h : (foundAt m (userFile m.host)).layer = firstLayer) :
    ∃ before : Layer, givenBy m (searchPaths m.host) = before ++ (firstLayer ++ givenLater m) := by
  refine ⟨(foundAt m (Path.ofString "/etc/mac-changer" / "config.toml")).layer, ?_⟩
  rw [← h]
  rfl

/-- **If the file of the user is as it was made, settings take it up.** -/
theorem takesUp_of_load {asked : Option String} {m m' : Machine} {s : Settings}
    (hfile : m.content? (userFile m.host) = some (.bytes defaultFile.toUTF8))
    (h : load asked m = (.ok s, m')) : TakesUp (userFile m.host) asked m s := by
  obtain ⟨doc, hfound, hlayer⟩ := foundAt_defaultFile hfile
  obtain ⟨before, hgiven⟩ := givenBy_of_found hlayer
  have hs := (load_eq_ok h).1
  obtain ⟨iface, address, hunder⟩ := underProfile_eq asked (loadedSettings m)
  have hrest := hs.trans hunder
  refine ⟨?_, ?_, ?_, ?_, ?_⟩
  · have hmem : (userFile m.host, doc) ∈ loadedAmong m (searchPaths m.host) :=
      List.mem_filterMap.2 ⟨_, userFile_mem_searchPaths m.host, by rw [hfound]; rfl⟩
    rw [hrest]
    exact List.mem_append_left _ (List.mem_map_of_mem hmem)
  · have hcafe : "cafe" ∈ Keyed.keys (givenBy m (searchPaths m.host)).definitions := by
      rw [hgiven]
      simp [Layer.append_def, firstLayer, Keyed.keys]
    rw [hrest, ← Keyed.mem_keys_iff]
    show "cafe" ∈ Keyed.keys (Keyed.inOrder (givenBy m (searchPaths m.host)).definitions)
    rw [← Keyed.insertAll_eq, Keyed.keys_insertAll]
    exact List.mem_eraseDups.2 hcafe
  · have hget := get_underProfile asked m .address
    rw [← hs, ← appliedProfile?] at hget
    have hgives : (givenBy m (searchPaths m.host)).gives? .address =
        (before.addresses ++ ([Address.randomWord] ++ (givenLater m).addresses)).getLast? := by
      rw [hgiven]
      rfl
    refine hget.trans ?_
    rw [hgives]
    cases appliedProfile? asked m with
    | some p => rfl
    | none => exact getD_orElse_getLast? _ _ _ _ _
  · rw [hrest]
    show (sudoOf? m.host.env <|> (givenBy m (searchPaths m.host)).sudos.getLast?).getD true = _
    rw [hgiven]
    exact getD_orElse_getLast? _ _ _ _ _
  · rw [hrest]
    show (limitOf? m.host.env <|> (givenBy m (searchPaths m.host)).timeouts.getLast?).getD .null = _
    rw [hgiven]
    exact getD_orElse_getLast? _ _ _ _ _

/-! ## Making the file -/

theorem userFile_eq (h : Host) :
    userFile h = ⟨(directory h).root, (directory h).names ++ ["config.toml"]⟩ := by
  have hname : Path.ofString "config.toml" = ⟨"", ["config.toml"]⟩ := by decide
  show (directory h).join (Path.ofString "config.toml") = _
  rw [hname]
  rfl

/-- The file can be written: there is none, or it is to be replaced and is no directory. -/
def Writable (replace : Bool) (m : Machine) : Prop :=
  m.content? (userFile m.host) = none ∨
    replace = true ∧ m.content? (userFile m.host) ≠ some .directory

/-- What making the file comes to: nothing, for one of three reasons, or a file that is written. -/
inductive Makes (replace : Bool) (m : Machine) : Except Failure (Option Path) × Machine → Prop
  | hindered (e : Failure) (h : ¬m.Admits (directory m.host)) : Makes replace m (.error e, m)
  | kept (hdirectory : m.Admits (directory m.host)) (hreplace : replace = false)
      (h : m.fileExists (userFile m.host) = true) : Makes replace m (.ok none, m)
  | unwritable (e : Failure) (hreplace : replace = true)
      (h : m.content? (userFile m.host) = some .directory) : Makes replace m (.error e, m)
  | made (hdirectory : m.Admits (directory m.host)) (h : Writable replace m) :
      Makes replace m (.ok (some (userFile m.host)), m.written (userFile m.host) defaultFile)

theorem makes_makeUserFile (replace : Bool) (m : Machine) :
    Makes replace m (makeUserFile replace m) := by
  rw [makeUserFile, bind_ok (current_apply m)]
  rcases m.makeDirectory_cases (directory m.host) with ⟨hdirectory, hmake⟩ | ⟨hno, e, hmake⟩
  · rw [bind_ok hmake, bind_ok (current_apply m)]
    by_cases hkeep : (m.fileExists (userFile m.host) && !replace) = true
    · rw [if_pos hkeep]
      rw [Bool.and_eq_true, Bool.not_eq_true'] at hkeep
      exact .kept hdirectory hkeep.2 hkeep.1
    · rw [if_neg hkeep]
      have hwritable : m.content? (userFile m.host) = none ∨ replace = true := by
        cases hcontent : m.content? (userFile m.host) with
        | none => exact .inl rfl
        | some c => exact .inr (by simpa [Machine.fileExists, hcontent] using hkeep)
      rcases m.writeText_cases (userFile m.host) defaultFile with
        ⟨hthere, e, hwrite⟩ | ⟨hno, hwrite⟩
      · rw [bind_error hwrite]
        refine .unwritable e (hwritable.resolve_left ?_) hthere
        rw [hthere]
        simp
      · rw [bind_ok hwrite]
        exact .made hdirectory (hwritable.imp_right fun hreplace => ⟨hreplace, hno⟩)
  · rw [bind_error hmake]
    exact .hindered e hno

namespace Makes

variable {replace : Bool} {m m' : Machine} {r : Except Failure (Option Path)}

/-- A directory is not absent, so it cannot be written over. -/
theorem not_writable (h : m.content? (userFile m.host) = some .directory) :
    ¬Writable replace m := by
  intro hwritable
  rcases hwritable with hnone | ⟨-, hno⟩
  · exact absurd (h.symm.trans hnone) (by simp)
  · exact hno h

theorem isMade_iff (h : Makes replace m (r, m')) :
    (∃ p, r = .ok (some p)) ↔ m.Admits (directory m.host) ∧ Writable replace m := by
  cases h with
  | hindered e hno => exact iff_of_false (by simp) fun h => hno h.1
  | kept hdirectory hreplace hexists =>
    refine iff_of_false (by simp) fun h => ?_
    rcases h.2 with hnone | ⟨hreplace', -⟩
    · rw [Machine.fileExists, hnone] at hexists
      exact absurd hexists (by simp)
    · exact absurd (hreplace.symm.trans hreplace') (by simp)
  | unwritable e hreplace hthere => exact iff_of_false (by simp) fun h => not_writable hthere h.2
  | made hdirectory hwritable => exact iff_of_true ⟨_, rfl⟩ ⟨hdirectory, hwritable⟩

theorem isKept_iff (h : Makes replace m (r, m')) :
    r = .ok none ↔ m.Admits (directory m.host) ∧ replace = false ∧
      m.fileExists (userFile m.host) = true := by
  cases h with
  | hindered e hno => exact iff_of_false (by simp) fun h => hno h.1
  | kept hdirectory hreplace hexists => exact iff_of_true rfl ⟨hdirectory, hreplace, hexists⟩
  | unwritable e hreplace hthere =>
    exact iff_of_false (by simp) fun h => absurd (hreplace.symm.trans h.2.1) (by simp)
  | made hdirectory hwritable =>
    refine iff_of_false (by simp) fun h => ?_
    rcases hwritable with hnone | ⟨hreplace, -⟩
    · rw [Machine.fileExists, hnone] at h
      exact absurd h.2.2 (by simp)
    · exact absurd (hreplace.symm.trans h.2.1) (by simp)

end Makes

/-- A file that has been made is not made again. -/
theorem makeUserFile_written {m : Machine} (h : m.Admits (directory m.host)) :
    makeUserFile false (m.written (userFile m.host) defaultFile) =
      (.ok none, m.written (userFile m.host) defaultFile) := by
  have hadmits : (m.written (userFile m.host) defaultFile).Admits (directory m.host) := by
    rw [userFile_eq]
    exact h.written defaultFile (by decide)
  have hexists : (m.written (userFile m.host) defaultFile).fileExists (userFile m.host) = true := by
    rw [Machine.fileExists, (Machine.writes_written _ _ m).content]
    rfl
  have hmake := ((m.written (userFile m.host) defaultFile).makeDirectory_cases
    (directory m.host)).resolve_right fun hno => hno.1 hadmits
  rw [makeUserFile, bind_ok (current_apply _)]
  show (Machine.makeDirectory (directory m.host) >>= _) _ = _
  rw [bind_ok hmake.2, bind_ok (current_apply _)]
  show (if Machine.fileExists _ (userFile m.host) && !false then _ else _ : Step _ _) _ = _
  rw [hexists]
  rfl

/-- **Making the file of the user** writes that file, which is the second that is looked for, and
nothing else; or it does nothing. It is made just if its directory can be one and nothing is there
that is to stay. Once the file is made, settings take it up, and it is not made again. -/
theorem makeUserFile_makes_or_keeps (replace : Bool) (m : Machine) :
    ((∃ p, (makeUserFile replace m).1 = .ok (some p)) ↔
        m.Admits (directory m.host) ∧ Writable replace m) ∧
      ((makeUserFile replace m).1 = .ok none ↔
        m.Admits (directory m.host) ∧ replace = false ∧ m.fileExists (userFile m.host) = true) ∧
      match makeUserFile replace m with
      | (.ok (some p), m') =>
        (searchPaths m.host)[1]? = some p ∧ (replace = false → m.content? p = none) ∧
          m.Writes p defaultFile m' ∧
          (∀ asked s m'', load asked m' = (.ok s, m'') → TakesUp p asked m' s) ∧
          makeUserFile false m' = (.ok none, m')
      | (_, m') => m' = m := by
  have hmakes := makes_makeUserFile replace m
  rcases hmake : makeUserFile replace m with ⟨r, m'⟩
  rw [hmake] at hmakes
  refine ⟨hmakes.isMade_iff, hmakes.isKept_iff, ?_⟩
  cases hmakes with
  | hindered e hno => rfl
  | kept hdirectory hreplace hexists => rfl
  | unwritable e hreplace hthere => rfl
  | made hdirectory hwritable =>
    have hwrites := Machine.writes_written (userFile m.host) defaultFile m
    refine ⟨rfl, ?_, hwrites, ?_, makeUserFile_written hdirectory⟩
    · intro hreplace
      exact hwritable.resolve_right fun h => absurd (hreplace.symm.trans h.1) (by simp)
    · intro asked s m'' hload
      exact takesUp_of_load hwrites.content hload

/-- A machine without files, whose user has chosen a directory. -/
def unwritten : Machine :=
  { holding [("XDG_CONFIG_HOME", "there/../here")] "" with files := [] }

/-- The file is made in the directory of the user's choice, and is loaded from there. -/
theorem makeUserFile_makes_unwritten :
    ∃ p m' s m'', makeUserFile false unwritten = (.ok (some p), m') ∧
      p.text = "there/../here/mac-changer/config.toml" ∧
      m'.trace = [.wrote ⟨"/", ["work", "here", "mac-changer", "config.toml"]⟩ defaultFile] ∧
      load none m' = (.ok s, m'') ∧ p.text ∈ s.sources ∧ s.profiles.holds "cafe" = true ∧
      makeUserFile false m' = (.ok none, m') := by
  let p : Path := userFile unwritten.host
  let m' : Machine := unwritten.written p defaultFile
  have hmake : makeUserFile false unwritten = (.ok (some p), m') := rfl
  have hmade := (makeUserFile_makes_or_keeps false unwritten).2.2
  rw [hmake] at hmade
  obtain ⟨-, -, hwrites, htakes, hagain⟩ := hmade
  obtain ⟨doc, hfound, hlayer⟩ := foundAt_defaultFile hwrites.content
  have hpaths : searchPaths m'.host = [Path.ofString "/etc/mac-changer" / "config.toml", p,
      unwritten.host.home / ".mac-changer.toml", unwritten.host.cwd / ".mac-changer.toml",
      unwritten.host.cwd / "mac-changer.toml"] := rfl
  have hsystem : foundAt m' (Path.ofString "/etc/mac-changer" / "config.toml") = .absent :=
    foundAt_of_none rfl
  have hhome : foundAt m' (unwritten.host.home / ".mac-changer.toml") = .absent :=
    foundAt_of_none rfl
  have hwork : foundAt m' (unwritten.host.cwd / ".mac-changer.toml") = .absent :=
    foundAt_of_none rfl
  have hother : foundAt m' (unwritten.host.cwd / "mac-changer.toml") = .absent :=
    foundAt_of_none rfl
  have hskips : ∀ q ∈ searchPaths m'.host, Skips m' q := by
    intro q hq l e hfails
    rw [hpaths] at hq
    simp only [List.mem_cons, List.not_mem_nil, or_false] at hq
    rcases hq with rfl | rfl | rfl | rfl | rfl
    · exact nomatch hsystem.symm.trans hfails
    · exact nomatch hfound.symm.trans hfails
    · exact nomatch hhome.symm.trans hfails
    · exact nomatch hwork.symm.trans hfails
    · exact nomatch hother.symm.trans hfails
  have hgiven : givenBy m' (searchPaths m'.host) = firstLayer := by
    rw [hpaths, givenBy]
    simp only [List.map_cons, List.map_nil, hsystem, hhome, hwork, hother, hlayer]
    rfl
  obtain ⟨s, m'', hload⟩ : ∃ s m'', load none m' = (.ok s, m'') := by
    rw [load_of_skips hskips, hgiven]
    exact ⟨_, _, rfl⟩
  have htaken := htakes none s m'' hload
  exact ⟨p, m', s, m'', hmake, rfl, rfl, hload, htaken.source, htaken.profile, hagain⟩

end Settings

end LinkOverride
