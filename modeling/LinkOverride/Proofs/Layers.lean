import LinkOverride.Settings.Merge
import LinkOverride.Proofs.Respect

/-!
# Layers of settings

A document is merged value by value, and each value is taken over as soon as it has been read. So
what a document does to the settings is to put a layer over them; and if a value cannot be read, what
stands before it is a layer too, and stays.

The order in which values are taken over is kept in `steps`, one entry for each value, which is what
it gives or why it gives nothing. If all can be read, the order does not matter any more: the layer
is what a look at the document says, `Layer.ofDocument`.
-/

namespace LinkOverride.Settings

open Step

/-! ## Layers -/

/-- What a document gives, or several in a row. Of several values the last counts. -/
structure Layer where
  ifaces : List String
  addresses : List String
  sudos : List Bool
  timeouts : List Value
  definitions : List (String × Profile)
  defaultProfiles : List Value

namespace Layer

def empty : Layer := ⟨[], [], [], [], [], []⟩

instance : Append Layer where
  append a b :=
    ⟨a.ifaces ++ b.ifaces, a.addresses ++ b.addresses, a.sudos ++ b.sudos, a.timeouts ++ b.timeouts,
      a.definitions ++ b.definitions, a.defaultProfiles ++ b.defaultProfiles⟩

theorem append_def (a b : Layer) : a ++ b =
    ⟨a.ifaces ++ b.ifaces, a.addresses ++ b.addresses, a.sudos ++ b.sudos, a.timeouts ++ b.timeouts,
      a.definitions ++ b.definitions, a.defaultProfiles ++ b.defaultProfiles⟩ := rfl

@[simp] theorem append_empty (a : Layer) : a ++ empty = a := by
  simp only [append_def, empty, List.append_nil]

theorem append_assoc (a b c : Layer) : a ++ b ++ c = a ++ (b ++ c) := by
  simp only [append_def, List.append_assoc]

def sum (ls : List Layer) : Layer := ls.foldr (· ++ ·) empty

@[simp] theorem sum_cons (l : Layer) (ls : List Layer) : sum (l :: ls) = l ++ sum ls := rfl

/-- The settings under a layer. A definition takes the place of an earlier one of its name. -/
def cover (l : Layer) (s : Settings) : Settings :=
  { s with
    iface := l.ifaces.getLast?.getD s.iface
    address := l.addresses.getLast?.getD s.address
    withSudo := l.sudos.getLast?.getD s.withSudo
    timeout := l.timeouts.getLast?.getD s.timeout
    defaultProfile := l.defaultProfiles.getLast?.getD s.defaultProfile
    profiles := l.definitions.foldl (fun ps d => ps.insert d.1 d.2) s.profiles }

@[simp] theorem empty_cover (s : Settings) : empty.cover s = s := rfl

/-- One layer over another is one layer. -/
theorem append_cover (a b : Layer) (s : Settings) : (a ++ b).cover s = b.cover (a.cover s) := by
  have hlast : ∀ {α : Type} (xs ys : List α) (d : α),
      (xs ++ ys).getLast?.getD d = ys.getLast?.getD (xs.getLast?.getD d) := by
    intro α xs ys d
    rw [List.getLast?_append]
    cases ys.getLast? with
    | none => rfl
    | some y => rfl
  simp only [cover, append_def, hlast, List.foldl_append]

end Layer

/-! ## One value after the other -/

/-- What is given up to the first failure, and the failure. -/
def gather : List (Except Failure Layer) → Layer × Option Failure
  | [] => (.empty, none)
  | .error e :: _ => (.empty, some e)
  | .ok l :: rs => (l ++ (gather rs).1, (gather rs).2)

/-- A step that takes over the values of a layer and then fails, if there is a failure. -/
def Takes (x : Step Settings Unit) (r : Layer × Option Failure) : Prop :=
  ∀ s, x s = (match r.2 with | none => .ok () | some e => .error e, r.1.cover s)

/-- A step that takes over one value, or fails to read it. -/
def TakesOne (x : Step Settings Unit) (r : Except Failure Layer) : Prop :=
  ∀ s, x s = match r with
    | .ok l => (.ok (), l.cover s)
    | .error e => (.error e, s)

theorem takes_pure : Takes (pure ()) (gather []) := fun _ => rfl

theorem TakesOne.takes {x : Step Settings Unit} {r : Except Failure Layer} (h : TakesOne x r) :
    Takes x (gather [r]) := by
  intro s
  rw [h s]
  cases r with
  | error e => rfl
  | ok l => rw [gather, gather, Layer.append_empty]

/-- **One value, and then all that follow.** -/
theorem TakesOne.bind {x y : Step Settings Unit} {r : Except Failure Layer}
    {rs : List (Except Failure Layer)} (hx : TakesOne x r) (hy : Takes y (gather rs)) :
    Takes (x >>= fun _ => y) (gather (r :: rs)) := by
  intro s
  cases r with
  | error e =>
    rw [bind_error (hx s)]
    rfl
  | ok l => rw [bind_ok (hx s), hy, gather, Layer.append_cover]

theorem gather_append (rs rs' : List (Except Failure Layer)) :
    gather (rs ++ rs') =
      match (gather rs).2 with
      | none => ((gather rs).1 ++ (gather rs').1, (gather rs').2)
      | some e => ((gather rs).1, some e) := by
  induction rs with
  | nil => rfl
  | cons r rs ih =>
    cases r with
    | error e => rfl
    | ok l =>
      rw [List.cons_append, gather, gather, ih]
      cases (gather rs).2 with
      | none => rw [Layer.append_assoc]
      | some e => rfl

/-- **All that some values do**, and then all that others do. -/
theorem Takes.bind {x y : Step Settings Unit} {rs rs' : List (Except Failure Layer)}
    (hx : Takes x (gather rs)) (hy : Takes y (gather rs')) :
    Takes (x >>= fun _ => y) (gather (rs ++ rs')) := by
  intro s
  rw [gather_append]
  have h := hx s
  cases he : (gather rs).2 with
  | none =>
    rw [he] at h
    rw [bind_ok h, hy, Layer.append_cover]
  | some e =>
    rw [he] at h
    rw [bind_error h]

theorem gather_cons_eq_none {r : Except Failure Layer} {rs : List (Except Failure Layer)}
    (h : (gather (r :: rs)).2 = none) :
    ∃ l, r = .ok l ∧ (gather rs).2 = none ∧ (gather (r :: rs)).1 = l ++ (gather rs).1 := by
  cases r with
  | error e => exact absurd h (by simp [gather])
  | ok l => exact ⟨l, rfl, h, rfl⟩

theorem gather_append_eq_none {rs rs' : List (Except Failure Layer)}
    (h : (gather (rs ++ rs')).2 = none) :
    (gather rs).2 = none ∧ (gather rs').2 = none ∧
      (gather (rs ++ rs')).1 = (gather rs).1 ++ (gather rs').1 := by
  rw [gather_append] at h ⊢
  cases he : (gather rs).2 with
  | none =>
    rw [he] at h
    exact ⟨rfl, h, rfl⟩
  | some e =>
    rw [he] at h
    exact absurd h (by simp)

/-! ## The values of a document -/

/-- What a section gives under a key. -/
def offer (part : Value) (key : String) (give : Value → Except Failure Layer) :
    Except Failure Layer := do
  match ← under? part key with
  | some v => give v
  | none => return .empty

def giveIface (v : Value) : Except Failure Layer :=
  v.text.map fun t => { Layer.empty with ifaces := [t] }

def giveAddress (v : Value) : Except Failure Layer :=
  v.text.map fun t => { Layer.empty with addresses := [t] }

def giveSudo (v : Value) : Except Failure Layer := .ok { Layer.empty with sudos := [v.isTruthy] }

def giveTimeout (v : Value) : Except Failure Layer :=
  (readTimeout v).map fun t => { Layer.empty with timeouts := [t] }

def giveProfile (name : String) (v : Value) : Except Failure Layer :=
  match v with
  | .table es => (readProfile es).map fun p => { Layer.empty with definitions := [(name, p)] }
  | _ => .ok .empty

/-- The time limit is read first and taken over last. -/
def defaultsSteps (part : Value) : List (Except Failure Layer) :=
  [ (offer part "timeout" giveTimeout).map fun _ => .empty,
    offer part "iface" giveIface,
    offer part "address" giveAddress,
    offer part "sudo" giveSudo,
    offer part "timeout" giveTimeout ]

def profileSteps (part : Value) : List (Except Failure Layer) :=
  match part with
  | .table es => es.map fun e => giveProfile e.1 e.2
  | _ => [.error .profilesNotTable]

def steps (doc : Entries) : List (Except Failure Layer) :=
  defaultsSteps ((doc.find? "defaults").getD (.table [])) ++
    profileSteps ((doc.find? "profiles").getD (.table [])) ++
    [.ok { Layer.empty with defaultProfiles := (doc.find? "default_profile").toList }]

/-! ## Merging a document -/

theorem takesOne_takeOver {part : Value} {key : String} {give : Value → Except Failure Layer}
    {use : Value → Except Failure (Settings → Settings)}
    (h : ∀ v, use v = (give v).map Layer.cover) :
    TakesOne (takeOver part key use) (offer part key give) := by
  intro s
  rw [takeOver, offer]
  cases under? part key with
  | error e => rfl
  | ok found =>
    cases found with
    | none => rfl
    | some v =>
      rw [bind_ok (ofExcept_apply _ s)]
      dsimp only
      rw [h v]
      show _ = match give v with
        | .ok l => (Except.ok (), l.cover s)
        | .error e => (Except.error e, s)
      cases give v with
      | error e => rfl
      | ok l => rfl

/-- The time limit that a section gives, if it gives one. -/
def limitIn (part : Value) : Except Failure (Option Value) := do
  match ← under? part "timeout" with
  | some v => return some (← readTimeout v)
  | none => return none

theorem offer_timeout (part : Value) :
    offer part "timeout" giveTimeout =
      (limitIn part).map fun t => { Layer.empty with timeouts := t.toList } := by
  rw [offer, limitIn]
  cases under? part "timeout" with
  | error e => rfl
  | ok found =>
    cases found with
    | none => rfl
    | some v =>
      show giveTimeout v = Except.map _ (readTimeout v >>= fun t => pure (some t))
      rw [giveTimeout]
      cases readTimeout v with
      | error e => rfl
      | ok t => rfl

theorem takes_mergeDefaults (part : Value) :
    Takes (mergeDefaults part) (gather (defaultsSteps part)) := by
  have hiface : TakesOne (takeOver part "iface" fun v => do
      let t ← v.text
      return fun s => { s with iface := t }) (offer part "iface" giveIface) := by
    refine takesOne_takeOver fun v => ?_
    rw [giveIface]
    cases v.text with
    | error e => rfl
    | ok t => rfl
  have haddress : TakesOne (takeOver part "address" fun v => do
      let t ← v.text
      return fun s => { s with address := t }) (offer part "address" giveAddress) := by
    refine takesOne_takeOver fun v => ?_
    rw [giveAddress]
    cases v.text with
    | error e => rfl
    | ok t => rfl
  have hsudo : TakesOne (takeOver part "sudo" fun v =>
      return fun s => { s with withSudo := v.isTruthy }) (offer part "sudo" giveSudo) :=
    takesOne_takeOver fun v => rfl
  have hdefaults : mergeDefaults part = (Step.ofExcept (limitIn part) >>= fun limit => do
      takeOver part "iface" fun v => do
        let t ← v.text
        return fun s => { s with iface := t }
      takeOver part "address" fun v => do
        let t ← v.text
        return fun s => { s with address := t }
      takeOver part "sudo" fun v => return fun s => { s with withSudo := v.isTruthy }
      match limit with
      | some t => .modify fun s => { s with timeout := t }
      | none => pure ()) := rfl
  have hlast : ∀ limit : Option Value, TakesOne (match limit with
      | some t => .modify fun s => { s with timeout := t }
      | none => pure ()) (.ok { Layer.empty with timeouts := limit.toList }) := by
    intro limit
    cases limit with
    | none => exact fun s => rfl
    | some t => exact fun s => rfl
  rw [hdefaults, defaultsSteps, offer_timeout]
  cases limitIn part with
  | error e => exact fun s => rfl
  | ok limit => exact hiface.bind (haddress.bind (hsudo.bind (hlast limit).takes))

theorem takes_mergeProfiles (part : Value) :
    Takes (mergeProfiles part) (gather (profileSteps part)) := by
  have hone : ∀ name v, TakesOne (mergeProfile name v) (giveProfile name v) := by
    intro name v s
    cases v with
    | table es =>
      rw [mergeProfile, giveProfile]
      cases readProfile es with
      | error e => rfl
      | ok p => rfl
    | _ => rfl
  have heach : ∀ es : Entries,
      Takes (mergeEach es) (gather (es.map fun e => giveProfile e.1 e.2)) := by
    intro es
    induction es with
    | nil => exact takes_pure
    | cons e es ih => exact (hone e.1 e.2).bind ih
  cases part with
  | table es => exact heach es
  | _ => exact fun s => rfl

/-- All of a merge but that the source is added. -/
def takeAll (doc : Entries) : Step Settings Unit := do
  mergeDefaults ((doc.find? "defaults").getD (.table []))
  mergeProfiles ((doc.find? "profiles").getD (.table []))
  match doc.find? "default_profile" with
  | some v => .modify fun s => { s with defaultProfile := v }
  | none => pure ()

theorem merge_eq (doc : Entries) (source : String) :
    merge doc source =
      takeAll doc >>= fun _ => .modify fun s => { s with sources := s.sources ++ [source] } := by
  cases hname : doc.find? "default_profile" with
  | none => simp only [merge, takeAll, hname, bind_assoc, pure_bind]
  | some v => simp only [merge, takeAll, hname, bind_assoc]

theorem takes_takeAll (doc : Entries) : Takes (takeAll doc) (gather (steps doc)) := by
  have hname : TakesOne (match doc.find? "default_profile" with
      | some v => .modify fun s => { s with defaultProfile := v }
      | none => pure ())
      (.ok { Layer.empty with defaultProfiles := (doc.find? "default_profile").toList }) := by
    intro s
    cases doc.find? "default_profile" with
    | none => rfl
    | some v => rfl
  rw [steps, List.append_assoc]
  exact (takes_mergeDefaults _).bind ((takes_mergeProfiles _).bind hname.takes)

/-- **Merging a document** puts over the settings what it gives, up to the first failure. If there is
none, its source is added. -/
theorem merge_apply (doc : Entries) (source : String) (s : Settings) :
    merge doc source s =
      match gather (steps doc) with
      | (l, none) => (.ok (), { l.cover s with sources := s.sources ++ [source] })
      | (l, some e) => (.error e, l.cover s) := by
  have htakes := takes_takeAll doc s
  rw [merge_eq]
  rcases hgather : gather (steps doc) with ⟨l, _ | e⟩
  · rw [hgather] at htakes
    rw [bind_ok htakes]
    rfl
  · rw [hgather] at htakes
    rw [bind_error htakes]

/-! ## What a document says -/

/-- The value under a key of the defaults. -/
def inDefaults? (doc : Entries) (key : String) : Option Value :=
  match doc.find? "defaults" with
  | some (.table es) => Keyed.find? es key
  | _ => none

/-- The tables among the profiles, each as a profile. -/
def profilesIn (doc : Entries) : List (String × Profile) :=
  match doc.find? "profiles" with
  | some (.table es) => es.filterMap fun e =>
    match e.2 with
    | .table fields => (readProfile fields).toOption.map fun p => (e.1, p)
    | _ => none
  | _ => []

/-- What a document gives if everything in it can be read. -/
def Layer.ofDocument (doc : Entries) : Layer where
  ifaces := ((inDefaults? doc "iface").bind Value.text?).toList
  addresses := ((inDefaults? doc "address").bind Value.text?).toList
  sudos := ((inDefaults? doc "sudo").map Value.isTruthy).toList
  timeouts := ((inDefaults? doc "timeout").bind fun v => (readTimeout v).toOption).toList
  definitions := profilesIn doc
  defaultProfiles := (doc.find? "default_profile").toList

/-- A section that mentions keys only in its own way has no value under any of them. -/
def valueIn? (part : Value) (key : String) : Option Value :=
  match part with
  | .table es => Keyed.find? es key
  | _ => none

/-- A section that is no table, and either cannot be searched for a key or seems to have it. -/
def Misleads (key : String) : Value → Prop
  | .table _ => False
  | .str t => key.toList <:+: t.toList
  | .list vs => ∃ v ∈ vs, v.isText key = true
  | _ => True

theorem valueIn?_of_misleads {part : Value} {key : String} (h : Misleads key part)
    (other : String) : valueIn? part other = none := by
  cases part with
  | table es => exact h.elim
  | _ => rfl

theorem under?_of_misleads {part : Value} {key : String} (h : Misleads key part) :
    under? part key = .error .wrongKind := by
  rw [under?]
  cases part with
  | table es => exact h.elim
  | str t =>
    have hholds : Text.holdsRun key.toList t.toList = true := Text.holdsRun_iff.2 h
    rw [mentions, hholds]
    rfl
  | list vs =>
    have hany : (vs.any fun v => v.isText key) = true := List.any_eq_true.2 h
    rw [mentions, hany]
    rfl
  | _ => rfl

theorem under?_of_not_misleads {part : Value} {key : String} (h : ¬ Misleads key part) :
    under? part key = .ok (valueIn? part key) := by
  rw [under?]
  cases part with
  | table es =>
    rw [mentions, valueUnder, Keyed.holds, valueIn?]
    cases Keyed.find? es key with
    | none => rfl
    | some v => rfl
  | str t =>
    have hholds : Text.holdsRun key.toList t.toList = false :=
      Bool.eq_false_iff.2 fun hholds => h (Text.holdsRun_iff.1 hholds)
    rw [mentions, hholds]
    rfl
  | list vs =>
    have hany : (vs.any fun v => v.isText key) = false :=
      Bool.eq_false_iff.2 fun hany => h (List.any_eq_true.1 hany)
    rw [mentions, hany]
    rfl
  | _ => exact absurd trivial h

theorem under?_eq_ok {part : Value} {key : String} {found : Option Value}
    (h : under? part key = .ok found) : found = valueIn? part key := by
  by_cases hmisleads : Misleads key part
  · exact absurd (h.symm.trans (under?_of_misleads hmisleads)) (by simp)
  · exact Except.ok.inj (h.symm.trans (under?_of_not_misleads hmisleads))

/-- A section fails to give something under a key for one of two reasons. -/
theorem offer_eq_error_iff {part : Value} {key : String} {give : Value → Except Failure Layer}
    {e : Failure} :
    offer part key give = .error e ↔
      Misleads key part ∧ e = .wrongKind ∨ ∃ v, valueIn? part key = some v ∧ give v = .error e := by
  rw [offer]
  by_cases h : Misleads key part
  · rw [under?_of_misleads h, valueIn?_of_misleads h]
    simp [h, bind, Except.bind, eq_comm]
  · rw [under?_of_not_misleads h]
    cases valueIn? part key with
    | none => simp [h, bind, Except.bind, pure, Except.pure]
    | some v => simp [h, bind, Except.bind]

theorem inDefaults?_eq (doc : Entries) (key : String) :
    inDefaults? doc key = valueIn? ((doc.find? "defaults").getD (.table [])) key := by
  rw [inDefaults?]
  cases doc.find? "defaults" with
  | none => rfl
  | some v => cases v <;> rfl

theorem offer_eq_ok {part : Value} {key : String} {give : Value → Except Failure Layer} {l : Layer}
    (h : offer part key give = .ok l) :
    valueIn? part key = none ∧ l = .empty ∨ ∃ v, valueIn? part key = some v ∧ give v = .ok l := by
  rw [offer] at h
  obtain ⟨found, hunder, h⟩ := bind_eq_ok_iff.1 h
  rw [← under?_eq_ok hunder]
  cases found with
  | none => exact .inl ⟨rfl, (Except.ok.inj h).symm⟩
  | some v => exact .inr ⟨v, rfl, h⟩

/-- A section gives one value under a key, which is `read` from it and `put` into a layer. -/
theorem offer_eq {α : Type} {part : Value} {key : String} {l : Layer}
    (read : Value → Except Failure α) (put : List α → Layer) (hput : put [] = .empty)
    (h : offer part key (fun v => (read v).map fun t => put [t]) = .ok l) :
    l = put ((valueIn? part key).bind fun v => (read v).toOption).toList := by
  rcases offer_eq_ok h with ⟨hnone, rfl⟩ | ⟨v, hsome, hgive⟩
  · rw [hnone]
    exact hput.symm
  · obtain ⟨t, hread, rfl⟩ := map_eq_ok_iff.1 hgive
    rw [hsome, Option.bind_some, hread]
    rfl

theorem text_toOption (v : Value) : v.text.toOption = v.text? := by
  rw [Value.text]
  cases v.text? with
  | none => rfl
  | some t => rfl

/-- The defaults that a section gives if all of it can be read. -/
theorem gather_defaultsSteps {part : Value} (h : (gather (defaultsSteps part)).2 = none) :
    (gather (defaultsSteps part)).1 =
      { Layer.empty with
        ifaces := ((valueIn? part "iface").bind Value.text?).toList
        addresses := ((valueIn? part "address").bind Value.text?).toList
        sudos := ((valueIn? part "sudo").map Value.isTruthy).toList
        timeouts := ((valueIn? part "timeout").bind fun v => (readTimeout v).toOption).toList } := by
  obtain ⟨l₁, hcheck, h, hsum₁⟩ := gather_cons_eq_none h
  obtain ⟨l₂, hiface, h, hsum₂⟩ := gather_cons_eq_none h
  obtain ⟨l₃, haddress, h, hsum₃⟩ := gather_cons_eq_none h
  obtain ⟨l₄, hsudo, h, hsum₄⟩ := gather_cons_eq_none h
  obtain ⟨l₅, htimeout, -, hsum₅⟩ := gather_cons_eq_none h
  have hl₁ : l₁ = .empty := by
    rw [htimeout] at hcheck
    exact (Except.ok.inj hcheck).symm
  have hl₂ := offer_eq Value.text (fun ts => { Layer.empty with ifaces := ts }) rfl hiface
  have hl₃ := offer_eq Value.text (fun ts => { Layer.empty with addresses := ts }) rfl haddress
  have hl₄ := offer_eq (fun v => .ok v.isTruthy) (fun bs => { Layer.empty with sudos := bs }) rfl hsudo
  have hl₅ := offer_eq readTimeout (fun ts => { Layer.empty with timeouts := ts }) rfl htimeout
  rw [defaultsSteps, hsum₁, hsum₂, hsum₃, hsum₄, hsum₅, hl₁, hl₂, hl₃, hl₄, hl₅]
  have hsudos : (valueIn? part "sudo").bind (fun v => (.ok v.isTruthy : Except Failure Bool).toOption) =
      (valueIn? part "sudo").map Value.isTruthy := by
    rw [Option.map_eq_bind]
    rfl
  simp only [text_toOption, hsudos, gather, Layer.append_def, Layer.empty, List.nil_append,
    List.append_nil]

/-- The profiles that a section gives if all of it can be read. -/
theorem gather_profileSteps {es : Entries}
    (h : (gather (es.map fun e => giveProfile e.1 e.2)).2 = none) :
    (gather (es.map fun e => giveProfile e.1 e.2)).1 =
      { Layer.empty with
        definitions := es.filterMap fun e =>
          match e.2 with
          | .table fields => (readProfile fields).toOption.map fun p => (e.1, p)
          | _ => none } := by
  induction es with
  | nil => rfl
  | cons e es ih =>
    obtain ⟨l, hl, hrest, hsum⟩ := gather_cons_eq_none h
    rw [List.map_cons, hsum, ih hrest, List.filterMap_cons]
    obtain ⟨name, v⟩ := e
    cases v with
    | table fields =>
      dsimp only at hl ⊢
      rw [giveProfile] at hl
      obtain ⟨p, hread, rfl⟩ := map_eq_ok_iff.1 hl
      rw [hread]
      rfl
    | _ =>
      rw [← Except.ok.inj hl]
      rfl

/-- **If everything in a document can be read**, it gives what it says. -/
theorem gather_steps {doc : Entries} (h : (gather (steps doc)).2 = none) :
    (gather (steps doc)).1 = Layer.ofDocument doc := by
  obtain ⟨hparts, hname, hsum⟩ := gather_append_eq_none h
  obtain ⟨hdefaults, hprofiles, hsum'⟩ := gather_append_eq_none hparts
  have hdefinitions : (gather (profileSteps ((doc.find? "profiles").getD (.table [])))).1 =
      { Layer.empty with definitions := profilesIn doc } := by
    rw [profilesIn]
    cases hp : doc.find? "profiles" with
    | none => rfl
    | some part =>
      rw [hp] at hprofiles
      cases part with
      | table es => exact gather_profileSteps hprofiles
      | _ => exact absurd hprofiles (by simp [profileSteps, gather])
  rw [steps, hsum, hsum', gather_defaultsSteps hdefaults, hdefinitions]
  simp only [gather, Layer.append_def, Layer.empty, List.nil_append, List.append_nil,
    Layer.ofDocument, inDefaults?_eq]

/-! ## Fields that other values leave empty -/

/-- A field of a layer that is joined when layers are, and is empty as long as only interfaces,
addresses, answers about sudo and profiles are given. -/
structure Layer.Separate {α : Type} (field : Layer → List α) : Prop where
  append : ∀ a b : Layer, field (a ++ b) = field a ++ field b
  eq_nil : ∀ ifaces addresses sudos definitions,
    field { Layer.empty with ifaces, addresses, sudos, definitions } = []

theorem Layer.separate_timeouts : Layer.Separate Layer.timeouts :=
  ⟨fun _ _ => rfl, fun _ _ _ _ => rfl⟩

theorem Layer.separate_defaultProfiles : Layer.Separate Layer.defaultProfiles :=
  ⟨fun _ _ => rfl, fun _ _ _ _ => rfl⟩

/-- What is taken over from the defaults before the time limit. -/
def stepsBeforeLimit (part : Value) : List (Except Failure Layer) :=
  [ (offer part "timeout" giveTimeout).map fun _ => .empty,
    offer part "iface" giveIface, offer part "address" giveAddress, offer part "sudo" giveSudo ]

theorem defaultsSteps_eq (part : Value) :
    defaultsSteps part = stepsBeforeLimit part ++ [offer part "timeout" giveTimeout] := rfl

namespace Layer.Separate

variable {α : Type} {field : Layer → List α} {part : Value} {l : Layer}

theorem of_empty (hfield : Separate field) : field .empty = [] := hfield.eq_nil [] [] [] []

theorem of_gather (hfield : Separate field) {rs : List (Except Failure Layer)}
    (h : ∀ l, .ok l ∈ rs → field l = []) : field (gather rs).1 = [] := by
  induction rs with
  | nil => exact hfield.of_empty
  | cons r rs ih =>
    cases r with
    | error e => exact hfield.of_empty
    | ok l =>
      rw [gather, hfield.append, h l (.head _), ih fun l' hl' => h l' (.tail _ hl')]
      rfl

theorem of_offer (hfield : Separate field) {key : String} {give : Value → Except Failure Layer}
    (hgive : ∀ v, give v = .ok l → field l = []) (h : offer part key give = .ok l) :
    field l = [] := by
  rcases offer_eq_ok h with ⟨-, rfl⟩ | ⟨v, -, hv⟩
  · exact hfield.of_empty
  · exact hgive v hv

theorem of_stepsBeforeLimit (hfield : Separate field) (h : .ok l ∈ stepsBeforeLimit part) :
    field l = [] := by
  simp only [stepsBeforeLimit, List.mem_cons, List.not_mem_nil, or_false] at h
  rcases h with hcheck | hiface | haddress | hsudo
  · obtain ⟨-, -, rfl⟩ := map_eq_ok_iff.1 hcheck.symm
    exact hfield.of_empty
  · apply hfield.of_offer _ hiface.symm
    intro v hv
    obtain ⟨t, -, rfl⟩ := map_eq_ok_iff.1 hv
    exact hfield.eq_nil [t] [] [] []
  · apply hfield.of_offer _ haddress.symm
    intro v hv
    obtain ⟨t, -, rfl⟩ := map_eq_ok_iff.1 hv
    exact hfield.eq_nil [] [t] [] []
  · apply hfield.of_offer _ hsudo.symm
    intro v hv
    rw [← Except.ok.inj hv]
    exact hfield.eq_nil [] [] [v.isTruthy] []

theorem of_profileSteps (hfield : Separate field) (h : .ok l ∈ profileSteps part) :
    field l = [] := by
  cases part with
  | table es =>
    obtain ⟨⟨name, v⟩, -, hgive⟩ := List.mem_map.1 h
    rw [giveProfile.eq_def] at hgive
    cases v with
    | table fields =>
      obtain ⟨p, -, rfl⟩ := map_eq_ok_iff.1 hgive
      exact hfield.eq_nil [] [] [] [(name, p)]
    | _ =>
      rw [← Except.ok.inj hgive]
      exact hfield.of_empty
  | _ => exact absurd (List.mem_singleton.1 h) (by simp)

end Layer.Separate

/-! ## What a failure leaves behind -/

/-- A failure after which a file is skipped, unless the failure is that a whole number has too many
digits to be written. -/
def LeavesNothing (e : Failure) : Prop := e.skipsFile = true ∧ e ≠ .badValue .tooLongToWrite

/-- All is read just if there is no failure. -/
theorem gather_eq_none_iff {rs : List (Except Failure Layer)} :
    (gather rs).2 = none ↔ ∀ e, .error e ∉ rs := by
  induction rs with
  | nil => simp [gather]
  | cons r rs ih =>
    cases r with
    | error e => exact ⟨fun h => absurd h (by simp [gather]), fun h => absurd (.head _) (h e)⟩
    | ok l => simpa [gather] using ih

theorem mem_of_gather {rs : List (Except Failure Layer)} {e : Failure}
    (h : (gather rs).2 = some e) : .error e ∈ rs := by
  induction rs with
  | nil => exact absurd h (by simp [gather])
  | cons r rs ih =>
    cases r with
    | error e' =>
      rw [Option.some.inj h]
      exact .head _
    | ok l => exact .tail _ (ih h)

/-- A value without a text is a whole number of too many digits, or holds one. -/
theorem text_eq_error {v : Value} {e : Failure} (h : v.text = .error e) :
    e = .badValue .tooLongToWrite := by
  rw [Value.text] at h
  cases hv : v.text? with
  | some t =>
    rw [hv] at h
    exact absurd h (by simp)
  | none =>
    rw [hv] at h
    exact (Except.error.inj h).symm

theorem textUnder_eq_error {es : Entries} {key default : String} {e : Failure}
    (h : textUnder es key default = .error e) : e = .badValue .tooLongToWrite := by
  rw [textUnder] at h
  cases hv : Keyed.find? es key with
  | none =>
    rw [hv] at h
    exact absurd h (by simp)
  | some v =>
    rw [hv] at h
    exact text_eq_error h

theorem readProfile_eq_error {es : Entries} {e : Failure} (h : readProfile es = .error e) :
    e = .badValue .tooLongToWrite := by
  rw [readProfile] at h
  rcases bind_eq_error_iff.1 h with hiface | ⟨iface, -, h⟩
  · exact textUnder_eq_error hiface
  · rcases bind_eq_error_iff.1 h with haddress | ⟨address, -, h⟩
    · exact textUnder_eq_error haddress
    · rcases bind_eq_error_iff.1 h with hdescription | ⟨description, -, h⟩
      · exact textUnder_eq_error hdescription
      · exact absurd h (by simp [pure, Except.pure])

/-- The profiles fail for one of two reasons. -/
theorem error_of_profileSteps {part : Value} {e : Failure} (h : .error e ∈ profileSteps part) :
    e = .badValue .tooLongToWrite ∨ e = .profilesNotTable ∧ ∀ es, part ≠ .table es := by
  cases part with
  | table es =>
    obtain ⟨⟨name, v⟩, -, hgive⟩ := List.mem_map.1 h
    rw [giveProfile.eq_def] at hgive
    cases v with
    | table fields => exact .inl (readProfile_eq_error (map_eq_error_iff.1 hgive))
    | _ => exact absurd hgive (by simp)
  | _ => exact .inr ⟨Except.error.inj (List.mem_singleton.1 h), fun es => by simp⟩

/-- A failure that is one of these does not leave nothing. -/
theorem not_leavesNothing {e : Failure}
    (h : e = .badValue .tooLongToWrite ∨ e = .wrongKind ∨ e = .profilesNotTable) :
    ¬ LeavesNothing e := by
  rcases h with rfl | rfl | rfl
  · exact fun hleaves => hleaves.2 rfl
  · exact fun hleaves => absurd hleaves.1 (by simp [Failure.skipsFile])
  · exact fun hleaves => absurd hleaves.1 (by simp [Failure.skipsFile])

/-- Once the time limit has been read, it can be read again; so what fails is a text. -/
theorem error_of_defaultsSteps {part : Value} {l : Layer} {e : Failure}
    (hlimit : offer part "timeout" giveTimeout = .ok l) (h : .error e ∈ defaultsSteps part) :
    e = .badValue .tooLongToWrite ∨ e = .wrongKind := by
  have htext : ∀ {key : String} {give : Value → Except Failure Layer},
      (∀ v, give v = .error e → e = .badValue .tooLongToWrite) → offer part key give = .error e →
      e = .badValue .tooLongToWrite ∨ e = .wrongKind := by
    intro key give hgive hoffer
    rcases offer_eq_error_iff.1 hoffer with ⟨-, hkind⟩ | ⟨v, -, hv⟩
    · exact .inr hkind
    · exact .inl (hgive v hv)
  simp only [defaultsSteps, List.mem_cons, List.not_mem_nil, or_false, hlimit] at h
  rcases h with hcheck | hiface | haddress | hsudo | htimeout
  · exact absurd hcheck (by simp [Except.map])
  · exact htext (fun v hv => text_eq_error (map_eq_error_iff.1 hv)) hiface.symm
  · exact htext (fun v hv => text_eq_error (map_eq_error_iff.1 hv)) haddress.symm
  · exact htext (fun v hv => absurd hv (by simp [giveSudo])) hsudo.symm
  · exact absurd htimeout (by simp)

/-- **A document that fails gives nothing**, if the failure makes a file be skipped and is not that a
whole number has too many digits to be written. For then it is the time limit that fails, which is
read before anything is taken over. -/
theorem gather_steps_of_leavesNothing {doc : Entries} {e : Failure}
    (h : (gather (steps doc)).2 = some e) (he : LeavesNothing e) :
    (gather (steps doc)).1 = .empty := by
  cases hlimit : offer ((doc.find? "defaults").getD (.table [])) "timeout" giveTimeout with
  | error e' =>
    rw [steps, defaultsSteps, hlimit]
    rfl
  | ok l =>
    have hmem := mem_of_gather h
    simp only [steps, List.mem_append, List.mem_singleton] at hmem
    rcases hmem with (hdefaults | hprofiles) | hname
    · refine absurd he (not_leavesNothing ?_)
      exact (error_of_defaultsSteps hlimit hdefaults).imp_right .inl
    · refine absurd he (not_leavesNothing ?_)
      exact (error_of_profileSteps hprofiles).imp_right fun hkind => .inr hkind.1
    · exact absurd hname (by simp)

end LinkOverride.Settings
