import LinkOverride.Proofs.Lifecycle

/-!
# The known address, the announcements and the interface

The override never knows more than the interface does. What it takes to be the address of the
interface, what it tells the user, and what the commands have written are one and the same sequence,
in one order; and a command writes to no interface but the one in hand.

The sequence is a list of writings, each the act of a cycle. A writing by a start is followed by the
writing by a stop of the same cycle, and by nothing else.
-/

namespace LinkOverride

/-- An address of a cycle that has been written, by a start or by a stop. -/
structure Writing where
  act : Act
  cycle : Cycle
  deriving DecidableEq, Repr

namespace Writing

def address (w : Writing) : String := w.act.address w.cycle

def target (w : Writing) : String × String := (w.cycle.iface, w.address)

def announcement (w : Writing) : Announcement := w.act.announcement w.cycle

theorem address_announcement (w : Writing) : w.announcement.address = w.address :=
  w.act.address_announcement w.cycle

end Writing

/-! ## The three sequences -/

/-- Commands, announcements and notes all tell of the same writings. -/
structure Tells (es : List Event) (ws : List Writing) : Prop where
  written_eq : es.filterMap Event.written? = ws.map Writing.target
  announced_eq : es.filterMap Event.announced? = ws.map Writing.announcement
  noted_eq : es.filterMap Event.noted? = ws.map Writing.address

theorem Tells.append {es es' : List Event} {ws ws' : List Writing} (h : Tells es ws)
    (h' : Tells es' ws') : Tells (es ++ es') (ws ++ ws') where
  written_eq := by rw [List.filterMap_append, List.map_append, h.written_eq, h'.written_eq]
  announced_eq := by rw [List.filterMap_append, List.map_append, h.announced_eq, h'.announced_eq]
  noted_eq := by rw [List.filterMap_append, List.map_append, h.noted_eq, h'.noted_eq]

/-- The commands that have succeeded wrote the addresses that were noted. -/
theorem Tells.written_addresses {es : List Event} {ws : List Writing} (h : Tells es ws) :
    (es.filterMap Event.written?).map Prod.snd = es.filterMap Event.noted? := by
  rw [h.written_eq, h.noted_eq, List.map_map]
  rfl

/-- The announcements name the addresses that were noted. -/
theorem Tells.announced_addresses {es : List Event} {ws : List Writing} (h : Tells es ws) :
    (es.filterMap Event.announced?).map Announcement.address = es.filterMap Event.noted? := by
  rw [h.announced_eq, h.noted_eq, List.map_map]
  exact List.map_congr_left fun w _ => w.address_announcement

theorem tells_of_quiet {es : List Event} (h : ∀ e ∈ es, e.IsQuiet) : Tells es [] where
  written_eq := List.filterMap_eq_nil_iff.2 fun e he => (h e he).written?_eq
  announced_eq := List.filterMap_eq_nil_iff.2 fun e he => (h e he).announced?_eq
  noted_eq := List.filterMap_eq_nil_iff.2 fun e he => (h e he).noted?_eq

/-! ## Starts and stops -/

/-- After the writings, a cycle that has been started is running until it is stopped. -/
structure Alternates (ws : List Writing) (p : Phase) : Prop where
  next_eq : ∀ {front : List Writing} {c : Cycle} {next : Writing} {back : List Writing},
    ws = front ++ ⟨.starting, c⟩ :: next :: back → next = ⟨.stopping, c⟩
  running : ∀ {front : List Writing} {c : Cycle}, ws = front ++ [⟨.starting, c⟩] → p = .running c

theorem alternates_nil (p : Phase) : Alternates [] p where
  next_eq h := absurd h (by simp)
  running h := absurd h (by simp)

theorem Alternates.mono {ws : List Writing} {p p' : Phase} (h : Alternates ws p)
    (hp : ∀ c, p = .running c → p' = .running c) : Alternates ws p' where
  next_eq := h.next_eq
  running hws := hp _ (h.running hws)

/-- An act goes on with the sequence if it is ready. -/
theorem Alternates.snoc {ws : List Writing} {p : Phase} {a : Act} {c : Cycle}
    (h : Alternates ws p) (hr : a.Ready p c) : Alternates (ws ++ [⟨a, c⟩]) (a.result c) where
  next_eq := by
    intro front d next back hws
    rcases split_append hws with ⟨mid, hfront, hback⟩ | ⟨mid, -, hlast⟩
    · cases mid with
      | nil =>
        obtain ⟨hnext, -⟩ := List.cons.inj hback
        have hp : p = .running d := h.running hfront
        rw [hnext]
        cases a with
        | starting => exact absurd (hp.symm.trans hr) (by simp)
        | stopping =>
          have hc : p.cycle? = some c := hr
          rw [hp] at hc
          rw [← Option.some.inj hc]
      | cons first mid =>
        obtain ⟨hnext, -⟩ := List.cons.inj hback
        rw [hnext]
        exact h.next_eq hfront
    · have hlength := congrArg List.length hlast
      simp only [List.length_append, List.length_cons, List.length_nil] at hlength
      omega
  running := by
    intro front d hws
    obtain ⟨-, hlast⟩ := List.append_inj' hws rfl
    cases (List.cons.inj hlast).1
    rfl

/-- Between two starts lies a stop of the cycle that was started first. -/
theorem Alternates.stop_between {ws front mid back : List Writing} {p : Phase} {c d : Cycle}
    (h : Alternates ws p)
    (hws : ws = front ++ ⟨.starting, c⟩ :: (mid ++ ⟨.starting, d⟩ :: back)) :
    ⟨.stopping, c⟩ ∈ mid := by
  cases mid with
  | nil => exact absurd (h.next_eq hws) (by simp)
  | cons first mid =>
    rw [h.next_eq hws]
    exact List.mem_cons_self

/-! ## The interface in hand -/

/-- The event writes to no other interface, and tells of no other original address. -/
structure Event.Concerns (t : Link) (e : Event) : Prop where
  target_eq : ∀ n a, e.write? = some (n, a) → n = t.name
  original_eq : ∀ a, e.announced? = some (.restored a) → t.address = some a

theorem Event.concerns_of_none {e : Event} (t : Link) (hw : e.write? = none)
    (ha : e.announced? = none) : e.Concerns t where
  target_eq n a h := absurd (hw.symm.trans h) (by simp)
  original_eq a h := absurd (ha.symm.trans h) (by simp)

/-- Each event concerns the interface in hand at its time. -/
def Faithful (l : Link) (es : List Event) : Prop :=
  ∀ front e back, es = front ++ e :: back → e.Concerns (taken l front)

theorem faithful_of_forall {t : Link} {es : List Event}
    (h : ∀ e ∈ es, e.held? = none ∧ e.Concerns t) : Faithful t es := by
  intro front e back hes
  have hfront : taken t front = t := by
    refine taken_of_not_held fun e' he' => (h e' ?_).1
    rw [hes]
    exact List.mem_append_left _ he'
  rw [hfront]
  refine (h e ?_).2
  rw [hes]
  exact List.mem_append_right _ List.mem_cons_self

theorem faithful_of_none {es : List Event} (l : Link)
    (h : ∀ e ∈ es, e.write? = none ∧ e.announced? = none) : Faithful l es := by
  intro front e back hes
  have he : e ∈ es := by
    rw [hes]
    exact List.mem_append_right _ List.mem_cons_self
  exact Event.concerns_of_none _ (h e he).1 (h e he).2

theorem Faithful.append {l : Link} {es es' : List Event} (h : Faithful l es)
    (h' : Faithful (taken l es) es') : Faithful l (es ++ es') := by
  intro front e back hes
  rcases split_append hes with ⟨mid, hfront, -⟩ | ⟨mid, hfront, hes'⟩
  · exact h front e mid hfront
  · rw [hfront, taken_append]
    exact h' mid e back hes'

/-! ## Changes and courses -/

section Course

variable {T : List Event → Link → Prop} {h : Host} {t : Link} {o o' : Override} {es : List Event}

/-- **A change is at most one writing.** -/
theorem Change.writing_cases (hc : Change T h o es o') :
    (Tells es [] ∧ ∀ c, o.phase = .running c → o'.phase = .running c) ∨
      ∃ a c, a.Ready o.phase c ∧ Tells es [⟨a, c⟩] ∧ o'.phase = a.result c := by
  cases hc with
  | idle settings quiet => exact .inl ⟨tells_of_quiet quiet, fun c hc => hc⟩
  | took l free quiet admitted =>
    have hheld : Tells [.held l.name l.address] [] := ⟨rfl, rfl, rfl⟩
    exact .inl ⟨(tells_of_quiet quiet).append hheld, fun c hc => hc⟩
  | configured free named known wanted =>
    refine .inl ⟨⟨rfl, rfl, rfl⟩, fun c hc => ?_⟩
    rw [hc] at free
    exact absurd free (by simp [Phase.cycle?])
  | failed a ready writes failed =>
    refine .inl ⟨⟨?_, rfl, rfl⟩, fun c hc => hc⟩
    refine List.filterMap_eq_nil_iff.2 fun e he => ?_
    rcases List.mem_cons.1 he with rfl | he
    · rfl
    · rw [List.mem_singleton.1 he, Event.written?, failed]
      rfl
  | @done c call message a ready writes succeeded =>
    refine .inr ⟨a, c, ready, ⟨?_, ?_, rfl⟩, rfl⟩
    · have hcalled : (Event.called call).written? = some (c.iface, a.address c) := by
        rw [Event.written?, if_pos succeeded, writes.writeIn?_eq]
      show [Event.logged .debug message, .called call, .noted (a.address c),
        .logged .info (a.announcement c).message].filterMap Event.written? =
          [(c.iface, a.address c)]
      rw [List.filterMap_cons_none rfl, List.filterMap_cons_some hcalled,
        List.filterMap_cons_none rfl, List.filterMap_cons_none rfl, List.filterMap_nil]
    · have hlogged : (Event.logged .info (a.announcement c).message).announced? =
          some (a.announcement c) := Announcement.ofMessage?_message _
      rw [List.filterMap_cons_none rfl, List.filterMap_cons_none rfl,
        List.filterMap_cons_none rfl, List.filterMap_cons_some hlogged, List.filterMap_nil]
      rfl

/-- The known address follows the commands. -/
theorem Change.link_eq (hc : Change T h o es o') : o'.link = mirrored o.link es := by
  cases hc with
  | idle settings quiet => rw [mirrored_of_quiet quiet]
  | took l free quiet admitted =>
    rw [mirrored_append]
    rfl
  | configured free named known wanted => rfl
  | @failed c call message a ready writes failed =>
    have hcalled : (Event.called call).written? = none := by
      rw [Event.written?, failed]
      rfl
    show o.link = mirrorOne o.link (.called call)
    rw [mirrorOne, hcalled]
    rfl
  | @done c call message a ready writes succeeded =>
    have hcalled : (Event.called call).written? = some (c.iface, a.address c) := by
      rw [Event.written?, if_pos succeeded, writes.writeIn?_eq]
    show { o.link with address := some (a.address c) } = mirrorOne o.link (.called call)
    rw [mirrorOne, hcalled]
    rfl

theorem Change.faithful (hs : o.Sound t) (hc : Change T h o es o') : Faithful t es := by
  have hlogged : ∀ m, (Event.logged .debug m).held? = none ∧ (Event.logged .debug m).Concerns t :=
    fun m => ⟨rfl, Event.concerns_of_none t rfl rfl⟩
  have hcalled : ∀ {c : Cycle} {a : Act} {call : Call}, a.Ready o.phase c →
      o.Writes h c.iface (a.address c) call →
        (Event.called call).held? = none ∧ (Event.called call).Concerns t := by
    intro c a call hr hw
    have hsuits := hs.fits.suits (Act.cycle?_of_ready hr)
    refine ⟨rfl, fun n b hn => ?_, fun b hb => absurd hb (by simp [Event.announced?])⟩
    have hwrite : (Event.called call).write? = some (c.iface, a.address c) := hw.writeIn?_eq
    rw [hwrite] at hn
    rw [← hsuits.iface_eq, (Prod.mk.inj (Option.some.inj hn)).1]
  cases hc with
  | idle settings quiet => exact faithful_of_none t fun e he =>
      ⟨(quiet e he).write?_eq, (quiet e he).announced?_eq⟩
  | took l free quiet admitted =>
    refine faithful_of_none t fun e he => ?_
    rcases List.mem_append.1 he with he | he
    · exact ⟨(quiet e he).write?_eq, (quiet e he).announced?_eq⟩
    · rw [List.mem_singleton.1 he]
      exact ⟨rfl, rfl⟩
  | configured free named known wanted =>
    refine faithful_of_forall fun e he => ?_
    rw [List.mem_singleton.1 he]
    exact hlogged _
  | failed a ready writes failed =>
    refine faithful_of_forall fun e he => ?_
    rcases List.mem_cons.1 he with rfl | he
    · exact hlogged _
    · rw [List.mem_singleton.1 he]
      exact hcalled ready writes
  | @done c call message a ready writes succeeded =>
    have hsuits := hs.fits.suits (Act.cycle?_of_ready ready)
    refine faithful_of_forall fun e he => ?_
    rcases List.mem_cons.1 he with rfl | he
    · exact hlogged _
    rcases List.mem_cons.1 he with rfl | he
    · exact hcalled ready writes
    rcases List.mem_cons.1 he with rfl | he
    · exact ⟨rfl, Event.concerns_of_none t rfl rfl⟩
    · rw [List.mem_singleton.1 he]
      refine ⟨rfl, fun n b hn => absurd hn (by simp [Event.write?]), fun b hb => ?_⟩
      have hann : (Event.logged .info (a.announcement c).message).announced? =
          some (a.announcement c) := Announcement.ofMessage?_message _
      rw [hann] at hb
      cases a with
      | starting => exact absurd (Option.some.inj hb) (by simp [Act.announcement])
      | stopping =>
        rw [hsuits.original_eq, Announcement.restored.inj (Option.some.inj hb)]

theorem Course.exists_writings (hc : Course T h o es o') :
    ∃ ws, Tells es ws ∧ Alternates ws o'.phase := by
  induction hc with
  | nil => exact ⟨[], ⟨rfl, rfl, rfl⟩, alternates_nil _⟩
  | snoc _ hchange ih =>
    obtain ⟨ws, htells, halternates⟩ := ih
    rcases hchange.writing_cases with ⟨hnone, hphase⟩ | ⟨a, c, hready, hone, hphase⟩
    · refine ⟨ws, ?_, halternates.mono hphase⟩
      rw [← List.append_nil ws]
      exact htells.append hnone
    · refine ⟨ws ++ [⟨a, c⟩], htells.append hone, ?_⟩
      rw [hphase]
      exact halternates.snoc hready

theorem Course.link_eq (hc : Course T h o es o') : o'.link = mirrored o.link es := by
  induction hc with
  | nil => rfl
  | snoc _ hchange ih => rw [mirrored_append, ← ih, hchange.link_eq]

theorem Course.faithful (hs : o.Sound t) (hc : Course T h o es o') : Faithful t es := by
  induction hc with
  | nil => exact faithful_of_none t (by simp)
  | snoc hcourse hchange ih => exact ih.append (hchange.faithful (hs.of_course hcourse))

end Course

/-- **The known address mirrors the interface, and the announcements mirror the writes.** The
commands that have succeeded, the announcements and the notes of the known address tell of the same
addresses in the same order. Every write goes to the interface in hand. What is known of that
interface is the last write since it was taken in hand, and between two writes by a start there is
one by a stop, of the address that the first start has replaced. -/
theorem Session.writes_mirrored (m : Machine) (l : Link) (settings : Settings) (w : Writer)
    (ops : List Operation) :
    ∃ es ws, (Session.after ops ⟨m, .fresh l settings w⟩).machine.trace = m.trace ++ es ∧
      es.filterMap Event.written? = ws.map Writing.target ∧
      es.filterMap Event.announced? = ws.map Writing.announcement ∧
      es.filterMap Event.noted? = ws.map Writing.address ∧
      (es.filterMap Event.written?).map Prod.snd = es.filterMap Event.noted? ∧
      (es.filterMap Event.announced?).map Announcement.address = es.filterMap Event.noted? ∧
      (∀ front e back, es = front ++ e :: back → e.Concerns (taken l front)) ∧
      (Session.after ops ⟨m, .fresh l settings w⟩).override.link = mirrored l es ∧
      ∀ front c mid d back,
        ws = front ++ ⟨.starting, c⟩ :: (mid ++ ⟨.starting, d⟩ :: back) →
          ⟨.stopping, c⟩ ∈ mid := by
  obtain ⟨-, es, htrace, hcourse⟩ := Session.after_moves ops ⟨m, .fresh l settings w⟩
  obtain ⟨ws, htells, halternates⟩ := hcourse.exists_writings
  have hfaithful := hcourse.faithful (Override.sound_fresh l settings w)
  refine ⟨es, ws, htrace, htells.written_eq, htells.announced_eq, htells.noted_eq,
    htells.written_addresses, htells.announced_addresses, hfaithful, hcourse.link_eq, ?_⟩
  intro front c mid d back hws
  exact halternates.stop_between hws

end LinkOverride
