import LinkOverride.Proofs.Line
import Mathlib.Logic.ExistsUnique

/-!
# The life of an override

An override is at one of three stages, and what it knows fits the stage. The original address of a
cycle is the address that the interface had when it was taken in hand: an address that the override
has written itself is never kept as the original.

The invariant speaks of the interface `t` as it was taken in hand. Each change keeps it, with the
interface that is in hand after the change.
-/

namespace LinkOverride

/-! ## The invariant -/

/-- The cycle is one of the interface as it was taken in hand. -/
structure Cycle.Suits (c : Cycle) (t : Link) : Prop where
  iface_eq : c.iface = t.name
  named : t.name ≠ ""
  original_eq : t.address = some c.original
  canonical : Address.isCanonical c.desired.toList = true

/-- The known address is the first one, but for a running override. -/
def Phase.Fits (t l : Link) : Phase → Prop
  | unconfigured _ => l.address = t.address
  | configured c => l.address = t.address ∧ c.Suits t
  | running c => l.address = some c.desired ∧ c.Suits t

structure Override.Sound (t : Link) (o : Override) : Prop where
  name_eq : o.link.name = t.name
  fits : o.phase.Fits t o.link

theorem Phase.Fits.suits {t l : Link} {p : Phase} {c : Cycle} (h : p.Fits t l)
    (hc : p.cycle? = some c) : c.Suits t := by
  cases p with
  | unconfigured last => exact absurd hc (by simp [Phase.cycle?])
  | configured d =>
    obtain ⟨-, hs⟩ := h
    rwa [Option.some.inj hc] at hs
  | running d =>
    obtain ⟨-, hs⟩ := h
    rwa [Option.some.inj hc] at hs

theorem Phase.Fits.address_eq {t l : Link} {p : Phase} (h : p.Fits t l) (hc : p.cycle? = none) :
    l.address = t.address := by
  cases p with
  | unconfigured last => exact h
  | configured d => exact absurd hc (by simp [Phase.cycle?])
  | running d => exact absurd hc (by simp [Phase.cycle?])

theorem Phase.fits_of_free {l : Link} {p : Phase} (hc : p.cycle? = none) : p.Fits l l := by
  cases p with
  | unconfigured last => rfl
  | configured d => exact absurd hc (by simp [Phase.cycle?])
  | running d => exact absurd hc (by simp [Phase.cycle?])

theorem Override.sound_fresh (l : Link) (settings : Settings) (w : Writer) :
    Sound l (.fresh l settings w) := ⟨rfl, rfl⟩

section Course

variable {T : List Event → Link → Prop} {h : Host} {t : Link} {o o' : Override} {es : List Event}

/-- **A change keeps the invariant.** -/
theorem Override.Sound.of_change (hs : o.Sound t) (hc : Change T h o es o') :
    o'.Sound (taken t es) := by
  cases hc with
  | idle settings quiet =>
    rw [taken_of_not_held fun e he => (quiet e he).held?_eq]
    exact ⟨hs.name_eq, hs.fits⟩
  | took l free quiet admitted =>
    rw [taken_append]
    exact ⟨rfl, Phase.fits_of_free free⟩
  | configured free named known wanted =>
    obtain ⟨digits, hread⟩ := wanted
    have haddress : o.link.address = t.address := hs.fits.address_eq free
    refine ⟨hs.name_eq, haddress, hs.name_eq, ?_, ?_, Address.isCanonical_of_read hread⟩
    · show t.name ≠ ""
      rw [← hs.name_eq]
      exact named
    · show t.address = _
      rw [← haddress]
      exact known
  | failed a ready writes failed => exact hs
  | done a ready writes succeeded =>
    refine ⟨hs.name_eq, ?_⟩
    cases a with
    | starting =>
      have hsuits := hs.fits.suits (Act.cycle?_of_ready ready)
      exact ⟨rfl, hsuits⟩
    | stopping =>
      have hsuits := hs.fits.suits (Act.cycle?_of_ready ready)
      exact hsuits.original_eq.symm

theorem Override.Sound.of_course (hs : o.Sound t) (hc : Course T h o es o') :
    o'.Sound (taken t es) := by
  induction hc with
  | nil => exact hs
  | snoc _ hchange ih =>
    rw [taken_append]
    exact ih.of_change hchange

end Course

/-! ## Stages -/

inductive Stage
  | unconfigured
  | configured
  | running
  deriving DecidableEq, Repr

/-- A cycle has begun of the named interface in hand, whose address `first` was known. -/
structure Override.InCycle (first : Option String) (o : Override) : Prop where
  original_eq : o.phase.original? = first
  known : first ≠ none
  canonical : ∃ desired, o.phase.desired? = some desired ∧
    Address.isCanonical desired.toList = true
  iface_eq : o.phase.iface? = some o.link.name
  named : o.link.name ≠ ""

/-- What it is to be at a stage. The interface had the address `first` when it was taken in hand. -/
def Stage.Holds (first : Option String) (o : Override) : Stage → Prop
  | unconfigured =>
    o.phase.original? = none ∧ o.phase.desired? = none ∧ o.phase.isRunning = false ∧
      o.link.address = first
  | configured => o.InCycle first ∧ o.phase.isRunning = false ∧ o.link.address = first
  | running => o.InCycle first ∧ o.phase.isRunning = true ∧ o.link.address = o.phase.desired?

theorem Cycle.Suits.inCycle {c : Cycle} {t : Link} {o : Override} (hs : c.Suits t)
    (hname : o.link.name = t.name) (hc : o.phase.cycle? = some c)
    (hi : o.phase.iface? = some c.iface) : o.InCycle t.address where
  original_eq := by rw [Phase.original?, hc, hs.original_eq]; rfl
  known := by rw [hs.original_eq]; simp
  canonical := ⟨c.desired, by rw [Phase.desired?, hc]; rfl, hs.canonical⟩
  iface_eq := by rw [hi, hs.iface_eq, hname]
  named := by rw [hname]; exact hs.named

theorem Override.Sound.exists_stage {t : Link} {o : Override} (hs : o.Sound t) :
    ∃ k : Stage, k.Holds t.address o := by
  have hfits := hs.fits
  cases hp : o.phase with
  | unconfigured last =>
    rw [hp] at hfits
    refine ⟨.unconfigured, ?_, ?_, ?_, hfits⟩
    · rw [hp]; rfl
    · rw [hp]; rfl
    · rw [hp]; rfl
  | configured c =>
    rw [hp] at hfits
    obtain ⟨haddress, hsuits⟩ := hfits
    refine ⟨.configured, hsuits.inCycle hs.name_eq ?_ ?_, ?_, haddress⟩
    · rw [hp]; rfl
    · rw [hp]; rfl
    · rw [hp]; rfl
  | running c =>
    rw [hp] at hfits
    obtain ⟨haddress, hsuits⟩ := hfits
    refine ⟨.running, hsuits.inCycle hs.name_eq ?_ ?_, ?_, ?_⟩
    · rw [hp]; rfl
    · rw [hp]; rfl
    · rw [hp]; rfl
    · rw [haddress, hp]; rfl

/-- The stages exclude each other. -/
theorem Stage.Holds.eq {first : Option String} {o : Override} {k k' : Stage}
    (h : k.Holds first o) (h' : k'.Holds first o) : k = k' := by
  have hfree : ∀ {P : Prop}, o.phase.original? = none → o.InCycle first → P := by
    intro P hn hc
    exact absurd (hc.original_eq.symm.trans hn) hc.known
  have hflag : ∀ {P : Prop}, o.phase.isRunning = false → o.phase.isRunning = true → P := by
    intro P hf ht
    exact absurd (hf.symm.trans ht) (by simp)
  cases k with
  | unconfigured =>
    cases k' with
    | unconfigured => rfl
    | configured => exact hfree h.1 h'.1
    | running => exact hfree h.1 h'.1
  | configured =>
    cases k' with
    | unconfigured => exact hfree h'.1 h.1
    | configured => rfl
    | running => exact hflag h.2.1 h'.2.1
  | running =>
    cases k' with
    | unconfigured => exact hfree h'.1 h.1
    | configured => exact hflag h'.2.1 h.2.1
    | running => rfl

/-- **The lifecycle.** After any operations, with any failures, an override is at exactly one stage.
The original address of a cycle is the address with which the interface was taken in hand, so an
address that was written over it is never kept as the original. -/
theorem Session.existsUnique_stage (m : Machine) (l : Link) (settings : Settings) (w : Writer)
    (ops : List Operation) :
    ∃ es, (Session.after ops ⟨m, .fresh l settings w⟩).machine.trace = m.trace ++ es ∧
      (taken l es).name = (Session.after ops ⟨m, .fresh l settings w⟩).override.link.name ∧
      ∃! k : Stage,
        k.Holds (taken l es).address (Session.after ops ⟨m, .fresh l settings w⟩).override := by
  obtain ⟨-, es, htrace, hcourse⟩ := Session.after_moves ops ⟨m, .fresh l settings w⟩
  have hsound := (Override.sound_fresh l settings w).of_course hcourse
  obtain ⟨k, hk⟩ := hsound.exists_stage
  exact ⟨es, htrace, hsound.name_eq.symm, k, hk, fun k' hk' => hk'.eq hk⟩

end LinkOverride
