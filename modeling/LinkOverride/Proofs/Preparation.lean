import LinkOverride.Program
import LinkOverride.Proofs.Respect

/-!
# What comes before a session

A session is prepared only if everything has gone well: the settings are loaded, the options are
read, the platform is known, there is an interface to work on, and the interface has been opened. So
if there is a session, each of these has happened, and the override is what they make of it.
-/

namespace LinkOverride.Program

open Step

variable {s : Settings} {o : Options} {v : Override} {on : Bool} {m m' : Machine}

/-- An interface is opened only if the address to be used is a text. -/
theorem text_of_openChecked {iface : String} {address : Value} {l : Link}
    (h : openChecked iface address m = (.ok l, m')) : ∃ a, address = .str a := by
  have hno : ∀ v : Value, v.isText Address.randomWord = false → (∀ a, v ≠ .str a) →
      openChecked iface v m ≠ (.ok l, m') := by
    intro v hv hstr hopen
    rw [openChecked, hv] at hopen
    obtain ⟨a, m₁, hread, -⟩ := bind_eq_ok hopen
    cases v with
    | str a => exact hstr a rfl
    | _ =>
      obtain ⟨t, m₃, -, hfail⟩ := bind_eq_ok hread
      exact absurd hfail (by simp)
  cases address with
  | str a => exact ⟨a, rfl⟩
  | _ => exact absurd h (hno _ rfl (by simp))

/-- **The override of a session** has the interface that was opened, with the settings in force. -/
theorem session_of_beginSession {p : Platform} {iface : String}
    (h : beginSession s o p iface m = (.ok (.session v on), m')) :
    ∃ address m₁, o.address = .str address ∧
      openChecked iface o.address m = (.ok v.link, m₁) ∧
      m' = (m₁.record (.logged .debug s!"Platform: {p.label}")).record
        (.shown [.text s!"[cyan]Interface:[/cyan] {v.link.text}"]) ∧
      v = .fresh v.link (inForce s o iface address) ⟨none, ⟨o.withSudo, o.timeout⟩⟩ ∧ on = o.on := by
  obtain ⟨r, m₁, hattempt, hrest⟩ := bind_eq_ok h
  rw [attempt_apply] at hattempt
  obtain ⟨hr, hm₁⟩ := Prod.mk.inj hattempt
  have hrefuse : ∀ {e : Failure} {t : Machine},
      beginSession.refuse e t ≠ (.ok (.session v on), m') := by
    intro e t hrefused
    obtain ⟨u, t', hlog, hdone⟩ := bind_eq_ok hrefused
    exact absurd hdone (by simp)
  rcases r with e | l
  · dsimp only at hrest
    split at hrest
    · exact absurd hrest hrefuse
    · exact absurd hrest hrefuse
    · exact absurd hrest (by simp)
  · have hopen : openChecked iface o.address m = (.ok l, m₁) :=
      Prod.ext (Except.ok.inj hr) hm₁
    obtain ⟨a, ha⟩ := text_of_openChecked hopen
    obtain ⟨htask, hm'⟩ := Prod.mk.inj hrest
    obtain ⟨hv, hon⟩ := Task.session.inj (Except.ok.inj htask)
    rw [ha] at hv
    rw [← hv]
    exact ⟨a, m₁, ha, hopen, hm'.symm, rfl, hon.symm⟩

/-- A session is on a named interface, on a platform that is known. -/
theorem session_of_work (h : work s o m = (.ok (.session v on), m')) :
    ∃ p iface, Platform.detect? m.host.platform = some p ∧ o.iface = .str iface ∧ iface ≠ "" ∧
      beginSession s o p iface m = (.ok (.session v on), m') := by
  have hdone : ∀ {α : Type} {x : Step Machine α} {code : α → Nat},
      (x >>= fun a => pure (Task.done (code a))) m ≠ (.ok (.session v on), m') := by
    intro α x code hd
    obtain ⟨a, t, hx, hpure⟩ := bind_eq_ok hd
    exact absurd hpure (by simp)
  rw [work] at h
  by_cases hinit : o.initConfig = true
  · rw [if_pos hinit] at h
    exact absurd h hdone
  by_cases hshow : o.showConfig = true
  · rw [if_neg hinit, if_pos hshow] at h
    exact absurd h hdone
  rw [if_neg hinit, if_neg hshow, bind_ok (Step.current_apply m)] at h
  cases hp : Platform.detect? m.host.platform with
  | none =>
    rw [hp] at h
    exact absurd h hdone
  | some p =>
    rw [hp] at h
    cases ho : o.iface with
    | str iface =>
      rw [ho] at h
      by_cases he : iface = ""
      · exact absurd ((congrFun (if_pos he) m).symm.trans h) hdone
      · exact ⟨p, iface, rfl, rfl, he, (congrFun (if_neg he) m).symm.trans h⟩
    | _ =>
      rw [ho] at h
      exact absurd h hdone

/-- The settings are loaded and the options are read over them. -/
theorem session_of_prepare {words : List String}
    (h : prepare words m = (.ok (.ok (o, .session v on)), m')) :
    ∃ s m₁, loadSettings words m = (.ok s, m₁) ∧
      CommandLine.answer m₁.host.optionGroup s words = .ok (.ok o) ∧
      work s o m₁ = (.ok (.session v on), m') := by
  obtain ⟨s, m₁, hload, h⟩ := bind_eq_ok h
  rw [bind_ok (current_apply m₁)] at h
  obtain ⟨r, m₂, hanswer, h⟩ := bind_eq_ok h
  obtain ⟨hr, rfl⟩ := Prod.mk.inj hanswer
  rcases r with bye | o'
  · exact absurd h (by simp)
  · obtain ⟨task, m₃, hwork, hpure⟩ := bind_eq_ok h
    obtain ⟨htask, rfl⟩ := Prod.mk.inj hpure
    obtain ⟨rfl, rfl⟩ := Prod.mk.inj (Except.ok.inj (Except.ok.inj htask))
    exact ⟨s, m₁, hload, hr, hwork⟩

end LinkOverride.Program
