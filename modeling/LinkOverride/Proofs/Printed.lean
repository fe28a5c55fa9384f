import LinkOverride.Proofs.Chain
import LinkOverride.Proofs.Reading

/-!
# Where an address stands in what is printed

What `ifconfig` prints has no fixed layout. An address stands on the first line that gives one, behind
the first occurrence of a mark. If several marks on that line have a word behind them, it is their
rank that counts and not their order on the line; a mark at the end of a line has none, and neither
has a mark whose first occurrence is there.

So the address that is printed is found whatever stands on the other lines, before the mark and behind
the address, and it is read in any of its notations. One command is run for it.
-/

namespace LinkOverride

/-! ## Texts that write an address -/

namespace Address

theorem Field.not_blank {f : List Char} {ds : List (Fin 16)} (h : Field f ds) :
    ∀ c ∈ f, Text.isBlank c = false := by
  rcases h with ⟨d, hd, -⟩ | hd
  · exact hd.not_blank
  · exact hd.not_blank

theorem Block.not_blank {f : List Char} {ds : List (Fin 16)} (h : Block f ds) :
    ∀ c ∈ f, Text.isBlank c = false := by
  rcases h with ⟨d, hd, -⟩ | hoctets
  · exact hd.not_blank
  · exact hoctets.forall_mem (by decide) fun _ _ hf => hf.not_blank

/-- No notation has a blank in it. -/
theorem Written.not_blank {cs : List Char} {ds : List (Fin 16)} (h : Written cs ds) :
    ∀ c ∈ cs, Text.isBlank c = false := by
  cases h with
  | dotted groups _ => exact groups.forall_mem (by decide) fun _ _ hf => hf.not_blank
  | colons _ fields _ => exact fields.forall_mem (by decide) fun _ _ hf => hf.not_blank
  | hyphens _ blocks _ => exact blocks.forall_mem (by decide) fun _ _ hf => hf.not_blank

theorem Written.strip {s : String} {ds : List (Fin 16)} (h : Written s.toList ds) :
    Written (Text.strip s).toList ds := by
  rwa [Text.toList_strip, Text.trim_of_not_blank h.not_blank]

end Address

namespace Link

open Step

/-! ## Layouts -/

/-- A word stands behind the first occurrence of a mark. -/
def Follows (mark w : String) (ws : List String) : Prop :=
  ∃ front back, mark ∉ front ∧ ws = front ++ mark :: w :: back

/-- No mark on the line has a word behind its first occurrence. -/
def Bare (line : String) : Prop := ∀ mark ∈ marks, ∀ w, ¬Follows mark w (Text.words line)

/-- **What a line gives**: the word behind the mark of the highest rank that has one. -/
def Gives (line w : String) : Prop :=
  ∃ higher mark lower, marks = higher ++ mark :: lower ∧ Follows mark w (Text.words line) ∧
    ∀ other ∈ higher, ∀ v, ¬Follows other v (Text.words line)

/-- **What an output gives**: what the first line gives that is not bare. -/
def Prints (output w : String) : Prop :=
  ∃ above line below, Text.lines output = above ++ line :: below ∧ (∀ l ∈ above, Bare l) ∧
    Gives line w

/-- The first line that is not bare has one mark, and behind it an address in any notation. -/
def Shows (output : String) (ds : List (Fin 16)) : Prop :=
  ∃ above line below front mark raw back, Text.lines output = above ++ line :: below ∧
    (∀ l ∈ above, Bare l) ∧ Text.words line = front ++ mark :: raw :: back ∧ mark ∈ marks ∧
    (∀ other ∈ marks, other ∉ front ++ raw :: back) ∧ Address.Written raw.toList ds

/-! ## Finding a word -/

theorem wordAfter?_eq_some_iff {mark w : String} {ws : List String} :
    wordAfter? mark ws = some w ↔ Follows mark w ws := wordAfter?_eq_some

theorem wordAfter?_eq_none_iff {mark : String} {ws : List String} :
    wordAfter? mark ws = none ↔ ∀ w, ¬Follows mark w ws := by
  simp only [← wordAfter?_eq_some_iff, Option.eq_none_iff_forall_ne_some, ne_eq]

theorem inLine?_eq_none_iff {line : String} : inLine? line = none ↔ Bare line := by
  simp only [inLine?, List.findSome?_eq_none_iff, wordAfter?_eq_none_iff, Bare]

theorem inLine?_eq_some_iff {line w : String} : inLine? line = some w ↔ Gives line w := by
  simp only [inLine?, List.findSome?_eq_some_iff, wordAfter?_eq_some_iff, wordAfter?_eq_none_iff,
    Gives]

theorem inOutput?_eq_none_iff {output : String} :
    inOutput? output = none ↔ ∀ line ∈ Text.lines output, Bare line := by
  simp only [inOutput?, List.findSome?_eq_none_iff, inLine?_eq_none_iff]

theorem inOutput?_eq_some_iff {output w : String} :
    inOutput? output = some w ↔ Prints output w := by
  simp only [inOutput?, List.findSome?_eq_some_iff, inLine?_eq_some_iff, inLine?_eq_none_iff,
    Prints]
  constructor
  · intro h
    obtain ⟨above, line, below, hlines, hgives, hbare⟩ := h
    exact ⟨above, line, below, hlines, hbare, hgives⟩
  · intro h
    obtain ⟨above, line, below, hlines, hbare, hgives⟩ := h
    exact ⟨above, line, below, hlines, hgives, hbare⟩

/-- A mark that stands alone on a line gives the word behind it. -/
theorem gives_of_alone {line mark raw : String} {front back : List String}
    (hwords : Text.words line = front ++ mark :: raw :: back) (hmark : mark ∈ marks)
    (halone : ∀ other ∈ marks, other ∉ front ++ raw :: back) : Gives line raw := by
  obtain ⟨higher, lower, hrank⟩ := List.append_of_mem hmark
  have hnodup : marks.Nodup := by decide
  refine ⟨higher, mark, lower, hrank, ⟨front, back, ?_, hwords⟩, ?_⟩
  · exact fun h => halone mark hmark (List.mem_append_left _ h)
  · intro other hother v hfollows
    obtain ⟨front', back', -, hsplit⟩ := hfollows
    have hmem : other ∈ front ++ mark :: raw :: back := by
      rw [← hwords, hsplit]
      exact List.mem_append_right _ List.mem_cons_self
    have hmarks : other ∈ marks := by
      rw [hrank]
      exact List.mem_append_left _ hother
    have hne : other ≠ mark := by
      rintro rfl
      rw [hrank] at hnodup
      exact (List.nodup_append.1 hnodup).2.2 _ hother _ List.mem_cons_self rfl
    rcases List.mem_append.1 hmem with hfront | hrest
    · exact halone other hmarks (List.mem_append_left _ hfront)
    · rcases List.mem_cons.1 hrest with heq | hback
      · exact hne heq
      · exact halone other hmarks (List.mem_append_right _ hback)

/-! ## Reading what is printed -/

section Reading

variable {name output : String} {r : Runner} {m : Machine} {err : Option String}

/-- Without a text that is kept, one command is run, and what it prints is looked through. -/
theorem addressText?_of_finished (hkept : kept? name m = none)
    (hend : Runner.nextOutcome m = .finished 0 (some output) err) :
    addressText? name r m =
      (.ok (inOutput? output), r.after (r.fullCommand m.host.user [program, name]) m) := by
  have hrun : (r.run [program, name]).attempt m =
      (.ok (.ok ⟨0, some output, err⟩), r.after (r.fullCommand m.host.user [program, name]) m) := by
    rw [attempt_apply, Runner.run_apply, hend]
    rfl
  rw [addressText?, bind_ok (ownText_of_kept?_eq_none hkept)]
  dsimp only
  rw [fromCommand, bind_ok hrun]
  rfl

theorem readAddress_of_shows {ds : List (Fin 16)} (hkept : kept? name m = none)
    (hend : Runner.nextOutcome m = .finished 0 (some output) err) (hshows : Shows output ds) :
    readAddress name r m =
      (.ok (String.ofList (Address.ofDigits ds)),
        r.after (r.fullCommand m.host.user [program, name]) m) := by
  obtain ⟨above, line, below, front, mark, raw, back, hlines, hbare, hwords, hmark, halone,
    hwritten⟩ := hshows
  have hfound : inOutput? output = some raw :=
    inOutput?_eq_some_iff.2 ⟨above, line, below, hlines, hbare, gives_of_alone hwords hmark halone⟩
  have htext := addressText?_of_finished (r := r) hkept hend
  rw [hfound] at htext
  have hread : (Machine.readAddress raw).attempt
      (r.after (r.fullCommand m.host.user [program, name]) m) =
      (.ok (.ok (String.ofList (Address.ofDigits ds))),
        r.after (r.fullCommand m.host.user [program, name]) m) := by
    rw [attempt_apply, Machine.readAddress_of_written hwritten.strip]
  rw [readAddress, bind_ok htext]
  dsimp only
  rw [bind_ok hread]
  rfl

end Reading

/-- **An address is found in any layout.** Nothing is found just if every line is bare, and what is
found otherwise is what the first line gives that is not. So an address in any notation is read that
stands alone behind its mark there, for every interface and every runner, whatever else is printed;
and all that is done for it is to run one command. -/
theorem readAddress_any_layout :
    (∀ output, inOutput? output = none ↔ ∀ line ∈ Text.lines output, Bare line) ∧
      (∀ output w, inOutput? output = some w ↔ Prints output w) ∧
      ∀ (name output : String) (r : Runner) (m : Machine) (err : Option String)
        (ds : List (Fin 16)), kept? name m = none →
        Runner.nextOutcome m = .finished 0 (some output) err → Shows output ds →
        readAddress name r m =
          (.ok (String.ofList (Address.ofDigits ds)),
            r.after (r.fullCommand m.host.user [program, name]) m) :=
  ⟨fun _ => inOutput?_eq_none_iff, fun _ _ => inOutput?_eq_some_iff,
    fun _ _ _ _ _ _ hkept hend hshows => readAddress_of_shows hkept hend hshows⟩

/-- A line with a mark at its end, then one with an address of short octets and more behind it. -/
def printedLines : String :=
  "eth0: flags=4163 ether\n\tinet 10.0.0.2\n\t HWaddr 2:0:0:0:0:aB txqueuelen 1000\n\tether 1:2:3"

theorem readAddress_any_layout_telling :
    let m := telling (.finished 0 (some printedLines) none)
    Shows printedLines [0, 2, 0, 0, 0, 0, 0, 0, 0, 0, 10, 11] ∧
      readAddress "eth0" .unprivileged m =
        (.ok "02:00:00:00:00:ab", Runner.unprivileged.after ["ifconfig", "eth0"] m) := by
  intro m
  have hshows : Shows printedLines [0, 2, 0, 0, 0, 0, 0, 0, 0, 0, 10, 11] := by
    refine ⟨["eth0: flags=4163 ether", "\tinet 10.0.0.2"],
      "\t HWaddr 2:0:0:0:0:aB txqueuelen 1000", ["\tether 1:2:3"], [], "HWaddr", "2:0:0:0:0:aB",
      ["txqueuelen", "1000"], by decide, ?_, by decide, by decide, by decide, ?_⟩
    · intro l hl
      have hnone : ∀ l ∈ ["eth0: flags=4163 ether", "\tinet 10.0.0.2"], inLine? l = none := by decide
      exact inLine?_eq_none_iff.1 (hnone l hl)
    · exact (Address.normalizeChars_iff_written (by decide)).1 (by decide +kernel)
  exact ⟨hshows,
    readAddress_any_layout.2.2 "eth0" _ .unprivileged m none _ (kept?_telling _) rfl hshows⟩

end Link

end LinkOverride
