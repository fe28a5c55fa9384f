import LinkOverride.Proofs.Layout
import LinkOverride.Text.Wrap

/-!
# What wrapping keeps

A wrapped text is cut into lines, and only blanks are lost: those at the ends of lines, between two
lines, and behind the last one. So each character that is not blank stands in a line, in its place,
and no line is longer than the width. A line takes at least one piece, or the front of one that is
longer than a line; this is why each text comes to an end, however long its pieces are.

To be wrapped, a text is made one paragraph first, which changes nothing but blanks.
-/

namespace LinkOverride.Text

/-- Lines that make up a text, but for blanks in front of them, between them and behind them. -/
inductive Laid : List (List Char) → List Char → Prop
  | done {gap : List Char} (hgap : Blank gap) : Laid [] gap
  | line {gap l cs : List Char} {ls : List (List Char)} (hgap : Blank gap) (hrest : Laid ls cs) :
      Laid (l :: ls) (gap ++ l ++ cs)

/-- Lines of at most `width` characters that make up a text. -/
structure Filled (width : Nat) (ls : List (List Char)) (cs : List Char) : Prop where
  laid : Laid ls cs
  fits : ∀ l ∈ ls, l.length ≤ width

variable {c : Char} {gap cs p : List Char} {ls ps rest : List (List Char)}
  {width room used total fuel : Nat}

namespace Laid

theorem nil : Laid [] [] := done (List.forall_mem_nil _)

/-- Blanks in front make no difference. -/
theorem append_gap (hgap : Blank gap) (h : Laid ls cs) : Laid ls (gap ++ cs) := by
  cases h with
  | done h => exact done fun c hc => (List.mem_append.1 hc).elim (hgap c) (h c)
  | line h hrest =>
    rw [← List.append_assoc, ← List.append_assoc]
    exact line (fun c hc => (List.mem_append.1 hc).elim (hgap c) (h c)) hrest

end Laid

/-! ## Characters that are not blank -/

/-- The characters of a text that are not blank. -/
def inked (cs : List Char) : List Char := cs.filter fun c => !isBlank c

theorem inked_append (xs ys : List Char) : inked (xs ++ ys) = inked xs ++ inked ys :=
  List.filter_append ..

theorem inked_of_blank (h : Blank cs) : inked cs = [] :=
  List.filter_eq_nil_iff.2 fun c hc => by simp [h c hc]

/-- **Only blanks are lost** between lines. -/
theorem Laid.inked_eq (h : Laid ls cs) : inked ls.flatten = inked cs := by
  induction h with
  | done hgap => exact (inked_of_blank hgap).symm
  | line hgap hrest ih =>
    rw [List.flatten_cons, inked_append, inked_append, inked_append, inked_of_blank hgap, ih,
      List.nil_append]

theorem isBlank_of_isSpacing (h : isSpacing c = true) : isBlank c = true := by
  rw [isBlank, inRanges_iff]
  simp only [isSpacing, Bool.or_eq_true, beq_iff_eq, Bool.and_eq_true, decide_eq_true_eq] at h
  rcases h with rfl | ⟨hlow, hhigh⟩
  · exact ⟨(28, 32), by decide, by decide⟩
  · exact ⟨(9, 13), by decide, hlow, hhigh⟩

theorem inked_trim (cs : List Char) : inked (trim cs) = inked cs := by
  obtain ⟨back, hback, hcs⟩ := exists_blank_ends cs
  have h := congrArg inked hcs
  rw [inked_append, inked_append, inked_of_blank (blank_takeWhile cs), inked_of_blank hback,
    List.nil_append, List.append_nil] at h
  exact h.symm

theorem inked_cons_blank (h : isBlank c = true) (cs : List Char) : inked (c :: cs) = inked cs :=
  List.filter_cons_of_neg (by simp [h])

theorem inked_joinSpacing (cs : List Char) : inked (joinSpacing cs) = inked cs := by
  induction cs with
  | nil => rfl
  | cons c cs ih =>
    rw [joinSpacing]
    cases hc : isSpacing c with
    | true =>
      rw [if_pos rfl, inked_cons_blank (isBlank_of_isSpacing hc), ← ih]
      split
      · rfl
      · exact inked_cons_blank (by decide) _
    | false => rw [if_neg Bool.false_ne_true, inked, inked, List.filter_cons, List.filter_cons,
        ← inked, ← inked, ih]

/-- **A paragraph** has all characters of the text that are not blank. -/
theorem inked_paragraph (s : String) : inked (paragraph s).toList = inked s.toList := by
  rw [paragraph, String.toList_ofList, inked_trim, inked_joinSpacing]

/-! ## One line -/

/-- The pieces that fit are the first ones, and the next one does not fit behind them. -/
theorem fitting_eq (hused : used ≤ width) (h : fitting width used ps = (ls, rest, total)) :
    ps = ls ++ rest ∧ total = used + ls.flatten.length ∧ total ≤ width ∧
      ∀ p ∈ rest.head?, width < total + p.length := by
  induction ps generalizing used ls with
  | nil =>
    obtain ⟨rfl, rfl, rfl⟩ := h
    exact ⟨rfl, rfl, hused, by simp⟩
  | cons p ps ih =>
    rw [fitting] at h
    split at h
    · next hfits =>
      rcases hmore : fitting width (used + p.length) ps with ⟨ls', rest', total'⟩
      rw [hmore] at h
      obtain ⟨rfl, rfl, rfl⟩ := h
      obtain ⟨hps, htotal, hle, hnext⟩ := ih hfits hmore
      refine ⟨by rw [hps, List.cons_append], ?_, hle, hnext⟩
      rw [htotal, List.flatten_cons, List.length_append, Nat.add_assoc]
    · next hlong =>
      obtain ⟨rfl, rfl, rfl⟩ := h
      exact ⟨rfl, rfl, hused, fun q hq => Option.some.inj hq ▸ Nat.lt_of_not_le hlong⟩

theorem lastHyphen?_bounds {n : Nat} (h : lastHyphen? cs = some n) : 0 < n ∧ n ≤ cs.length := by
  rw [lastHyphen?] at h
  split at h
  · next hany =>
    have hn := Option.some.inj h
    refine ⟨Nat.pos_of_ne_zero fun hzero => ?_, hn ▸ Nat.sub_le ..⟩
    rw [hn, hzero] at hany
    simp at hany
  · exact absurd h (by simp)

/-- A piece is cut so that its front fits, and it has a front if there is room for one. -/
theorem cutPiece_eq {front back : List Char} (h : cutPiece room p = (front, back)) :
    p = front ++ back ∧ front.length ≤ room ∧ (0 < room → 0 < p.length → 0 < front.length) := by
  have hcut : ∃ n ≤ room, (0 < room → 0 < n) ∧ cutPiece room p = (p.take n, p.drop n) := by
    refine ⟨_, ?_, ?_, rfl⟩
    · split
      · cases hlast : lastHyphen? (p.take room) with
        | none => exact Nat.le_refl room
        | some n => exact (lastHyphen?_bounds hlast).2.trans (List.length_take_le ..)
      · exact Nat.le_refl room
    · intro hroom
      split
      · cases hlast : lastHyphen? (p.take room) with
        | none => exact hroom
        | some n => exact (lastHyphen?_bounds hlast).1
      · exact hroom
  obtain ⟨n, hn, hpos, hcut⟩ := hcut
  rw [hcut] at h
  obtain ⟨rfl, rfl⟩ := h
  refine ⟨(List.take_append_drop n p).symm, (List.length_take_le ..).trans hn, fun hroom hp => ?_⟩
  rw [List.length_take]
  exact Nat.lt_min.2 ⟨hpos hroom, hp⟩

/-- What is left to be laid out: the characters and the cuts between them. -/
def extent (ps : List (List Char)) : Nat := ps.flatten.length + ps.length

theorem extent_cons (p : List Char) (ps : List (List Char)) :
    extent (p :: ps) = p.length + extent ps + 1 := by
  rw [extent, extent, List.flatten_cons, List.length_append, List.length_cons]
  omega

theorem extent_append (ls rest : List (List Char)) :
    extent (ls ++ rest) = ls.flatten.length + ls.length + extent rest := by
  rw [extent, extent, List.flatten_append, List.length_append, List.length_append]
  omega

/-- **A line** takes what stands first, fits into the width, and leaves less behind. -/
theorem firstLine_eq (hwidth : 0 < width) (h : firstLine width ps = (ls, rest)) :
    ps.flatten = ls.flatten ++ rest.flatten ∧ ls.flatten.length ≤ width ∧
      extent rest ≤ extent ps - 1 := by
  rcases hfit : fitting width 0 ps with ⟨fit, left, total⟩
  obtain ⟨rfl, htotal, hle, hnext⟩ := fitting_eq (Nat.zero_le _) hfit
  rw [Nat.zero_add] at htotal
  rw [firstLine, hfit] at h
  cases left with
  | nil =>
    obtain ⟨rfl, rfl⟩ := h
    exact ⟨by rw [List.append_nil]; simp, htotal ▸ hle, Nat.zero_le _⟩
  | cons p ps =>
    have hlong : width < total + p.length := hnext p rfl
    -- a line without a piece is one that not even the first piece fits into
    have hfirst : fit.length = 0 → total = 0 := by
      intro hnil
      rw [htotal, List.length_eq_zero_iff.1 hnil]
      rfl
    rw [extent_append, extent_cons]
    dsimp only at h
    split at h
    · rcases hcut : cutPiece (width - total) p with ⟨front, back⟩
      obtain ⟨rfl, hfront, hpos⟩ := cutPiece_eq hcut
      rw [hcut] at h
      rw [← (Prod.mk.inj h).1, ← (Prod.mk.inj h).2]
      simp only [List.flatten_append, List.flatten_cons, List.flatten_nil, List.append_nil,
        List.append_assoc, List.length_append, extent_cons] at hpos hlong ⊢
      exact ⟨trivial, by omega, by omega⟩
    · rw [← (Prod.mk.inj h).1, ← (Prod.mk.inj h).2, extent_cons]
      exact ⟨List.flatten_append, htotal ▸ hle, by omega⟩

/-! ## All lines -/

theorem blank_of_isBlankPiece (h : isBlankPiece p = true) : Blank p := by
  obtain ⟨back, hback, hp⟩ := exists_blank_ends p
  rw [List.isEmpty_iff.1 h, List.append_nil] at hp
  rw [hp]
  exact fun c hc => (List.mem_append.1 hc).elim (blank_takeWhile p c) (hback c)

/-- A blank piece at the end of a line is dropped. -/
theorem dropBlankEnd_append (ls : List (List Char)) :
    ∃ gap, Blank gap ∧ ls.flatten = (dropBlankEnd ls).flatten ++ gap := by
  rw [dropBlankEnd]
  cases hlast : ls.getLast? with
  | none => exact ⟨[], List.forall_mem_nil _, (List.append_nil _).symm⟩
  | some p =>
    obtain ⟨front, rfl⟩ := List.getLast?_eq_some_iff.1 hlast
    dsimp only
    split
    · next hp =>
      refine ⟨p, blank_of_isBlankPiece hp, ?_⟩
      rw [List.dropLast_concat, List.flatten_append, List.flatten_singleton]
    · exact ⟨[], List.forall_mem_nil _, (List.append_nil _).symm⟩

/-- A blank piece at the start of a line is dropped, but for the first line. -/
theorem dropBlankStart_append (isFirst : Bool) (p : List Char) (ps : List (List Char)) :
    ∃ gap, Blank gap ∧
      (p :: ps).flatten = gap ++ (if !isFirst && isBlankPiece p then ps else p :: ps).flatten := by
  split
  · next h => exact ⟨p, blank_of_isBlankPiece (Bool.and_eq_true_iff.1 h).2, List.flatten_cons⟩
  · exact ⟨[], List.forall_mem_nil _, rfl⟩

theorem extent_dropBlankStart (isFirst : Bool) (p : List Char) (ps : List (List Char)) :
    extent (if !isFirst && isBlankPiece p then ps else p :: ps) ≤ extent (p :: ps) := by
  split
  · rw [extent_cons]
    omega
  · exact Nat.le_refl _

/-- By induction on the fuel: each line leaves less behind, so there is fuel enough for all. -/
theorem filled_linesOf (isFirst : Bool) (hwidth : 0 < width) (hfuel : extent ps < fuel) :
    Filled width (linesOf width fuel isFirst ps) ps.flatten := by
  induction fuel generalizing ps isFirst with
  | zero => exact absurd hfuel (Nat.not_lt_zero _)
  | succ fuel ih =>
    cases ps with
    | nil => exact ⟨.nil, List.forall_mem_nil _⟩
    | cons p ps =>
      obtain ⟨start, hstart, hps⟩ := dropBlankStart_append isFirst p ps
      have hextent := extent_dropBlankStart isFirst p ps
      rw [hps, linesOf]
      dsimp only
      rcases hline : firstLine width (if !isFirst && isBlankPiece p then ps else p :: ps) with
        ⟨ls, rest⟩
      obtain ⟨hcut, hlength, hless⟩ := firstLine_eq hwidth hline
      obtain ⟨gap, hgap, hkept⟩ := dropBlankEnd_append ls
      have hrest : extent rest < fuel := by
        rw [extent_cons] at hextent hfuel
        omega
      rw [hcut, hkept, List.append_assoc]
      cases hdrop : dropBlankEnd ls with
      | nil =>
        obtain ⟨hlaid, hfits⟩ := ih isFirst hrest
        exact ⟨(hlaid.append_gap hgap).append_gap hstart, hfits⟩
      | cons q qs =>
        obtain ⟨hlaid, hfits⟩ := ih false hrest
        refine ⟨?_, List.forall_mem_cons.2 ⟨?_, hfits⟩⟩
        · rw [← List.append_assoc]
          exact .line hstart (hlaid.append_gap hgap)
        · rw [← hdrop]
          rw [hkept, List.length_append] at hlength
          omega

theorem filled_wrap (hwidth : 0 < width) (s : String) :
    Filled width ((wrap width s).map String.toList) s.toList := by
  have hback : ∀ ls : List (List Char), (ls.map String.ofList).map String.toList = ls := by
    intro ls
    rw [List.map_map]
    exact List.map_id'' (fun _ => String.toList_ofList) ls
  have hfuel : extent (pieces s.toList) < s.length + (pieces s.toList).length + 1 := by
    rw [extent, flatten_pieces, String.length_toList]
    exact Nat.lt_succ_self _
  rw [wrap, hback]
  have h := filled_linesOf true hwidth hfuel
  rwa [flatten_pieces] at h

end LinkOverride.Text
