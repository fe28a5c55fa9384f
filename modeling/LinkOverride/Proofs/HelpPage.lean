import LinkOverride.CommandLine.Help
import LinkOverride.Proofs.Placeholder
import LinkOverride.Proofs.Wrapping
import LinkOverride.Proofs.Resolution

/-!
# The help page

The help is one page, and all of it but two descriptions is the same for all settings. These two are
templates in which a default stands as it was given, so what they show is what the templates stand for,
wrapped in lines of the width of the column. If one of them stands for nothing, there is no page.

Main statement: the page is shown just if both templates stand for a text, and it shows these texts.
A default without a percent sign is shown as it is. All this is so whatever is written for a group of
options.
-/

namespace LinkOverride.CommandLine

open Text (paragraph wrap Filled inked)
open Text.Template (Expands Unbracketed fill fill_eq_ok_iff)

variable {group : String} {o : Opt} {dest default template text : String} {ls : List String}

/-! ## One description -/

theorem keys_parameters (group : String) (o : Opt) (dest default template : String) :
    Keyed.keys (parameters group o dest default template) =
      ["option_strings", "dest", "nargs", "const", "default", "type", "choices", "required", "help",
        "metavar", "container", "prog"] := rfl

theorem unbracketed_parameters (group : String) (o : Opt) (dest default template : String) :
    Unbracketed (parameters group o dest default template) := by
  intro n hn
  rw [keys_parameters] at hn
  have hall : ["option_strings", "dest", "nargs", "const", "default", "type", "choices", "required",
      "help", "metavar", "container", "prog"].all
        (fun n => n.toList.all fun c => decide (c ≠ '(' ∧ c ≠ ')')) = true := by
    decide +kernel
  exact Text.Template.forall_of_all (List.all_eq_true.1 hall n hn)

/-- The text that a description stands for. -/
def Describes (group : String) (o : Opt) (dest default template text : String) : Prop :=
  let items := parameters group o dest default template
  Expands items (.fresh (.all items)) template.toList text.toList

/-- The lines that show a text: only blanks are lost, and they are no wider than the column. -/
structure Shows (text : String) (ls : List String) : Prop where
  filled : Filled helpWidth (ls.map String.toList) (paragraph text).toList
  complete : inked (ls.map String.toList).flatten = inked text.toList

theorem shows_wrap (text : String) : Shows text (wrap helpWidth (paragraph text)) := by
  have hfilled : Filled helpWidth _ _ := Text.filled_wrap (by decide) (paragraph text)
  exact ⟨hfilled, by rw [hfilled.laid.inked_eq, Text.inked_paragraph]⟩

theorem described_eq_ok_iff :
    described group o dest default template = .ok ls ↔
      ∃ t, Describes group o dest default template t ∧
        ls = (wrap helpWidth (paragraph t)).map indented := by
  rw [described, bind_eq_ok_iff]
  refine exists_congr fun t => and_congr ?_ ?_
  · exact fill_eq_ok_iff (unbracketed_parameters group o dest default template)
  · rw [show ∀ ls', (pure ls' : Except Failure (List String)) = .ok ls' from fun _ => rfl,
      Except.ok.injEq, eq_comm]

theorem described_of_describes (h : Describes group o dest default template text) :
    described group o dest default template = .ok ((wrap helpWidth (paragraph text)).map indented) :=
  described_eq_ok_iff.2 ⟨text, h, rfl⟩

theorem describes_iff_eq (h : '%' ∉ template.toList) :
    Describes group o dest default template text ↔ text = template := by
  have hfill : ∀ t, fill (parameters group o dest default template) template = .ok t ↔
      Describes group o dest default template t :=
    fun t => fill_eq_ok_iff (unbracketed_parameters group o dest default template)
  have hself := (hfill template).2 (.self _ h)
  constructor
  · intro htext
    have := (hfill text).2 htext
    rw [hself] at this
    exact (Except.ok.inj this).symm
  · rintro rfl
    exact (hfill text).1 hself

/-! ## The page -/

/-- How the interface is shown. -/
def shownIface (s : Settings) : String := if s.iface = "" then "none" else s.iface

def ifaceTemplate (s : Settings) : String :=
  "Interface to operate on (default: " ++ shownIface s ++ ")"

def addressTemplate (s : Settings) : String :=
  "Hardware address to apply (default: " ++ s.address ++ ")"

def IfaceText (group : String) (s : Settings) (text : String) : Prop :=
  Describes group .iface "iface" s.iface (ifaceTemplate s) text

def AddressText (group : String) (s : Settings) (text : String) : Prop :=
  Describes group .address "address" s.address (addressTemplate s) text

/-- The page with the lines of the two descriptions. -/
def page (iface address : List String) : String :=
  String.join <| (usageLines ++ ["  -i IFACE, --iface IFACE"] ++ iface ++
    ["  -a ADDRESS, --address ADDRESS"] ++ address ++ remainingLines).map (· ++ "\n")

theorem helpText_eq (group : String) (s : Settings) :
    helpText group s = do
      let iface ← ifaceLines group s
      let address ← addressLines group s
      return page iface address := by
  rw [helpText, helpLines]
  cases ifaceLines group s with
  | error e => rfl
  | ok iface =>
    cases addressLines group s with
    | error e => rfl
    | ok address => rfl

/-- **The page** shows the texts that the two descriptions stand for. -/
theorem helpText_eq_ok_iff {s : Settings} :
    helpText group s = .ok text ↔ ∃ t t', IfaceText group s t ∧ AddressText group s t' ∧
      text = page ((wrap helpWidth (paragraph t)).map indented)
        ((wrap helpWidth (paragraph t')).map indented) := by
  rw [helpText_eq, bind_eq_ok_iff]
  constructor
  · rintro ⟨iface, hiface, h⟩
    obtain ⟨address, haddress, h⟩ := bind_eq_ok_iff.1 h
    obtain ⟨t, ht, hiface⟩ := described_eq_ok_iff.1 hiface
    obtain ⟨t', ht', haddress⟩ := described_eq_ok_iff.1 haddress
    rw [hiface, haddress] at h
    exact ⟨t, t', ht, ht', (Except.ok.inj h).symm⟩
  · rintro ⟨t, t', ht, ht', htext⟩
    have hiface : ifaceLines group s = .ok _ := described_of_describes ht
    have haddress : addressLines group s = .ok _ := described_of_describes ht'
    rw [htext]
    exact ⟨_, hiface, bind_eq_ok_iff.2 ⟨_, haddress, rfl⟩⟩

theorem answer_asked (group : String) (s : Settings) :
    answer group s ["--help"] = (helpText group s).map fun t => .error ⟨0, t, ""⟩ := rfl

theorem not_mem_append {c : Char} {front shown back : String} (hfront : c ∉ front.toList)
    (hshown : c ∉ shown.toList) (hback : c ∉ back.toList) : c ∉ (front ++ shown ++ back).toList := by
  rw [String.toList_append, String.toList_append, List.mem_append, List.mem_append]
  exact not_or.2 ⟨not_or.2 ⟨hfront, hshown⟩, hback⟩

theorem not_mem_ifaceTemplate {s : Settings} (h : '%' ∉ s.iface.toList) :
    '%' ∉ (ifaceTemplate s).toList := by
  refine not_mem_append (by decide +kernel) ?_ (by decide +kernel)
  rw [shownIface]
  split
  · decide +kernel
  · exact h

theorem not_mem_addressTemplate {s : Settings} (h : '%' ∉ s.address.toList) :
    '%' ∉ (addressTemplate s).toList :=
  not_mem_append (by decide +kernel) h (by decide +kernel)

/-- **The help is printed** just if both descriptions stand for a text; if not, an error is raised
in place of it. What is printed shows these texts, and a default without a percent sign stands in its
description as it is. -/
theorem answer_help (group : String) (s : Settings) :
    ((∃ text, answer group s ["--help"] = .ok (.error ⟨0, text, ""⟩)) ↔
      (∃ t, IfaceText group s t) ∧ ∃ t, AddressText group s t) ∧
    (¬((∃ t, IfaceText group s t) ∧ ∃ t, AddressText group s t) →
      ∃ e, answer group s ["--help"] = .error e) ∧
    (∀ t t', IfaceText group s t → AddressText group s t' → ∃ ls ls', Shows t ls ∧ Shows t' ls' ∧
      answer group s ["--help"] =
        .ok (.error ⟨0, page (ls.map indented) (ls'.map indented), ""⟩)) ∧
    ('%' ∉ s.iface.toList → ∀ t, IfaceText group s t ↔ t = ifaceTemplate s) ∧
    ('%' ∉ s.address.toList → ∀ t, AddressText group s t ↔ t = addressTemplate s) := by
  have hprinted : ∀ t t', IfaceText group s t → AddressText group s t' → helpText group s = .ok _ :=
    fun t t' ht ht' => helpText_eq_ok_iff.2 ⟨t, t', ht, ht', rfl⟩
  rw [answer_asked]
  refine ⟨⟨?_, ?_⟩, ?_, ?_, ?_, ?_⟩
  · rintro ⟨text, htext⟩
    obtain ⟨out, hout, -⟩ := map_eq_ok_iff.1 htext
    obtain ⟨t, t', ht, ht', -⟩ := helpText_eq_ok_iff.1 hout
    exact ⟨⟨t, ht⟩, t', ht'⟩
  · rintro ⟨⟨t, ht⟩, t', ht'⟩
    exact ⟨_, by rw [hprinted t t' ht ht']; rfl⟩
  · intro hnone
    cases hhelp : helpText group s with
    | error e => exact ⟨e, rfl⟩
    | ok out =>
      obtain ⟨t, t', ht, ht', -⟩ := helpText_eq_ok_iff.1 hhelp
      exact absurd ⟨⟨t, ht⟩, t', ht'⟩ hnone
  · intro t t' ht ht'
    exact ⟨_, _, shows_wrap t, shows_wrap t', by rw [hprinted t t' ht ht']; rfl⟩
  · exact fun h t => describes_iff_eq (not_mem_ifaceTemplate h)
  · exact fun h t => describes_iff_eq (not_mem_addressTemplate h)

/-- The defaults of the program have no percent sign. -/
theorem answer_help_initial :
    ∃ ls ls', Shows "Interface to operate on (default: none)" ls ∧
      Shows "Hardware address to apply (default: <random mac>)" ls' ∧
      answer "<options>" .initial ["--help"] =
        .ok (.error ⟨0, page (ls.map indented) (ls'.map indented), ""⟩) := by
  obtain ⟨-, -, hpage, hiface, haddress⟩ := answer_help "<options>" .initial
  exact hpage _ _ ((hiface (by decide) _).2 rfl) ((haddress (by decide) _).2 rfl)

/-- A percent sign at the end of the interface makes a placeholder of the parenthesis behind it. -/
theorem percent_not_answered :
    ∃ s m', Settings.load none (Settings.holding [] "[defaults]\niface = 'wlan0%'\n") = (.ok s, m') ∧
      ∀ group, answer group s ["--help"] = .error (.badValue (.unknownPlaceholder ")" "29" 40)) := by
  obtain ⟨s, m', hload, hiface⟩ := Settings.exists_of_load none
    (Settings.holding [] "[defaults]\niface = 'wlan0%'\n")
    (P := fun s _ => s.iface == "wlan0%") (by decide +kernel)
  refine ⟨s, m', hload, fun group => ?_⟩
  have hfails : described group .iface "iface" "wlan0%"
      "Interface to operate on (default: wlan0%)" =
        .error (.badValue (.unknownPlaceholder ")" "29" 40)) := rfl
  have hhelp : helpText group s = .error (.badValue (.unknownPlaceholder ")" "29" 40)) := by
    rw [helpText_eq, ifaceLines, beq_iff_eq.1 hiface]
    exact bind_eq_error_iff.2 (.inl hfails)
  rw [answer_asked, hhelp]
  rfl

end LinkOverride.CommandLine
