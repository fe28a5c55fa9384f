import LinkOverride.Text.Ranges

/-!
# Blank characters

The white space of Unicode, and the four ASCII separators that stand for file, group, record and
unit. Some of the blank characters end a line.
-/

namespace LinkOverride.Text

def blankRanges : List (Nat × Nat) :=
  [(0x09, 0x0D), (0x1C, 0x20), (0x85, 0x85), (0xA0, 0xA0), (0x1680, 0x1680), (0x2000, 0x200A),
   (0x2028, 0x2029), (0x202F, 0x202F), (0x205F, 0x205F), (0x3000, 0x3000)]

def isBlank (c : Char) : Bool := inRanges blankRanges c.toNat

def lineEndRanges : List (Nat × Nat) :=
  [(0x0A, 0x0D), (0x1C, 0x1E), (0x85, 0x85), (0x2028, 0x2029)]

/-- A carriage return with a line feed behind it ends one line, not two. -/
def isLineEnd (c : Char) : Bool := inRanges lineEndRanges c.toNat

end LinkOverride.Text
