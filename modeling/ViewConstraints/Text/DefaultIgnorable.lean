import ViewConstraints.Text.CodePoints

/-!
# Characters that are ignored in display

The code points that show nothing where they are not supported, in version 17 of the Unicode
standard. Most of them are formats or marks; the others are letters that fill a place without a shape.
-/

namespace ViewConstraints.Text

/-- The code points that are ignored by default, in ascending ranges. -/
def defaultIgnorable : CodePoints := ⟨[
    (0xAD, 0xAD), (0x34F, 0x34F), (0x61C, 0x61C), (0x115F, 0x1160), (0x17B4, 0x17B5),
    (0x180B, 0x180F), (0x200B, 0x200F), (0x202A, 0x202E), (0x2060, 0x206F), (0x3164, 0x3164),
    (0xFE00, 0xFE0F), (0xFEFF, 0xFEFF), (0xFFA0, 0xFFA0), (0xFFF0, 0xFFF8), (0x1BCA0, 0x1BCA3),
    (0x1D173, 0x1D17A), (0xE0000, 0xE0FFF)]⟩

/-- Whether a character shows nothing where it is not supported. -/
def isIgnorable (c : Char) : Bool := defaultIgnorable.contains c

end ViewConstraints.Text
