/-!
# Blank characters

Two sets of characters separate words. The **white space** of Unicode holds the
space, the controls that move the carriage, and the spaces of typesetting; a
number may be surrounded by it. The **blanks** add the four information
separators of ASCII; a setting that is a word is trimmed of them.
-/

namespace Clearance.Text

/-- Whether `c` has the Unicode property of white space. -/
def isWhite (c : Char) : Bool :=
  let code := c.toNat
  (9 ≤ code && code ≤ 13) || code == 32 || code == 0x85 || code == 0xA0 || code == 0x1680 ||
  (0x2000 ≤ code && code ≤ 0x200A) || code == 0x2028 || code == 0x2029 || code == 0x202F ||
  code == 0x205F || code == 0x3000

/-- Whether `c` is white space or an information separator. -/
def isBlank (c : Char) : Bool :=
  isWhite c || (0x1C ≤ c.toNat && c.toNat ≤ 0x1F)

/-- White space is blank. -/
theorem isBlank_of_isWhite {c : Char} (h : isWhite c = true) : isBlank c = true := by
  simp [isBlank, h]

/-- The characters left when those that satisfy `p` are dropped from both ends. -/
def trim (p : Char → Bool) (cs : List Char) : List Char :=
  ((cs.dropWhile p).reverse.dropWhile p).reverse

end Clearance.Text
