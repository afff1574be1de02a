/-!
# Blank characters

A token or a reason made of blanks only counts as empty, and dates may carry blanks around their
numbers.  Both use one set: the characters with the Unicode property `White_Space`.  Core's
`Char.isWhitespace` knows only some of them; `isBlank_of_isWhitespace` says the set here contains
those.
-/

namespace Bulwark.Text

/-- The Unicode property `White_Space`. -/
def isBlank (c : Char) : Bool :=
  let n := c.toNat
  (9 ≤ n && n ≤ 13) || n == 0x20 || n == 0x85 || n == 0xA0 || n == 0x1680
    || (0x2000 ≤ n && n ≤ 0x200A) || n == 0x2028 || n == 0x2029 || n == 0x202F
    || n == 0x205F || n == 0x3000

/-- Every blank of core's ASCII class is blank here. -/
theorem isBlank_of_isWhitespace (c : Char) (h : c.isWhitespace = true) : isBlank c = true := by
  simp only [Char.isWhitespace, Bool.or_eq_true, decide_eq_true_eq] at h
  rcases h with ((h | h) | h) | h <;> subst h <;> decide

/-- A text that trimming leaves empty. -/
def allBlank (s : String) : Bool := s.toList.all isBlank

/-- What is left of a text after its leading blanks. -/
def skipBlanks (cs : List Char) : List Char := cs.dropWhile isBlank

end Bulwark.Text
