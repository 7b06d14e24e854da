/-!
# White space

Which characters count as blank around names, numbers and versions, and how a
text is trimmed of them. The class is wider than `Char.isWhitespace`: it holds
every Unicode space separator, the two Unicode line ends and the byte order mark.
-/

namespace ProxyFleet

/-- The space separators, line ends, tabulators and the byte order mark. -/
def isBlank (c : Char) : Bool :=
  let n := c.toNat
  (9 ≤ n && n ≤ 13) || n = 0x20 || n = 0xa0 || n = 0x1680 || (0x2000 ≤ n && n ≤ 0x200a)
    || n = 0x2028 || n = 0x2029 || n = 0x202f || n = 0x205f || n = 0x3000 || n = 0xfeff

theorem blank_ranges {c : Char} (h : isBlank c = true) :
    c.toNat ≤ 32 ∨ 160 ≤ c.toNat := by
  simp only [isBlank, Bool.or_eq_true, Bool.and_eq_true, decide_eq_true_eq] at h
  omega

theorem blank_ne {c d : Char} (h : isBlank c = true) (hd : 32 < d.toNat ∧ d.toNat < 160) :
    c ≠ d := by
  rintro rfl
  have := blank_ranges h
  omega

/-- A character that ends a line. -/
def endsLine (c : Char) : Bool := c = '\n' || c = '\r' || c = '\u2028' || c = '\u2029'

/-- Drops the characters of a class at the end. -/
def dropTrailing (p : Char → Bool) (cs : List Char) : List Char :=
  (cs.reverse.dropWhile p).reverse

/-- Drops blanks at both ends. -/
def trimChars (cs : List Char) : List Char := dropTrailing isBlank (cs.dropWhile isBlank)

/-- Drops blanks at both ends. -/
def trim (s : String) : String := String.ofList (trimChars s.toList)

/-- Nothing but blanks. -/
def isAllBlank (s : String) : Bool := s.toList.all isBlank

end ProxyFleet
