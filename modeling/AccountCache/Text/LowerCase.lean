namespace AccountCache

/-- The lower case of a character, as far as ASCII text needs it:
that of the Kelvin sign is `k`, and any other character beyond ASCII
stays as it is. -/
def lowerCase (c : Char) : Char := if c == '\u212a' then 'k' else c.toLower

theorem lowerCase_of_isUpper {c : Char} (h : c.isUpper) : lowerCase c = c.toLower := by
  have : c ≠ '\u212a' := fun e => by simp [e] at h
  simp [lowerCase, this]

end AccountCache
