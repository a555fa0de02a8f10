/-! # Ranges of code points

A character property is a list of inclusive ranges of code points; a character has the property
when some range holds its code point.
-/

namespace GoSchema.Text

/-- Inclusive ranges `(first, last)` of code points. -/
abbrev CodeRanges := List (Nat × Nat)

def CodeRanges.contains (ranges : CodeRanges) (c : Char) : Bool :=
  ranges.any fun (first, last) => first ≤ c.toNat && c.toNat ≤ last

end GoSchema.Text
