/-!
# Blank characters

The blank characters are those of the Unicode classes of spaces and line or
paragraph separators, and the control characters that separate fields or lines.
-/

namespace FormSchema.Text

/-- The first and the last character of each run of blank ones. -/
def blankRuns : List (Nat × Nat) :=
  [(0x09, 0x0d), (0x1c, 0x20), (0x85, 0x85), (0xa0, 0xa0), (0x1680, 0x1680),
    (0x2000, 0x200a), (0x2028, 0x2029), (0x202f, 0x202f), (0x205f, 0x205f),
    (0x3000, 0x3000)]

def isBlank (c : Char) : Bool :=
  blankRuns.any fun run => run.1 ≤ c.toNat && c.toNat ≤ run.2

def strip (text : List Char) : List Char :=
  ((text.dropWhile isBlank).reverse.dropWhile isBlank).reverse

end FormSchema.Text
