/-! White space, and trimming it off the ends of a text. White space is what has the Unicode
property of that name. -/

namespace WalletAuth.Text

/-- The characters that are white space, as ranges of codes. -/
def blankRanges : List (Nat × Nat) :=
  [(0x09, 0x0D), (0x20, 0x20), (0x85, 0x85), (0xA0, 0xA0), (0x1680, 0x1680), (0x2000, 0x200A),
    (0x2028, 0x2029), (0x202F, 0x202F), (0x205F, 0x205F), (0x3000, 0x3000)]

def isBlank (char : Char) : Bool :=
  blankRanges.any fun (first, last) => decide (first ≤ char.toNat ∧ char.toNat ≤ last)

/-- Drops white space from both ends. -/
def trimList (chars : List Char) : List Char :=
  ((chars.dropWhile isBlank).reverse.dropWhile isBlank).reverse

end WalletAuth.Text
