/-
The 25 characters with the Unicode property White_Space.  The zero width space
and the byte order mark do not belong to it.
-/

namespace DecimalCalculator
namespace Unicode

/-- Closed ranges of white space code points in ascending order. -/
def whiteSpaceRanges : List (Nat × Nat) :=
  [(0x9, 0xD), (0x20, 0x20), (0x85, 0x85), (0xA0, 0xA0), (0x1680, 0x1680), (0x2000, 0x200A),
    (0x2028, 0x2029), (0x202F, 0x202F), (0x205F, 0x205F), (0x3000, 0x3000)]

def isWhiteSpace (char : Char) : Bool :=
  whiteSpaceRanges.any fun (first, last) => first ≤ char.toNat && char.toNat ≤ last

end Unicode
end DecimalCalculator
