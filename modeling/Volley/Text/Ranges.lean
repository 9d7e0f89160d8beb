/-
# Character classes

A class of characters is given by ranges of code points.

Key definitions: `Text.inRanges`.
-/

namespace Volley
namespace Text

/-- The character lies in one of the ranges, first and last included. -/
def inRanges (ranges : Array (Nat × Nat)) (c : Char) : Bool :=
  ranges.any fun range => range.1 ≤ c.toNat && c.toNat ≤ range.2

end Text
end Volley
