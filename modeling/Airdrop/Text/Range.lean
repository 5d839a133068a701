/-!
# Ranges of characters

A class of characters is written as a list of ranges of code points, both ends included.
-/

namespace Airdrop.Text

def inRanges (ranges : List (Nat × Nat)) (n : Nat) : Bool := ranges.any fun (low, high) => low ≤ n && n ≤ high

end Airdrop.Text
