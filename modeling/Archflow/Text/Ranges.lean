/-!
Sets of characters, given as ranges of codes.
-/
namespace Archflow.Text

/-- The first and the last code of each range. -/
abbrev Ranges := List (Nat × Nat)

def Ranges.contains (ranges : Ranges) (c : Char) : Bool :=
  ranges.any fun range => range.1 ≤ c.toNat && c.toNat ≤ range.2

end Archflow.Text
