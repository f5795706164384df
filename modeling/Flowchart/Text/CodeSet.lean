/-!
Sets of characters written as ranges of code points, in rising order.
-/

namespace Flowchart.Text

abbrev CodeSet := List (Nat × Nat)

namespace CodeSet

def contains (ranges : CodeSet) (c : Char) : Bool :=
  ranges.any fun (first, last) => first ≤ c.toNat && c.toNat ≤ last

theorem contains_cons (first last : Nat) (ranges : CodeSet) (c : Char) :
    contains ((first, last) :: ranges) c =
      ((first ≤ c.toNat && c.toNat ≤ last) || contains ranges c) := rfl

end CodeSet

end Flowchart.Text
