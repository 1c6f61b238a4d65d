import SuiteScribe.Text.Basic

/-!
# How far texts are apart

The distance of two texts is the least number of bytes to put in, to leave out or to replace in
order to make one of the other.
-/

namespace SuiteScribe.Text

/-- The distances of a text that ends with `b` from the beginnings of another text, given those of
the text without `b`: `diagonal` and `above` of them, and `left`, the last one found. -/
def distancesFrom (b : UInt8) : (left diagonal : Nat) → (above : List Nat) → Text → List Nat
  | left, diagonal, up :: above, c :: other =>
    let here := if b = c then diagonal else min (min up left) diagonal + 1
    here :: distancesFrom b here up above other
  | _, _, _, _ => []

/-- The distances of a text with `b` added from the beginnings of another text. -/
def distances (other : Text) (above : List Nat) (b : UInt8) : List Nat :=
  match above with
  | [] => []
  | first :: rest => (first + 1) :: distancesFrom b (first + 1) first rest other

/-- The distance of two texts. -/
def distance (t other : Text) : Nat :=
  (t.foldl (distances other) (List.range (other.length + 1))).getLastD 0

end SuiteScribe.Text
