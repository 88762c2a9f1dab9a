import Multicast.Decimal.Basic

/-!
Floats with a fixed number of decimal places. The exact value is rounded, a half going to the even
neighbour.
-/

namespace Multicast.Decimal

def writePlaces (places : Nat) (value : Float) : List Char :=
  match Magnitude.ofFloat value with
  | .notANumber => "NaN".toList
  | .infinity negative => signed negative "inf".toList
  | .zero negative => signed negative (positional ⟨0, -places⟩)
  | .finite negative fraction =>
    signed negative (positional ⟨(fraction.divPowTen (-places)).roundHalfEven, -places⟩)

end Multicast.Decimal
