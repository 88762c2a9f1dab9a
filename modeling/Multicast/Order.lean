import Std.Data.ExtTreeMap
import Std.Data.ExtTreeSet

/-!
Dictionary orders. Keyed tables of this library are extensional search trees, so a key type needs
a lawful total order: pairs compare by their first component and then by their second, and a
structure compares by a key that determines it.
-/

namespace Multicast
open Std

instance pairOrd {α β : Type} [Ord α] [Ord β] : Ord (α × β) := lexOrd

instance pairTransOrd {α β : Type} [Ord α] [Ord β] [TransOrd α] [TransOrd β] : TransOrd (α × β) :=
  inferInstanceAs (TransCmp (compareLex (compareOn Prod.fst) (compareOn Prod.snd)))

instance pairLawfulEqOrd {α β : Type} [Ord α] [Ord β] [LawfulEqOrd α] [LawfulEqOrd β] :
    LawfulEqOrd (α × β) where
  compare_self := by
    intro pair
    simp [compare, compareLex, compareOn]
  eq_of_compare := by
    intro first second same
    have parts := compareLex_eq_eq.1 same
    exact Prod.ext (LawfulEqOrd.eq_of_compare parts.1) (LawfulEqOrd.eq_of_compare parts.2)

theorem lawfulEqCmp_compareOn {α β : Type} [Ord β] [LawfulEqOrd β] (key : α → β)
    (determines : ∀ first second, key first = key second → first = second) :
    LawfulEqCmp (compareOn key) where
  compare_self := by
    intro value
    simp [compareOn]
  eq_of_compare same := determines _ _ (LawfulEqOrd.eq_of_compare same)

end Multicast
