/-!
Totals of counts. The total of two lists together is the sum of their totals.
-/

namespace Multicast

def total (counts : List Nat) : Nat := counts.foldr (· + ·) 0

theorem total_nil : total [] = 0 := rfl

theorem total_cons (count : Nat) (rest : List Nat) : total (count :: rest) = count + total rest := rfl

theorem total_append (first second : List Nat) :
    total (first ++ second) = total first + total second := by
  induction first with
  | nil => simp [total_nil]
  | cons count rest hypothesis => simp [total_cons, hypothesis, Nat.add_assoc]

end Multicast
