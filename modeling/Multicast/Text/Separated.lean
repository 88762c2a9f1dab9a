/-!
Texts of two parts, cut at the first separator.
-/

namespace Multicast.Text

/-- What stands before the first separator and what stands after it, if there is one. -/
def splitFirst? {α : Type} [DecidableEq α] (separator : α) (text : List α) :
    Option (List α × List α) :=
  match text.dropWhile (· ≠ separator) with
  | [] => none
  | _ :: rest => some (text.takeWhile (· ≠ separator), rest)

end Multicast.Text
