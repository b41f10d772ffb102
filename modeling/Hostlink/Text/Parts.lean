/-!
# Parts of texts

* `Text.splitWhere` — the parts of a list between separators;
* `Text.holds` — whether a list occurs in another without a gap.
-/

namespace Hostlink.Text

variable {α : Type}

/-- The parts of a list between the elements that satisfy `p`; there is always one. -/
def splitWhere (p : α → Bool) : List α → List (List α)
  | [] => [[]]
  | a :: rest =>
    if p a then [] :: splitWhere p rest
    else match splitWhere p rest with
      | [] => [[a]]
      | part :: parts => (a :: part) :: parts

/-- Does `pattern` occur in a list without a gap? -/
def holds [BEq α] (pattern : List α) : List α → Bool
  | [] => pattern.isEmpty
  | a :: rest => pattern.isPrefixOf (a :: rest) || holds pattern rest

end Hostlink.Text
