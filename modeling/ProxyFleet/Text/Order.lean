/-!
# The order of texts

Texts are ordered by their characters' code points, which is also the order of
their UTF-8 bytes. Sorting keeps equal items in the order they came.
-/

namespace ProxyFleet

/-- Whether a text comes before another, or is the same. -/
def textLe (a b : String) : Bool := !decide (b < a)

/-- Pairs of texts by the first, and by the second where the first are the same. -/
def textPairLe (a b : String × String) : Bool :=
  if a.1 = b.1 then textLe a.2 b.2 else textLe a.1 b.1

/-- The items sorted by a key, equal ones in the order they came. -/
def sortBy {α : Type} (le : α → α → Bool) (items : List α) : List α := items.mergeSort le

/-- Texts in order. -/
def sortTexts (ts : List String) : List String := sortBy textLe ts

end ProxyFleet
