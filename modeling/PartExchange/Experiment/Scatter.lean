/-
**Dealing out the parts.**

The eight parts are dealt to a number of holders like cards, one after the other and round after
round, in an order that may be shuffled.

Main definitions:

* `scatter`: the hands after dealing the parts in a given order.

Main results:

* `length_scatter`: there is a hand for each holder, and at least one.
-/

import PartExchange.PartSet

set_option relaxedAutoImplicit false
set_option autoImplicit false

namespace PartExchange

/-- Deals the listed parts, the first of them to the holder whose turn is `turn`. -/
def deal (holders turn : Nat) (order : List Nat) (hands : List PartSet) : List PartSet :=
  match order with
  | [] => hands
  | index :: rest =>
    deal holders (turn + 1) rest
      (hands.modify (turn % holders) (·.union (.single index)))

/-- The hands after dealing the parts in this order to that many holders, at least one. -/
def scatter (nodes : Nat) (order : List Nat) : List PartSet :=
  deal (max nodes 1) 0 order (List.replicate (max nodes 1) .empty)

@[simp] theorem length_deal (holders turn : Nat) (order : List Nat) (hands : List PartSet) :
    (deal holders turn order hands).length = hands.length := by
  induction order generalizing turn hands with
  | nil => rfl
  | cons index rest ih => simp [deal, ih]

/-- There is a hand for each holder, and at least one. -/
@[simp] theorem length_scatter (nodes : Nat) (order : List Nat) :
    (scatter nodes order).length = max nodes 1 := by
  simp [scatter]

end PartExchange
