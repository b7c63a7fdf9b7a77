import Mathlib.Algebra.Order.Group.Defs
import Mathlib.Data.List.Sort

namespace GameLink.Foundation

namespace SlidingWindow

variable {α : Type} [AddCommGroup α] [LinearOrder α] [IsOrderedAddMonoid α]

def recent (span now : α) (times : List α) : List α := times.filter fun x => decide (now - span < x)

/-- The time, if any, at which the window has room again for one more of `limit` times. -/
def freeAt (span : α) (limit : ℕ) (window : List α) : Option α :=
  if limit ≤ window.length then (window[window.length - limit]?).map fun x => x + span else none

variable {span now t c : α} {times : List α} {limit : ℕ}

end SlidingWindow

end GameLink.Foundation
