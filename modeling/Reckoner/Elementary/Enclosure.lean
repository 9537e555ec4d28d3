import Reckoner.Binary64.Arithmetic

/-! # Rounding a real number from enclosures

A transcendental value is never at hand exactly; what can be computed is a pair of bounds around
it. If both bounds round to the same binary64 number, so does the value. This file holds the bounds
and the search for a precision at which they agree.

* **`Enclosure`** — bounds `low / scale` and `high / scale` on a nonnegative magnitude.
* **`Enclosure.rank?`** — the common rank of both bounds, if they have one.
* **`settle`** — the rank found by raising the working precision through `precisions`; a magnitude
  that no precision settles lies on the boundary between two ranks, and goes to the even one.
* **`slack`** — the error bound, in units of the last binary place, that every fixed-point
  computation of the elementary functions keeps. -/

namespace Reckoner

/-- Bounds on a nonnegative magnitude over a common denominator. -/
structure Enclosure where
  /-- The numerator of the lower bound. -/
  low : Nat
  /-- The numerator of the upper bound. -/
  high : Nat
  /-- The common denominator. -/
  scale : Nat
  deriving Repr

/-- The largest error of a fixed-point computation, in units of its last binary place. -/
def slack : Nat := twoPow 32

/-- The working precisions that are tried in turn, in binary places after the point. -/
def precisions : List Nat := [192, 384, 768, 1536]

namespace Enclosure

/-- The bounds `n ± slack` over `2 ^ places`. -/
def around (n places : Nat) : Enclosure := ⟨n - slack, n + slack, twoPow places⟩

/-- The enclosed magnitude times a power of two. -/
def shift (e : Enclosure) (k : Int) : Enclosure :=
  if 0 ≤ k then ⟨e.low * twoPow k.toNat, e.high * twoPow k.toNat, e.scale⟩
  else ⟨e.low, e.high, e.scale * twoPow (-k).toNat⟩

/-- The quotient of two enclosed magnitudes of one scale, the second of them positive. The factors
are cross-multiplied so that both bounds share a denominator. -/
def dividedBy (a b : Enclosure) : Enclosure := ⟨a.low * b.low, a.high * b.high, b.low * b.high⟩

/-- The rank that both bounds round to. -/
def rank? (e : Enclosure) : Option Nat :=
  let low := nearestRank (e.low * unitsPerOne) e.scale
  let high := nearestRank (e.high * unitsPerOne) e.scale
  if low = high then some low else none

/-- The rank nearest to the middle of the bounds, taken on a grid a little coarser than their
distance, so that a magnitude between two ranks is met exactly. -/
def centralRank (e : Enclosure) : Nat :=
  let grid := twoPow ((e.high - e.low).log2 + 8)
  nearestRank (divNearestEven ((e.low + e.high) / 2) grid * grid * unitsPerOne) e.scale

end Enclosure

/-- The rank of the magnitude that `enclose` bounds at every precision. -/
def settle (enclose : Nat → Enclosure) : Nat :=
  (precisions.findSome? fun p => (enclose p).rank?).getD (enclose 1536).centralRank

end Reckoner
