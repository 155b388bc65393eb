/-!
# The range of doubles

A number in a document may lie beyond all doubles of 64 bits. How near to the edge it may come
depends on how a format rounds.

* `Double.fits`: the number is rounded once, from its exact value.
* `Double.productFits`: digits and power of ten are rounded first, and then their product.
-/

namespace Understudy.Document.Double

/-- The least number that is rounded to infinity. It lies halfway above the largest double. -/
def limit : Nat := Nat.pow 2 1024 - Nat.pow 2 970

/-- Whether `mantissa · 10 ^ up / 10 ^ down` is below the limit. Numbers far from the limit are told
by their digits. -/
def fits (mantissa up down : Nat) : Bool :=
  let size := (Nat.toDigits 10 mantissa).length
  if mantissa = 0 || size + up < 300 + down then true
  else if 320 + down < size + up then false
  else if down ≤ up then mantissa * Nat.pow 10 (up - down) < limit
  else mantissa < limit * Nat.pow 10 (down - up)

/-- The number nearest to `n` of 53 significant bits, and of two the even one. -/
def round (n : Nat) : Nat :=
  let unit := Nat.pow 2 (n.log2 + 1 - 53)
  let kept := n / unit
  let lost := 2 * (n % unit)
  let up := unit < lost || (unit = lost && kept % 2 = 1)
  (if up then kept + 1 else kept) * unit

/-- Whether `digits · 10 ^ exponent` is below the limit, rounded in every step. There is no power of
ten beyond `10 ^ 308`. -/
def productFits (digits : Nat) (exponent : Int) : Bool :=
  exponent ≤ 0 || digits = 0 ||
    (exponent ≤ 308 && round digits * round (Nat.pow 10 exponent.toNat) < limit)

end Understudy.Document.Double
