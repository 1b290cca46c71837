import MessageLisp.Number.Binary

/-! The shortest decimal of a double: the fewest digits that read back as the same double, and of
those the nearest one. A tie between two equally near decimals goes up. -/
namespace MessageLisp.Number

/-- The number `digits · 10 ^ exponent`. -/
structure Decimal where
  digits : Nat
  exponent : Int
deriving DecidableEq, Repr

/-- The decimal as a ratio of natural numbers. -/
def Decimal.ratio (d : Decimal) : Nat × Nat :=
  ratioOf 10 d.digits d.exponent

/-- The magnitude pattern of the nearest double. -/
def Decimal.pattern (d : Decimal) : Nat :=
  let (num, den) := d.ratio
  nearestPattern num den

/-- The number of decimal digits of `n`; zero has one. -/
def digitCount (n : Nat) : Nat :=
  (Nat.toDigits 10 n).length

/-- The greatest `k` with `10 ^ k ≤ num / den`, for positive `num` and `den`. -/
def floorLog10 (num den : Nat) : Int :=
  let guess : Int := (digitCount num : Int) - digitCount den
  let (n, d) := scaleBy 10 guess num den
  if d ≤ n then guess else guess - 1

/-- On the grid of multiples of `10 ^ exponent`, the neighbour of `num / den` that reads back as
`pattern`; the nearer one if both do. -/
def neighbour? (pattern num den : Nat) (exponent : Int) : Option Decimal :=
  let (n, d) := scaleBy 10 exponent num den
  let below : Decimal := ⟨n / d, exponent⟩
  let above : Decimal := ⟨n / d + 1, exponent⟩
  match decide (below.pattern = pattern), decide (above.pattern = pattern) with
  | true, true => some (if 2 * (n % d) < d then below else above)
  | true, false => some below
  | false, true => some above
  | false, false => none

/-- Tries ever finer grids, `fuel` of them, the first one with multiples of `10 ^ exponent`. -/
def firstNeighbour? (pattern num den : Nat) : (fuel : Nat) → (exponent : Int) → Option Decimal
  | 0, _ => none
  | fuel + 1, exponent =>
    match neighbour? pattern num den exponent with
    | some d => some d
    | none => firstNeighbour? pattern num den fuel (exponent - 1)

/-- All digits of `mantissa · 2 ^ exponent`. -/
def exactDecimal (mantissa : Nat) (exponent : Int) : Decimal :=
  if 0 ≤ exponent then ⟨mantissa * Nat.pow 2 exponent.toNat, 0⟩
  else ⟨mantissa * Nat.pow 5 (-exponent).toNat, exponent⟩

/-- Moves trailing zeros of the digits into the exponent; `fuel` bounds how many. -/
def trimZeros : (fuel : Nat) → Decimal → Decimal
  | 0, d => d
  | fuel + 1, d =>
    if d.digits % 10 = 0 ∧ d.digits ≠ 0 then trimZeros fuel ⟨d.digits / 10, d.exponent + 1⟩ else d

/-- The shortest decimal of the positive double `mantissa · 2 ^ exponent`. Seventeen digits always
suffice; the exact decimal stands in for a search that finds nothing. -/
def shortest (mantissa : Nat) (exponent : Int) : Decimal :=
  let (num, den) := ratioOf 2 mantissa exponent
  let pattern := nearestPattern num den
  let found := (firstNeighbour? pattern num den 17 (floorLog10 num den)).getD
    (exactDecimal mantissa exponent)
  trimZeros (digitCount found.digits) found

end MessageLisp.Number
