/-! Doubles as exact binary numbers. Every finite double is `± mantissa · 2 ^ exponent`, and every
positive ratio of natural numbers has a nearest double. All rounding goes to the nearest value and
breaks ties to the even mantissa. Nothing here uses floating-point arithmetic. -/
namespace MessageLisp.Number

/-- What a double stands for. A zero keeps its sign. -/
inductive Exact where
  | nan
  | infinite (negative : Bool)
  | finite (negative : Bool) (mantissa : Nat) (exponent : Int)
deriving DecidableEq, Repr

/-- The pattern of a negative zero: the sign bit alone. -/
def signBit : Nat := 0x8000000000000000

/-- The weight of the lowest exponent bit, which is also the leading bit that full mantissas do not
store. -/
def hiddenBit : Nat := 0x10000000000000

/-- Fields of the 64-bit pattern: sign, eleven bits of exponent, fifty-two bits of fraction. -/
def Exact.ofFloat (x : Float) : Exact :=
  let bits := x.toBits.toNat
  let negative := decide (signBit ≤ bits)
  let field : Nat := bits / hiddenBit % 2048
  let fraction : Nat := bits % hiddenBit
  if field = 2047 then
    if fraction = 0 then .infinite negative else .nan
  else if field = 0 then .finite negative fraction (-1074)
  else .finite negative (hiddenBit + fraction) ((field : Int) - 1075)

/-- Divides `num / den` by `base ^ exponent`, staying a ratio of natural numbers. -/
def scaleBy (base : Nat) (exponent : Int) (num den : Nat) : Nat × Nat :=
  if 0 ≤ exponent then (num, den * base.pow exponent.toNat)
  else (num * base.pow (-exponent).toNat, den)

/-- The ratio `mantissa · base ^ exponent`. -/
def ratioOf (base : Nat) (mantissa : Nat) (exponent : Int) : Nat × Nat :=
  scaleBy base (-exponent) mantissa 1

/-- The natural number nearest to `num / den`; a half goes to the even neighbour. -/
def roundDiv (num den : Nat) : Nat :=
  let below := num / den
  let rest := num % den
  if den < 2 * rest ∨ (den = 2 * rest ∧ below % 2 = 1) then below + 1 else below

/-- The greatest `k` with `2 ^ k ≤ num / den`, for positive `num` and `den`. -/
def floorLog2 (num den : Nat) : Int :=
  let guess : Int := (num.log2 : Int) - den.log2
  let (n, d) := scaleBy 2 guess num den
  if d ≤ n then guess else guess - 1

/-- Rounds a positive ratio to `mantissa · 2 ^ exponent` with at most `precision` bits and an
exponent of at least `least`. A carry may leave the mantissa at exactly `2 ^ precision`. -/
def roundToPrecision (precision : Nat) (least : Int) (num den : Nat) : Nat × Int :=
  let exponent := max (floorLog2 num den - (precision - 1)) least
  let (n, d) := scaleBy 2 exponent num den
  (roundDiv n d, exponent)

/-- The bit pattern of positive infinity. -/
def infinityBits : Nat := 0x7FF0000000000000

/-- The pattern of `mantissa · 2 ^ exponent` for a mantissa of at most 53 bits that is either
full or has the least exponent. The exponent field and the hidden bit add up, so that a carry out
of the mantissa lands in the exponent field, and everything too large becomes infinity. -/
def patternOf (mantissa : Nat) (exponent : Int) : Nat :=
  min ((exponent + 1074).toNat * hiddenBit + mantissa) infinityBits

/-- The pattern of the double nearest to `num / den`. -/
def nearestPattern (num den : Nat) : Nat :=
  if num = 0 then 0
  else
    let (mantissa, exponent) := roundToPrecision 53 (-1074) num den
    patternOf mantissa exponent

/-- The double with the given sign and magnitude pattern. -/
def ofPattern (negative : Bool) (pattern : Nat) : Float :=
  Float.ofBits (UInt64.ofNat (if negative then signBit + pattern else pattern))

/-- The double nearest to `± num / den`. -/
def ofRatio (negative : Bool) (num den : Nat) : Float :=
  ofPattern negative (nearestPattern num den)

/-- The double nearest to an exact binary number. -/
def Exact.toFloat : Exact → Float
  | .nan => Float.ofBits 0x7FF8000000000000
  | .infinite negative => ofPattern negative infinityBits
  | .finite negative mantissa exponent =>
    let (num, den) := ratioOf 2 mantissa exponent
    ofRatio negative num den

/-- Neither an infinity nor the not-a-number value. -/
def isFinite (x : Float) : Bool :=
  match Exact.ofFloat x with
  | .finite .. => true
  | _ => false

end MessageLisp.Number
