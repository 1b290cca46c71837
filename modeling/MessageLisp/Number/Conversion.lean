import MessageLisp.Number.Binary

/-! Conversions between doubles and 64-bit integers, the single-precision round trip and the
remainder of doubles, each computed exactly and rounded at most once. -/
namespace MessageLisp.Number

/-- The least and the greatest 64-bit integer. -/
def minInt : Int := -0x8000000000000000

@[inherit_doc minInt]
def maxInt : Int := 0x7FFFFFFFFFFFFFFF

/-- The integer as a 64-bit word, if it is in range. -/
def checked (n : Int) : Option Int64 :=
  if minInt ≤ n ∧ n ≤ maxInt then some (Int64.ofInt n) else none

/-- The nearest 64-bit integer in range. -/
def saturate (n : Int) : Int64 :=
  Int64.ofInt (max minInt (min n maxInt))

/-- The double nearest to an integer. Zero is positive. -/
def floatOfInt (n : Int) : Float :=
  ofRatio (decide (n < 0)) n.natAbs 1

/-- Drops the fraction, then saturates. Not-a-number becomes zero. -/
def truncate (x : Float) : Int64 :=
  match Exact.ofFloat x with
  | .nan => 0
  | .infinite negative => saturate (if negative then minInt else maxInt)
  | .finite negative mantissa exponent =>
    let (num, den) := ratioOf 2 mantissa exponent
    let whole : Int := (num / den : Nat)
    saturate (if negative then -whole else whole)

/-- The double that has the value of `x` rounded to single precision: 24 bits of mantissa,
exponents from -149, and infinity from `2 ^ 128` on. -/
def single (x : Float) : Float :=
  match Exact.ofFloat x with
  | .finite negative mantissa exponent =>
    if mantissa = 0 then x
    else
      let (num, den) := ratioOf 2 mantissa exponent
      let (m, e) := roundToPrecision 24 (-149) num den
      let (n, d) := ratioOf 2 m e
      if d * Nat.pow 2 128 ≤ n then ofPattern negative infinityBits else ofRatio negative n d
  | _ => x

/-- The remainder of a division whose quotient is truncated. It has the sign of the dividend,
also when it is zero, and is exact. -/
def remainder (x y : Float) : Float :=
  match Exact.ofFloat x, Exact.ofFloat y with
  | .finite negative m e, .finite _ m' e' =>
    if m' = 0 then Exact.toFloat .nan
    else
      let low := min e e'
      let a := m * Nat.pow 2 (e - low).toNat
      let b := m' * Nat.pow 2 (e' - low).toNat
      Exact.toFloat (.finite negative (a % b) low)
  | .finite .., .infinite _ => x
  | _, _ => Exact.toFloat .nan

end MessageLisp.Number
