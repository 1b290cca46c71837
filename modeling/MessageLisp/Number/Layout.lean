import MessageLisp.Number.Shortest

/-! How a double is written. Numbers of ordinary size are positional and always show a point, so
that they never look like an integer; very small and very large ones carry an exponent. -/
namespace MessageLisp.Number

/-- The decisions of a number format. -/
structure Layout where
  /-- Decimal exponents of the leading digit that are written positionally. -/
  leastPositional : Int
  greatestPositional : Int
  /-- Ends a positional number that has no fraction. -/
  wholeSuffix : String
  exponentMark : String
  nan : String
  infinity : String

/-- From `0.0001` up to below `1e16` numbers are positional and `2` is written `2.0`. Outside that
range there is an exponent without a plus sign, and `1e16` needs no point. -/
def Layout.standard : Layout where
  leastPositional := -4
  greatestPositional := 15
  wholeSuffix := ".0"
  exponentMark := "e"
  nan := "NaN"
  infinity := "inf"

/-- Writes the digits with the point after the first `whole` of them, filling up with zeros on
either side. -/
def Layout.positional (layout : Layout) (digits : List Char) (whole : Int) : List Char :=
  if whole ≤ 0 then
    "0.".toList ++ List.replicate (-whole).toNat '0' ++ digits
  else if (digits.length : Int) ≤ whole then
    digits ++ List.replicate (whole.toNat - digits.length) '0' ++ layout.wholeSuffix.toList
  else digits.take whole.toNat ++ '.' :: digits.drop whole.toNat

/-- Writes one digit before the point and the exponent of that digit after the mark. -/
def Layout.scientific (layout : Layout) (digits : List Char) (exponent : Int) : List Char :=
  digits.take 1 ++ (if digits.length ≤ 1 then [] else '.' :: digits.drop 1) ++
    layout.exponentMark.toList ++ (toString exponent).toList

/-- The text of a positive decimal. -/
def Layout.magnitude (layout : Layout) (d : Decimal) : List Char :=
  let digits := Nat.toDigits 10 d.digits
  let leading : Int := d.exponent + digits.length - 1
  if layout.leastPositional ≤ leading ∧ leading ≤ layout.greatestPositional then
    layout.positional digits (leading + 1)
  else layout.scientific digits leading

/-- The text of a double. The sign of a zero is shown, that of not-a-number is not. -/
def Layout.write (layout : Layout) (x : Float) : List Char :=
  match Exact.ofFloat x with
  | .nan => layout.nan.toList
  | .infinite negative => (if negative then ['-'] else []) ++ layout.infinity.toList
  | .finite negative mantissa exponent =>
    (if negative then ['-'] else []) ++
      if mantissa = 0 then '0' :: layout.wholeSuffix.toList
      else layout.magnitude (shortest mantissa exponent)

/-- The text of a double in the standard layout. -/
def floatText (x : Float) : String :=
  String.ofList (Layout.standard.write x)

end MessageLisp.Number
