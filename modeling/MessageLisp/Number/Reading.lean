import MessageLisp.Number.Conversion
import MessageLisp.Number.Shortest

/-! Reading numbers. An integer is an optional sign and ASCII digits. A decimal also has a fraction,
an exponent or both; at least one digit stands before the exponent. -/
namespace MessageLisp.Number

/-- The value of a run of decimal digits, most significant first. -/
def digitsValue (digits : List Char) : Nat :=
  digits.foldl (fun total c => 10 * total + (c.toNat - '0'.toNat)) 0

/-- Splits off one leading sign; the flag says whether it is a minus. -/
def splitSign : List Char → Bool × List Char
  | '+' :: rest => (false, rest)
  | '-' :: rest => (true, rest)
  | text => (false, text)

/-- A possibly empty run of digits without sign. -/
def isDigits (text : List Char) : Bool :=
  text.all Char.isDigit

/-- The integer with the given sign and digits, if it fits 64 bits. -/
def readInteger (text : List Char) : Option Int64 :=
  let (negative, digits) := splitSign text
  if digits.isEmpty || !isDigits digits then none
  else
    let magnitude : Int := digitsValue digits
    checked (if negative then -magnitude else magnitude)

/-- The exponent after the mark: an optional sign and at least one digit. -/
def readExponent (text : List Char) : Option Int :=
  let (negative, digits) := splitSign text
  if digits.isEmpty || !isDigits digits then none
  else
    let magnitude : Int := digitsValue digits
    some (if negative then -magnitude else magnitude)

/-- An unsigned decimal: digits with an optional point among or beside them, then an optional
exponent. -/
def readDecimal (text : List Char) : Option Decimal :=
  let whole := text.takeWhile Char.isDigit
  let (fraction, rest) :=
    match text.dropWhile Char.isDigit with
    | '.' :: rest => (rest.takeWhile Char.isDigit, rest.dropWhile Char.isDigit)
    | rest => ([], rest)
  let digits := whole ++ fraction
  let shifted (exponent : Int) : Decimal := ⟨digitsValue digits, exponent - fraction.length⟩
  if digits.isEmpty then none
  else
    match rest with
    | [] => some (shifted 0)
    | mark :: rest =>
      if mark = 'e' ∨ mark = 'E' then (readExponent rest).map shifted else none

/-- The magnitude pattern of the double nearest to a decimal. Decimals beyond `10 ^ 400` or below
`10 ^ -400` are settled by their exponent alone, so that no huge power is computed. -/
def Decimal.boundedPattern (d : Decimal) : Nat :=
  let size : Int := d.exponent + digitCount d.digits
  if d.digits = 0 ∨ size < -400 then 0
  else if 400 < size then infinityBits
  else d.pattern

/-- The words for the values that are no numbers, whatever the case of their letters. -/
def readSpecial (negative : Bool) (text : List Char) : Option Float :=
  let word := String.ofList (text.map Char.toLower)
  if word = "inf" ∨ word = "infinity" then some (Exact.toFloat (.infinite negative))
  else if word = "nan" then some (Exact.toFloat .nan)
  else none

/-- The double nearest to a signed decimal, or a special value. -/
def readFloat (text : List Char) : Option Float :=
  let (negative, magnitude) := splitSign text
  match readDecimal magnitude with
  | some d => some (ofPattern negative d.boundedPattern)
  | none => readSpecial negative magnitude

end MessageLisp.Number
