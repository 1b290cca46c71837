import MessageLisp.Number.Reading
import MessageLisp.Text.Blank

/-! The limit on nested applications and the setting that changes it: a natural number, possibly in
units of 1024 (`k`) or 1024 · 1024 (`m`). -/
namespace MessageLisp

/-- Settings are machine words. -/
def wordSize : Nat := 0x10000000000000000

/-- An optional plus sign and digits, for a number that fits a word. -/
def readWord (text : List Char) : Option Nat :=
  let digits :=
    match text with
    | '+' :: rest => rest
    | text => text
  if digits.isEmpty || !Number.isDigits digits then none
  else
    let value := Number.digitsValue digits
    if value < wordSize then some value else none

/-- Splits a unit off the end of a setting. -/
def splitUnit (text : List Char) : List Char × Nat :=
  match text.getLast? with
  | some 'k' => (text.dropLast, 1024)
  | some 'K' => (text.dropLast, 1024)
  | some 'm' => (text.dropLast, 1024 * 1024)
  | some 'M' => (text.dropLast, 1024 * 1024)
  | _ => (text, 1)

/-- Reads a setting. Blanks around it do not count, and what does not fit a word is refused. -/
def readSetting (text : String) : Option Nat := do
  let (digits, factor) := splitUnit (Text.trim text.toList)
  let value ← readWord digits
  if value * factor < wordSize then some (value * factor) else none

def defaultMaxDepth : Nat := 256

/-- The limit under an optional setting; a setting that cannot be read is ignored. -/
def maxDepthUnder (setting? : Option String) : Nat :=
  (setting?.bind readSetting).getD defaultMaxDepth

end MessageLisp
