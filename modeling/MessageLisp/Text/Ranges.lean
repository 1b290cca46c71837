/-! Sets of characters given as a table of code point ranges. -/
namespace MessageLisp.Text

/-- Closed ranges of code points, in increasing order and without overlap. -/
abbrev Ranges := List (Nat × Nat)

/-- Whether some range holds the code point. The search ends at the first range beyond it. -/
def Ranges.holds : Ranges → Nat → Bool
  | [], _ => false
  | (low, high) :: rest, code =>
    if code < low then false else if code ≤ high then true else holds rest code

/-- Whether some range holds the character. -/
def Ranges.mem (ranges : Ranges) (c : Char) : Bool :=
  ranges.holds c.toNat

end MessageLisp.Text
