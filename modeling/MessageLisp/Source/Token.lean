import MessageLisp.Number.Reading
import MessageLisp.Source.Span
import MessageLisp.Text.Blank

/-! Tokens. A source text is blanks, parentheses, comments up to the end of their line, quoted
strings and words. Scanning never fails: a string that is not closed before the end of the text
leaves everything from its opening quote without a token, and the scan says so. -/
namespace MessageLisp.Source

inductive TokenKind where
  | listOpen
  | listClose
  | symbol
  | string
  | number
  | comment
deriving DecidableEq, Repr

/-- What messages call a token. -/
def TokenKind.text : TokenKind → String
  | .listOpen => "'('"
  | .listClose => "')'"
  | .symbol => "symbol"
  | .string => "string"
  | .number => "number"
  | .comment => "comment"

/-- A token with the characters under its span. -/
structure Token where
  kind : TokenKind
  span : Span
  text : List Char
deriving DecidableEq, Repr

/-- A token of the given text that starts at byte `start`. -/
def Token.ofText (kind : TokenKind) (start : Nat) (text : List Char) : Token :=
  ⟨kind, ⟨start, start + byteLength text⟩, text⟩

/-- Characters that end a word. -/
def isDelimiter (c : Char) : Bool :=
  Text.isBlank c || c = '(' || c = ')' || c = '"' || c = ';'

/-- Whether the text starts with a digit. -/
def startsWithDigit : List Char → Bool
  | c :: _ => c.isDigit
  | [] => false

/-- A word that starts like a number: after an optional sign a digit, or a point and a digit. Such a
word is a number token even if it is not a valid number. -/
def looksNumeric (word : List Char) : Bool :=
  match (Number.splitSign word).2 with
  | '.' :: rest => startsWithDigit rest
  | unsigned => startsWithDigit unsigned

/-- The kind of a token that is a word. -/
def wordKind (word : List Char) : TokenKind :=
  if looksNumeric word then .number else .symbol

/-- Splits the text after an opening quote behind the closing one. A backslash takes the next
character with it, whatever that is. -/
def splitString : List Char → Option (List Char × List Char)
  | [] => none
  | '"' :: rest => some (['"'], rest)
  | '\\' :: c :: rest => (splitString rest).map fun (body, rest) => ('\\' :: c :: body, rest)
  | c :: rest => (splitString rest).map fun (body, rest) => (c :: body, rest)

/-- Splitting a string loses nothing. -/
theorem splitString_append {text body rest : List Char}
    (h : splitString text = some (body, rest)) : body ++ rest = text := by
  fun_induction splitString text generalizing body rest with
  | case1 => simp at h
  | case2 =>
    obtain ⟨rfl, rfl⟩ := Prod.mk.inj (Option.some.inj h)
    rfl
  | case3 c text ih =>
    obtain ⟨⟨body', rest'⟩, hSplit, hEq⟩ := Option.map_eq_some_iff.mp h
    obtain ⟨rfl, rfl⟩ := Prod.mk.inj hEq
    simp [ih hSplit]
  | case4 c text _ _ ih =>
    obtain ⟨⟨body', rest'⟩, hSplit, hEq⟩ := Option.map_eq_some_iff.mp h
    obtain ⟨rfl, rfl⟩ := Prod.mk.inj hEq
    simp [ih hSplit]

theorem length_of_splitString {text body rest : List Char}
    (h : splitString text = some (body, rest)) : rest.length ≤ text.length := by
  rw [← splitString_append h]
  simp

theorem length_dropWhile_le (p : Char → Bool) (text : List Char) :
    (text.dropWhile p).length ≤ text.length :=
  (List.dropWhile_suffix p).length_le

/-- The tokens of a text, and whether it ends inside a string. -/
structure Scan where
  tokens : List Token
  unterminated : Bool
deriving DecidableEq, Repr

/-- Puts a token in front. -/
def Scan.cons (token : Token) (scan : Scan) : Scan :=
  { scan with tokens := token :: scan.tokens }

/-- Scans a text whose first character is at byte `start`. -/
def scanFrom (start : Nat) : List Char → Scan
  | [] => ⟨[], false⟩
  | c :: rest =>
    if Text.isBlank c then scanFrom (start + c.utf8Size) rest
    else if c = '(' then (scanFrom (start + 1) rest).cons (.ofText .listOpen start [c])
    else if c = ')' then (scanFrom (start + 1) rest).cons (.ofText .listClose start [c])
    else if c = ';' then
      let token := Token.ofText .comment start (c :: rest.takeWhile (· ≠ '\n'))
      (scanFrom token.span.stop (rest.dropWhile (· ≠ '\n'))).cons token
    else if c = '"' then
      match _h : splitString rest with
      | none => ⟨[], true⟩
      | some (body, after) =>
        let token := Token.ofText .string start (c :: body)
        (scanFrom token.span.stop after).cons token
    else
      let word := c :: rest.takeWhile (!isDelimiter ·)
      let token := Token.ofText (wordKind word) start word
      (scanFrom token.span.stop (rest.dropWhile (!isDelimiter ·))).cons token
termination_by text => text.length
decreasing_by
  · simp
  · simp
  · simp
  · exact Nat.lt_succ_of_le (length_dropWhile_le _ _)
  · exact Nat.lt_succ_of_le (length_of_splitString _h)
  · exact Nat.lt_succ_of_le (length_dropWhile_le _ _)

/-- Scans a whole text. -/
def scan (source : List Char) : Scan :=
  scanFrom 0 source

end MessageLisp.Source
