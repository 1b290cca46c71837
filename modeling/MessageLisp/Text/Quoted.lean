import MessageLisp.Text.Hidden

/-! Quoted text. Two ways of quoting are used. A literal is what the reader of programs accepts,
with six escapes and everything else plain. A description is for people: it also shows hidden
characters by their code points. -/
namespace MessageLisp.Text

/-- The letter that follows the backslash for the characters that both ways of quoting escape. -/
def escapeLetter? : Char → Option Char
  | '"' => some '"'
  | '\\' => some '\\'
  | '\n' => some 'n'
  | '\t' => some 't'
  | '\r' => some 'r'
  | '\x00' => some '0'
  | _ => none

/-- The character that an escape stands for, given the letter after the backslash. -/
def unescapeLetter? : Char → Option Char
  | '"' => some '"'
  | '\\' => some '\\'
  | 'n' => some '\n'
  | 't' => some '\t'
  | 'r' => some '\r'
  | '0' => some '\x00'
  | _ => none

/-- One character inside a literal. -/
def literalChar (c : Char) : List Char :=
  match escapeLetter? c with
  | some letter => ['\\', letter]
  | none => [c]

/-- Text as a string literal of the language. -/
def literal (text : List Char) : List Char :=
  '"' :: text.flatMap literalChar ++ ['"']

/-- One character inside a description. -/
def describedChar (c : Char) : List Char :=
  match escapeLetter? c with
  | some letter => ['\\', letter]
  | none =>
    if isHidden c then "\\u\x7b".toList ++ Nat.toDigits 16 c.toNat ++ ['\x7d'] else [c]

/-- Text as it appears in a description. -/
def described (text : List Char) : List Char :=
  '"' :: text.flatMap describedChar ++ ['"']

/-- `literal` on strings. -/
def quoteLiteral (text : String) : String :=
  String.ofList (literal text.toList)

/-- `described` on strings. -/
def quoteDescription (text : String) : String :=
  String.ofList (described text.toList)

end MessageLisp.Text
