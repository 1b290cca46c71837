import MessageLisp.Source.Program

/-! Tokens one at a time. A lexer holds what is left of a text. Asked for the next item it skips blanks
and takes one token off; a string that is not closed takes the rest of the text with it and gives a
misfit instead. -/
namespace MessageLisp.Source

/-- What is left of a text, and the byte where that starts. -/
structure Lexer where
  start : Nat
  rest : List Char
deriving DecidableEq, Repr

namespace Lexer

/-- The lexer of a whole text. -/
def ofText (text : List Char) : Lexer :=
  ⟨0, text⟩

/-- Gives a token; `rest` is what stands behind it. -/
def give (kind : TokenKind) (start : Nat) (text rest : List Char) : Except Misfit Token × Lexer :=
  (.ok (.ofText kind start text), ⟨start + byteLength text, rest⟩)

/-- The item that begins with the character `c` at byte `start`, and the lexer behind it. -/
def itemAt (start : Nat) (c : Char) (rest : List Char) : Except Misfit Token × Lexer :=
  if c = '(' then give .listOpen start [c] rest
  else if c = ')' then give .listClose start [c] rest
  else if c = ';' then
    give .comment start (c :: rest.takeWhile (· ≠ '\n')) (rest.dropWhile (· ≠ '\n'))
  else if c = '"' then
    match splitString rest with
    | some (body, after) => give .string start (c :: body) after
    | none =>
      let stop := start + byteLength (c :: rest)
      (.error ⟨.unterminatedString, ⟨stop, stop⟩⟩, ⟨stop, []⟩)
  else
    let word := c :: rest.takeWhile (!isDelimiter ·)
    give (wordKind word) start word (rest.dropWhile (!isDelimiter ·))

/-- The next item and the lexer behind it; nothing at the end of the text. -/
def next? (lexer : Lexer) : Option (Except Misfit Token × Lexer) :=
  match lexer.rest.dropWhile Text.isBlank with
  | [] => none
  | c :: rest =>
    some (itemAt (lexer.start + byteLength (lexer.rest.takeWhile Text.isBlank)) c rest)

theorem length_itemAt_le (start : Nat) (c : Char) (rest : List Char) :
    (itemAt start c rest).2.rest.length ≤ rest.length := by
  unfold itemAt
  split
  · exact Nat.le_refl _
  split
  · exact Nat.le_refl _
  split
  · exact length_dropWhile_le _ _
  split
  · split
    · exact length_of_splitString ‹_›
    · exact Nat.zero_le _
  · exact length_dropWhile_le _ _

/-- Every item takes at least one character. -/
theorem length_lt_of_next? {lexer lexer' : Lexer} {item : Except Misfit Token}
    (h : lexer.next? = some (item, lexer')) : lexer'.rest.length < lexer.rest.length := by
  have hBlanks := length_dropWhile_le Text.isBlank lexer.rest
  unfold next? at h
  split at h
  · cases h
  · rename_i c rest hRest
    have hItem := length_itemAt_le
      (lexer.start + byteLength (lexer.rest.takeWhile Text.isBlank)) c rest
    rw [Option.some.inj h] at hItem
    rw [hRest] at hBlanks
    exact Nat.lt_of_le_of_lt hItem hBlanks

/-- All items that are still to come. -/
def items (lexer : Lexer) : List (Except Misfit Token) :=
  match _h : lexer.next? with
  | none => []
  | some (item, lexer') => item :: lexer'.items
termination_by lexer.rest.length
decreasing_by exact length_lt_of_next? _h

end Lexer

end MessageLisp.Source
