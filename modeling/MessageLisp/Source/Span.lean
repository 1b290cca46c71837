/-! Places in a source text. Spans and offsets count UTF-8 bytes; lines and columns start at one,
and columns count characters. -/
namespace MessageLisp.Source

/-- The bytes from `start` up to, not including, `stop`. -/
structure Span where
  start : Nat
  stop : Nat
deriving DecidableEq, Repr, Inhabited

/-- The same bytes in a text that has `bytes` more in front. -/
def Span.shift (span : Span) (bytes : Nat) : Span :=
  ⟨span.start + bytes, span.stop + bytes⟩

/-- The length in bytes of a text. -/
def byteLength (text : List Char) : Nat :=
  text.foldr (fun c bytes => c.utf8Size + bytes) 0

/-- An offset with its line and column. -/
structure Position where
  offset : Nat
  line : Nat
  column : Nat
deriving DecidableEq, Repr, Inhabited

/-- Line and column, as in messages. -/
def Position.text (position : Position) : String :=
  s!"{position.line}:{position.column}"

/-- The characters that start before `offset`, in a text whose first character starts at `start`. -/
def startingBefore (offset : Nat) : (start : Nat) → List Char → List Char
  | _, [] => []
  | start, c :: rest =>
    if start < offset then c :: startingBefore offset (start + c.utf8Size) rest else []

/-- The position of an offset. Offsets past the end count as the end, and an offset inside a
character has the line and column of the character after it. -/
def Position.locate (source : List Char) (offset : Nat) : Position :=
  let clamped := min offset (byteLength source)
  let before := startingBefore clamped 0 source
  { offset := clamped
    line := 1 + before.count '\n'
    column := 1 + (before.reverse.takeWhile (· ≠ '\n')).length }

end MessageLisp.Source
