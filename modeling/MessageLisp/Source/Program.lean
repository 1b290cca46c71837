import MessageLisp.Number.Reading
import MessageLisp.Source.Expr
import MessageLisp.Source.Token

/-! Programs: source text read as a sequence of expressions. Lists are built on a stack of the lists
still open, one token at a time, and reading stops at the first token that does not fit. -/
namespace MessageLisp.Source

/-- Deepest nesting of lists that is accepted. -/
def maxNesting : Nat := 256

/-- Why a text is no program. -/
inductive SyntaxCause where
  | unexpectedClose
  | unterminatedList
  | unterminatedString
  | invalidEscape (char : Char)
  | invalidNumber (text : String)
  | nestingTooDeep (limit : Nat)
deriving DecidableEq, Repr

def SyntaxCause.message : SyntaxCause → String
  | unexpectedClose => "unexpected ')'"
  | unterminatedList => "unexpected end of input, ')' expected"
  | unterminatedString => "unterminated string literal"
  | invalidEscape char => s!"invalid escape sequence '\\{char}'"
  | invalidNumber text => s!"invalid numeric literal '{text}'"
  | nestingTooDeep limit => s!"lists nested deeper than {limit} levels"

/-- A cause and the bytes that show it. -/
structure Misfit where
  cause : SyntaxCause
  span : Span
deriving DecidableEq, Repr

/-- A misfit located in a labelled text. -/
structure SyntaxError where
  label : String
  position : Position
  span : Span
  cause : SyntaxCause
deriving DecidableEq, Repr

def SyntaxError.message (error : SyntaxError) : String :=
  s!"{error.label}:{error.position.text}: {error.cause.message}"

/-- Replaces the escapes of a string body that starts at byte `start`. -/
def unescape (start : Nat) : List Char → Except Misfit (List Char)
  | [] => .ok []
  | '\\' :: c :: rest =>
    match Text.unescapeLetter? c with
    | some plain => (unescape (start + 1 + c.utf8Size) rest).map (plain :: ·)
    | none => .error ⟨.invalidEscape c, ⟨start, start + 1 + c.utf8Size⟩⟩
  | c :: rest => (unescape (start + c.utf8Size) rest).map (c :: ·)

/-- The characters between the quotes of a string token. -/
def Token.body (token : Token) : List Char :=
  token.text.tail.dropLast

/-- The number that a numeric word stands for: an integer if it is a sign and digits only, else a
finite float. -/
def numberExpr? (span : Span) (word : List Char) : Option Expr :=
  if Number.isDigits (Number.splitSign word).2 then
    (Number.readInteger word).map (.int span)
  else
    ((Number.readFloat word).filter Number.isFinite).map (.float span)

/-- The expression of a token that is no parenthesis. Comments have none. -/
def Token.atom? (token : Token) : Except Misfit (Option Expr) :=
  match token.kind with
  | .symbol =>
    .ok (some (if token.text = "nil".toList then .nil token.span
      else .symbol token.span (String.ofList token.text)))
  | .string =>
    (unescape (token.span.start + 1) token.body).map fun text =>
      some (.string token.span (String.ofList text))
  | .number =>
    match numberExpr? token.span token.text with
    | some expr => .ok (some expr)
    | none => .error ⟨.invalidNumber (String.ofList token.text), token.span⟩
  | _ => .ok none

/-- A list whose closing parenthesis has not come yet. -/
structure OpenList where
  /-- Byte of the opening parenthesis. -/
  start : Nat
  /-- Newest first. -/
  items : List Expr

/-- The state of reading: the open lists, innermost first, and the finished top-level expressions,
newest first. -/
structure Reading where
  pending : List OpenList
  finished : List Expr

def Reading.empty : Reading := ⟨[], []⟩

/-- Adds an expression to the innermost open list, or to the top level. -/
def Reading.push (reading : Reading) (expr : Expr) : Reading :=
  match reading.pending with
  | [] => { reading with finished := expr :: reading.finished }
  | inner :: outer =>
    { reading with pending := { inner with items := expr :: inner.items } :: outer }

/-- Takes in one token. -/
def Reading.step (reading : Reading) (token : Token) : Except Misfit Reading :=
  match token.kind with
  | .listOpen =>
    if maxNesting ≤ reading.pending.length then .error ⟨.nestingTooDeep maxNesting, token.span⟩
    else .ok { reading with pending := ⟨token.span.start, []⟩ :: reading.pending }
  | .listClose =>
    match reading.pending with
    | [] => .error ⟨.unexpectedClose, token.span⟩
    | inner :: outer =>
      .ok ({ reading with pending := outer }.push
        (.list ⟨inner.start, token.span.stop⟩ inner.items.reverse))
  | _ => token.atom?.map fun
    | some expr => reading.push expr
    | none => reading

/-- What the tokens make of the end of the text at byte `stop`. -/
def Reading.finish (reading : Reading) (unterminated : Bool) (stop : Nat) :
    Except Misfit (List Expr) :=
  if unterminated then .error ⟨.unterminatedString, ⟨stop, stop⟩⟩
  else
    match reading.pending with
    | [] => .ok reading.finished.reverse
    | _ :: _ => .error ⟨.unterminatedList, ⟨stop, stop⟩⟩

/-- The expressions of a text. -/
def readProgram (source : List Char) : Except Misfit (List Expr) := do
  let scanned := scan source
  let reading ← scanned.tokens.foldlM Reading.step Reading.empty
  reading.finish scanned.unterminated (byteLength source)

/-- Reads a program; `label` names the text in errors. -/
def parse (source label : String) : Except SyntaxError (List Expr) :=
  match readProgram source.toList with
  | .ok program => .ok program
  | .error misfit =>
    .error
      { label
        position := Position.locate source.toList misfit.span.start
        span := misfit.span
        cause := misfit.cause }

end MessageLisp.Source
