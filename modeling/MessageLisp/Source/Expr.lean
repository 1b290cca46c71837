import MessageLisp.Number.Layout
import MessageLisp.Source.Span
import MessageLisp.Text.Quoted

/-! Expressions and their printed form. Every expression carries the span it was read from. Two
expressions are the same if they differ in spans only. -/
namespace MessageLisp.Source

inductive Expr where
  | nil (span : Span)
  | int (span : Span) (value : Int64)
  | float (span : Span) (value : Float)
  | string (span : Span) (text : String)
  | symbol (span : Span) (name : String)
  | list (span : Span) (items : List Expr)
deriving Inhabited

/-- A name of at least two characters that ends in a colon. -/
def isKeyword (name : String) : Bool :=
  match name.toList.reverse with
  | ':' :: _ :: _ => true
  | _ => false

namespace Expr

def span : Expr → Span
  | nil span => span
  | int span _ => span
  | float span _ => span
  | string span _ => span
  | symbol span _ => span
  | list span _ => span

def symbol? : Expr → Option String
  | symbol _ name => some name
  | _ => none

def isKeyword (expr : Expr) : Bool :=
  expr.symbol?.any Source.isKeyword

mutual

/-- Equality that does not look at spans. Floats are compared as numbers. -/
def same : Expr → Expr → Bool
  | nil _, nil _ => true
  | int _ a, int _ b => a == b
  | float _ a, float _ b => a == b
  | string _ a, string _ b => a == b
  | symbol _ a, symbol _ b => a == b
  | list _ a, list _ b => sameAll a b
  | _, _ => false

@[inherit_doc same]
def sameAll : List Expr → List Expr → Bool
  | [], [] => true
  | a :: as, b :: bs => same a b && sameAll as bs
  | _, _ => false

end

mutual

/-- The printed form, as characters. It reads back as the same expression. -/
def print : Expr → List Char
  | nil _ => "nil".toList
  | int _ value => (toString value.toInt).toList
  | float _ value => Number.Layout.standard.write value
  | string _ text => Text.literal text.toList
  | symbol _ name => name.toList
  | list _ items => '(' :: printAll items ++ [')']

/-- The printed forms of several expressions, one blank apart. -/
def printAll : List Expr → List Char
  | [] => []
  | [item] => print item
  | item :: next :: rest => print item ++ ' ' :: printAll (next :: rest)

end

/-- The printed form. -/
def text (expr : Expr) : String :=
  String.ofList expr.print

end Expr

/-- Expressions as printed side by side. -/
def textOfAll (exprs : List Expr) : String :=
  String.ofList (Expr.printAll exprs)

end MessageLisp.Source
