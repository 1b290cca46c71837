import MessageLisp.Prototype
import MessageLisp.Source.Expr

/-! Expressions without their places. Nothing that is printed, compared or read as a parameter list
depends on the spans of an expression. -/
namespace MessageLisp.Source.Expr

mutual

/-- The expression without its places. -/
def bare : Expr → Expr
  | nil _ => nil default
  | int _ value => int default value
  | float _ value => float default value
  | string _ text => string default text
  | symbol _ name => symbol default name
  | list _ items => list default (bareAll items)

@[inherit_doc bare]
def bareAll : List Expr → List Expr
  | [] => []
  | expr :: exprs => bare expr :: bareAll exprs

end

theorem bareAll_eq_map (exprs : List Expr) : bareAll exprs = exprs.map bare := by
  induction exprs with
  | nil => rfl
  | cons expr exprs ih => simp [bareAll, ih]

@[simp] theorem bareAll_append (exprs exprs' : List Expr) :
    bareAll (exprs ++ exprs') = bareAll exprs ++ bareAll exprs' := by
  simp [bareAll_eq_map]

@[simp] theorem symbol?_bare (expr : Expr) : expr.bare.symbol? = expr.symbol? := by
  cases expr <;> rfl

@[simp] theorem isKeyword_bare (expr : Expr) : expr.bare.isKeyword = expr.isKeyword := by
  rw [isKeyword, isKeyword, symbol?_bare]

mutual

@[simp] theorem print_bare (expr : Expr) : expr.bare.print = expr.print := by
  match expr with
  | .nil _ | .int _ _ | .float _ _ | .string _ _ | .symbol _ _ => rfl
  | .list _ items => rw [bare, print, print, printAll_bareAll items]

@[simp] theorem printAll_bareAll (exprs : List Expr) : printAll (bareAll exprs) = printAll exprs := by
  match exprs with
  | [] => rfl
  | [expr] => exact print_bare expr
  | expr :: next :: rest =>
      have hRest := printAll_bareAll (next :: rest)
      rw [bareAll, bareAll, printAll, printAll, print_bare expr]
      rw [bareAll] at hRest
      rw [hRest]

end

@[simp] theorem text_bare (expr : Expr) : expr.bare.text = expr.text := by
  rw [text, text, print_bare]

mutual

@[simp] theorem same_bare (expr other : Expr) : expr.bare.same other.bare = expr.same other := by
  match expr, other with
  | .list _ items, .list _ items' => exact sameAll_bareAll items items'
  | .list _ _, .nil _ | .list _ _, .int _ _ | .list _ _, .float _ _ => rfl
  | .list _ _, .string _ _ | .list _ _, .symbol _ _ => rfl
  | .nil _, other | .int _ _, other | .float _ _, other | .string _ _, other
  | .symbol _ _, other => cases other <;> rfl

@[simp] theorem sameAll_bareAll (exprs others : List Expr) :
    sameAll (bareAll exprs) (bareAll others) = sameAll exprs others := by
  match exprs, others with
  | [], [] | [], _ :: _ | _ :: _, [] => rfl
  | expr :: exprs, other :: others =>
      rw [bareAll, bareAll, sameAll, sameAll, same_bare expr other, sameAll_bareAll exprs others]

end

end MessageLisp.Source.Expr

namespace MessageLisp.Prototype

open Source (Expr)

theorem readReturn_bareAll (exprs : List Expr) :
    readReturn (Expr.bareAll exprs) = readReturn exprs := by
  match exprs with
  | [] => rfl
  | .symbol _ _ :: [] => rfl
  | .symbol _ _ :: extra :: _ => simp [Expr.bareAll, Expr.bare, readReturn]
  | .nil _ :: _ | .int _ _ :: _ | .float _ _ :: _ | .string _ _ :: _ | .list _ _ :: _ => rfl

theorem readParameter_bare (expr : Expr) : readParameter expr.bare = readParameter expr := by
  match expr with
  | .nil _ | .int _ _ | .float _ _ | .string _ _ | .symbol _ _ => rfl
  | .list span items =>
      have hMisfit := congrArg (fun text =>
        (Except.error (malformed (.notTypedParameter text)) : Except Error Parameter))
        (Expr.text_bare (.list span items))
      match items with
      | [] => exact hMisfit
      | [name] => cases name <;> exact hMisfit
      | name :: type :: _ :: _ => cases name <;> cases type <;> exact hMisfit
      | [name, type] =>
          cases name <;> cases type <;> first
            | exact hMisfit
            | rfl

theorem readItems_bareAll (parameters : List Parameter) (exprs : List Expr) :
    readItems parameters (Expr.bareAll exprs) = readItems parameters exprs := by
  induction exprs generalizing parameters with
  | nil => rfl
  | cons expr exprs ih =>
      rw [Expr.bareAll, readItems, readItems, Expr.symbol?_bare, readReturn_bareAll,
        readParameter_bare]
      simp only [ih]

@[simp] theorem ofExpr_bare (expr : Expr) : ofExpr expr.bare = ofExpr expr := by
  cases expr with
  | list span items => exact readItems_bareAll [] items
  | _ => rfl

end MessageLisp.Prototype
