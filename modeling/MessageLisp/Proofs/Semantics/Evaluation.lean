import MessageLisp.Proofs.Semantics.Primitive
import MessageLisp.Semantics.Evaluation

/-! Messages and expressions as computations. Alike expressions are evaluated alike, and nothing but
the parts of the expression at hand is evaluated on the way, other than bodies of functions and
expressions from elsewhere. -/
namespace MessageLisp

open Source (Expr)

/-- The parts of an expression, which are expressions of the same program. -/
def Source.Expr.parts : Expr → List Expr
  | .list _ items => items
  | _ => []

theorem forall₂_and {α β : Type} {R S : α → β → Prop} {as : List α} {bs : List β}
    (hLeft : List.Forall₂ R as bs) (hRight : List.Forall₂ S as bs) :
    List.Forall₂ (fun a b => R a b ∧ S a b) as bs := by
  induction hLeft with
  | nil => exact List.Forall₂.nil
  | cons hHead _ ih =>
      obtain ⟨hOther, hOthers⟩ := List.forall₂_cons.mp hRight
      exact List.Forall₂.cons ⟨hHead, hOther⟩ (ih hOthers)

theorem Likeness.code_parts (L : Likeness) {program program' : Option SourceText} {expr expr' : Expr}
    (hCode : L.code program program' expr expr') :
    List.Forall₂ (L.code program program') expr.parts expr'.parts := by
  have hBare := L.bare_eq (L.expr_of_code hCode)
  cases expr with
  | list span items =>
      obtain ⟨span', items', rfl⟩ : ∃ span' items', expr' = .list span' items' := by
        cases expr' <;> simp_all [Expr.bare]
      exact L.code_items hCode
  | _ =>
      cases expr' with
      | list => simp [Expr.bare] at hBare
      | _ => exact List.Forall₂.nil

structure Message.Alike (L : Likeness) (message message' : Message) : Prop where
  selector : message.selector = message'.selector
  arguments : List.Forall₂ (Value.Alike L) message.arguments message'.arguments

theorem superStart?_eq {L : Likeness} {session session' : Session} (h : session.Alike L session')
    {head head' : Expr} (hHead : L.expr head head') (scope : ScopeId) :
    superStart? session head scope = superStart? session' head' scope := by
  have hSuper := h.environment.lookup? scope superName
  rw [superStart?, superStart?, L.symbol?_eq hHead]
  generalize session.environment.lookup? scope superName = value? at hSuper ⊢
  generalize session'.environment.lookup? scope superName = value?' at hSuper ⊢
  cases hSuper with
  | none => rfl
  | some hValue => cases hValue <;> rfl

namespace Computes

variable {L : Likeness} {program program' : Option SourceText} {P : Expr → Expr → Prop}

/-! ### Messages -/

theorem notUnderstood {α : Type} {R : α → α → Prop} {receiver receiver' : Value}
    (hReceiver : receiver.Alike L receiver') (selector : String) :
    Computes L program program' P R (fun _ => MessageLisp.notUnderstood receiver selector)
      (fun _ => MessageLisp.notUnderstood receiver' selector) := by
  apply read
  intro session session' hAlike _ _
  rw [hAlike.className_eq hReceiver]
  exact fail _

theorem misspelled {α : Type} {R : α → α → Prop} {receiver receiver' : Value}
    (hReceiver : receiver.Alike L receiver') {parts parts' : List Expr}
    (hParts : List.Forall₂ L.expr parts parts') :
    Computes L program program' P R (fun _ => MessageLisp.misspelled receiver parts)
      (fun _ => MessageLisp.misspelled receiver' parts') := by
  rw [MessageLisp.misspelled, MessageLisp.misspelled, L.textOfAll_eq hParts]
  exact notUnderstood hReceiver _

theorem decodeKeywords {receiver receiver' : Value} (hReceiver : receiver.Alike L receiver')
    {parts parts' : List Expr} (hParts : List.Forall₂ L.expr parts parts') (scope : ScopeId)
    {rest rest' : List Expr}
    (hRest : List.Forall₂ (fun e e' => P e e' ∧ L.code program program' e e') rest rest') :
    Computes L program program' P (Message.Alike L)
      (fun ev => ev.decodeKeywords receiver parts scope rest)
      (fun ev => ev.decodeKeywords receiver' parts' scope rest') := by
  match rest, rest', hRest with
  | [], [], .nil => exact pure ⟨rfl, List.Forall₂.nil⟩
  | [_], [_], .cons _ .nil => exact misspelled hReceiver hParts
  | keyword :: argument :: rest, keyword' :: argument' :: rest',
      .cons hKeyword (.cons hArgument hRest) =>
      have hExpr := L.expr_of_code hKeyword.2
      simp only [Evaluator.decodeKeywords, L.symbol?_eq hExpr, L.isKeyword_eq hExpr]
      cases keyword'.symbol? with
      | none => exact misspelled hReceiver hParts
      | some name =>
          simp only []
          split
          · apply bind (evaluate hArgument.1 hArgument.2 scope)
            intro value value' hValue
            apply bind (decodeKeywords hReceiver hParts scope hRest)
            intro message message' hMessage
            rw [hMessage.selector]
            exact pure ⟨rfl, List.Forall₂.cons hValue hMessage.arguments⟩
          · exact misspelled hReceiver hParts

theorem decodeMessage {receiver receiver' : Value} (hReceiver : receiver.Alike L receiver')
    {parts parts' : List Expr}
    (hParts : List.Forall₂ (fun e e' => P e e' ∧ L.code program program' e e') parts parts')
    (scope : ScopeId) :
    Computes L program program' P (Message.Alike L)
      (fun ev => ev.decodeMessage receiver parts scope)
      (fun ev => ev.decodeMessage receiver' parts' scope) := by
  have hExprs : List.Forall₂ L.expr parts parts' :=
    hParts.imp fun _ _ hPart => L.expr_of_code hPart.2
  have hMisspelled : Computes L program program' P (Message.Alike L)
      (fun _ => MessageLisp.misspelled receiver parts)
      (fun _ => MessageLisp.misspelled receiver' parts') := misspelled hReceiver hExprs
  match parts, parts', hParts with
  | [], [], .nil => exact hMisspelled
  | [selector], [selector'], .cons hSelector .nil =>
      have hExpr := L.expr_of_code hSelector.2
      simp only [Evaluator.decodeMessage, L.symbol?_eq hExpr, L.isKeyword_eq hExpr]
      split
      · exact hMisspelled
      · cases selector'.symbol? with
        | none => exact hMisspelled
        | some name => exact pure ⟨rfl, List.Forall₂.nil⟩
  | [selector, argument], [selector', argument'], .cons hSelector (.cons hArgument .nil) =>
      have hExpr := L.expr_of_code hSelector.2
      simp only [Evaluator.decodeMessage, L.symbol?_eq hExpr, L.isKeyword_eq hExpr]
      split
      · exact decodeKeywords hReceiver hExprs scope (.cons hSelector (.cons hArgument .nil))
      · cases selector'.symbol? with
        | none => exact hMisspelled
        | some name =>
            apply bind (evaluate hArgument.1 hArgument.2 scope)
            intro value value' hValue
            exact pure ⟨rfl, List.Forall₂.cons hValue List.Forall₂.nil⟩
  | _ :: _ :: _ :: _, _ :: _ :: _ :: _, .cons hFirst (.cons hSecond (.cons hThird hRest)) =>
      simp only [Evaluator.decodeMessage, hExprs.length_eq]
      split
      · exact decodeKeywords hReceiver hExprs scope
          (.cons hFirst (.cons hSecond (.cons hThird hRest)))
      · exact hMisspelled

theorem runMethod (method : Method) {receiver receiver' : Value}
    (hReceiver : receiver.Alike L receiver') {arguments arguments' : List Value}
    (hArguments : List.Forall₂ (Value.Alike L) arguments arguments') :
    Computes L program program' P (Value.Alike L)
      (fun ev => ev.runMethod method receiver arguments)
      (fun ev => ev.runMethod method receiver' arguments') := by
  cases method with
  | primitive primitive => exact runPrimitive primitive hReceiver hArguments
  | function target =>
      cases target with
      | closure id => exact applyClosure id (Option.Rel.some hReceiver) hArguments
      | builtin builtin =>
          exact Computes.apply (.builtin builtin) (.cons hReceiver hArguments) Environment.root
      | host id => exact Computes.apply (.host id) (.cons hReceiver hArguments) Environment.root

theorem send {receiver receiver' : Value} (hReceiver : receiver.Alike L receiver')
    {message message' : Message} (hMessage : message.Alike L message') (start? : Option ClassId) :
    Computes L program program' P (Value.Alike L) (fun ev => ev.send receiver message start?)
      (fun ev => ev.send receiver' message' start?) := by
  apply read
  intro session session' hAlike _ _
  rw [hAlike.hierarchy, hAlike.classOf_eq hReceiver, hMessage.selector, hMessage.arguments.length_eq]
  cases session'.hierarchy.resolve? (start?.getD (session'.classOf receiver')) message'.selector with
  | none => exact notUnderstood hReceiver _
  | some method =>
      simp only []
      split
      · exact fail _
      · exact runMethod method hReceiver hMessage.arguments

theorem sendParts {receiver receiver' : Value} (hReceiver : receiver.Alike L receiver')
    {parts parts' : List Expr}
    (hParts : List.Forall₂ (fun e e' => P e e' ∧ L.code program program' e e') parts parts')
    (scope : ScopeId) (start? : Option ClassId) :
    Computes L program program' P (Value.Alike L)
      (fun ev => ev.sendParts receiver parts scope start?)
      (fun ev => ev.sendParts receiver' parts' scope start?) := by
  apply bind (decodeMessage hReceiver hParts scope)
  intro message message' hMessage
  exact send hReceiver hMessage start?

/-! ### Expressions -/

theorem resolve (name : String) (scope : ScopeId) :
    Computes L program program' P (Value.Alike L) (fun _ => MessageLisp.resolve name scope)
      (fun _ => MessageLisp.resolve name scope) := by
  apply read
  intro session session' hAlike _ _
  have hValue := hAlike.environment.lookup? scope name
  rw [hAlike.hierarchy]
  generalize session.environment.lookup? scope name = value? at hValue ⊢
  generalize session'.environment.lookup? scope name = value?' at hValue ⊢
  cases hValue with
  | some hValue => exact pure hValue
  | none =>
      cases session'.hierarchy.find? name with
      | none => exact fail _
      | some id => exact pure (.classRef id)

theorem applyParts (target : FunctionRef) {parts parts' : List Expr}
    (hParts : List.Forall₂ (fun e e' => P e e' ∧ L.code program program' e e') parts parts')
    (scope : ScopeId) :
    Computes L program program' P (Value.Alike L) (fun ev => ev.applyParts target parts scope)
      (fun ev => ev.applyParts target parts' scope) := by
  apply read
  intro session session' hAlike _ _
  rw [hAlike.isForm_eq target]
  cases session'.isForm target with
  | true => exact applyInPlace target hParts scope
  | false =>
      apply bind (mapM hParts fun part part' hPart => evaluate hPart.1 hPart.2 scope)
      intro arguments arguments' hArguments
      exact Computes.apply target hArguments scope

theorem evaluateList {items items' : List Expr}
    (hItems : List.Forall₂ (fun e e' => P e e' ∧ L.code program program' e e') items items')
    (scope : ScopeId) :
    Computes L program program' P (Value.Alike L) (fun ev => ev.evaluateList items scope)
      (fun ev => ev.evaluateList items' scope) := by
  match items, items', hItems with
  | [], [], .nil => exact pure (.list List.Forall₂.nil)
  | head :: parts, head' :: parts', .cons hHead hParts =>
      apply read
      intro session session' hAlike _ _
      rw [superStart?_eq hAlike (L.expr_of_code hHead.2) scope]
      cases superStart? session' head' scope with
      | some start =>
          have hReceiver := hAlike.environment.lookup? scope selfName
          exact sendParts (Value.Alike.getD_null hReceiver) hParts scope (some start)
      | none =>
          apply bind (evaluate hHead.1 hHead.2 scope)
          intro target target' hTarget
          have hKeyword : parts.head?.any Expr.isKeyword = parts'.head?.any Expr.isKeyword := by
            cases hParts with
            | nil => rfl
            | cons hPart _ => exact L.isKeyword_eq (L.expr_of_code hPart.2)
          have hEmpty : parts.isEmpty = parts'.isEmpty := by cases hParts <;> rfl
          rw [hKeyword]
          split
          · exact sendParts hTarget hParts scope none
          · have hSame := hTarget
            cases hTarget with
            | function target => exact applyParts target hParts scope
            | _ =>
                simp only [hEmpty]
                split
                · exact pure hSame
                · exact sendParts hSame hParts scope none

/-- The value of an expression depends on the values of its parts only. -/
theorem interpret {expr expr' : Expr} (hCode : L.code program program' expr expr')
    (hParts : List.Forall₂ P expr.parts expr'.parts) (scope : ScopeId) :
    Computes L program program' P (Value.Alike L) (fun ev => ev.interpret expr scope)
      (fun ev => ev.interpret expr' scope) := by
  have hBare := L.bare_eq (L.expr_of_code hCode)
  cases expr with
  | nil span =>
      obtain ⟨span', rfl⟩ : ∃ span', expr' = .nil span' := by
        cases expr' <;> simp_all [Expr.bare]
      exact pure .null
  | int span value =>
      obtain ⟨span', rfl⟩ : ∃ span', expr' = .int span' value := by
        cases expr' <;> simp_all [Expr.bare]
      exact pure (.int value)
  | float span value =>
      obtain ⟨span', rfl⟩ : ∃ span', expr' = .float span' value := by
        cases expr' <;> simp_all [Expr.bare]
      exact pure (.float value)
  | string span text =>
      obtain ⟨span', rfl⟩ : ∃ span', expr' = .string span' text := by
        cases expr' <;> simp_all [Expr.bare]
      exact pure (.string text)
  | symbol span name =>
      obtain ⟨span', rfl⟩ : ∃ span', expr' = .symbol span' name := by
        cases expr' <;> simp_all [Expr.bare]
      exact resolve name scope
  | list span items =>
      obtain ⟨span', items', rfl⟩ : ∃ span' items', expr' = .list span' items' := by
        cases expr' <;> simp_all [Expr.bare]
      exact evaluateList (forall₂_and hParts (L.code_items hCode)) scope

end Computes

end MessageLisp
