import MessageLisp.Proofs.Semantics.Computation
import MessageLisp.Semantics.Application

/-! Application as computations. Alike functions take alike arguments to alike results. -/
namespace MessageLisp

open Native (NativeType)
open Source (Expr)

/-! ### What builtins take of their arguments -/

theorem Builtin.taken_alike {L : Likeness} (builtin : Builtin) {arguments arguments' : List Value}
    (h : List.Forall₂ (Value.Alike L) arguments arguments') :
    List.Forall₂ L.expr (builtin.taken arguments) (builtin.taken arguments') := by
  cases builtin with
  | lambda | set => exact filterMap_expr?_alike (List.forall₂_drop 1 h)
  | function => exact filterMap_expr?_alike (List.forall₂_drop 2 h)
  | and | or => exact filterMap_expr?_alike h
  | _ => exact List.Forall₂.nil

theorem Builtin.taken_parts {R : Expr → Expr → Prop} (builtin : Builtin) {parts parts' : List Expr}
    (h : List.Forall₂ R parts parts') :
    List.Forall₂ R (builtin.taken (parts.map .expr)) (builtin.taken (parts'.map .expr)) := by
  cases builtin with
  | lambda | set | function =>
      simp only [Builtin.taken, ← List.map_drop, filterMap_expr?_map]
      exact List.forall₂_drop _ h
  | and | or =>
      simp only [Builtin.taken, filterMap_expr?_map]
      exact h
  | _ => exact List.Forall₂.nil

/-! ### Types of parameters -/

/-- The types that arguments are converted to: those of the parameters, else those of a signature of
the right length. -/
def Closure.parameterTypes (closure : Closure) : List (Option NativeType) :=
  let parameters := closure.prototype.parameters
  match closure.signature? with
  | some signature =>
    if signature.arguments.length = parameters.length then
      List.zipWith (fun p type => p.type? <|> some type) parameters signature.arguments
    else parameters.map Parameter.type?
  | none => parameters.map Parameter.type?

theorem Closure.length_parameterTypes (closure : Closure) :
    closure.parameterTypes.length = closure.prototype.arity := by
  simp only [parameterTypes, Prototype.arity]
  split
  · split
    · rename_i hLength
      rw [List.length_zipWith, hLength, Nat.min_self]
    · exact List.length_map ..
  · exact List.length_map ..

/-- The parameter of an argument is in range, and so is its place in a signature. -/
theorem parameterType_eq {closure : Closure} {index : Nat} {type? : Option NativeType}
    (h : closure.parameterTypes[index]? = some type?) :
    parameterType closure index = pure type? := by
  rw [Closure.parameterTypes] at h
  rw [parameterType, Prototype.arity]
  cases hSignature : closure.signature? with
  | none =>
      simp only [hSignature, List.getElem?_map, Option.map_eq_some_iff] at h
      obtain ⟨parameter, hParameter, rfl⟩ := h
      cases hType : parameter.type? <;> simp [hParameter, hType]
  | some signature =>
      simp only [hSignature] at h
      by_cases hLength : signature.arguments.length = closure.prototype.parameters.length
      · rw [if_pos hLength, List.getElem?_zipWith_eq_some] at h
        obtain ⟨parameter, type, hParameter, hArgument, rfl⟩ := h
        cases hType : parameter.type? <;> simp [hParameter, hType, hLength, hArgument]
      · simp only [if_neg hLength, List.getElem?_map, Option.map_eq_some_iff] at h
        obtain ⟨parameter, hParameter, rfl⟩ := h
        cases hType : parameter.type? <;> simp [hParameter, hType, hLength]

theorem mapM_parameterType {closure : Closure} {arguments : List Value}
    {types : List (Option NativeType)} (hLength : types.length = arguments.length) {start : Nat}
    (hTypes : ∀ index type?, types[index]? = some type? →
      parameterType closure (start + index) = pure type?) :
    ((arguments.zipIdx start).mapM fun (argument, index) => do
        coerceArgument (← parameterType closure index) argument) =
      (types.zip arguments).mapM fun (type?, argument) => coerceArgument type? argument := by
  induction arguments generalizing types start with
  | nil => simp
  | cons argument arguments ih =>
      obtain ⟨type?, types, rfl⟩ := List.exists_cons_of_length_eq_add_one hLength
      have hFirst : parameterType closure start = pure type? := hTypes 0 type? rfl
      have hOthers : ∀ index other?, types[index]? = some other? →
          parameterType closure (start + 1 + index) = pure other? := by
        intro index other? hOther
        rw [Nat.add_assoc, Nat.add_comm 1]
        exact hTypes (index + 1) other? hOther
      simp only [List.zipIdx_cons, List.zip_cons_cons, List.mapM_cons, hFirst, pure_bind,
        ih (Nat.succ.inj hLength) hOthers]

theorem coerceArguments_eq {closure : Closure} {arguments : List Value}
    (hLength : arguments.length = closure.prototype.arity) :
    coerceArguments closure arguments =
      (closure.parameterTypes.zip arguments).mapM fun (type?, argument) =>
        coerceArgument type? argument := by
  apply mapM_parameterType (closure.length_parameterTypes.trans hLength.symm)
  intro index type? hType
  rw [Nat.zero_add]
  exact parameterType_eq hType

namespace Computes

variable {L : Likeness} {program program' : Option SourceText} {P : Expr → Expr → Prop}

/-! ### Small steps -/

theorem argument {arguments arguments' : List Value}
    (hArguments : List.Forall₂ (Value.Alike L) arguments arguments') (index : Nat) :
    Computes L program program' P (Value.Alike L) (fun _ => Eval.argument arguments index)
      (fun _ => Eval.argument arguments' index) := by
  have hArgument := rel_getElem? hArguments index
  rw [Eval.argument, Eval.argument]
  generalize arguments[index]? = argument? at hArgument ⊢
  generalize arguments'[index]? = argument?' at hArgument ⊢
  cases hArgument with
  | none => exact abort _
  | some hArgument => exact pure hArgument

theorem argumentsFrom {arguments arguments' : List Value}
    (hArguments : List.Forall₂ (Value.Alike L) arguments arguments') (start : Nat) :
    Computes L program program' P
      (fun values values' => values = arguments.drop start ∧ values' = arguments'.drop start)
      (fun _ => Eval.argumentsFrom arguments start)
      (fun _ => Eval.argumentsFrom arguments' start) := by
  rw [Eval.argumentsFrom, Eval.argumentsFrom, hArguments.length_eq]
  split
  · exact pure ⟨rfl, rfl⟩
  · exact abort _

theorem closureOf (id : ClosureId) :
    Computes L program program' P (Closure.Alike L) (fun _ => Eval.closureOf id)
      (fun _ => Eval.closureOf id) := by
  apply read
  intro session session' hAlike _ _
  have hClosure := hAlike.closures id.index
  generalize session.closures[id.index]? = closure? at hClosure ⊢
  generalize session'.closures[id.index]? = closure?' at hClosure ⊢
  cases hClosure with
  | none => exact abort _
  | some hClosure => exact pure hClosure

theorem hostOf (id : HostId) :
    Computes L program program' P Eq (fun _ => Eval.hostOf id) (fun _ => Eval.hostOf id) := by
  apply read
  intro session session' hAlike _ _
  rw [hAlike.hosts]
  cases session'.hosts[id.index]? with
  | none => exact abort _
  | some host => exact pure rfl

theorem requireOpen :
    Computes L program program' P Eq (fun _ => Eval.requireOpen) (fun _ => Eval.requireOpen) := by
  apply read
  intro session session' hAlike _ _
  rw [hAlike.isOpen]
  cases session'.isOpen with
  | true => exact pure rfl
  | false => exact fail _

theorem newScope (parent : Option ScopeId) :
    Computes L program program' P Eq (fun _ => Eval.newScope parent)
      (fun _ => Eval.newScope parent) := by
  apply step
  · intro session session' hAlike _ _
    exact ⟨hAlike.newScope_eq parent, hAlike.newScope parent⟩
  · exact fun session => .newScope session parent
  · exact fun session => .newScope session parent

theorem define (scope : ScopeId) (name : String) {value value' : Value}
    (hValue : value.Alike L value') :
    Computes L program program' P Eq (fun _ => Eval.define scope name value)
      (fun _ => Eval.define scope name value') := by
  apply update
  · intro session session' hAlike _ _
    exact hAlike.mapEnvironment (hAlike.environment.define scope name hValue)
  · exact fun session => .mapEnvironment session _
  · exact fun session => .mapEnvironment session _

theorem assign (scope : ScopeId) (name : String) {value value' : Value}
    (hValue : value.Alike L value') :
    Computes L program program' P Eq (fun _ => Eval.assign scope name value)
      (fun _ => Eval.assign scope name value') := by
  apply update
  · intro session session' hAlike _ _
    exact hAlike.mapEnvironment (hAlike.environment.assign scope name hValue)
  · exact fun session => .mapEnvironment session _
  · exact fun session => .mapEnvironment session _

theorem printLine (line : String) :
    Computes L program program' P Eq (fun _ => Eval.printLine line)
      (fun _ => Eval.printLine line) := by
  apply update
  · exact fun session session' hAlike _ _ => hAlike.print line
  · exact fun session => .print session line
  · exact fun session => .print session line

/-- Evaluates expressions in order. -/
theorem sequence {exprs exprs' : List Expr}
    (hExprs : List.Forall₂ (fun e e' => P e e' ∧ L.code program program' e e') exprs exprs')
    (scope : ScopeId) :
    Computes L program program' P (Value.Alike L) (fun ev => ev.sequence exprs scope)
      (fun ev => ev.sequence exprs' scope) := by
  apply foldlM hExprs Value.Alike.null
  intro _ _ expr expr' _ hExpr
  exact evaluate hExpr.1 hExpr.2 scope

/-! ### Forms -/

theorem rawArgument {R : Expr → Expr → Prop} (form : String) {arguments arguments' : List Value}
    {index : Nat} (hArgument : Option.Rel R (arguments[index]?.bind Value.expr?)
      (arguments'[index]?.bind Value.expr?)) :
    Computes L program program' P R (fun _ => MessageLisp.rawArgument form arguments index)
      (fun _ => MessageLisp.rawArgument form arguments' index) := by
  rw [MessageLisp.rawArgument, MessageLisp.rawArgument]
  generalize arguments[index]?.bind Value.expr? = expr? at hArgument ⊢
  generalize arguments'[index]?.bind Value.expr? = expr?' at hArgument ⊢
  cases hArgument with
  | none => exact fail _
  | some hArgument => exact pure hArgument

theorem variableName (form : String) {expr expr' : Expr} (hExpr : L.expr expr expr') :
    Computes L program program' P Eq (fun _ => MessageLisp.variableName form expr)
      (fun _ => MessageLisp.variableName form expr') := by
  simp only [MessageLisp.variableName, L.symbol?_eq hExpr, L.isKeyword_eq hExpr, L.text_eq hExpr]
  split
  · split
    · exact fail _
    · exact pure rfl
  · exact fail _

theorem definedName {head head' : Expr} (hHead : L.expr head head') :
    Computes L program program' P Eq (fun _ => MessageLisp.definedName head)
      (fun _ => MessageLisp.definedName head') := by
  have hBare := L.bare_eq hHead
  cases head with
  | string span selector =>
      obtain ⟨span', rfl⟩ : ∃ span', head' = .string span' selector := by
        cases head' <;> simp_all [Expr.bare]
      simp only [MessageLisp.definedName]
      split
      · exact variableName "function" hHead
      · exact pure rfl
  | _ =>
      cases head' <;> simp_all only [Expr.bare, reduceCtorEq]
      all_goals exact variableName "function" hHead

theorem bodyOf {R : Expr → Expr → Prop} (form : String) {body body' : List Value}
    (hBody : List.Forall₂ (Value.Alike L) body body')
    (hTaken : List.Forall₂ R (body.filterMap Value.expr?) (body'.filterMap Value.expr?)) :
    Computes L program program' P (List.Forall₂ R) (fun _ => MessageLisp.bodyOf form body)
      (fun _ => MessageLisp.bodyOf form body') := by
  induction hBody with
  | nil => exact pure List.Forall₂.nil
  | @cons part part' rest rest' hPart _ ih =>
      simp only [MessageLisp.bodyOf, List.mapM_cons] at ih ⊢
      cases hPart with
      | expr _ =>
          obtain ⟨hFirst, hOthers⟩ := List.forall₂_cons.mp hTaken
          apply bind (pure hFirst)
          intro first first' hFirst
          apply bind (ih hOthers)
          intro others others' hOthers
          exact pure (List.Forall₂.cons hFirst hOthers)
      | _ => exact bind (R := fun _ _ => False) (fail _) fun _ _ hNever => hNever.elim

theorem makeClosure (form : String) {prototype prototype' : Expr}
    (hPrototype : L.expr prototype prototype') {body body' : List Value}
    (hBody : List.Forall₂ (Value.Alike L) body body')
    (hTaken : List.Forall₂ (L.code program program') (body.filterMap Value.expr?)
      (body'.filterMap Value.expr?)) (scope : ScopeId) :
    Computes L program program' P Eq (fun _ => MessageLisp.makeClosure form prototype body scope)
      (fun _ => MessageLisp.makeClosure form prototype' body' scope) := by
  simp only [MessageLisp.makeClosure, L.prototype_eq hPrototype]
  apply bind (ofExcept (ExceptAlike.refl _))
  rintro prototype _ rfl
  apply bind (bodyOf form hBody hTaken)
  intro exprs exprs' hExprs
  apply read
  intro session session' hAlike hSource hSource'
  apply step
  · intro later later' hLater _ _
    refine ⟨hLater.addClosure_eq _ _, hLater.addClosure ?_⟩
    refine ⟨rfl, rfl, rfl, ?_, rfl, hAlike.source, rfl⟩
    rw [hSource, hSource']
    exact hExprs
  · exact fun session => .addClosure session _
  · exact fun session => .addClosure session _

theorem untilTruth (form : String) (stop : Bool) (scope : ScopeId) {arguments arguments' : List Value}
    (hArguments : List.Forall₂ (Value.Alike L) arguments arguments')
    (hTaken : List.Forall₂ (fun e e' => P e e' ∧ L.code program program' e e')
      (arguments.filterMap Value.expr?) (arguments'.filterMap Value.expr?)) (index : Nat)
    {last last' : Value} (hLast : last.Alike L last') :
    Computes L program program' P (Value.Alike L)
      (fun ev => ev.untilTruth form stop scope arguments index last)
      (fun ev => ev.untilTruth form stop scope arguments' index last') := by
  induction hArguments generalizing index last last' with
  | nil => exact pure hLast
  | @cons argument argument' rest rest' hArgument _ ih =>
      cases hArgument with
      | expr _ =>
          obtain ⟨hFirst, hOthers⟩ := List.forall₂_cons.mp hTaken
          simp only [Evaluator.untilTruth, Value.expr?, pure_bind]
          apply bind (evaluate hFirst.1 hFirst.2 scope)
          intro value value' hValue
          rw [hValue.isTrue_eq]
          split
          · exact pure hValue
          · exact ih hOthers (index + 1) hValue
      | _ => exact bind (R := fun _ _ => False) (fail _) fun _ _ hNever => hNever.elim

/-- A builtin treats alike arguments alike if all it takes of them is at hand. -/
theorem applyBuiltin (builtin : Builtin) {arguments arguments' : List Value}
    (hArguments : List.Forall₂ (Value.Alike L) arguments arguments')
    (hTaken : List.Forall₂ (fun e e' => P e e' ∧ L.code program program' e e')
      (builtin.taken arguments) (builtin.taken arguments')) (scope : ScopeId) :
    Computes L program program' P (Value.Alike L)
      (fun ev => ev.applyBuiltin builtin arguments scope)
      (fun ev => ev.applyBuiltin builtin arguments' scope) := by
  have hRaw : ∀ index : Nat, Option.Rel L.expr (arguments[index]?.bind Value.expr?)
      (arguments'[index]?.bind Value.expr?) := by
    intro index
    have hArgument := rel_getElem? hArguments index
    generalize arguments[index]? = argument? at hArgument ⊢
    generalize arguments'[index]? = argument?' at hArgument ⊢
    cases hArgument with
    | none => exact Option.Rel.none
    | some hArgument => exact hArgument.expr?
  cases builtin with
  | lambda =>
      apply bind (rawArgument "lambda" (hRaw 0))
      intro prototype prototype' hPrototype
      apply bind (argumentsFrom hArguments 1)
      rintro _ _ ⟨rfl, rfl⟩
      apply bind (makeClosure "lambda" hPrototype (List.forall₂_drop 1 hArguments)
        (hTaken.imp fun _ _ hPart => hPart.2) scope)
      rintro id _ rfl
      exact pure (Value.Alike.function _)
  | function =>
      apply bind (rawArgument "function" (hRaw 0))
      intro head head' hHead
      apply bind (definedName hHead)
      rintro name _ rfl
      apply bind (rawArgument "function" (hRaw 1))
      intro prototype prototype' hPrototype
      apply bind (argumentsFrom hArguments 2)
      rintro _ _ ⟨rfl, rfl⟩
      apply bind (makeClosure "function" hPrototype (List.forall₂_drop 2 hArguments)
        (hTaken.imp fun _ _ hPart => hPart.2) scope)
      rintro id _ rfl
      apply bind (R := Eq)
      · apply update
        · intro session session' hAlike _ _
          exact hAlike.modifyClosure id fun _ _ hClosure => { hClosure with name := rfl }
        · exact fun session => .modifyClosure session id fun _ => rfl
        · exact fun session => .modifyClosure session id fun _ => rfl
      rintro _ _ rfl
      apply bind (define scope name (Value.Alike.function _))
      rintro _ _ rfl
      exact pure (Value.Alike.function _)
  | set =>
      rcases hArguments with _ | ⟨hName, _ | ⟨hValue, _ | _⟩⟩
      case cons.cons.nil name name' value value' =>
        have hOperand : Option.Rel (fun e e' => P e e' ∧ L.code program program' e e')
            value.expr? value'.expr? := by
          cases hValue with
          | expr _ => exact Option.Rel.some (List.forall₂_cons.mp hTaken).1
          | _ => exact Option.Rel.none
        apply bind (rawArgument "set" (hRaw 0))
        intro expr expr' hExpr
        apply bind (variableName "set" hExpr)
        rintro name _ rfl
        apply bind (rawArgument "set" hOperand)
        intro operand operand' hOperand
        apply bind (evaluate hOperand.1 hOperand.2 scope)
        intro result result' hResult
        apply bind (assign scope name hResult)
        rintro _ _ rfl
        exact pure hResult
      all_goals exact fail (.invalidForm "set" .assignmentShape)
  | quote =>
      rcases hArguments with _ | ⟨hArgument, _ | _⟩
      · exact fail _
      · exact pure hArgument
      · exact fail _
  | and => exact untilTruth "and" false scope hArguments hTaken 0 (Value.Alike.bool true)
  | or => exact untilTruth "or" true scope hArguments hTaken 0 (Value.Alike.bool false)
  | list => exact pure (Value.Alike.list hArguments)
  | print =>
      apply read
      intro session session' hAlike _ _
      rw [hAlike.displayAll_eq hArguments]
      apply bind (printLine _)
      rintro _ _ rfl
      have hLast := rel_getElem? hArguments (arguments'.length - 1)
      rw [← List.getLast?_eq_getElem?, ← hArguments.length_eq, ← List.getLast?_eq_getElem?] at hLast
      exact pure (Value.Alike.getD_null hLast)
  | raise =>
      apply read
      intro session session' hAlike _ _
      rw [hAlike.displayAll_eq hArguments]
      exact fail _

/-! ### Functions -/

theorem requireArity (host : HostFunction) (count : Nat) :
    Computes L program program' P Eq (fun _ => host.requireArity count)
      (fun _ => host.requireArity count) := by
  rw [HostFunction.requireArity]
  split
  · split
    · exact fail _
    · exact pure rfl
  · exact pure rfl

theorem perform (action : HostAction) {arguments arguments' : List Value}
    (hArguments : List.Forall₂ (Value.Alike L) arguments arguments') (scope : ScopeId) :
    Computes L program program' P (Value.Alike L) (fun _ => action.perform arguments scope)
      (fun _ => action.perform arguments' scope) := by
  cases action with
  | echo => exact pure (Value.Alike.list hArguments)
  | fail message => exact fail _
  | panic panic => exact Computes.panic panic
  | depth =>
      apply read
      intro session session' hAlike _ _
      rw [hAlike.depth_eq]
      exact pure (Value.Alike.int _)
  | scopeNames =>
      apply read
      intro session session' hAlike _ _
      simp only [hAlike.environment.isOutermost_eq scope, hAlike.environment.names_eq scope]
      split
      · exact pure (Value.Alike.list (.cons (.string _) .nil))
      · apply pure
        apply Value.Alike.list
        rw [List.forall₂_map_left_iff, List.forall₂_map_right_iff]
        exact List.forall₂_same.mpr fun name _ => Value.Alike.string name

theorem applyHost (host : HostFunction) {arguments arguments' : List Value}
    (hArguments : List.Forall₂ (Value.Alike L) arguments arguments') (scope : ScopeId) :
    Computes L program program' P (Value.Alike L)
      (fun _ => MessageLisp.applyHost host arguments scope)
      (fun _ => MessageLisp.applyHost host arguments' scope) := by
  simp only [MessageLisp.applyHost, hArguments.length_eq]
  apply bind (requireArity host _)
  rintro _ _ rfl
  apply bind requireOpen
  rintro _ _ rfl
  exact perform host.action hArguments scope

theorem unconvertible {α : Type} {R : α → α → Prop} (expected : String) {value value' : Value}
    (hValue : value.Alike L value') :
    Computes L program program' P R
      (fun _ => get >>= fun session => Eval.cannotConvert expected (session.pretty value))
      (fun _ => get >>= fun session => Eval.cannotConvert expected (session.pretty value')) := by
  apply read
  intro session session' hAlike _ _
  rw [hAlike.pretty_eq hValue]
  exact fail _

theorem coerceTo (type : NativeType) {value value' : Value} (hValue : value.Alike L value') :
    Computes L program program' P (Value.Alike L) (fun _ => MessageLisp.coerceTo type value)
      (fun _ => MessageLisp.coerceTo type value') := by
  have hCoerced := hValue.coerce? type
  simp only [MessageLisp.coerceTo]
  generalize type.coerce? value = coerced? at hCoerced ⊢
  generalize type.coerce? value' = coerced?' at hCoerced ⊢
  cases hCoerced with
  | some hCoerced => exact pure hCoerced
  | none => exact unconvertible type.name hValue

/-- The parameters are bound to the arguments, each converted to its type. -/
theorem coerceAll (types : List (Option NativeType)) {arguments arguments' : List Value}
    (hArguments : List.Forall₂ (Value.Alike L) arguments arguments') :
    Computes L program program' P (List.Forall₂ (Value.Alike L))
      (fun _ => (types.zip arguments).mapM fun (type?, argument) => coerceArgument type? argument)
      (fun _ => (types.zip arguments').mapM fun (type?, argument) =>
        coerceArgument type? argument) := by
  induction hArguments generalizing types with
  | nil =>
      simp only [List.zip_nil_right]
      exact pure List.Forall₂.nil
  | cons hArgument _ ih =>
      cases types with
      | nil => exact pure List.Forall₂.nil
      | cons type? types =>
          simp only [List.zip_cons_cons, List.mapM_cons]
          apply bind (R := Value.Alike L)
          · cases type? with
            | none => exact pure hArgument
            | some type => exact coerceTo type hArgument
          intro first first' hFirst
          apply bind (ih types)
          intro others others' hOthers
          exact pure (List.Forall₂.cons hFirst hOthers)

theorem zip_alike (names : List String) {values values' : List Value}
    (hValues : List.Forall₂ (Value.Alike L) values values') :
    Table.Alike (Value.Alike L) (names.zip values) (names.zip values') := by
  induction hValues generalizing names with
  | nil =>
      simp only [List.zip_nil_right]
      exact List.Forall₂.nil
  | cons hValue _ ih =>
      cases names with
      | nil => exact List.Forall₂.nil
      | cons name names => exact List.Forall₂.cons ⟨rfl, hValue⟩ (ih names)

theorem bindArguments {closure closure' : Closure} (hClosure : closure.Alike L closure')
    {arguments arguments' : List Value}
    (hArguments : List.Forall₂ (Value.Alike L) arguments arguments') :
    Computes L program program' P Eq (fun _ => MessageLisp.bindArguments closure arguments)
      (fun _ => MessageLisp.bindArguments closure' arguments') := by
  have hTypes : closure.parameterTypes = closure'.parameterTypes := by
    rw [Closure.parameterTypes, Closure.parameterTypes, hClosure.prototype, hClosure.signature]
  have hName : closure.displayName = closure'.displayName := by
    rw [Closure.displayName, Closure.displayName, hClosure.name]
  simp only [MessageLisp.bindArguments, hName, hClosure.prototype, hClosure.scope,
    hClosure.owner, hArguments.length_eq]
  split
  · exact fail _
  · rename_i hArity
    have hLength : arguments'.length = closure'.prototype.arity := not_not.mp hArity
    rw [coerceArguments_eq hLength, coerceArguments_eq (hArguments.length_eq.trans
      (hLength.trans (congrArg Prototype.arity hClosure.prototype.symm))), hTypes]
    apply bind (coerceAll _ hArguments)
    intro values values' hValues
    apply bind (newScope _)
    rintro scope _ rfl
    apply bind (R := Eq)
    · apply update
      · intro session session' hAlike _ _
        exact hAlike.mapEnvironment (hAlike.environment.defineAll scope (zip_alike _ hValues))
      · exact fun session => .mapEnvironment session _
      · exact fun session => .mapEnvironment session _
    rintro _ _ rfl
    apply read
    intro session session' hAlike _ _
    rw [hAlike.hierarchy]
    cases closure'.owner?.bind session'.hierarchy.superclass? with
    | none => exact pure rfl
    | some superclass =>
        apply bind (define scope superName (Value.Alike.classRef superclass))
        rintro _ _ rfl
        exact pure rfl

theorem runBody {closure closure' : Closure} (hClosure : closure.Alike L closure')
    (scope : ScopeId) :
    Computes L program program' P (Value.Alike L) (fun ev => ev.runBody closure scope)
      (fun ev => ev.runBody closure' scope) := by
  have hReturn : closure.returnType? = closure'.returnType? := by
    rw [Closure.returnType?, Closure.returnType?, hClosure.prototype, hClosure.signature]
  simp only [Evaluator.runBody, hReturn]
  apply enter hClosure.source
  apply bind (sequence (hClosure.body.imp fun _ _ hCode => ⟨hCode, hCode⟩) scope)
  intro result result' hResult
  split
  · exact pure hResult
  · exact pure hResult
  · exact coerceTo _ hResult

theorem applyClosure (id : ClosureId) {receiver? receiver?' : Option Value}
    (hReceiver : Option.Rel (Value.Alike L) receiver? receiver?')
    {arguments arguments' : List Value}
    (hArguments : List.Forall₂ (Value.Alike L) arguments arguments') :
    Computes L program program' P (Value.Alike L)
      (fun ev => ev.applyClosure id receiver? arguments)
      (fun ev => ev.applyClosure id receiver?' arguments') := by
  apply bind requireOpen
  rintro _ _ rfl
  apply bind (closureOf id)
  intro closure closure' hClosure
  apply bind (bindArguments hClosure hArguments)
  rintro scope _ rfl
  cases hReceiver with
  | none => exact runBody hClosure scope
  | some hReceiver =>
      apply bind (define scope selfName hReceiver)
      rintro _ _ rfl
      exact runBody hClosure scope

theorem apply (target : FunctionRef) {arguments arguments' : List Value}
    (hArguments : List.Forall₂ (Value.Alike L) arguments arguments') (scope : ScopeId) :
    Computes L program program' P (Value.Alike L) (fun ev => ev.apply target arguments scope)
      (fun ev => ev.apply target arguments' scope) := by
  cases target with
  | builtin builtin =>
      apply bind requireOpen
      rintro _ _ rfl
      apply adopting (builtin.taken_alike hArguments)
      · intro Q hTaken
        exact applyBuiltin builtin hArguments hTaken scope
  | host id =>
      apply bind (hostOf id)
      rintro host _ rfl
      exact applyHost host hArguments scope
  | closure id => exact applyClosure id Option.Rel.none hArguments

theorem applyInPlace (target : FunctionRef) {parts parts' : List Expr}
    (hParts : List.Forall₂ (fun e e' => P e e' ∧ L.code program program' e e') parts parts')
    (scope : ScopeId) :
    Computes L program program' P (Value.Alike L) (fun ev => ev.applyInPlace target parts scope)
      (fun ev => ev.applyInPlace target parts' scope) := by
  have hArguments : List.Forall₂ (Value.Alike L) (parts.map .expr) (parts'.map .expr) := by
    rw [List.forall₂_map_left_iff, List.forall₂_map_right_iff]
    exact hParts.imp fun e e' hPart => Value.Alike.expr (L.expr_of_code hPart.2)
  cases target with
  | builtin builtin =>
      apply bind requireOpen
      rintro _ _ rfl
      exact applyBuiltin builtin hArguments (builtin.taken_parts hParts) scope
  | host id => exact apply (.host id) hArguments scope
  | closure id => exact apply (.closure id) hArguments scope

end Computes

end MessageLisp
