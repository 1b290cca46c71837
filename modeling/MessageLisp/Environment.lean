import MessageLisp.Table

/-! Environments: a growing store of scopes. Every scope but the outermost ones has an enclosing
scope that was made before it, so the chain of enclosing scopes always ends. Scopes are never thrown
away; closures refer to them by their number. -/
namespace MessageLisp

/-- The number of a scope. -/
structure ScopeId where
  index : Nat
deriving DecidableEq, Repr, Inhabited

/-- The bindings of one scope and the scope around it. -/
structure Frame (α : Type) where
  bindings : Table α
  parent : Option ScopeId
deriving Inhabited

/-- All scopes of a session. -/
structure Environment (α : Type) where
  frames : Array (Frame α)
deriving Inhabited

namespace Environment

variable {α : Type}

/-- The first scope of a session. -/
def root : ScopeId := ⟨0⟩

/-- One empty scope, the root. -/
def initial : Environment α :=
  ⟨#[⟨[], none⟩]⟩

def parent? (env : Environment α) (scope : ScopeId) : Option ScopeId :=
  env.frames[scope.index]?.bind Frame.parent

/-- A scope without an enclosing one. -/
def isOutermost (env : Environment α) (scope : ScopeId) : Bool :=
  (env.parent? scope).isNone

/-- The bindings of the scope itself. -/
def bindings (env : Environment α) (scope : ScopeId) : Table α :=
  match env.frames[scope.index]? with
  | some frame => frame.bindings
  | none => []

/-- A scope and the scopes around it, innermost first. -/
def chain (env : Environment α) (scope : ScopeId) : List ScopeId :=
  scope ::
    match env.parent? scope with
    | some parent => if parent.index < scope.index then env.chain parent else []
    | none => []
termination_by scope.index

def getLocal? (env : Environment α) (scope : ScopeId) (name : String) : Option α :=
  (env.bindings scope).get? name

/-- The innermost scope of the chain that binds the name. -/
def binder? (env : Environment α) (scope : ScopeId) (name : String) : Option ScopeId :=
  (env.chain scope).find? fun s => (env.bindings s).contains name

/-- The value of a name, from the innermost scope that binds it. -/
def lookup? (env : Environment α) (scope : ScopeId) (name : String) : Option α :=
  (env.binder? scope name).bind (env.getLocal? · name)

/-- The names bound in the scope itself, in order of their characters. -/
def names (env : Environment α) (scope : ScopeId) : List String :=
  (env.bindings scope).names.mergeSort fun a b => decide (a ≤ b)

/-- Adds an empty scope. -/
def push (env : Environment α) (parent : Option ScopeId) : ScopeId × Environment α :=
  (⟨env.frames.size⟩, ⟨env.frames.push ⟨[], parent⟩⟩)

/-- Changes the bindings of one scope. -/
def modifyBindings (env : Environment α) (scope : ScopeId) (f : Table α → Table α) :
    Environment α :=
  ⟨env.frames.modify scope.index fun frame => { frame with bindings := f frame.bindings }⟩

/-- Binds a name in the scope, hiding bindings further out. -/
def define (env : Environment α) (scope : ScopeId) (name : String) (value : α) : Environment α :=
  env.modifyBindings scope (·.set name value)

/-- Binds several names in the scope, one after the other. -/
def defineAll (env : Environment α) (scope : ScopeId) (bindings : List (String × α)) :
    Environment α :=
  bindings.foldl (fun env (name, value) => env.define scope name value) env

/-- Changes the innermost binding of a name; without one it is bound in the scope itself. -/
def assign (env : Environment α) (scope : ScopeId) (name : String) (value : α) : Environment α :=
  env.define ((env.binder? scope name).getD scope) name value

/-- Takes a binding away. -/
def remove (env : Environment α) (scope : ScopeId) (name : String) : Environment α :=
  env.modifyBindings scope (·.erase name)

/-- Takes all bindings away. -/
def clear (env : Environment α) (scope : ScopeId) : Environment α :=
  env.modifyBindings scope fun _ => []

end Environment

end MessageLisp
