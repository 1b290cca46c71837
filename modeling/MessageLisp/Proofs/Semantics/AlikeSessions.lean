import MessageLisp.Proofs.Semantics.Likeness

/-! Alike sessions. They show the same texts, names and classes to a program, every operation takes
them to alike sessions again, and under a strict likeness they are equal. -/
namespace MessageLisp

open Source (Expr)

variable {L : Likeness}

/-! ### What a session shows -/

namespace Session.Alike

variable {session session' : Session}

theorem depth_eq (h : session.Alike L session') : session.depth = session'.depth :=
  L.levels.depth_eq h.level

theorem functionName?_eq (h : session.Alike L session') (target : FunctionRef) :
    session.functionName? target = session'.functionName? target := by
  cases target with
  | builtin builtin => rfl
  | host id => rw [Session.functionName?, Session.functionName?, h.hosts]
  | closure id =>
      have hClosure := h.closures id.index
      rw [Session.functionName?, Session.functionName?]
      generalize session.closures[id.index]? = closure? at hClosure ⊢
      generalize session'.closures[id.index]? = closure?' at hClosure ⊢
      cases hClosure with
      | none => rfl
      | some hClosure => exact hClosure.name

theorem isForm_eq (h : session.Alike L session') (target : FunctionRef) :
    session.isForm target = session'.isForm target := by
  cases target with
  | host id => rw [Session.isForm, Session.isForm, h.hosts]
  | _ => rfl

theorem classOf_eq (h : session.Alike L session') {value value' : Value}
    (hValue : value.Alike L value') : session.classOf value = session'.classOf value' := by
  cases hValue with
  | object id =>
      have hObject := h.instances id.index
      rw [Session.classOf, Session.classOf]
      generalize session.instances[id.index]? = object? at hObject ⊢
      generalize session'.instances[id.index]? = object?' at hObject ⊢
      cases hObject with
      | none => rfl
      | some hObject => rw [Option.map_some, Option.map_some, hObject.cls]
  | _ => rfl

theorem className_eq (h : session.Alike L session') {value value' : Value}
    (hValue : value.Alike L value') : session.className value = session'.className value' := by
  rw [Session.className, Session.className, h.hierarchy, h.classOf_eq hValue]

theorem functionText_eq (h : session.Alike L session') (target : FunctionRef) :
    session.functionText target = session'.functionText target := by
  rw [Session.functionText, Session.functionText, h.functionName?_eq target]

end Session.Alike

mutual

/-- Alike values have the same text. -/
theorem Session.Alike.describe_eq {session session' : Session} (h : session.Alike L session')
    (quote : String → String) {value value' : Value} (hValue : value.Alike L value') :
    session.describe quote value = session'.describe quote value' := by
  match value, value', hValue with
  | .list items, .list items', .list hItems =>
      rw [Session.describe, Session.describe, h.describeAll_eq quote hItems]
  | .expr tree, .expr tree', .expr hTree =>
      rw [Session.describe, Session.describe, Likeness.text_eq hTree]
  | .function target, _, .function _ =>
      rw [Session.describe, Session.describe, h.functionText_eq]
  | .classRef id, _, .classRef _ => rw [Session.describe, Session.describe, h.hierarchy]
  | .object id, _, .object _ =>
      rw [Session.describe, Session.describe, h.className_eq (Value.Alike.object id)]
  | .null, _, .null | .bool _, _, .bool _ | .int _, _, .int _ | .float _, _, .float _
  | .string _, _, .string _ | .pointer _, _, .pointer _ =>
      rw [Session.describe, Session.describe]

theorem Session.Alike.describeAll_eq {session session' : Session} (h : session.Alike L session')
    (quote : String → String) {values values' : List Value}
    (hValues : List.Forall₂ (Value.Alike L) values values') :
    session.describeAll quote values = session'.describeAll quote values' := by
  match values, values', hValues with
  | [], [], .nil => rw [Session.describeAll, Session.describeAll]
  | value :: values, value' :: values', .cons hValue hRest =>
      rw [Session.describeAll, Session.describeAll, h.describe_eq quote hValue,
        h.describeAll_eq quote hRest]

end

namespace Session.Alike

variable {session session' : Session}

theorem display_eq (h : session.Alike L session') {value value' : Value}
    (hValue : value.Alike L value') : session.display value = session'.display value' :=
  h.describe_eq _ hValue

theorem pretty_eq (h : session.Alike L session') {value value' : Value}
    (hValue : value.Alike L value') : session.pretty value = session'.pretty value' :=
  h.describe_eq _ hValue

theorem displayAll_eq (h : session.Alike L session') {values values' : List Value}
    (hValues : List.Forall₂ (Value.Alike L) values values') :
    session.displayAll values = session'.displayAll values' := by
  rw [Session.displayAll, Session.displayAll, h.describeAll_eq _ hValues]

/-! ### What changes a session -/

theorem mapEnvironment (h : session.Alike L session') {f f' : Environment Value → Environment Value}
    (hChange : (f session.environment).Alike L (f' session'.environment)) :
    (session.mapEnvironment f).Alike L (session'.mapEnvironment f') :=
  { h with environment := hChange }

theorem mapHierarchy (h : session.Alike L session') (f : Hierarchy → Hierarchy) :
    (session.mapHierarchy f).Alike L (session'.mapHierarchy f) :=
  { h with hierarchy := congrArg f h.hierarchy }

theorem newScope_eq (h : session.Alike L session') (parent : Option ScopeId) :
    (session.newScope parent).1 = (session'.newScope parent).1 :=
  h.environment.push_scope_eq parent

theorem newScope (h : session.Alike L session') (parent : Option ScopeId) :
    (session.newScope parent).2.Alike L (session'.newScope parent).2 :=
  { h with environment := h.environment.push parent }

theorem addClosure_eq (h : session.Alike L session') (closure closure' : Closure) :
    (session.addClosure closure).1 = (session'.addClosure closure').1 := by
  rw [Session.addClosure, Session.addClosure, h.closures.size_eq]

theorem addClosure (h : session.Alike L session') {closure closure' : Closure}
    (hClosure : closure.Alike L closure') :
    (session.addClosure closure).2.Alike L (session'.addClosure closure').2 :=
  { h with closures := h.closures.push hClosure }

theorem addInstance_eq (h : session.Alike L session') (object object' : Instance) :
    (session.addInstance object).1 = (session'.addInstance object').1 := by
  rw [Session.addInstance, Session.addInstance, h.instances.size_eq]

theorem addInstance (h : session.Alike L session') {object object' : Instance}
    (hObject : object.Alike L object') :
    (session.addInstance object).2.Alike L (session'.addInstance object').2 :=
  { h with instances := h.instances.push hObject }

theorem modifyClosure (h : session.Alike L session') (id : ClosureId) {f f' : Closure → Closure}
    (hChange : ∀ closure closure', closure.Alike L closure' → (f closure).Alike L (f' closure')) :
    (session.modifyClosure id f).Alike L (session'.modifyClosure id f') :=
  { h with closures := h.closures.modify id.index hChange }

theorem print (h : session.Alike L session') (line : String) :
    (session.print line).Alike L (session'.print line) :=
  { h with output := by rw [Session.print, Session.print, h.output] }

theorem clearFaultSite (h : session.Alike L session') :
    session.clearFaultSite.Alike L session'.clearFaultSite :=
  { h with faultSite := Option.Rel.none }

theorem noteFaultSite (h : session.Alike L session') {expr expr' : Expr}
    (hExpr : L.code session.source? session'.source? expr expr') :
    (session.noteFaultSite expr).Alike L (session'.noteFaultSite expr') := by
  have hSite := h.faultSite
  rw [Session.noteFaultSite, Session.noteFaultSite]
  generalize hLeft : session.faultSite? = site? at hSite ⊢
  generalize hRight : session'.faultSite? = site?' at hSite ⊢
  cases hSite with
  | some _ => exact h
  | none => exact { h with faultSite := Option.Rel.some ⟨hExpr, h.source⟩ }

end Session.Alike

/-! ### Likeness that leaves nothing open -/

/-- Only equal expressions and programs are alike. -/
structure Likeness.Literal (L : Likeness) : Prop where
  expr_eq {e e' : Expr} : L.expr e e' → e = e'
  source_eq {program program' : Option SourceText} : L.source program program' → program = program'

/-- Only equal expressions, programs and levels are alike. -/
structure Likeness.Strict (L : Likeness) : Prop extends L.Literal where
  level_eq {level level' : Level} : L.levels.alike level level' → level = level'

mutual

theorem Value.Alike.eq {value value' : Value} (h : value.Alike L value') (hLiteral : L.Literal) :
    value = value' := by
  match value, value', h with
  | .list items, .list items', .list hItems => rw [Value.eq_of_all_alike hItems hLiteral]
  | .expr tree, .expr tree', .expr hTree => rw [hLiteral.expr_eq hTree]
  | .null, _, .null | .bool _, _, .bool _ | .int _, _, .int _ | .float _, _, .float _
  | .string _, _, .string _ | .function _, _, .function _ | .classRef _, _, .classRef _
  | .object _, _, .object _ | .pointer _, _, .pointer _ => rfl

theorem Value.eq_of_all_alike {values values' : List Value}
    (h : List.Forall₂ (Value.Alike L) values values') (hLiteral : L.Literal) : values = values' := by
  match values, values', h with
  | [], [], .nil => rfl
  | value :: values, value' :: values', .cons hValue hRest =>
      rw [hValue.eq hLiteral, Value.eq_of_all_alike hRest hLiteral]

end

theorem ArrayAlike.eq {α : Type} {R : α → α → Prop} {array array' : Array α}
    (h : ArrayAlike R array array') (hEq : ∀ a a', R a a' → a = a') : array = array' := by
  apply Array.ext_getElem?
  intro index
  have hPlace := h index
  generalize array[index]? = place at hPlace ⊢
  generalize array'[index]? = place' at hPlace ⊢
  cases hPlace with
  | none => rfl
  | some hPlace => rw [hEq _ _ hPlace]

theorem eq_of_forall₂ {α : Type} {R : α → α → Prop} {as as' : List α} (h : List.Forall₂ R as as')
    (hEq : ∀ a a', R a a' → a = a') : as = as' := by
  induction h with
  | nil => rfl
  | cons hHead _ ih => rw [hEq _ _ hHead, ih]

theorem Frame.Alike.eq {frame frame' : Frame Value} (h : frame.Alike L frame') (hLiteral : L.Literal) :
    frame = frame' := by
  obtain ⟨bindings, parent⟩ := frame
  obtain ⟨bindings', parent'⟩ := frame'
  obtain ⟨hBindings, rfl⟩ := h
  have hEq : bindings = bindings' := eq_of_forall₂ hBindings fun entry entry' hEntry =>
    Prod.ext hEntry.1 (hEntry.2.eq hLiteral)
  rw [hEq]

theorem Environment.Alike.eq {env env' : Environment Value} (h : env.Alike L env')
    (hLiteral : L.Literal) : env = env' := by
  obtain ⟨frames⟩ := env
  obtain ⟨frames'⟩ := env'
  exact congrArg Environment.mk (ArrayAlike.eq h fun _ _ hFrame => hFrame.eq hLiteral)

theorem Closure.Alike.eq {closure closure' : Closure} (h : closure.Alike L closure')
    (hLiteral : L.Literal) : closure = closure' := by
  obtain ⟨name?, owner?, prototype, body, scope, source?, signature?⟩ := closure
  obtain ⟨name?', owner?', prototype', body', scope', source?', signature?'⟩ := closure'
  obtain ⟨rfl, rfl, rfl, hBody, rfl, hSource, rfl⟩ := h
  have hBodyEq : body = body' := eq_of_forall₂ hBody fun _ _ hCode =>
    hLiteral.expr_eq (L.expr_of_code hCode)
  have hSourceEq : source? = source?' := hLiteral.source_eq hSource
  rw [hBodyEq, hSourceEq]

theorem Instance.Alike.eq {object object' : Instance} (h : object.Alike L object')
    (hLiteral : L.Literal) : object = object' := by
  obtain ⟨cls, slots⟩ := object
  obtain ⟨cls', slots'⟩ := object'
  obtain ⟨rfl, hSlots⟩ := h
  have hEq : slots = slots' := hSlots.eq fun _ _ hSlot => hSlot.eq hLiteral
  rw [hEq]

theorem FaultSite.Alike.eq {site site' : FaultSite} (h : site.Alike L site') (hLiteral : L.Literal) :
    site = site' := by
  obtain ⟨expr, source?⟩ := site
  obtain ⟨expr', source?'⟩ := site'
  have hExpr : expr = expr' := hLiteral.expr_eq (L.expr_of_code h.expr)
  have hSource : source? = source?' := hLiteral.source_eq h.source
  rw [hExpr, hSource]

/-- The session with another limit on the depth of applications. -/
def Session.withLimit (session : Session) (limit : Nat) : Session :=
  { session with maxDepth := limit }

/-- If only equal expressions and programs are alike, alike sessions differ in their limits only. -/
theorem Session.Alike.withLimit_eq {session session' : Session} (h : session.Alike L session')
    (hLiteral : L.Literal) : session.withLimit session'.maxDepth = session' := by
  have hEnvironment := h.environment.eq hLiteral
  have hInstances := h.instances.eq fun _ _ hObject => hObject.eq hLiteral
  have hClosures := h.closures.eq fun _ _ hClosure => hClosure.eq hLiteral
  have hSource := hLiteral.source_eq h.source
  have hDepth := h.depth_eq
  have hSite : session.faultSite? = session'.faultSite? := by
    have hSite := h.faultSite
    generalize session.faultSite? = site? at hSite ⊢
    generalize session'.faultSite? = site?' at hSite ⊢
    cases hSite with
    | none => rfl
    | some hSite => rw [hSite.eq hLiteral]
  obtain ⟨_, hHierarchy, _, _, hHosts, _, _, _, hOutput, hLastError, hOpen⟩ := h
  cases session
  cases session'
  simp only [Session.withLimit, Session.mk.injEq, true_and]
  exact ⟨hEnvironment, hHierarchy, hInstances, hClosures, hHosts, hDepth, hSource, hSite, hOutput,
    hLastError, hOpen⟩

theorem Session.Alike.eq {session session' : Session} (h : session.Alike L session')
    (hStrict : L.Strict) : session = session' := by
  have hLimit : session.maxDepth = session'.maxDepth :=
    congrArg Level.limit (hStrict.level_eq h.level)
  rw [← h.withLimit_eq hStrict.toLiteral, ← hLimit]
  rfl

/-! ### Weaker likeness -/

/-- What is alike under the first likeness is so under the second. -/
structure Likeness.Implies (L L' : Likeness) : Prop where
  expr {e e' : Expr} : L.expr e e' → L'.expr e e'
  code {program program' : Option SourceText} {e e' : Expr} :
    L.code program program' e e' → L'.code program program' e e'
  source {program program' : Option SourceText} : L.source program program' → L'.source program program'
  level {level level' : Level} : L.levels.alike level level' → L'.levels.alike level level'

variable {L' : Likeness}

mutual

theorem Value.Alike.imp {value value' : Value} (h : value.Alike L value') (hImplies : L.Implies L') :
    value.Alike L' value' := by
  match value, value', h with
  | .list _, .list _, .list hItems => exact .list (Value.all_alike_imp hItems hImplies)
  | .expr _, .expr _, .expr hTree => exact .expr (hImplies.expr hTree)
  | .null, _, .null => exact .null
  | .bool value, _, .bool _ => exact .bool value
  | .int value, _, .int _ => exact .int value
  | .float value, _, .float _ => exact .float value
  | .string text, _, .string _ => exact .string text
  | .function target, _, .function _ => exact .function target
  | .classRef id, _, .classRef _ => exact .classRef id
  | .object id, _, .object _ => exact .object id
  | .pointer address, _, .pointer _ => exact .pointer address

theorem Value.all_alike_imp {values values' : List Value}
    (h : List.Forall₂ (Value.Alike L) values values') (hImplies : L.Implies L') :
    List.Forall₂ (Value.Alike L') values values' := by
  match values, values', h with
  | [], [], .nil => exact .nil
  | _ :: _, _ :: _, .cons hValue hRest =>
      exact .cons (hValue.imp hImplies) (Value.all_alike_imp hRest hImplies)

end

theorem ArrayAlike.imp {α : Type} {R R' : α → α → Prop} {array array' : Array α}
    (h : ArrayAlike R array array') (hImplies : ∀ a a', R a a' → R' a a') :
    ArrayAlike R' array array' := by
  intro index
  have hPlace := h index
  generalize array[index]? = place at hPlace ⊢
  generalize array'[index]? = place' at hPlace ⊢
  cases hPlace with
  | none => exact Option.Rel.none
  | some hPlace => exact Option.Rel.some (hImplies _ _ hPlace)

theorem Session.Alike.imp {session session' : Session} (h : session.Alike L session')
    (hImplies : L.Implies L') : session.Alike L' session' where
  environment := h.environment.imp fun _ _ hFrame =>
    ⟨hFrame.bindings.imp fun _ _ hEntry => ⟨hEntry.1, hEntry.2.imp hImplies⟩, hFrame.parent⟩
  hierarchy := h.hierarchy
  instances := h.instances.imp fun _ _ hObject =>
    ⟨hObject.cls, hObject.slots.imp fun _ _ hSlot => hSlot.imp hImplies⟩
  closures := h.closures.imp fun _ _ hClosure =>
    { hClosure with
      body := hClosure.body.imp fun _ _ hCode => hImplies.code hCode
      source := hImplies.source hClosure.source }
  hosts := h.hosts
  level := hImplies.level h.level
  source := hImplies.source h.source
  faultSite := by
    have hSite := h.faultSite
    generalize session.faultSite? = site? at hSite ⊢
    generalize session'.faultSite? = site?' at hSite ⊢
    cases hSite with
    | none => exact Option.Rel.none
    | some hSite => exact Option.Rel.some ⟨hImplies.code hSite.expr, hImplies.source hSite.source⟩
  output := h.output
  lastError := h.lastError
  isOpen := h.isOpen

/-! ### Sessions that are like themselves -/

mutual

theorem Value.alike_self (hExpr : ∀ e, L.expr e e) (value : Value) : value.Alike L value := by
  match value with
  | .list items => exact .list (Value.all_alike_self hExpr items)
  | .expr tree => exact .expr (hExpr tree)
  | .null => exact .null
  | .bool value => exact .bool value
  | .int value => exact .int value
  | .float value => exact .float value
  | .string text => exact .string text
  | .function target => exact .function target
  | .classRef id => exact .classRef id
  | .object id => exact .object id
  | .pointer address => exact .pointer address

theorem Value.all_alike_self (hExpr : ∀ e, L.expr e e) (values : List Value) :
    List.Forall₂ (Value.Alike L) values values := by
  match values with
  | [] => exact .nil
  | value :: values =>
      exact .cons (Value.alike_self hExpr value) (Value.all_alike_self hExpr values)

end

theorem ArrayAlike.self {α : Type} {R : α → α → Prop} {array : Array α} (h : ∀ a ∈ array, R a a) :
    ArrayAlike R array array := by
  intro index
  cases hPlace : array[index]? with
  | none => exact Option.Rel.none
  | some a => exact Option.Rel.some (h a (Array.mem_of_getElem? hPlace))

/-- If all expressions and programs are like themselves, a session is like itself. Its limit may
differ as far as the likeness leaves it open. -/
theorem Session.alike_withLimit (hCode : ∀ program e, L.code program program e e)
    (hSource : ∀ program, L.source program program) (session : Session) {limit limit' : Nat}
    (hLevel : L.levels.alike ⟨limit, session.depth⟩ ⟨limit', session.depth⟩) :
    (session.withLimit limit).Alike L (session.withLimit limit') := by
  have hValue : ∀ value : Value, value.Alike L value :=
    Value.alike_self fun e => L.expr_of_code (hCode none e)
  exact
    { environment := ArrayAlike.self fun _ _ =>
        ⟨List.forall₂_same.mpr fun entry _ => ⟨rfl, hValue entry.2⟩, rfl⟩
      hierarchy := rfl
      instances := ArrayAlike.self fun _ _ => ⟨rfl, ArrayAlike.self fun slot _ => hValue slot⟩
      closures := ArrayAlike.self fun closure _ =>
        ⟨rfl, rfl, rfl, List.forall₂_same.mpr fun e _ => hCode _ e, rfl, hSource _, rfl⟩
      hosts := rfl
      level := hLevel
      source := hSource _
      faultSite := by
        cases hSite : session.faultSite? with
        | none =>
            simp only [Session.withLimit, hSite]
            exact Option.Rel.none
        | some site =>
            simp only [Session.withLimit, hSite]
            exact Option.Rel.some ⟨hCode _ _, hSource _⟩
      output := rfl
      lastError := rfl
      isOpen := rfl }

/-- Equality as a likeness. -/
def Likeness.equality : Likeness where
  expr := Eq
  code := fun _ _ => Eq
  source := Eq
  expr_of_code := id
  bare_eq := congrArg Expr.bare
  code_items := fun h => by
    cases h
    exact List.forall₂_same.mpr fun _ _ => rfl
  levels := .equality

theorem Likeness.equality_strict : Likeness.equality.Strict :=
  ⟨⟨id, id⟩, id⟩

theorem Session.alike_equality (session : Session) : session.Alike Likeness.equality session :=
  Session.alike_withLimit (fun _ _ => rfl) (fun _ => rfl) session rfl

end MessageLisp
