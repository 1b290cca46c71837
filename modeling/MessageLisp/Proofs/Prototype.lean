import Mathlib.Data.List.Nodup
import MessageLisp.Proofs.Semantics.Inspection
import MessageLisp.Proofs.Source.Grammar

/-! The grammar of parameter lists. A prototype is spelled by `nil` or by a list of parameters, each a name
or a pair of a name and a type, that may end in an arrow and the type of the result. The reader accepts
exactly these expressions and returns what they spell. -/
namespace MessageLisp.Prototype

open Native (NativeType Signature)
open Source (Expr)

/-! ### Grammar -/

/-- The parameter that an item of a list stands for. -/
inductive Declares : Expr → Parameter → Prop where
  | plain {span : Source.Span} {name : String} (hName : name ≠ "->") :
      Declares (.symbol span name) ⟨name, none⟩
  | typed {span nameSpan typeSpan : Source.Span} {name type : String} :
      Declares (.list span [.symbol nameSpan name, .symbol typeSpan type])
        ⟨name, some (.ofName type)⟩

/-- The type of the result that the end of a list stands for. -/
inductive DeclaresReturn : List Expr → Option NativeType → Prop where
  | none : DeclaresReturn [] none
  | arrow {span typeSpan : Source.Span} {type : String} :
      DeclaresReturn [.symbol span "->", .symbol typeSpan type] (some (.ofName type))

/-- Names that a parameter can have. -/
def Admits (parameter : Parameter) : Prop :=
  Source.isKeyword parameter.name = false ∧ parameter.name ≠ selfName

/-- The expressions that spell a prototype. -/
inductive Spells : Expr → Prototype → Prop where
  | nil {span : Source.Span} : Spells (.nil span) ⟨[], none⟩
  | list {span : Source.Span} {items ending : List Expr} {parameters : List Parameter}
      {returns? : Option NativeType} (hItems : List.Forall₂ Declares items parameters)
      (hEnding : DeclaresReturn ending returns?) (hNames : ∀ parameter ∈ parameters, Admits parameter)
      (hDistinct : (parameters.map Parameter.name).Nodup) :
      Spells (.list span (items ++ ending)) ⟨parameters, returns?⟩

/-- Items that come with a type: pairs and the arrow. -/
def CarriesType (item : Expr) : Prop :=
  (∃ span pair, item = .list span pair) ∨ item.symbol? = some "->"

/-- A parameter list in which some type is declared. -/
def MentionsType (expr : Expr) : Prop :=
  ∃ span items, expr = .list span items ∧ ∃ item ∈ items, CarriesType item

/-! ### Parts of a list -/

theorem Declares.symbol?_ne {item : Expr} {parameter : Parameter} (h : Declares item parameter) :
    item.symbol? ≠ some "->" := by
  cases h with
  | plain hName => exact fun hArrow => hName (Option.some.inj hArrow)
  | typed => exact nofun

theorem DeclaresReturn.head_symbol? {item : Expr} {rest : List Expr} {returns? : Option NativeType}
    (h : DeclaresReturn (item :: rest) returns?) : item.symbol? = some "->" := by
  cases h
  rfl

theorem readParameter_eq_ok_iff {item : Expr} (hArrow : item.symbol? ≠ some "->")
    {parameter : Parameter} : readParameter item = .ok parameter ↔ Declares item parameter := by
  constructor
  · intro h
    rw [readParameter.eq_def] at h
    split at h
    · cases h
      exact .plain fun hName => hArrow (congrArg some hName)
    · cases h
      exact .typed
    · cases h
    · cases h
  · intro h
    cases h <;> rfl

theorem readReturn_eq_ok_iff {items : List Expr} {type : NativeType} :
    readReturn items = .ok type ↔ ∃ span name, items = [.symbol span name] ∧ type = .ofName name := by
  constructor
  · intro h
    rw [readReturn.eq_def] at h
    split at h
    · cases h
      exact ⟨_, _, rfl, rfl⟩
    · cases h
    · cases h
  · rintro ⟨span, name, rfl, rfl⟩
    rfl

theorem eq_symbol_of_symbol? {expr : Expr} {name : String} (h : expr.symbol? = some name) :
    ∃ span, expr = .symbol span name := by
  cases expr with
  | symbol span found =>
      cases h
      exact ⟨span, rfl⟩
  | _ => cases h

/-- An arrow is followed by the name of a type and nothing else. -/
theorem readItems_arrow_eq_ok_iff {before : List Parameter} {item : Expr} {rest : List Expr}
    {prototype : Prototype} (hArrow : item.symbol? = some "->") :
    readItems before (item :: rest) = .ok prototype ↔
      DeclaresReturn (item :: rest) prototype.returns? ∧ prototype.parameters = before := by
  obtain ⟨span, rfl⟩ := eq_symbol_of_symbol? hArrow
  obtain ⟨parameters, returns?⟩ := prototype
  rw [readItems, if_pos hArrow, Source.map_eq_ok_iff]
  constructor
  · rintro ⟨type, hReturn, hPrototype⟩
    obtain ⟨typeSpan, name, rfl, rfl⟩ := readReturn_eq_ok_iff.mp hReturn
    cases hPrototype
    exact ⟨.arrow, rfl⟩
  · rintro ⟨hReturn, rfl⟩
    cases hReturn
    exact ⟨_, readReturn_eq_ok_iff.mpr ⟨_, _, rfl, rfl⟩, rfl⟩

/-- Any other item is a parameter that can stand behind those before it. -/
theorem readItems_item_eq_ok_iff {before : List Parameter} {item : Expr} {rest : List Expr}
    {prototype : Prototype} (hArrow : item.symbol? ≠ some "->") :
    readItems before (item :: rest) = .ok prototype ↔
      ∃ parameter, Declares item parameter ∧ Admits parameter ∧
        parameter.name ∉ before.map Parameter.name ∧
        readItems (before ++ [parameter]) rest = .ok prototype := by
  rw [readItems, if_neg hArrow]
  constructor
  · intro h
    cases hRead : readParameter item with
    | error error =>
        rw [hRead] at h
        cases h
    | ok parameter =>
        rw [hRead] at h
        cases hAdd : addParameter before parameter with
        | error error =>
            simp only [bind, Except.bind, hAdd] at h
            cases h
        | ok added =>
            simp only [bind, Except.bind, hAdd] at h
            obtain ⟨rfl, hKeyword, hSelf, hNew⟩ := addParameter_eq_ok_iff.mp hAdd
            exact ⟨parameter, (readParameter_eq_ok_iff hArrow).mp hRead, ⟨hKeyword, hSelf⟩, hNew, h⟩
  · rintro ⟨parameter, hDeclares, ⟨hKeyword, hSelf⟩, hNew, h⟩
    have hRead := (readParameter_eq_ok_iff hArrow).mpr hDeclares
    have hAdd := addParameter_eq_ok_iff.mpr ⟨rfl, hKeyword, hSelf, hNew⟩
    simp only [hRead, hAdd, bind, Except.bind]
    exact h

/-! ### The whole list -/

/-- What is left of a list after some parameters: more of them, all with names of their own, and the
end. -/
theorem readItems_eq_ok_iff {before : List Parameter} (hBefore : (before.map Parameter.name).Nodup)
    {list : List Expr} {prototype : Prototype} :
    readItems before list = .ok prototype ↔
      ∃ items ending parameters, list = items ++ ending ∧ List.Forall₂ Declares items parameters ∧
        DeclaresReturn ending prototype.returns? ∧ (∀ parameter ∈ parameters, Admits parameter) ∧
        ((before ++ parameters).map Parameter.name).Nodup ∧
        prototype.parameters = before ++ parameters := by
  induction list generalizing before with
  | nil =>
      constructor
      · intro h
        cases h
        exact ⟨[], [], [], rfl, .nil, .none, nofun, by simpa using hBefore, by simp⟩
      · rintro ⟨items, ending, parameters, hList, hItems, hReturn, -, -, hParameters⟩
        obtain ⟨rfl, rfl⟩ := List.append_eq_nil_iff.mp hList.symm
        obtain ⟨found, returns?⟩ := prototype
        cases hItems
        cases hReturn
        rw [List.append_nil] at hParameters
        obtain rfl : found = before := hParameters
        rfl
  | cons item rest ih =>
      by_cases hArrow : item.symbol? = some "->"
      · rw [readItems_arrow_eq_ok_iff hArrow]
        constructor
        · rintro ⟨hReturn, hParameters⟩
          exact ⟨[], item :: rest, [], rfl, .nil, hReturn, nofun, by simpa using hBefore,
            by simpa using hParameters⟩
        · rintro ⟨items, ending, parameters, hList, hItems, hReturn, -, -, hParameters⟩
          cases hItems with
          | nil =>
              obtain rfl : item :: rest = ending := hList
              exact ⟨hReturn, by simpa using hParameters⟩
          | cons hFirst hRest =>
              obtain ⟨rfl, -⟩ := List.cons.inj hList
              exact absurd hArrow hFirst.symbol?_ne
      · rw [readItems_item_eq_ok_iff hArrow]
        constructor
        · rintro ⟨parameter, hDeclares, hAdmits, hNew, hRead⟩
          have hBehind : ((before ++ [parameter]).map Parameter.name).Nodup := by
            rw [List.map_append, List.map_singleton]
            exact List.Nodup.append hBefore (List.nodup_singleton _) (List.disjoint_singleton.mpr hNew)
          obtain ⟨items, ending, parameters, rfl, hItems, hReturn, hNames, hDistinct, hParameters⟩ :=
            (ih hBehind).mp hRead
          rw [List.append_assoc, List.singleton_append] at hDistinct hParameters
          exact ⟨item :: items, ending, parameter :: parameters, rfl, .cons hDeclares hItems, hReturn,
            List.forall_mem_cons.mpr ⟨hAdmits, hNames⟩, hDistinct, hParameters⟩
        · rintro ⟨items, ending, parameters, hList, hItems, hReturn, hNames, hDistinct, hParameters⟩
          cases hItems with
          | nil =>
              obtain rfl : item :: rest = ending := hList
              exact absurd hReturn.head_symbol? hArrow
          | @cons first parameter items parameters hFirst hRest =>
              obtain ⟨rfl, rfl⟩ := List.cons.inj hList
              obtain ⟨hAdmits, hNames⟩ := List.forall_mem_cons.mp hNames
              rw [← List.singleton_append, ← List.append_assoc] at hDistinct hParameters
              have hBehind : ((before ++ [parameter]).map Parameter.name).Nodup := by
                rw [List.map_append] at hDistinct
                exact List.Nodup.of_append_left hDistinct
              refine ⟨parameter, hFirst, hAdmits, ?_, ?_⟩
              · rw [List.map_append, List.map_singleton] at hBehind
                exact List.disjoint_singleton.mp (List.disjoint_of_nodup_append hBehind)
              · exact (ih hBehind).mpr ⟨items, ending, parameters, rfl, hRest, hReturn, hNames, hDistinct,
                  hParameters⟩

theorem ofExpr_eq_ok_iff {expr : Expr} {prototype : Prototype} :
    ofExpr expr = .ok prototype ↔ Spells expr prototype := by
  have hNone : (([] : List Parameter).map Parameter.name).Nodup := List.nodup_nil
  constructor
  · intro h
    cases expr with
    | nil span =>
        cases h
        exact .nil
    | list span items =>
        obtain ⟨parameters, returns?⟩ := prototype
        obtain ⟨items, ending, parameters, rfl, hItems, hReturn, hNames, hDistinct, rfl⟩ :=
          (readItems_eq_ok_iff hNone).mp h
        exact .list hItems hReturn hNames hDistinct
    | _ => cases h
  · intro h
    cases h with
    | nil => rfl
    | list hItems hEnding hNames hDistinct =>
        exact (readItems_eq_ok_iff hNone).mpr
          ⟨_, _, _, rfl, hItems, hEnding, hNames, hDistinct, rfl⟩

/-! ### Failures -/

theorem readReturn_eq_error {items : List Expr} {error : Error} (h : readReturn items = .error error) :
    ∃ fault, error = malformed fault := by
  rw [readReturn.eq_def] at h
  split at h
  · cases h
  · cases h
    exact ⟨_, rfl⟩
  · cases h
    exact ⟨_, rfl⟩

theorem readParameter_eq_error {item : Expr} {error : Error} (h : readParameter item = .error error) :
    ∃ fault, error = malformed fault := by
  rw [readParameter.eq_def] at h
  split at h
  · cases h
  · cases h
  · cases h
    exact ⟨_, rfl⟩
  · cases h
    exact ⟨_, rfl⟩

theorem addParameter_eq_error {parameters : List Parameter} {parameter : Parameter} {error : Error}
    (h : addParameter parameters parameter = .error error) : ∃ fault, error = malformed fault := by
  rw [addParameter] at h
  split at h
  · cases h
    exact ⟨_, rfl⟩
  · split at h
    · cases h
      exact ⟨_, rfl⟩
    · cases h

theorem readItems_eq_error {before : List Parameter} {list : List Expr} {error : Error}
    (h : readItems before list = .error error) : ∃ fault, error = malformed fault := by
  induction list generalizing before with
  | nil => cases h
  | cons item rest ih =>
      rw [readItems] at h
      split at h
      · exact readReturn_eq_error (Source.map_eq_error_iff.mp h)
      · cases hRead : readParameter item with
        | error found =>
            rw [hRead] at h
            cases h
            exact readParameter_eq_error hRead
        | ok parameter =>
            cases hAdd : addParameter before parameter with
            | error found =>
                simp only [hRead, hAdd, bind, Except.bind] at h
                cases h
                exact addParameter_eq_error hAdd
            | ok added =>
                simp only [hRead, hAdd, bind, Except.bind] at h
                exact ih h

theorem ofExpr_eq_error {expr : Expr} {error : Error} (h : ofExpr expr = .error error) :
    ∃ fault, error = malformed fault := by
  cases expr with
  | nil span => cases h
  | list span items => exact readItems_eq_error h
  | _ =>
      cases h
      exact ⟨_, rfl⟩

/-! ### Signatures -/

/-- A prototype that has a type for the result or for a parameter. -/
def HasType (prototype : Prototype) : Prop :=
  prototype.returns?.isSome ∨ ∃ parameter ∈ prototype.parameters, parameter.type?.isSome

theorem signature?_eq_some_iff {prototype : Prototype} {signature : Signature} :
    prototype.signature? = some signature ↔
      prototype.HasType ∧ signature =
        ⟨prototype.parameters.map fun p => p.type?.getD .object, prototype.returns?.getD .object⟩ := by
  rw [signature?, HasType, ← List.any_eq_true, ← Bool.or_eq_true]
  split
  · rename_i hTyped
    simp [hTyped, eq_comm]
  · rename_i hTyped
    simp [hTyped]

theorem Declares.carriesType_iff {item : Expr} {parameter : Parameter} (h : Declares item parameter) :
    CarriesType item ↔ parameter.type?.isSome := by
  have hArrow := h.symbol?_ne
  cases h with
  | plain hName => simpa [CarriesType] using hArrow
  | typed => simp [CarriesType]

theorem exists_carriesType_iff {items : List Expr} {parameters : List Parameter}
    (h : List.Forall₂ Declares items parameters) :
    (∃ item ∈ items, CarriesType item) ↔ ∃ parameter ∈ parameters, parameter.type?.isSome := by
  induction h with
  | nil => simp
  | cons hFirst _ ih => simp only [List.mem_cons, exists_eq_or_imp, hFirst.carriesType_iff, ih]

theorem DeclaresReturn.exists_carriesType_iff {ending : List Expr} {returns? : Option NativeType}
    (h : DeclaresReturn ending returns?) :
    (∃ item ∈ ending, CarriesType item) ↔ returns?.isSome := by
  cases h with
  | none => simp
  | arrow => simp [CarriesType, Expr.symbol?]

/-- A prototype has a type exactly if one is declared in the expression that spells it. -/
theorem Spells.mentionsType_iff {expr : Expr} {prototype : Prototype} (h : Spells expr prototype) :
    MentionsType expr ↔ prototype.HasType := by
  cases h with
  | nil => simp [MentionsType, HasType]
  | @list span items ending parameters returns? hItems hEnding _ _ =>
      have hSome : MentionsType (.list span (items ++ ending)) ↔
          (∃ item ∈ ending, CarriesType item) ∨ ∃ item ∈ items, CarriesType item := by
        simp only [MentionsType, Expr.list.injEq]
        grind
      rw [hSome, hEnding.exists_carriesType_iff, Prototype.exists_carriesType_iff hItems, HasType]

/-- Prototypes are read as they are spelled. An expression can be read as a prototype exactly if it spells
one, and then that one is returned; the only failure is that of a malformed form. A prototype that was
read has a signature exactly if the expression declares some type; it then has one argument type for each
parameter, in order, and whatever has no type of its own is a handle. -/
theorem prototypes_read_as_spelled (expr : Expr) :
    (∀ prototype, ofExpr expr = .ok prototype ↔ Spells expr prototype) ∧
      (∀ error, ofExpr expr = .error error → ∃ fault, error = .invalidForm "prototype" fault) ∧
      ∀ prototype, ofExpr expr = .ok prototype →
        (prototype.signature?.isSome ↔ MentionsType expr) ∧
          ∀ signature, prototype.signature? = some signature →
            List.Forall₂ (fun parameter type => type = parameter.type?.getD .object)
              prototype.parameters signature.arguments ∧
            signature.returns = prototype.returns?.getD .object := by
  refine ⟨fun prototype => ofExpr_eq_ok_iff, fun error => ofExpr_eq_error, ?_⟩
  intro prototype hRead
  refine ⟨?_, ?_⟩
  · rw [(ofExpr_eq_ok_iff.mp hRead).mentionsType_iff, Option.isSome_iff_exists]
    simp only [signature?_eq_some_iff, exists_and_left, exists_eq, and_true]
  · intro signature hSignature
    obtain ⟨-, rfl⟩ := signature?_eq_some_iff.mp hSignature
    refine ⟨?_, rfl⟩
    rw [List.forall₂_map_right_iff]
    exact List.forall₂_same.mpr fun _ _ => rfl

/-- `(a (b int) -> double)`. -/
def mixedList : Expr :=
  .list ⟨0, 21⟩ [.symbol ⟨1, 2⟩ "a", .list ⟨3, 10⟩ [.symbol ⟨4, 5⟩ "b", .symbol ⟨6, 9⟩ "int"],
    .symbol ⟨11, 13⟩ "->", .symbol ⟨14, 20⟩ "double"]

/-- What it spells. -/
def mixedPrototype : Prototype :=
  ⟨[⟨"a", none⟩, ⟨"b", some .int32⟩], some .float64⟩

/-- `(a (a int))`. -/
def repeatedList : Expr :=
  .list ⟨0, 11⟩ [.symbol ⟨1, 2⟩ "a", .list ⟨3, 10⟩ [.symbol ⟨4, 5⟩ "a", .symbol ⟨6, 9⟩ "int"]]

theorem mixedList_spells : Spells mixedList mixedPrototype := by
  refine .list (.cons (.plain (by decide)) (.cons .typed .nil)) .arrow ?_ (by decide)
  rw [List.forall_mem_cons, List.forall_mem_singleton]
  exact ⟨⟨by cbv, by decide⟩, by cbv, by decide⟩

/-- The first list is read, with a handle for the parameter without a type; the second is refused. -/
theorem prototypes_read_as_spelled_mixed :
    ofExpr mixedList = .ok mixedPrototype ∧ MentionsType mixedList ∧
      mixedPrototype.signature? = some ⟨[.object, .int32], .float64⟩ ∧
      (¬∃ prototype, Spells repeatedList prototype) ∧
      ∃ fault, ofExpr repeatedList = .error (.invalidForm "prototype" fault) := by
  obtain ⟨hRead, -, hSignature⟩ := prototypes_read_as_spelled mixedList
  obtain ⟨hRefused, hFault, -⟩ := prototypes_read_as_spelled repeatedList
  have hMixed := (hRead mixedPrototype).mpr mixedList_spells
  have hRepeated : ofExpr repeatedList = .error (malformed (.duplicateParameter "a")) := by cbv
  obtain ⟨fault, hForm⟩ := hFault _ hRepeated
  refine ⟨hMixed, (hSignature _ hMixed).1.mp rfl, rfl, ?_, fault, hForm ▸ hRepeated⟩
  rintro ⟨prototype, hSpells⟩
  cases hRepeated.symm.trans ((hRefused prototype).mpr hSpells)

end MessageLisp.Prototype
