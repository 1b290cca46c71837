import MessageLisp.Proofs.Native.Agreement
import MessageLisp.Proofs.Number.Integer
import MessageLisp.Proofs.Semantics.Orderly

/-! Coercion to native types. A coerced value is one of the type: coercing it again changes nothing,
and an integer type gives the one integer in its range that has the same low bits. Bodies of closures
therefore see arguments of the types that they declare, and closures return values of theirs. -/
namespace MessageLisp

namespace Native

/-! ### Integers -/

/-- The integer that a value stands for. -/
inductive ReadsAs : Value → Int → Prop where
  | int (n : Int64) : ReadsAs (.int n) n.toInt
  | bool (b : Bool) : ReadsAs (.bool b) (if b then 1 else 0)
  | float (x : Float) : ReadsAs (.float x) (Number.integerPart x)

theorem readsAs_iff {value : Value} {n : Int} :
    ReadsAs value n ↔ ∃ word, integerOf? value = some word ∧ word.toInt = n := by
  constructor
  · rintro (word | b | x)
    · exact ⟨word, rfl, rfl⟩
    · exact ⟨if b then 1 else 0, rfl, by cases b <;> rfl⟩
    · exact ⟨Number.truncate x, rfl, Number.toInt_truncate x⟩
  · rintro ⟨word, hRead, rfl⟩
    cases value with
    | int =>
        cases hRead
        exact .int word
    | bool b =>
        cases hRead
        cases b
        · exact .bool false
        · exact .bool true
    | float x =>
        cases hRead
        rw [Number.toInt_truncate]
        exact .float x
    | _ => cases hRead

/-- Whether a signed or unsigned number of that many bits can be the integer. -/
def InRange (bits : Nat) (signed : Bool) (n : Int) : Prop :=
  if signed then -2 ^ (bits - 1) ≤ n ∧ n < 2 ^ (bits - 1) else 0 ≤ n ∧ n < 2 ^ bits

/-- What an integer type makes of `n`: the integer in its range with the same low bits. The types of
64 bits keep every integer. -/
def Represents (bits : Nat) (signed : Bool) (n word : Int) : Prop :=
  if bits < 64 then word ≡ n [ZMOD 2 ^ bits] ∧ InRange bits signed word else word = n

theorem toInt_wrapTo {bits : Nat} (hNarrow : bits < 64) (signed : Bool) (n : Int64) :
    (wrapTo bits signed n).toInt =
      if signed then n.toInt.bmod (2 ^ bits) else n.toInt % 2 ^ bits := by
  have hPower : (2 : Int) ^ bits ≤ 2 ^ 63 := pow_le_pow_right₀ (by decide) (by omega)
  have hPositive : (0 : Int) < 2 ^ bits := by positivity
  rw [wrapTo, if_neg (Nat.not_le.mpr hNarrow)]
  cases signed with
  | true =>
      have hLow := Int.le_bmod (x := n.toInt) (m := 2 ^ bits) (by positivity)
      have hHigh := Int.bmod_lt (x := n.toInt) (m := 2 ^ bits) (by positivity)
      push_cast at hLow hHigh
      simp only [if_true, Nat.pow_eq]
      exact Int64.toInt_ofInt_of_le (by omega) (by omega)
  | false =>
      have hLow := Int.emod_nonneg n.toInt hPositive.ne'
      have hHigh := Int.emod_lt_of_pos n.toInt hPositive
      have hEmod : n.toInt.emod (Nat.pow 2 bits) = n.toInt % 2 ^ bits := by
        rw [Nat.pow_eq, Nat.cast_pow, Nat.cast_ofNat]
        rfl
      simp only [Bool.false_eq_true, if_false, hEmod]
      exact Int64.toInt_ofInt_of_le (by omega) (by omega)

/-- Half of a power of two. -/
theorem two_mul_pow_pred {bits : Nat} (hBits : 0 < bits) :
    (2 : Int) * 2 ^ (bits - 1) = 2 ^ bits := by
  obtain ⟨k, rfl⟩ := Nat.exists_eq_add_of_lt hBits
  rw [Nat.zero_add, Nat.add_sub_cancel, pow_succ, Int.mul_comm]

theorem bmod_eq_iff {bits : Nat} (hBits : 0 < bits) (n word : Int) :
    word = n.bmod (2 ^ bits) ↔ word ≡ n [ZMOD 2 ^ bits] ∧ InRange bits true word := by
  have hHalf := two_mul_pow_pred hBits
  have hPositive : 0 < 2 ^ bits := by positivity
  rw [InRange, if_pos rfl]
  constructor
  · rintro rfl
    have hLow := Int.le_bmod (x := n) hPositive
    have hHigh := Int.bmod_lt (x := n) hPositive
    push_cast at hLow hHigh
    refine ⟨?_, by omega, by omega⟩
    have hMod := Int.bmod_emod (x := n) (m := 2 ^ bits)
    push_cast at hMod
    exact hMod
  · rintro ⟨hMod, hLow, hHigh⟩
    have hSame : word.bmod (2 ^ bits) = n.bmod (2 ^ bits) := by
      rw [Int.bmod, Int.bmod]
      push_cast
      rw [hMod]
    rw [← hSame]
    exact (Int.bmod_eq_of_le (by push_cast; omega) (by push_cast; omega)).symm

theorem emod_eq_iff (bits : Nat) (n word : Int) :
    word = n % 2 ^ bits ↔ word ≡ n [ZMOD 2 ^ bits] ∧ InRange bits false word := by
  have hPositive : (0 : Int) < 2 ^ bits := by positivity
  rw [InRange, if_neg Bool.false_ne_true]
  constructor
  · rintro rfl
    exact ⟨Int.emod_emod n _, Int.emod_nonneg n hPositive.ne', Int.emod_lt_of_pos n hPositive⟩
  · rintro ⟨hMod, hLow, hHigh⟩
    rw [← hMod]
    exact (Int.emod_eq_of_lt hLow hHigh).symm

theorem represents_iff {bits : Nat} (hBits : 0 < bits) (signed : Bool) (n word : Int64) :
    Represents bits signed n.toInt word.toInt ↔ word = wrapTo bits signed n := by
  rw [Represents]
  split
  · rename_i hNarrow
    rw [← Int64.toInt_inj, toInt_wrapTo hNarrow]
    cases signed with
    | true => exact (bmod_eq_iff hBits _ _).symm
    | false => exact (emod_eq_iff bits _ _).symm
  · rename_i hWide
    rw [wrapTo, if_pos (Nat.le_of_not_lt hWide), Int64.toInt_inj]

theorem wrapTo_narrow {bits bits' : Nat} (hBits : bits ≤ bits') (signed signed' : Bool) (n : Int64) :
    wrapTo bits signed (wrapTo bits' signed' n) = wrapTo bits signed n := by
  by_cases hWide : 64 ≤ bits'
  · rw [wrapTo.eq_def bits', if_pos hWide]
  · have hNarrow : bits < 64 := by omega
    have hDivides : (2 : Int) ^ bits ∣ 2 ^ bits' := pow_dvd_pow 2 hBits
    -- Both ways of wrapping keep the low bits, and the result depends on these only.
    have hLow : (wrapTo bits' signed' n).toInt % 2 ^ bits = n.toInt % 2 ^ bits := by
      rw [toInt_wrapTo (Nat.lt_of_not_le hWide)]
      cases signed' with
      | true => exact mod_cast bmod_emod_of_dvd n.toInt (Nat.pow_dvd_pow 2 hBits)
      | false => exact Int.emod_emod_of_dvd n.toInt hDivides
    rw [← Int64.toInt_inj, toInt_wrapTo hNarrow, toInt_wrapTo hNarrow]
    cases signed with
    | true =>
        simp only [if_true, Int.bmod]
        push_cast
        rw [hLow]
    | false => exact hLow

/-! ### Integer types -/

variable {type : NativeType} {bits : Nat} {signed : Bool}

theorem NativeType.bits_pos (h : type.integer? = some (bits, signed)) : 0 < bits := by
  cases type <;> cases h <;> decide

theorem coerce?_eq_wrapTo (h : type.integer? = some (bits, signed)) (value : Value) :
    type.coerce? value = (integerOf? value).map fun n => .int (wrapTo bits signed n) := by
  cases type <;> cases h <;> rfl

/-- What an integer type makes of a value, if it stands for an integer. -/
theorem coerce?_integer (h : type.integer? = some (bits, signed)) (value coerced : Value) :
    type.coerce? value = some coerced ↔
      ∃ (n : Int) (word : Int64), ReadsAs value n ∧ coerced = .int word ∧
        Represents bits signed n word.toInt := by
  rw [coerce?_eq_wrapTo h, Option.map_eq_some_iff]
  constructor
  · rintro ⟨n, hRead, rfl⟩
    exact ⟨n.toInt, _, readsAs_iff.mpr ⟨n, hRead, rfl⟩, rfl,
      (represents_iff (NativeType.bits_pos h) signed n _).mpr rfl⟩
  · rintro ⟨_, word, hReads, rfl, hWord⟩
    obtain ⟨n, hRead, rfl⟩ := readsAs_iff.mp hReads
    rw [represents_iff (NativeType.bits_pos h)] at hWord
    exact ⟨n, hRead, congrArg Value.int hWord.symm⟩

/-- A wider type on the way changes nothing. -/
theorem coerce?_narrow {wide : NativeType} {bits' : Nat} {signed' : Bool}
    (h : type.integer? = some (bits, signed)) (hWide : wide.integer? = some (bits', signed'))
    (hBits : bits ≤ bits') (n : Int64) :
    (wide.coerce? (.int n)).bind type.coerce? = type.coerce? (.int n) := by
  have hFirst : wide.coerce? (.int n) = some (.int (wrapTo bits' signed' n)) :=
    coerce?_eq_wrapTo hWide (.int n)
  rw [hFirst, Option.bind_some, coerce?_eq_wrapTo h, coerce?_eq_wrapTo h]
  exact congrArg (fun word => some (Value.int word)) (wrapTo_narrow hBits signed signed' n)

end Native

/-! ### Arguments -/

open Native (NativeType ReadsAs Represents)

/-- What the body of a closure is given for an argument. -/
def PassedAs (type? : Option NativeType) (argument value : Value) : Prop :=
  match type? with
  | some type => type.coerce? argument = some value
  | none => value = argument

namespace Eval

theorem forall₂_of_runIn_mapM {α β : Type} {R : α → β → Prop} {f : α → Eval β} {session : Session}
    (hItem : ∀ a b later, (f a).runIn session = (.ok b, later) → later = session ∧ R a b)
    {items : List α} {results : List β} {later : Session}
    (h : (items.mapM f).runIn session = (.ok results, later)) :
    later = session ∧ List.Forall₂ R items results := by
  induction items generalizing results with
  | nil =>
      cases h
      exact ⟨rfl, .nil⟩
  | cons a items ih =>
      rw [List.mapM_cons] at h
      obtain ⟨b, middle, hFirst, hOthers⟩ := exists_of_runIn_bind h
      obtain ⟨rfl, hRelated⟩ := hItem a b middle hFirst
      obtain ⟨rest, last, hRest, hResults⟩ := exists_of_runIn_bind hOthers
      cases hResults
      obtain ⟨hSame, hTail⟩ := ih hRest
      exact ⟨hSame, .cons hRelated hTail⟩

theorem passedAs_of_runIn_coerceArgument {type? : Option NativeType} {argument value : Value}
    {session later : Session}
    (h : (coerceArgument type? argument).runIn session = (.ok value, later)) :
    later = session ∧ PassedAs type? argument value := by
  cases type? with
  | none =>
      cases h
      exact ⟨rfl, rfl⟩
  | some type =>
      rw [coerceArgument, coerceTo] at h
      cases hCoerced : type.coerce? argument with
      | none =>
          rw [hCoerced] at h
          cases h
      | some coerced =>
          rw [hCoerced] at h
          cases h
          exact ⟨rfl, hCoerced⟩

/-- Arguments that are bound are passed as the types of the parameters ask for. -/
theorem exists_of_runIn_bindArguments {closure : Closure} {arguments : List Value} {scope : ScopeId}
    {session bound : Session}
    (h : (bindArguments closure arguments).runIn session = (.ok scope, bound)) :
    ∃ values, List.Forall₂ (fun pair => PassedAs pair.1 pair.2)
        (closure.parameterTypes.zip arguments) values ∧
      arguments.length = closure.prototype.arity ∧
      scope = ⟨session.environment.frames.size⟩ ∧
      bound = session.pushFrame (closure.frame session.hierarchy values) := by
  by_cases hLength : arguments.length = closure.prototype.arity
  · have hCoerce := h
    simp only [bindArguments] at hCoerce
    rw [if_neg (not_not_intro hLength)] at hCoerce
    obtain ⟨values, middle, hValues, -⟩ := exists_of_runIn_bind hCoerce
    have hMap := hValues
    rw [coerceArguments_eq hLength] at hMap
    obtain ⟨rfl, hPassed⟩ := forall₂_of_runIn_mapM (R := fun pair => PassedAs pair.1 pair.2)
      (fun (_, _) _ _ hItem => passedAs_of_runIn_coerceArgument hItem) hMap
    rw [runIn_bindArguments hLength hValues] at h
    cases h
    exact ⟨values, hPassed, hLength, rfl, rfl⟩
  · simp only [bindArguments] at h
    rw [if_pos hLength] at h
    cases h

end Eval

/-- Of several entries under one name the last one is found. -/
theorem Table.get?_setAll_last {α : Type} (table : Table α) {entries : List (String × α)}
    {index : Nat} {name : String} {entry : α} (hEntry : entries[index]? = some (name, entry))
    (hLast : ∀ later other, index < later → entries[later]? = some other → other.1 ≠ name) :
    (table.setAll entries).get? name = some entry := by
  induction entries generalizing table index with
  | nil => cases hEntry
  | cons first entries ih =>
      cases index with
      | succ index =>
          apply ih (table.set first.1 first.2) hEntry
          intro later other hLater hOther
          exact hLast (later + 1) other (Nat.succ_lt_succ hLater) hOther
      | zero =>
          obtain rfl : first = (name, entry) := Option.some.inj hEntry
          have hNone : get? entries.reverse name = none := by
            by_contra hSome
            obtain ⟨other, hOther⟩ := Option.ne_none_iff_exists'.mp hSome
            obtain ⟨later, hLater⟩ :=
              List.mem_iff_getElem?.mp (List.mem_reverse.mp (mem_of_get? hOther))
            exact hLast (later + 1) _ (Nat.succ_pos later) hLater rfl
          change ((table.set name entry).setAll entries).get? name = _
          rw [get?_setAll, hNone, Option.none_or, get?_set, if_pos rfl]

/-- The body of a closure sees its parameter at the index under the name: no later parameter has that
name, nor does the class above or the receiver take its place. -/
structure Closure.Sees (closure : Closure) (hierarchy : Hierarchy) (receiver? : Option Value)
    (index : Nat) (name : String) : Prop where
  here : (closure.prototype.parameters.map Parameter.name)[index]? = some name
  last : ∀ later, index < later →
    (closure.prototype.parameters.map Parameter.name)[later]? ≠ some name
  super : name = superName → closure.owner?.bind hierarchy.superclass? = none
  self : name = selfName → receiver? = none

theorem Closure.Sees.get?_frame {closure : Closure} {hierarchy : Hierarchy}
    {receiver? : Option Value} {index : Nat} {name : String}
    (h : closure.Sees hierarchy receiver? index name) {values : List Value} {value : Value}
    (hValue : values[index]? = some value) :
    ((closure.frame hierarchy values).withReceiver receiver?).bindings.get? name = some value := by
  have hParameters : (Table.setAll []
      ((closure.prototype.parameters.map Parameter.name).zip values)).get? name = some value := by
    have hEntry : ((closure.prototype.parameters.map Parameter.name).zip values)[index]? =
        some (name, value) := List.getElem?_zip_eq_some.mpr ⟨h.here, hValue⟩
    apply Table.get?_setAll_last [] hEntry
    rintro later ⟨other, _⟩ hLater hOther rfl
    exact h.last later hLater (List.getElem?_zip_eq_some.mp hOther).1
  have hFrame : (closure.frame hierarchy values).bindings.get? name = some value := by
    simp only [frame]
    cases hSuperclass : closure.owner?.bind hierarchy.superclass? with
    | none => exact hParameters
    | some superclass =>
        have hOther : name ≠ superName := by
          intro hName
          cases hSuperclass.symm.trans (h.super hName)
        simp only [Table.get?_set, if_neg hOther]
        exact hParameters
  cases receiver? with
  | none => exact hFrame
  | some receiver =>
      have hOther : name ≠ selfName := fun hName => nomatch h.self hName
      simp only [Frame.withReceiver, Table.get?_set, if_neg hOther]
      exact hFrame

/-! ### Applications -/

/-- The session with the receiver of a method bound in the scope of its body. -/
def Session.withReceiver (session : Session) (scope : ScopeId) : Option Value → Session
  | some receiver => session.mapEnvironment (·.define scope selfName receiver)
  | none => session

theorem Session.withReceiver_pushFrame (session : Session) (frame : Frame Value)
    (receiver? : Option Value) :
    (session.pushFrame frame).withReceiver ⟨session.environment.frames.size⟩ receiver? =
      session.pushFrame (frame.withReceiver receiver?) := by
  cases receiver? with
  | none => rfl
  | some receiver => exact session.define_pushFrame frame selfName receiver

open Eval

/-- Applying a closure is binding its arguments and running its body. -/
theorem Evaluator.runIn_applyClosure_open {session : Session} {id : ClosureId} {closure : Closure}
    (hOpen : session.isOpen = true) (hClosure : session.closures[id.index]? = some closure)
    (ev : Evaluator) (receiver? : Option Value) (arguments : List Value) :
    (ev.applyClosure id receiver? arguments).runIn session =
      match (bindArguments closure arguments).runIn session with
      | (.ok scope, bound) => (ev.runBody closure scope).runIn (bound.withReceiver scope receiver?)
      | (.error interruption, bound) => (.error interruption, bound) := by
  rw [applyClosure, runIn_bind_ok (runIn_requireOpen hOpen),
    runIn_bind_ok (runIn_closureOf hClosure), runIn_bind]
  rcases (bindArguments closure arguments).runIn session with ⟨interruption | scope, bound⟩
  · rfl
  · cases receiver? with
    | none => rfl
    | some receiver => rfl

theorem lookup?_of_sees {closure : Closure} {arguments : List Value} {scope : ScopeId}
    {session bound : Session} {receiver? : Option Value} {index : Nat} {name : String}
    {type : NativeType}
    (hBound : (bindArguments closure arguments).runIn session = (.ok scope, bound))
    (hSees : closure.Sees session.hierarchy receiver? index name)
    (hType : closure.parameterTypes[index]? = some (some type)) :
    ∃ argument value, arguments[index]? = some argument ∧ type.coerce? argument = some value ∧
      (bound.withReceiver scope receiver?).environment.lookup? scope name = some value := by
  obtain ⟨values, hPassed, hLength, rfl, rfl⟩ := exists_of_runIn_bindArguments hBound
  have hIndex : index < arguments.length := by
    rw [hLength, ← closure.length_parameterTypes]
    exact (List.getElem?_eq_some_iff.mp hType).1
  have hArgument : arguments[index]? = some arguments[index] := List.getElem?_eq_getElem hIndex
  have hPair : (closure.parameterTypes.zip arguments)[index]? = some (some type, arguments[index]) :=
    List.getElem?_zip_eq_some.mpr ⟨hType, hArgument⟩
  obtain ⟨value, hValue, hCoerced⟩ : ∃ value, values[index]? = some value ∧
      PassedAs (some type) arguments[index] value := by
    have hRelated := rel_getElem? hPassed index
    rw [hPair] at hRelated
    generalize values[index]? = value? at hRelated ⊢
    cases hRelated with
    | some hValue => exact ⟨_, rfl, hValue⟩
  refine ⟨arguments[index], value, hArgument, hCoerced, ?_⟩
  rw [Session.withReceiver_pushFrame, Environment.lookup?_eq]
  have hLocal : (session.pushFrame ((closure.frame session.hierarchy values).withReceiver
      receiver?)).environment.getLocal? ⟨session.environment.frames.size⟩ name = some value := by
    rw [Session.pushFrame, Session.mapEnvironment, Environment.getLocal?_pushFrame, if_pos rfl]
    exact hSees.get?_frame hValue
  rw [hLocal, Option.some_or]

/-- Coercion lands in the type and stays there. What a type makes of a value it leaves as it is. An
integer type takes exactly the values that stand for an integer, and makes of them the integer in its
range with the same low bits, or the integer itself if it has 64 bits. Going through a type that is no
narrower changes nothing. So the body of a closure is run where each parameter with a type that it
sees is one of that type, made of the argument, and what a closure with a return type returns is of
that type. -/
theorem coercion_lands_in_type :
    (∀ (type : NativeType) (value coerced : Value), type.coerce? value = some coerced →
        type.coerce? coerced = some coerced) ∧
      (∀ (type : NativeType) (bits : Nat) (signed : Bool), type.integer? = some (bits, signed) →
        ∀ value coerced : Value, type.coerce? value = some coerced ↔
          ∃ (n : Int) (word : Int64), ReadsAs value n ∧ coerced = .int word ∧
            Represents bits signed n word.toInt) ∧
      (∀ (type wide : NativeType) (bits bits' : Nat) (signed signed' : Bool),
        type.integer? = some (bits, signed) → wide.integer? = some (bits', signed') →
          bits ≤ bits' → ∀ n : Int64,
            (wide.coerce? (.int n)).bind type.coerce? = type.coerce? (.int n)) ∧
      ∀ (fuel : Nat) (session : Session) (id : ClosureId) (closure : Closure)
        (receiver? : Option Value) (arguments : List Value), session.isOpen = true →
        session.closures[id.index]? = some closure →
          let run := ((Evaluator.ofFuel fuel).applyClosure id receiver? arguments).runIn session
          (run =
              match (bindArguments closure arguments).runIn session with
              | (.ok scope, bound) => ((Evaluator.ofFuel fuel).runBody closure scope).runIn
                  (bound.withReceiver scope receiver?)
              | (.error interruption, bound) => (.error interruption, bound)) ∧
            (∀ (scope : ScopeId) (bound : Session),
              (bindArguments closure arguments).runIn session = (.ok scope, bound) →
                ∀ (index : Nat) (name : String) (type : NativeType),
                  closure.Sees session.hierarchy receiver? index name →
                  closure.parameterTypes[index]? = some (some type) →
                    ∃ argument value, arguments[index]? = some argument ∧
                      type.coerce? argument = some value ∧ type.coerce? value = some value ∧
                      (bound.withReceiver scope receiver?).environment.lookup? scope name =
                        some value) ∧
            ∀ (type : NativeType) (value : Value), closure.returnType? = some type →
              run.1 = .ok value → type.coerce? value = some value := by
  refine ⟨fun _ _ _ => Native.coerce?_coerced, fun _ _ _ h => Native.coerce?_integer h,
    fun _ _ _ _ _ _ h hWide hBits => Native.coerce?_narrow h hWide hBits, ?_⟩
  intro fuel session id closure receiver? arguments hOpen hClosure run
  refine ⟨Evaluator.runIn_applyClosure_open hOpen hClosure _ receiver? arguments, ?_, ?_⟩
  · intro scope bound hBound index name type hSees hType
    obtain ⟨argument, value, hArgument, hCoerced, hLookup⟩ := lookup?_of_sees hBound hSees hType
    exact ⟨argument, value, hArgument, hCoerced, Native.coerce?_coerced hCoerced, hLookup⟩
  · intro type value hType hRun
    exact Native.coerce?_of_applyClosure hType hClosure (Prod.ext hRun rfl)

/-- A closure that takes a signed byte and returns an unsigned one. -/
def signedByte : Closure where
  name? := some "signedByte"
  owner? := none
  prototype := ⟨[⟨"n", some .int8⟩], some .uint8⟩
  body := [.symbol ⟨0, 1⟩ "n"]
  scope := Environment.root
  source? := none
  signature? := some ⟨[.int8], .uint8⟩

def byteSession : Session :=
  { Session.new 16 with closures := #[signedByte] }

/-- The number 200 is the signed byte -56, and that is 200 again in a byte without a sign. -/
theorem coercion_lands_in_type_byte :
    NativeType.int8.coerce? (.int (-56)) = some (.int (-56)) ∧
      (∃ (n : Int) (word : Int64), ReadsAs (.int 200) n ∧ Value.int (-56) = .int word ∧
        Represents 8 true n word.toInt) ∧
      (NativeType.uint32.coerce? (.int 200)).bind NativeType.int8.coerce? =
        NativeType.int8.coerce? (.int 200) ∧
      (∃ argument value, [Value.int 200][0]? = some argument ∧
        NativeType.int8.coerce? argument = some value ∧ NativeType.int8.coerce? value = some value ∧
        ((byteSession.pushFrame (signedByte.frame byteSession.hierarchy [.int (-56)])).withReceiver
          ⟨1⟩ (some .null)).environment.lookup? ⟨1⟩ "n" = some value) ∧
      (((Evaluator.ofFuel 3).applyClosure ⟨0⟩ (some .null) [.int 200]).runIn byteSession).1 =
        .ok (.int 200) ∧
      NativeType.uint8.coerce? (.int 200) = some (.int 200) := by
  obtain ⟨hStable, hInteger, hNarrow, hApply⟩ := coercion_lands_in_type
  have hByte : NativeType.int8.coerce? (.int 200) = some (.int (-56)) := rfl
  obtain ⟨-, hSeen, hReturned⟩ :=
    hApply 3 byteSession ⟨0⟩ signedByte (some .null) [.int 200] rfl rfl
  have hBound : (bindArguments signedByte [.int 200]).runIn byteSession =
      (.ok ⟨1⟩, byteSession.pushFrame (signedByte.frame byteSession.hierarchy [.int (-56)])) :=
    runIn_bindArguments rfl rfl
  have hSees : signedByte.Sees byteSession.hierarchy (some .null) 0 "n" := by
    refine ⟨rfl, ?_, by decide, by decide⟩
    intro later hLater
    obtain ⟨more, rfl⟩ := Nat.exists_eq_add_of_lt hLater
    rw [Nat.zero_add]
    exact nofun
  have hRun : (((Evaluator.ofFuel 3).applyClosure ⟨0⟩ (some .null) [.int 200]).runIn
      byteSession).1 = .ok (.int 200) := by
    cbv
  exact ⟨hStable .int8 _ _ hByte, (hInteger .int8 8 true rfl _ _).mp hByte,
    hNarrow .int8 .uint32 8 32 true false rfl rfl (by decide) 200,
    hSeen _ _ hBound 0 "n" .int8 hSees rfl, hRun, hReturned .uint8 _ rfl hRun⟩

end MessageLisp
