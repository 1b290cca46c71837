import Mathlib
import MessageLisp.Proofs.Number.Integer
import MessageLisp.Proofs.Semantics.Dispatch
import MessageLisp.Proofs.Semantics.Safety

/-! Arithmetic of integers. The result is the exact one wherever that is an integer in range, and a
double elsewhere, with one exception: the remainder of the least integer by minus one is a double
although it is zero, because the quotient is out of range. -/
namespace MessageLisp

open Number (floatOfInt minInt maxInt)

/-! ### Exact results -/

/-- The integer if it is in range, and the double otherwise. -/
def Value.exactOr (n : Int) (x : Float) : Value :=
  if minInt ≤ n ∧ n ≤ maxInt then .int (Int64.ofInt n) else .float x

/-- The exact result where there is one, and the double elsewhere. -/
def Value.preferExact (result? : Option Int64) (x : Float) : Value :=
  match result? with
  | some n => .int n
  | none => .float x

theorem Value.preferExact_checked (n : Int) (x : Float) :
    preferExact (Number.checked n) x = exactOr n x := by
  rw [Number.checked, exactOr]
  split <;> rfl

namespace Number

theorem toInt_bounds (a : Int64) : minInt ≤ a.toInt ∧ a.toInt ≤ maxInt := by
  have hLow := a.le_toInt
  have hHigh := a.toInt_lt
  rw [minInt, maxInt]
  omega

/-- Only the least integer divided by minus one has a quotient out of range. -/
theorem tdiv_bounds_iff (a : Int64) {b : Int} (hDivisor : b ≠ 0) :
    (minInt ≤ a.toInt.tdiv b ∧ a.toInt.tdiv b ≤ maxInt) ↔ ¬(a.toInt = minInt ∧ b = -1) := by
  obtain ⟨hLow, hHigh⟩ := toInt_bounds a
  rw [minInt] at hLow ⊢
  rw [maxInt] at hHigh ⊢
  by_cases hMinusOne : b = -1
  · rw [hMinusOne, Int.tdiv_neg, Int.tdiv_one]
    omega
  · refine iff_of_true ?_ fun hBoth => hMinusOne hBoth.2
    by_cases hOne : b = 1
    · rw [hOne, Int.tdiv_one]
      exact ⟨hLow, hHigh⟩
    · -- Any other divisor halves the absolute value at least.
      have hHalf : (a.toInt.tdiv b).natAbs ≤ a.toInt.natAbs / 2 := by
        rw [Int.natAbs_tdiv]
        exact Nat.div_le_div_left (by omega) (by decide)
      omega

theorem tmod_bounds (a : Int64) (b : Int) :
    minInt ≤ a.toInt.tmod b ∧ a.toInt.tmod b ≤ maxInt := by
  obtain ⟨hLow, hHigh⟩ := toInt_bounds a
  have hAbs : (a.toInt.tmod b).natAbs ≤ a.toInt.natAbs := by
    rw [Int.natAbs_tmod]
    exact Nat.mod_le _ _
  -- A remainder is not above zero unless the dividend is.
  have hSign : 0 ≤ -a.toInt → 0 ≤ (-a.toInt).tmod b := Int.tmod_nonneg b
  rw [Int.neg_tmod] at hSign
  rw [minInt] at hLow ⊢
  rw [maxInt] at hHigh ⊢
  omega

end Number

theorem divideExact_eq (a : Int64) {b : Int64} (hDivisor : b ≠ 0) :
    divideExact a b =
      if b.toInt ∣ a.toInt then Number.checked (a.toInt / b.toInt) else none := by
  have hNonzero : b.toInt ≠ 0 := fun hZero => hDivisor (Int64.toInt_inj.mp hZero)
  apply Option.ext
  intro c
  rw [divideExact_eq_some_iff, and_iff_right hDivisor]
  split
  · rename_i hDivides
    rw [Number.checked_eq_some_iff, Int.ediv_eq_iff_eq_mul_right hNonzero hDivides, eq_comm]
  · rename_i hDivides
    refine iff_of_false (fun hProduct => hDivides ?_) nofun
    exact ⟨c.toInt, hProduct.symm⟩

theorem remainderExact_eq (a : Int64) {b : Int64} (hDivisor : b ≠ 0) :
    remainderExact a b =
      if a.toInt = minInt ∧ b.toInt = -1 then none
      else some (Int64.ofInt (a.toInt.tmod b.toInt)) := by
  have hNonzero : b.toInt ≠ 0 := fun hZero => hDivisor (Int64.toInt_inj.mp hZero)
  have hBounds := Number.tdiv_bounds_iff a hNonzero
  rw [remainderExact, if_neg hDivisor, Number.checked, Number.checked,
    if_pos (Number.tmod_bounds a b.toInt)]
  by_cases hLeast : a.toInt = minInt ∧ b.toInt = -1
  · rw [if_pos hLeast, if_neg (mt hBounds.mp (not_not_intro hLeast)), Option.bind_none]
  · rw [if_neg hLeast, if_pos (hBounds.mpr hLeast), Option.bind_some]

/-! ### Primitive methods -/

/-- The operations of arithmetic. -/
def Primitive.arithmetic : List Primitive :=
  [.add, .subtract, .multiply, .divide, .modulo]

theorem Primitive.selectorArity_arithmetic :
    ∀ primitive ∈ Primitive.arithmetic, selectorArity primitive.selector = 1 := by
  decide

theorem Primitive.arithmetic_number :
    ∀ primitive ∈ Primitive.arithmetic, primitive ∈ BuiltinClass.number.primitives := by
  decide

namespace Eval

variable (session : Session) (a b : Int64)

theorem runIn_arithmetic (exact : Int64 → Int64 → Option Int64)
    (approximate : Float → Float → Float) :
    (arithmetic exact approximate (.int a) (.int b)).runIn session =
      (.ok (.preferExact (exact a b) (approximate (floatOfInt a.toInt) (floatOfInt b.toInt))),
        session) := by
  simp only [arithmetic, integers?, Option.bind_some]
  cases exact a b with
  | some n => rfl
  | none => rfl

theorem runIn_requireNonzero {b : Int64} (hDivisor : b ≠ 0) :
    (requireNonzero (.int b)).runIn session = (.ok (), session) := by
  have hFloat : (floatOfInt b.toInt == 0.0) = false := by
    rw [Bool.eq_false_iff, ne_eq, Number.floatOfInt_beq_zero_iff]
    exact fun hZero => hDivisor (Int64.toInt_inj.mp hZero)
  simp only [requireNonzero, numberOf, Value.float?, pure_bind, hFloat]
  rfl

end Eval

theorem Evaluator.runIn_division (ev : Evaluator) (session : Session) (a : Int64) {b : Int64}
    (hDivisor : b ≠ 0) :
    (ev.runPrimitive .divide (.int a) [.int b]).runIn session =
        (.ok (.preferExact (divideExact a b) (floatOfInt a.toInt / floatOfInt b.toInt)), session) ∧
      (ev.runPrimitive .modulo (.int a) [.int b]).runIn session =
        (.ok (.preferExact (remainderExact a b)
          (Number.remainder (floatOfInt a.toInt) (floatOfInt b.toInt))), session) := by
  have hArgument : (Eval.argument [.int b] 0).runIn session = (.ok (.int b), session) := rfl
  have hRequire := Eval.runIn_requireNonzero session hDivisor
  constructor
  · simp only [Evaluator.runPrimitive]
    rw [Eval.runIn_bind_ok hArgument, Eval.runIn_bind_ok hRequire, Eval.runIn_arithmetic]
  · simp only [Evaluator.runPrimitive]
    rw [Eval.runIn_bind_ok hArgument, Eval.runIn_bind_ok hRequire, Eval.runIn_arithmetic]

/-- The remainder of the least integer by minus one is computed with doubles. -/
theorem remainder_least : Number.remainder (floatOfInt minInt) (floatOfInt (-1)) = -0.0 := rfl

/-- Arithmetic on integers changes nothing in the session. Sums, differences and products are exact if
they are in range, and doubles otherwise. So are quotients of a division without a remainder, and all
other quotients are doubles. Remainders are exact, except that the least integer leaves a negative zero
when it is divided by minus one. A divisor of zero is an error. Sending the message of an operation to
an integer that answers it by the primitive comes to the same. -/
theorem integer_arithmetic_exact_or_float (ev : Evaluator) (session : Session) (a b : Int64) :
    let x := floatOfInt a.toInt
    let y := floatOfInt b.toInt
    let run := fun primitive : Primitive =>
      (ev.runPrimitive primitive (.int a) [.int b]).runIn session
    run .add = (.ok (.exactOr (a.toInt + b.toInt) (x + y)), session) ∧
      run .subtract = (.ok (.exactOr (a.toInt - b.toInt) (x - y)), session) ∧
      run .multiply = (.ok (.exactOr (a.toInt * b.toInt) (x * y)), session) ∧
      (b ≠ 0 →
        run .divide =
            (.ok (if b.toInt ∣ a.toInt then .exactOr (a.toInt / b.toInt) (x / y)
              else .float (x / y)), session) ∧
          run .modulo =
            (.ok (if a.toInt = minInt ∧ b.toInt = -1 then .float (-0.0)
              else .int (Int64.ofInt (a.toInt.tmod b.toInt))), session) ∧
          (Int64.ofInt (a.toInt.tmod b.toInt)).toInt = a.toInt.tmod b.toInt) ∧
      (b = 0 →
        run .divide = (.error (.error .divisionByZero), session) ∧
          run .modulo = (.error (.error .divisionByZero), session)) ∧
      ∀ primitive ∈ Primitive.arithmetic, session.Answers (.int a) primitive →
        (ev.send (.int a) ⟨primitive.selector, [.int b]⟩ none).runIn session = run primitive := by
  intro x y run
  have hArgument : (Eval.argument [.int b] 0).runIn session = (.ok (.int b), session) := rfl
  refine ⟨?_, ?_, ?_, ?_, ?_, ?_⟩
  · simp only [run, Evaluator.runPrimitive]
    rw [Eval.runIn_bind_ok hArgument, Eval.runIn_arithmetic, addExact, Value.preferExact_checked]
  · simp only [run, Evaluator.runPrimitive]
    rw [Eval.runIn_bind_ok hArgument, Eval.runIn_arithmetic, subtractExact,
      Value.preferExact_checked]
  · simp only [run, Evaluator.runPrimitive]
    rw [Eval.runIn_bind_ok hArgument, Eval.runIn_arithmetic, multiplyExact,
      Value.preferExact_checked]
  · intro hDivisor
    obtain ⟨hDivide, hModulo⟩ := ev.runIn_division session a hDivisor
    refine ⟨hDivide.trans ?_, hModulo.trans ?_, ?_⟩
    · rw [divideExact_eq a hDivisor]
      split
      · rw [Value.preferExact_checked]
      · rfl
    · rw [remainderExact_eq a hDivisor]
      split
      · rename_i hLeast
        rw [hLeast.1, hLeast.2, remainder_least]
        rfl
      · rfl
    · obtain ⟨hLow, hHigh⟩ := Number.tmod_bounds a b.toInt
      exact Int64.toInt_ofInt_of_le hLow (Int.lt_of_le_of_lt hHigh (by decide))
  · rintro rfl
    have hZero : (Value.int 0).IsZero := rfl
    exact ⟨runPrimitive_zero (.inl rfl) hZero ev (.int a) session,
      runPrimitive_zero (.inr rfl) hZero ev (.int a) session⟩
  · intro primitive hOperation hAnswers
    have hArity := Primitive.selectorArity_arithmetic primitive hOperation
    exact Evaluator.runIn_send_unary hAnswers hArity (.int b) ev

/-- In a new session: seven divided by minus two, and what is left of it. -/
theorem integer_arithmetic_exact_or_float_seven :
    ((Evaluator.ofFuel 1).send (.int 7) ⟨"/", [.int (-2)]⟩ none).runIn (Session.new 1) =
        (.ok (.float (floatOfInt 7 / floatOfInt (-2))), Session.new 1) ∧
      ((Evaluator.ofFuel 1).send (.int 7) ⟨"%", [.int (-2)]⟩ none).runIn (Session.new 1) =
        (.ok (.int 1), Session.new 1) ∧
      ((Evaluator.ofFuel 1).send (.int 7) ⟨"%", [.int 0]⟩ none).runIn (Session.new 1) =
        (.error (.error .divisionByZero), Session.new 1) := by
  have hAnswers : ∀ primitive ∈ Primitive.arithmetic,
      (Session.new 1).Answers (.int 7) primitive := by
    intro primitive hOperation
    exact Session.new_answers .number rfl (Primitive.arithmetic_number primitive hOperation)
  obtain ⟨-, -, -, hDivision, -, hSend⟩ :=
    integer_arithmetic_exact_or_float (.ofFuel 1) (Session.new 1) 7 (-2)
  obtain ⟨-, -, -, -, hZero, hSendZero⟩ :=
    integer_arithmetic_exact_or_float (.ofFuel 1) (Session.new 1) 7 0
  obtain ⟨hDivide, hModulo, -⟩ := hDivision (by decide)
  refine ⟨?_, ?_, ?_⟩
  · exact (hSend .divide (by decide) (hAnswers .divide (by decide))).trans hDivide
  · exact (hSend .modulo (by decide) (hAnswers .modulo (by decide))).trans hModulo
  · exact (hSendZero .modulo (by decide) (hAnswers .modulo (by decide))).trans (hZero rfl).2

/-- The least integer divided by minus one leaves nothing, but the program gives a double for that. -/
theorem least_modulo_minus_one_is_float :
    Int64.minValue.toInt.tmod (-1 : Int64).toInt = (0 : Int64).toInt ∧
      ((Evaluator.ofFuel 1).send (.int Int64.minValue) ⟨"%", [.int (-1)]⟩ none).runIn
        (Session.new 1) = (.ok (.float (-0.0)), Session.new 1) := by
  refine ⟨by decide, ?_⟩
  have hAnswers : (Session.new 1).Answers (.int Int64.minValue) .modulo :=
    Session.new_answers .number rfl (by decide)
  have hArity := Primitive.selectorArity_arithmetic .modulo (by decide)
  have hFloat : Number.remainder (floatOfInt Int64.minValue.toInt) (floatOfInt (-1 : Int64).toInt) =
      -0.0 := remainder_least
  obtain ⟨-, hModulo⟩ := Evaluator.runIn_division (.ofFuel 1) (Session.new 1) Int64.minValue
    (show (-1 : Int64) ≠ 0 by decide)
  rw [remainderExact_eq _ (by decide), if_pos (by decide), hFloat] at hModulo
  exact (Evaluator.runIn_send_unary hAnswers hArity (.int (-1)) (.ofFuel 1)).trans hModulo

end MessageLisp
