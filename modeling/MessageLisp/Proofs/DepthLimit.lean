import MessageLisp.DepthLimit
import MessageLisp.Proofs.Number.Numeral
import MessageLisp.Proofs.Source.Scanning

/-! Settings are read exactly and never wrap. Without the blanks around it a setting is an optional plus sign,
digits and an optional unit. It is read if the number of the digits and its product with the unit both fit a
word, and then as that product. -/
namespace MessageLisp

/-! ### Blanks around a text -/

namespace Text

/-- What is left of a text without the blanks at both ends. -/
structure Trims (text core : List Char) : Prop where
  around : ∃ front back, text = front ++ (core ++ back) ∧ (∀ c ∈ front, isBlank c = true) ∧
    ∀ c ∈ back, isBlank c = true
  first : ∀ c ∈ core.head?, isBlank c = false
  last : ∀ c ∈ core.getLast?, isBlank c = false

theorem trims_trim (text : List Char) : Trims text (trim text) := by
  have hBack : text.dropWhile isBlank =
      trim text ++ ((text.dropWhile isBlank).reverse.takeWhile isBlank).reverse := by
    rw [trim, ← List.reverse_append, List.takeWhile_append_dropWhile, List.reverse_reverse]
  constructor
  · refine ⟨text.takeWhile isBlank, ((text.dropWhile isBlank).reverse.takeWhile isBlank).reverse, ?_, ?_, ?_⟩
    · rw [← hBack, List.takeWhile_append_dropWhile]
    · intro c hMem
      exact Source.mem_takeWhile hMem
    · intro c hMem
      exact Source.mem_takeWhile (List.mem_reverse.mp hMem)
  · intro c hMem
    apply Source.dropWhile_head
    rw [hBack, List.head?_append, Option.mem_def.mp hMem]
    rfl
  · intro c hMem
    rw [trim, List.getLast?_reverse] at hMem
    exact Source.dropWhile_head hMem

theorem Trims.trim_eq {text core : List Char} (h : Trims text core) : trim text = core := by
  obtain ⟨⟨front, back, rfl, hFront, hBack⟩, hFirst, hLast⟩ := h
  rw [trim, List.dropWhile_append_of_pos hFront]
  rcases eq_or_ne core [] with rfl | hSome
  · rw [List.nil_append, List.dropWhile_eq_nil_iff.mpr hBack]
    rfl
  · have hStart : ∀ c ∈ (core ++ back).head?, isBlank c = false := by
      rwa [List.head?_append_of_ne_nil _ hSome]
    have hEnd : ∀ c ∈ core.reverse.head?, isBlank c = false := by
      rwa [List.head?_reverse]
    have hReversed : ∀ c ∈ back.reverse, isBlank c = true := by
      intro c hMem
      exact hBack c (List.mem_reverse.mp hMem)
    have hCore := (Source.takeWhile_append_stop (List.forall_mem_nil _) hStart).2
    rw [List.nil_append] at hCore
    rw [hCore, List.reverse_append, (Source.takeWhile_append_stop hReversed hEnd).2, List.reverse_reverse]

end Text

/-! ### Digits and units -/

theorem readWord_digits {sign digits : List Char} (hSign : sign = [] ∨ sign = ['+']) (hSome : digits ≠ [])
    (hDigits : ∀ c ∈ digits, c.isDigit = true) :
    readWord (sign ++ digits) =
      if Number.placeValue digits < 2 ^ 64 then some (Number.placeValue digits) else none := by
  have hShape : (digits.isEmpty || !Number.isDigits digits) = false := by
    rw [Number.isDigits_iff.mpr hDigits, List.isEmpty_eq_false_iff.mpr hSome]
    rfl
  rw [← Number.digitsValue_eq_placeValue]
  rcases hSign with rfl | rfl
  · obtain ⟨c, rest, rfl⟩ := List.exists_cons_of_ne_nil hSome
    have hPlus : c ≠ '+' := by
      rintro rfl
      exact absurd (hDigits '+' List.mem_cons_self) (by decide)
    simp only [readWord, List.nil_append]
    split
    · rename_i hText
      exact absurd (List.cons.inj hText).1 hPlus
    · rw [hShape]
      rfl
  · simp only [readWord, List.cons_append, List.nil_append, hShape]
    rfl

theorem exists_of_readWord {text : List Char} {value : Nat} (h : readWord text = some value) :
    ∃ sign digits, text = sign ++ digits ∧ (sign = [] ∨ sign = ['+']) ∧ digits ≠ [] ∧
      ∀ c ∈ digits, c.isDigit = true := by
  have hShape {digits : List Char}
      (hRead : (if digits.isEmpty || !Number.isDigits digits then none
        else if Number.digitsValue digits < wordSize then some (Number.digitsValue digits)
        else none) = some value) : digits ≠ [] ∧ ∀ c ∈ digits, c.isDigit = true := by
    split at hRead
    · cases hRead
    · rename_i hPlain
      rw [← Number.isDigits_iff]
      simpa using hPlain
  unfold readWord at h
  split at h
  · rename_i digits
    exact ⟨['+'], digits, rfl, Or.inr rfl, hShape h⟩
  · exact ⟨[], text, rfl, Or.inl rfl, hShape h⟩

/-- The units of settings and what they stand for. -/
inductive SettingUnit : List Char → Nat → Prop where
  | none : SettingUnit [] 1
  | kilo {c : Char} (hLetter : c = 'k' ∨ c = 'K') : SettingUnit [c] 1024
  | mega {c : Char} (hLetter : c = 'm' ∨ c = 'M') : SettingUnit [c] (1024 * 1024)

theorem exists_settingUnit (text : List Char) :
    ∃ unit, SettingUnit unit (splitUnit text).2 ∧ text = (splitUnit text).1 ++ unit := by
  unfold splitUnit
  split
  · rename_i hLast
    exact ⟨['k'], SettingUnit.kilo (Or.inl rfl), (List.dropLast_append_getLast? _ hLast).symm⟩
  · rename_i hLast
    exact ⟨['K'], SettingUnit.kilo (Or.inr rfl), (List.dropLast_append_getLast? _ hLast).symm⟩
  · rename_i hLast
    exact ⟨['m'], SettingUnit.mega (Or.inl rfl), (List.dropLast_append_getLast? _ hLast).symm⟩
  · rename_i hLast
    exact ⟨['M'], SettingUnit.mega (Or.inr rfl), (List.dropLast_append_getLast? _ hLast).symm⟩
  · exact ⟨[], SettingUnit.none, (List.append_nil text).symm⟩

/-- A unit behind a digit is split off. -/
theorem SettingUnit.splitUnit_eq {unit : List Char} {factor : Nat} (h : SettingUnit unit factor)
    {text : List Char} {c : Char} (hDigit : c.isDigit = true) :
    splitUnit (text ++ c :: unit) = (text ++ [c], factor) := by
  have hSplit (last : Char) : text ++ [c, last] = (text ++ [c]) ++ [last] := by simp
  cases h with
  | none =>
      have hLast : (text ++ [c]).getLast? = some c := List.getLast?_concat
      unfold splitUnit
      rw [hLast]
      split
      -- The first four cases are those of a letter, which is no digit.
      iterate 4
        rename_i hLetter
        cases hLetter
        cases hDigit
      rfl
  | kilo hLetter =>
      rw [hSplit]
      rcases hLetter with rfl | rfl <;> simp [splitUnit]
  | mega hLetter =>
      rw [hSplit]
      rcases hLetter with rfl | rfl <;> simp [splitUnit]

/-! ### Settings -/

/-- A setting without blanks around it, and the number that it sets: an optional plus sign, digits and an
optional unit, where neither the digits nor their product with the unit go beyond a word. -/
def IsSetting (core : List Char) (value : Nat) : Prop :=
  ∃ sign digits unit factor, core = sign ++ (digits ++ unit) ∧ (sign = [] ∨ sign = ['+']) ∧ digits ≠ [] ∧
    (∀ c ∈ digits, c.isDigit = true) ∧ SettingUnit unit factor ∧ Number.placeValue digits < 2 ^ 64 ∧
    Number.placeValue digits * factor < 2 ^ 64 ∧ value = Number.placeValue digits * factor

theorem readSetting_eq_some_iff {text : String} {value : Nat} :
    readSetting text = some value ↔
      ∃ number, readWord (splitUnit (Text.trim text.toList)).1 = some number ∧
        number * (splitUnit (Text.trim text.toList)).2 < 2 ^ 64 ∧
        value = number * (splitUnit (Text.trim text.toList)).2 := by
  have hSize : wordSize = 2 ^ 64 := rfl
  unfold readSetting
  rw [← hSize]
  simp only [Option.bind_eq_bind, Option.bind_eq_some_iff, Option.ite_none_right_eq_some,
    Option.some.injEq]
  simp only [eq_comm]

theorem isSetting_of_readSetting {text : String} {value : Nat} (h : readSetting text = some value) :
    IsSetting (Text.trim text.toList) value := by
  obtain ⟨number, hWord, hFits, rfl⟩ := readSetting_eq_some_iff.mp h
  obtain ⟨unit, hUnit, hCore⟩ := exists_settingUnit (Text.trim text.toList)
  obtain ⟨sign, digits, hText, hSign, hSome, hDigits⟩ := exists_of_readWord hWord
  rw [hText, readWord_digits hSign hSome hDigits, Option.ite_none_right_eq_some] at hWord
  obtain ⟨hNumber, hValue⟩ := hWord
  obtain rfl := Option.some.inj hValue
  refine ⟨sign, digits, unit, _, ?_, hSign, hSome, hDigits, hUnit, hNumber, hFits, rfl⟩
  rw [← List.append_assoc, ← hText]
  exact hCore

theorem readSetting_of_isSetting {text : String} {value : Nat}
    (h : IsSetting (Text.trim text.toList) value) : readSetting text = some value := by
  obtain ⟨sign, digits, unit, factor, hCore, hSign, hSome, hDigits, hUnit, hNumber, hFits, rfl⟩ := h
  -- The unit stands behind the last digit, and so it is what is split off.
  have hSplit : splitUnit (Text.trim text.toList) = (sign ++ digits, factor) := by
    obtain ⟨init, last, rfl⟩ : ∃ init last, digits = init ++ [last] :=
      ⟨digits.dropLast, digits.getLast hSome, (List.dropLast_append_getLast hSome).symm⟩
    rw [hCore, List.append_assoc, ← List.append_assoc, List.singleton_append,
      hUnit.splitUnit_eq (hDigits last (by simp)), List.append_assoc]
  rw [readSetting_eq_some_iff, hSplit]
  refine ⟨Number.placeValue digits, ?_, hFits, rfl⟩
  rw [readWord_digits hSign hSome hDigits, if_pos hNumber]

theorem utf8Size_of_isDigit {c : Char} (h : c.isDigit = true) : c.utf8Size = 1 := by
  rw [Char.utf8Size_eq_one_iff]
  have hHigh : c.val ≤ 57 := by
    simp only [Char.isDigit, Bool.and_eq_true, decide_eq_true_eq] at h
    exact h.2
  exact UInt32.le_trans hHigh (by decide)

/-- Every character of a setting has one byte. -/
theorem IsSetting.utf8Size_eq_one {core : List Char} {value : Nat} (h : IsSetting core value) :
    ∀ c ∈ core, c.utf8Size = 1 := by
  obtain ⟨sign, digits, unit, factor, rfl, hSign, -, hDigits, hUnit, -⟩ := h
  intro c hMem
  simp only [List.mem_append] at hMem
  rcases hMem with hMem | hMem | hMem
  · rcases hSign with rfl | rfl
    · cases hMem
    · obtain rfl := List.mem_singleton.mp hMem
      rfl
  · exact utf8Size_of_isDigit (hDigits c hMem)
  · cases hUnit with
    | none => cases hMem
    | kilo hLetter | mega hLetter =>
        obtain rfl := List.mem_singleton.mp hMem
        rcases hLetter with rfl | rfl <;> rfl

/-- Settings are read exactly and never wrap. What is read is what the text sets, without the blanks around
it; all else is refused, and so is a text in which a character of several bytes is left. -/
theorem settings_read_exactly (text : String) :
    (∀ value, readSetting text = some value ↔
      ∃ core, Text.Trims text.toList core ∧ IsSetting core value) ∧
    (readSetting text = none ↔ ¬∃ core value, Text.Trims text.toList core ∧ IsSetting core value) ∧
    ∀ core, Text.Trims text.toList core → (∃ c ∈ core, 1 < c.utf8Size) → readSetting text = none := by
  have hRead (value : Nat) : readSetting text = some value ↔
      ∃ core, Text.Trims text.toList core ∧ IsSetting core value := by
    constructor
    · intro h
      exact ⟨_, Text.trims_trim text.toList, isSetting_of_readSetting h⟩
    · rintro ⟨core, hCore, hSetting⟩
      exact readSetting_of_isSetting (hCore.trim_eq ▸ hSetting)
  refine ⟨hRead, ?_, ?_⟩
  · rw [Option.eq_none_iff_forall_ne_some, exists_comm, not_exists]
    exact forall_congr' fun value => (hRead value).not
  · rintro core hCore ⟨c, hMem, hWide⟩
    rw [Option.eq_none_iff_forall_ne_some]
    intro value h
    have hOne := (isSetting_of_readSetting h).utf8Size_eq_one c (hCore.trim_eq ▸ hMem)
    omega

/-- The largest number of units of 1024 that fits a word, between blanks, and a character of two bytes. -/
theorem settings_read_exactly_largest :
    Text.Trims " +18014398509481983K\n".toList "+18014398509481983K".toList ∧
      readSetting " +18014398509481983K\n" = some (18014398509481983 * 1024) ∧
      Text.Trims "8é ".toList ['8', 'é'] ∧ readSetting "8é " = none := by
  have hCore : Text.Trims " +18014398509481983K\n".toList "+18014398509481983K".toList :=
    ⟨⟨[' '], ['\n'], rfl, List.forall_mem_singleton.mpr rfl, List.forall_mem_singleton.mpr rfl⟩,
      by rintro c ⟨⟩; rfl, by rintro c ⟨⟩; rfl⟩
  have hSetting : IsSetting "+18014398509481983K".toList (18014398509481983 * 1024) :=
    ⟨['+'], "18014398509481983".toList, ['K'], 1024, rfl, Or.inr rfl, by decide, Number.isDigits_iff.mp rfl,
      SettingUnit.kilo (Or.inr rfl), by decide, by decide, rfl⟩
  have hWide : Text.Trims "8é ".toList ['8', 'é'] :=
    ⟨⟨[], [' '], rfl, List.forall_mem_nil _, List.forall_mem_singleton.mpr rfl⟩, by rintro c ⟨⟩; rfl,
      by rintro c ⟨⟩; rfl⟩
  exact ⟨hCore, ((settings_read_exactly _).1 _).mpr ⟨_, hCore, hSetting⟩, hWide,
    (settings_read_exactly _).2.2 _ hWide ⟨'é', by decide, by decide⟩⟩

end MessageLisp
