import MessageLisp.Proofs.Source.Diagnosis

/-! Positions identify offsets. Lines and columns grow with the characters in front of an offset, so that
two offsets between characters never have the same line and column. An offset inside a character has the
line and column of the offset behind that character, and one past the end has the position of the end. -/
namespace MessageLisp.Source

/-- Line and column of a position, ordered by lines and then by columns. -/
def Position.place (position : Position) : Nat ×ₗ Nat :=
  toLex (position.line, position.column)

/-! ### Offsets between characters -/

/-- The position behind one more character: at the start of the next line, or one column further. -/
def Position.advance (position : Position) (c : Char) : Position :=
  if c = '\n' then ⟨position.offset + c.utf8Size, position.line + 1, 1⟩
  else ⟨position.offset + c.utf8Size, position.line, position.column + 1⟩

/-- The position of the start of a text. -/
def Position.origin : Position := ⟨0, 1, 1⟩

/-- Going through a text counts its bytes, its line breaks and the characters of its last line. -/
theorem Position.foldl_advance (text : List Char) :
    text.foldl advance origin =
      ⟨byteLength text, 1 + text.count '\n', 1 + (text.reverse.takeWhile (· ≠ '\n')).length⟩ := by
  induction text using List.reverseRecOn with
  | nil => rfl
  | append_singleton text c ih =>
      rw [List.foldl_append, ih, List.foldl_cons, List.foldl_nil, advance]
      split
      · rename_i hBreak
        subst hBreak
        simp [Nat.add_assoc]
      · rename_i hPlain
        simp [hPlain, Nat.add_comm]

/-- The position of an offset between characters is found by going through the characters before it. -/
theorem locate_append (before rest : List Char) :
    Position.locate (before ++ rest) (byteLength before) = before.foldl Position.advance .origin := by
  rw [locate_byteLength, Position.foldl_advance]

theorem Position.place_lt_advance (position : Position) (c : Char) :
    position.place < (position.advance c).place := by
  rw [place, place, Prod.Lex.toLex_lt_toLex, advance]
  split
  · exact Or.inl (Nat.lt_succ_self _)
  · exact Or.inr ⟨rfl, Nat.lt_succ_self _⟩

theorem Position.place_lt_foldl {added : List Char} (hAdded : added ≠ []) (position : Position) :
    position.place < (added.foldl advance position).place := by
  induction added generalizing position with
  | nil => exact absurd rfl hAdded
  | cons c added ih =>
      have hFirst := position.place_lt_advance c
      rcases eq_or_ne added [] with rfl | hMore
      · exact hFirst
      · exact hFirst.trans (ih hMore (position.advance c))

/-- Of two ways to divide a text the one with the smaller offset is the earlier one. -/
theorem exists_added {text : List Char} {offset offset' : Nat} (hFirst : IsBoundary text offset)
    (hSecond : IsBoundary text offset') (hLt : offset < offset') :
    ∃ before added rest, text = before ++ (added ++ rest) ∧ added ≠ [] ∧ byteLength before = offset ∧
      byteLength (before ++ added) = offset' := by
  obtain ⟨before, rest, rfl, rfl⟩ := hFirst
  obtain ⟨before', rest', hText, rfl⟩ := hSecond
  rcases List.append_eq_append_iff.mp hText with ⟨added, rfl, rfl⟩ | ⟨removed, rfl, -⟩
  · refine ⟨before, added, rest', rfl, ?_, rfl, rfl⟩
    rintro rfl
    simp at hLt
  · rw [byteLength_append] at hLt
    omega

theorem strictMonoOn_place (text : List Char) :
    StrictMonoOn (fun offset => (Position.locate text offset).place) {offset | IsBoundary text offset} := by
  intro offset hFirst offset' hSecond hLt
  obtain ⟨before, added, rest, rfl, hAdded, rfl, rfl⟩ := exists_added hFirst hSecond hLt
  have hBehind := locate_append (before ++ added) rest
  rw [List.append_assoc, List.foldl_append] at hBehind
  dsimp only
  rw [locate_append, hBehind]
  exact Position.place_lt_foldl hAdded _

/-! ### Other offsets -/

/-- Before the end of a text there is a character at every offset. -/
theorem exists_char_at {text : List Char} {offset : Nat} (hOffset : offset < byteLength text) :
    ∃ before c rest, text = before ++ c :: rest ∧ byteLength before ≤ offset ∧
      offset < byteLength before + c.utf8Size := by
  induction text generalizing offset with
  | nil => cases hOffset
  | cons c text ih =>
      rw [byteLength_cons] at hOffset
      rcases Nat.lt_or_ge offset c.utf8Size with hHere | hLater
      · exact ⟨[], c, text, rfl, Nat.zero_le _, by simpa using hHere⟩
      · have hRest : offset - c.utf8Size < byteLength text := by omega
        obtain ⟨before, c', rest, rfl, hFrom, hTo⟩ := ih hRest
        have hLength : byteLength (c :: before) = c.utf8Size + byteLength before := rfl
        exact ⟨c :: before, c', rest, rfl, by omega, by omega⟩

/-- There is no boundary inside a character: the next one is behind it. -/
theorem isLeast_boundary {before : List Char} {c : Char} {rest : List Char} {offset : Nat}
    (hFrom : byteLength before ≤ offset) (hTo : offset < byteLength before + c.utf8Size) :
    IsLeast {boundary | IsBoundary (before ++ c :: rest) boundary ∧ offset < boundary}
      (byteLength (before ++ [c])) := by
  have hBehind : byteLength (before ++ [c]) = byteLength before + c.utf8Size := by simp
  constructor
  · exact ⟨⟨before ++ [c], rest, by simp, rfl⟩, hBehind ▸ hTo⟩
  · rintro boundary ⟨⟨front, rest', hText, rfl⟩, hLt⟩
    rw [hBehind]
    rcases List.append_eq_append_iff.mp hText with ⟨added, rfl, hAdded⟩ | ⟨removed, rfl, -⟩
    · cases added with
      | nil =>
          rw [List.append_nil] at hLt
          omega
      | cons c' added =>
          obtain ⟨rfl, -⟩ := List.cons.inj hAdded
          simp
    · rw [byteLength_append] at hFrom
      omega

/-- The characters that start before an offset inside a character, or right behind it, are those up to this
character. -/
theorem startingBefore_inside {before : List Char} {c : Char} (rest : List Char) {offset : Nat}
    (hFrom : byteLength before < offset) (hTo : offset ≤ byteLength before + c.utf8Size) :
    startingBefore offset 0 (before ++ c :: rest) = before ++ [c] := by
  obtain ⟨bytes, rfl⟩ := Nat.exists_eq_add_of_lt hFrom
  have hShift : byteLength before + bytes + 1 = bytes + 1 + (0 + byteLength before) := by omega
  have hSize : bytes + 1 ≤ c.utf8Size := by omega
  rw [hShift, startingBefore_append_add, startingBefore, if_pos (Nat.succ_pos bytes), Nat.zero_add]
  cases rest with
  | nil => rfl
  | cons c' rest => rw [startingBefore, if_neg (Nat.not_lt.mpr hSize)]

theorem place_inside {before : List Char} {c : Char} (rest : List Char) {offset : Nat}
    (hFrom : byteLength before < offset) (hTo : offset ≤ byteLength before + c.utf8Size) :
    (Position.locate (before ++ c :: rest) offset).place =
      (Position.locate (before ++ c :: rest) (byteLength (before ++ [c]))).place := by
  have hClamp : min offset (byteLength (before ++ c :: rest)) = offset := by
    rw [byteLength_append, byteLength_cons]
    omega
  have hSplit : before ++ c :: rest = (before ++ [c]) ++ rest := by simp
  have hBefore := startingBefore_inside rest hFrom hTo
  rw [hSplit] at hClamp hBefore
  rw [hSplit, locate_byteLength]
  simp only [Position.locate, hClamp, hBefore]
  rfl

/-- Positions identify offsets. The position of an offset between characters is right behind the characters
in front of it: its line counts the line breaks there, its column the characters since the last one. So line
and column grow with the offset, and no two such offsets share them. Offsets past the end have the position
of the end, and an offset inside a character the line and column of the next offset between characters. -/
theorem positions_identify_offsets (source : String) :
    (∀ before rest, source.toList = before ++ rest →
      (Position.locate source.toList (byteLength before)).IsBehind before) ∧
    StrictMonoOn (fun offset => (Position.locate source.toList offset).place)
      {offset | IsBoundary source.toList offset} ∧
    Set.InjOn (fun offset => (Position.locate source.toList offset).place)
      {offset | IsBoundary source.toList offset} ∧
    (∀ offset, source.utf8ByteSize ≤ offset →
      Position.locate source.toList offset = Position.locate source.toList source.utf8ByteSize) ∧
    ∀ offset < source.utf8ByteSize, ¬IsBoundary source.toList offset →
      ∃ next, IsLeast {boundary | IsBoundary source.toList boundary ∧ offset < boundary} next ∧
        (Position.locate source.toList offset).line = (Position.locate source.toList next).line ∧
        (Position.locate source.toList offset).column = (Position.locate source.toList next).column := by
  have hMono := strictMonoOn_place source.toList
  rw [← byteLength_toList]
  refine ⟨?_, hMono, hMono.injOn, ?_, ?_⟩
  · intro before rest hText
    rw [hText]
    exact locate_isBehind before rest
  · intro offset hPast
    simp only [Position.locate, Nat.min_eq_right hPast, Nat.min_self]
  · intro offset hOffset hInside
    obtain ⟨before, c, rest, hText, hFrom, hTo⟩ := exists_char_at hOffset
    rw [hText] at hInside ⊢
    have hStrict : byteLength before < offset := by
      refine lt_of_le_of_ne hFrom ?_
      rintro rfl
      exact hInside ⟨before, c :: rest, rfl, rfl⟩
    have hPlace := Prod.mk.inj (toLex.injective (place_inside rest hStrict hTo.le))
    exact ⟨_, isLeast_boundary hFrom hTo, hPlace.1, hPlace.2⟩

/-- A character of two bytes, a line break and one more character: offset 1 is inside the first one, offsets 3
and 4 are on the second line, and 9 is past the end. -/
theorem positions_identify_offsets_wide :
    (Position.locate "é\nx".toList 3).IsBehind ['é', '\n'] ∧
      (Position.locate "é\nx".toList 3).place < (Position.locate "é\nx".toList 4).place ∧
      Position.locate "é\nx".toList 9 = Position.locate "é\nx".toList 4 ∧
      ¬IsBoundary "é\nx".toList 1 ∧
      ∃ next, IsLeast {boundary | IsBoundary "é\nx".toList boundary ∧ 1 < boundary} next ∧
        (Position.locate "é\nx".toList next).line = 1 ∧
        (Position.locate "é\nx".toList next).column = 2 := by
  obtain ⟨hBehind, hMono, -, hPast, hInside⟩ := positions_identify_offsets "é\nx"
  have hNone : ¬IsBoundary "é\nx".toList 1 := by
    intro hBoundary
    have hLeast : IsLeast {boundary | IsBoundary "é\nx".toList boundary ∧ 0 < boundary} 2 :=
      @isLeast_boundary [] 'é' ['\n', 'x'] 0 (Nat.le_refl 0) (by decide)
    exact absurd (hLeast.2 ⟨hBoundary, Nat.one_pos⟩) (by decide)
  obtain ⟨next, hNext, hLine, hColumn⟩ := hInside 1 (by decide) hNone
  refine ⟨hBehind ['é', '\n'] ['x'] rfl, hMono ⟨['é', '\n'], ['x'], rfl, rfl⟩
    ⟨['é', '\n', 'x'], [], rfl, rfl⟩ (by decide), hPast 9 (by decide), hNone, next, hNext,
    hLine.symm.trans (by decide), hColumn.symm.trans (by decide)⟩

end MessageLisp.Source
