import MessageLisp.Proofs.Source.Moving

/-! Where the expressions of a program stand. The span of every expression, at any depth, covers
exactly the characters that it was read from: by themselves they read as the same expression.
Expressions next to each other stand one behind the other, and those of a list stand between its
parentheses. -/
namespace MessageLisp.Source

/-- The characters of a text that start inside a span. -/
def slice (text : List Char) (span : Span) : List Char :=
  (startingBefore span.stop 0 text).drop (startingBefore span.start 0 text).length

theorem startingBefore_add (offset start bytes : Nat) (text : List Char) :
    startingBefore (offset + bytes) (start + bytes) text = startingBefore offset start text := by
  induction text generalizing start with
  | nil => rfl
  | cons c text ih =>
      simp only [startingBefore, Nat.add_lt_add_iff_right]
      rw [Nat.add_right_comm, ih]

/-- The characters before an offset behind `front` are those of `front` and those after it. -/
theorem startingBefore_append_add (front rest : List Char) (offset start : Nat) :
    startingBefore (offset + (start + byteLength front)) start (front ++ rest) =
      front ++ startingBefore offset 0 rest := by
  induction front generalizing start with
  | nil =>
      have hMoved := startingBefore_add offset 0 start rest
      rwa [Nat.zero_add] at hMoved
  | cons c front ih =>
      have hPos : 0 < c.utf8Size := c.utf8Size_pos
      rw [byteLength_cons, List.cons_append, startingBefore, if_pos (by omega), ← Nat.add_assoc start,
        ih, List.cons_append]

theorem startingBefore_append (front rest : List Char) :
    startingBefore (byteLength front) 0 (front ++ rest) = front := by
  have hFront := startingBefore_append_add front rest 0 0
  rw [Nat.zero_add, Nat.zero_add] at hFront
  rw [hFront]
  cases rest <;> simp [startingBefore]

theorem slice_append (front middle rest : List Char) :
    slice (front ++ (middle ++ rest)) ⟨byteLength front, byteLength front + byteLength middle⟩ =
      middle := by
  have hBoth := startingBefore_append (front ++ middle) rest
  rw [byteLength_append, List.append_assoc] at hBoth
  rw [slice, startingBefore_append front, hBoth, List.drop_left]

namespace Expr

mutual

/-- An expression and all expressions inside it. -/
def nodes : Expr → List Expr
  | list span items => list span items :: nodesAll items
  | expr => [expr]

@[inherit_doc nodes]
def nodesAll : List Expr → List Expr
  | [] => []
  | expr :: exprs => nodes expr ++ nodesAll exprs

end

theorem mem_nodes_self (expr : Expr) : expr ∈ expr.nodes := by
  cases expr <;> simp [nodes]

theorem nodes_subset {expr : Expr} {exprs : List Expr} (h : expr ∈ exprs) :
    expr.nodes ⊆ nodesAll exprs := by
  induction exprs with
  | nil => cases h
  | cons first exprs ih =>
      rw [nodesAll]
      rcases List.mem_cons.mp h with rfl | hRest
      · exact List.subset_append_left _ _
      · exact List.subset_append_of_subset_right _ (ih hRest)

mutual

theorem nodes_subset_nodes {expr node : Expr} (h : node ∈ expr.nodes) : node.nodes ⊆ expr.nodes := by
  match expr with
  | .list span items =>
      rw [nodes] at h
      rcases List.mem_cons.mp h with rfl | hInner
      · exact List.Subset.refl _
      · exact List.subset_cons_of_subset _ (nodes_subset_nodesAll hInner)
  | .nil _ | .int _ _ | .float _ _ | .string _ _ | .symbol _ _ =>
      obtain rfl := List.mem_singleton.mp h
      exact List.Subset.refl _

theorem nodes_subset_nodesAll {exprs : List Expr} {node : Expr} (h : node ∈ nodesAll exprs) :
    node.nodes ⊆ nodesAll exprs := by
  match exprs with
  | [] => cases h
  | expr :: exprs =>
      rw [nodesAll] at h ⊢
      rcases List.mem_append.mp h with hFirst | hRest
      · exact List.subset_append_of_subset_left _ (nodes_subset_nodes hFirst)
      · exact List.subset_append_of_subset_right _ (nodes_subset_nodesAll hRest)

end

/-- The items of a list inside a program are inside the program. -/
theorem mem_nodesAll_of_item {exprs items : List Expr} {span : Span} {item : Expr}
    (h : list span items ∈ nodesAll exprs) (hItem : item ∈ items) : item ∈ nodesAll exprs := by
  apply nodes_subset_nodesAll h
  rw [nodes]
  exact List.mem_cons_of_mem _ (nodes_subset hItem (mem_nodes_self item))

mutual

/-- Equality of expressions with their places. -/
def identical : Expr → Expr → Bool
  | nil span, nil span' => span = span'
  | int span value, int span' value' => span = span' && value = value'
  | float span value, float span' value' => span = span' && value = value'
  | string span text, string span' text' => span = span' && text = text'
  | symbol span name, symbol span' name' => span = span' && name = name'
  | list span items, list span' items' => span = span' && identicalAll items items'
  | _, _ => false

@[inherit_doc identical]
def identicalAll : List Expr → List Expr → Bool
  | [], [] => true
  | expr :: exprs, expr' :: exprs' => identical expr expr' && identicalAll exprs exprs'
  | _, _ => false

end

mutual

theorem identical_iff (expr expr' : Expr) : expr.identical expr' = true ↔ expr = expr' := by
  match expr with
  | .list span items =>
      cases expr' with
      | list span' items' => simp [identical, identicalAll_iff items items']
      | _ => simp [identical]
  | .nil _ | .int _ _ | .float _ _ | .string _ _ | .symbol _ _ => cases expr' <;> simp [identical]

theorem identicalAll_iff (exprs exprs' : List Expr) :
    identicalAll exprs exprs' = true ↔ exprs = exprs' := by
  match exprs, exprs' with
  | [], [] | [], _ :: _ | _ :: _, [] => simp [identicalAll]
  | expr :: exprs, expr' :: exprs' =>
      simp [identicalAll, identical_iff expr expr', identicalAll_iff exprs exprs']

end

instance : DecidableEq Expr :=
  fun expr expr' => decidable_of_iff _ (identical_iff expr expr')

end Expr

/-! ### The tokens of an expression -/

/-- The tokens that spell one expression: its atom, or its parentheses and what is between them. -/
inductive Spells : List Token → Expr → Prop where
  | atom {token : Token} {expr : Expr} (hAtom : token.atom? = .ok (some expr)) : Spells [token] expr
  | list {opener closer : Token} {inner : List Token} {items : List Expr}
      (hOpener : opener.kind = .listOpen) (hCloser : closer.kind = .listClose)
      (hInner : Derives inner items) :
      Spells (opener :: (inner ++ [closer])) (.list ⟨opener.span.start, closer.span.stop⟩ items)

theorem Spells.derives {tokens : List Token} {expr : Expr} (h : Spells tokens expr) :
    Derives tokens [expr] := by
  cases h with
  | atom hAtom => exact Derives.atom hAtom Derives.nil
  | list hOpener hCloser hInner => exact Derives.list hOpener hCloser hInner Derives.nil

/-- Every expression inside a program is spelled by tokens next to each other. It is nested no
deeper than the program. -/
theorem Derives.exists_spells {tokens : List Token} {exprs : List Expr} (h : Derives tokens exprs)
    {node : Expr} (hNode : node ∈ Expr.nodesAll exprs) :
    ∃ before own after, tokens = before ++ (own ++ after) ∧ Spells own node ∧
      node.nesting ≤ Expr.nestingAll exprs := by
  induction h with
  | nil => cases hNode
  | @comment token tokens exprs _ _ ih =>
      obtain ⟨before, own, after, rfl, hSpells, hNesting⟩ := ih hNode
      exact ⟨token :: before, own, after, rfl, hSpells, hNesting⟩
  | @atom token tokens expr exprs hAtom _ ih =>
      rw [Expr.nodesAll] at hNode
      rcases List.mem_append.mp hNode with hFirst | hRest
      · have hSelf : expr.nodes = [expr] := by cases Token.denotes_of_atom hAtom <;> rfl
        rw [hSelf] at hFirst
        obtain rfl := List.mem_singleton.mp hFirst
        exact ⟨[], [token], tokens, rfl, Spells.atom hAtom, Nat.le_max_left _ _⟩
      · obtain ⟨before, own, after, rfl, hSpells, hNesting⟩ := ih hRest
        exact ⟨token :: before, own, after, rfl, hSpells, hNesting.trans (Nat.le_max_right _ _)⟩
  | @list opener closer inner tokens items exprs hOpener hCloser hInner _ ihInner ih =>
      rw [Expr.nodesAll, Expr.nodes] at hNode
      rcases List.mem_append.mp hNode with hFirst | hRest
      · rcases List.mem_cons.mp hFirst with rfl | hItems
        · exact ⟨[], opener :: (inner ++ [closer]), tokens, by simp,
            Spells.list hOpener hCloser hInner, Nat.le_max_left _ _⟩
        · obtain ⟨before, own, after, rfl, hSpells, hNesting⟩ := ihInner hItems
          refine ⟨opener :: before, own, after ++ closer :: tokens, by simp, hSpells, ?_⟩
          rw [Expr.nestingAll, Expr.nesting]
          omega
      · obtain ⟨before, own, after, rfl, hSpells, hNesting⟩ := ih hRest
        refine ⟨opener :: (inner ++ closer :: before), own, after, by simp, hSpells, ?_⟩
        exact hNesting.trans (Nat.le_max_right _ _)

theorem span_of_atom {token : Token} {expr : Expr} (hAtom : token.atom? = .ok (some expr)) :
    expr.span = token.span := by
  cases Token.denotes_of_atom hAtom <;> rfl

/-- The span of an expression goes from its first token to its last one. -/
theorem Spells.ends {tokens : List Token} {expr : Expr} (h : Spells tokens expr) :
    ∃ first tail init last, tokens = first :: tail ∧ tokens = init ++ [last] ∧
      expr.span = ⟨first.span.start, last.span.stop⟩ := by
  cases h with
  | @atom token expr hAtom =>
      exact ⟨token, [], [], token, rfl, rfl, span_of_atom hAtom⟩
  | @list opener closer inner items _ _ _ =>
      exact ⟨opener, inner ++ [closer], opener :: inner, closer, rfl, rfl, rfl⟩

/-- The text of an expression can be cut out of the text that it stands in. -/
theorem Spells.cut {text : List Char} {before own after : List Token} {unterminated : Bool}
    {expr : Expr} (hSpells : Spells own expr)
    (hScans : Scans 0 text ⟨before ++ (own ++ after), unterminated⟩) :
    ∃ front middle rest, text = front ++ (middle ++ rest) ∧
      expr.span = ⟨byteLength front, byteLength front + byteLength middle⟩ ∧
      Scans (byteLength front) middle ⟨own, false⟩ := by
  obtain ⟨first, tail, init, last, hFirst, hLast, hSpan⟩ := hSpells.ends
  rw [hFirst, List.cons_append] at hScans
  obtain ⟨front, later, rfl, hStart, hLater⟩ := hScans.drop
  rw [← List.cons_append, ← hFirst, hLast, List.append_assoc, Nat.zero_add] at hLater
  obtain ⟨middle, rest, rfl, hStop, hMiddle⟩ := Scans.take hLater
  rw [← hLast] at hMiddle
  refine ⟨front, middle, rest, rfl, ?_, hMiddle⟩
  rw [hSpan, hStart, hStop, Nat.zero_add]

/-- The characters under the span of an expression read as that expression, moved to the front. -/
theorem readProgram_slice {text : List Char} {program : List Expr}
    (hRead : readProgram text = .ok program) {node : Expr} (hNode : node ∈ Expr.nodesAll program) :
    ∃ own, readProgram (slice text node.span) = .ok [own] ∧ own.shift node.span.start = node := by
  obtain ⟨tokens, hScans, hDerives, hDepth⟩ := readProgram_eq_ok_iff.mp hRead
  obtain ⟨before, spelling, after, rfl, hSpells, hNesting⟩ := hDerives.exists_spells hNode
  obtain ⟨front, middle, rest, rfl, hSpan, hMiddle⟩ := hSpells.cut hScans
  obtain ⟨tokens, hTokens, rfl⟩ := hMiddle.exists_shift
  have hScan : scan middle = ⟨tokens, false⟩ := scanFrom_of_scans hTokens
  have hRoom : Reading.empty.pending.length + Expr.nestingAll [node] ≤ maxNesting := by
    simp only [Reading.empty, List.length_nil, Expr.nestingAll]
    omega
  have hMoved := Reading.foldlM_step_after Reading.empty (byteLength front) [] tokens
  rw [show Reading.empty.after (byteLength front) [] = Reading.empty from rfl,
    Reading.foldlM_step_of_derives hSpells.derives _ hRoom] at hMoved
  obtain ⟨⟨pending, finished⟩, hFold, hAfter⟩ := moved_eq_ok_iff.mp hMoved.symm
  have hState : (⟨pending.map (·.shift (byteLength front)),
      finished.map (Expr.shift (byteLength front)) ++ []⟩ : Reading) = ⟨[], [node]⟩ := hAfter
  injection hState with hPending hFinished
  rw [List.append_nil] at hFinished
  obtain rfl := List.map_eq_nil_iff.mp hPending
  obtain ⟨own, rfl, hOwn⟩ := List.map_eq_singleton_iff.mp hFinished
  refine ⟨own, ?_, by rwa [hSpan]⟩
  rw [hSpan, slice_append, readProgram_eq_ok_iff_foldlM, hScan]
  exact ⟨rfl, hFold⟩

/-! ### Order -/

theorem Lexeme.byteLength_pos {kind : TokenKind} {text : List Char} (h : Lexeme kind text) :
    0 < byteLength text := by
  have hSome : text ≠ [] := by
    cases h with
    | word hSome _ => exact hSome
    | _ => simp
  obtain ⟨c, rest, rfl⟩ := List.exists_cons_of_ne_nil hSome
  have hPos : 0 < c.utf8Size := c.utf8Size_pos
  rw [byteLength_cons]
  omega

/-- A token stands in the text where its span says. -/
theorem Scans.token_at {start : Nat} {text : List Char} {scan : Scan} (h : Scans start text scan)
    {token : Token} (hToken : token ∈ scan.tokens) :
    ∃ front rest, text = front ++ (token.text ++ rest) ∧
      token.span = ⟨start + byteLength front, start + byteLength front + byteLength token.text⟩ := by
  induction h with
  | done => cases hToken
  | unclosed hOpen => cases hToken
  | @blank start c rest scan hBlank hRest ih =>
      obtain ⟨front, rest, rfl, hSpan⟩ := ih hToken
      refine ⟨c :: front, rest, rfl, ?_⟩
      rw [hSpan, byteLength_cons, Nat.add_assoc]
  | @token start kind lexeme rest scan hLexeme hEnds hRest ih =>
      rcases List.mem_cons.mp hToken with rfl | hLater
      · exact ⟨[], rest, rfl, rfl⟩
      · obtain ⟨front, rest, rfl, hSpan⟩ := ih hLater
        refine ⟨lexeme ++ front, rest, by rw [List.append_assoc], ?_⟩
        rw [hSpan, byteLength_append, Nat.add_assoc]

/-- Tokens stand one behind the other. -/
theorem Scans.ordered {start : Nat} {text : List Char} {scan : Scan} (h : Scans start text scan) :
    scan.tokens.Pairwise fun token token' => token.span.stop ≤ token'.span.start := by
  induction h with
  | done => exact List.Pairwise.nil
  | unclosed hOpen => exact List.Pairwise.nil
  | blank hBlank hRest ih => exact ih
  | @token start kind lexeme rest scan hLexeme hEnds hRest ih =>
      refine List.Pairwise.cons ?_ ih
      intro token hToken
      obtain ⟨front, -, -, hSpan⟩ := hRest.token_at hToken
      rw [hSpan]
      exact Nat.le_add_right _ _

/-- An expression starts where one of its tokens does and ends where one of them does. -/
theorem Derives.exists_ends {tokens : List Token} {exprs : List Expr} (h : Derives tokens exprs)
    {expr : Expr} (hExpr : expr ∈ exprs) :
    ∃ first ∈ tokens, ∃ last ∈ tokens, expr.span = ⟨first.span.start, last.span.stop⟩ := by
  induction h with
  | nil => cases hExpr
  | comment _ _ ih =>
      obtain ⟨first, hFirst, last, hLast, hSpan⟩ := ih hExpr
      exact ⟨first, List.mem_cons_of_mem _ hFirst, last, List.mem_cons_of_mem _ hLast, hSpan⟩
  | @atom token _ _ _ hAtom _ ih =>
      rcases List.mem_cons.mp hExpr with rfl | hRest
      · exact ⟨token, List.mem_cons_self, token, List.mem_cons_self, span_of_atom hAtom⟩
      · obtain ⟨first, hFirst, last, hLast, hSpan⟩ := ih hRest
        exact ⟨first, List.mem_cons_of_mem _ hFirst, last, List.mem_cons_of_mem _ hLast, hSpan⟩
  | @list opener closer _ _ _ _ _ _ _ _ _ ih =>
      rcases List.mem_cons.mp hExpr with rfl | hRest
      · exact ⟨opener, List.mem_cons_self, closer, by simp, rfl⟩
      · obtain ⟨first, hFirst, last, hLast, hSpan⟩ := ih hRest
        exact ⟨first, by simp [hFirst], last, by simp [hLast], hSpan⟩

/-- Expressions that stand one behind the other, without overlap, between two offsets. -/
structure InOrder (low high : Nat) (exprs : List Expr) : Prop where
  within : ∀ expr ∈ exprs, low ≤ expr.span.start ∧ expr.span.stop ≤ high
  ordered : exprs.Pairwise fun expr expr' => expr.span.stop ≤ expr'.span.start

theorem Derives.inOrder {tokens : List Token} {exprs : List Expr} (h : Derives tokens exprs)
    (hOrder : tokens.Pairwise fun token token' => token.span.stop ≤ token'.span.start)
    {low high : Nat}
    (hWithin : ∀ token ∈ tokens, low ≤ token.span.start ∧ token.span.stop ≤ high) :
    InOrder low high exprs := by
  constructor
  · intro expr hExpr
    obtain ⟨first, hFirst, last, hLast, hSpan⟩ := h.exists_ends hExpr
    rw [hSpan]
    exact ⟨(hWithin first hFirst).1, (hWithin last hLast).2⟩
  · clear hWithin
    induction h with
    | nil => exact List.Pairwise.nil
    | comment _ _ ih => exact ih hOrder.of_cons
    | @atom token tokens expr exprs hAtom hRest ih =>
        obtain ⟨hFirst, hOrder⟩ := List.pairwise_cons.mp hOrder
        refine List.Pairwise.cons ?_ (ih hOrder)
        intro later hLater
        obtain ⟨first, hMem, last, -, hSpan⟩ := hRest.exists_ends hLater
        rw [hSpan, span_of_atom hAtom]
        exact hFirst first hMem
    | @list opener closer inner tokens items exprs _ _ _ hRest _ ih =>
        obtain ⟨-, hBehind, -⟩ := List.pairwise_append.mp hOrder.of_cons
        obtain ⟨hFirst, hOrder⟩ := List.pairwise_cons.mp hBehind
        refine List.Pairwise.cons ?_ (ih hOrder)
        intro later hLater
        obtain ⟨first, hMem, last, -, hSpan⟩ := hRest.exists_ends hLater
        rw [hSpan]
        exact hFirst first hMem

theorem Lexeme.parenthesis {kind : TokenKind} {text : List Char} (h : Lexeme kind text) :
    (kind = .listOpen → text = ['(']) ∧ (kind = .listClose → text = [')']) := by
  cases h with
  | word _ _ => rcases wordKind_cases text with hWord | hWord <;> simp [hWord]
  | _ => simp

theorem Scans.slice_token {text : List Char} {scan : Scan} (h : Scans 0 text scan) {token : Token}
    (hToken : token ∈ scan.tokens) :
    slice text token.span = token.text ∧
      token.span.stop = token.span.start + byteLength token.text := by
  obtain ⟨front, rest, rfl, hSpan⟩ := h.token_at hToken
  rw [Nat.zero_add] at hSpan
  rw [hSpan]
  exact ⟨slice_append front token.text rest, rfl⟩

/-- A list starts and ends with a parenthesis, and its items are in order between the two. -/
theorem inOrder_of_list {text : List Char} {program : List Expr}
    (hRead : readProgram text = .ok program) {span : Span} {items : List Expr}
    (hNode : .list span items ∈ Expr.nodesAll program) :
    slice text ⟨span.start, span.start + 1⟩ = ['('] ∧
      slice text ⟨span.stop - 1, span.stop⟩ = [')'] ∧
      InOrder (span.start + 1) (span.stop - 1) items := by
  obtain ⟨tokens, hScans, hDerives, -⟩ := readProgram_eq_ok_iff.mp hRead
  obtain ⟨before, own, after, rfl, hSpells, -⟩ := hDerives.exists_spells hNode
  cases hSpells with
  | atom hAtom => cases Token.denotes_of_atom hAtom
  | @list opener closer inner _ hOpener hCloser hInner =>
      have hOpenMem : opener ∈ before ++ ((opener :: (inner ++ [closer])) ++ after) := by simp
      have hCloseMem : closer ∈ before ++ ((opener :: (inner ++ [closer])) ++ after) := by simp
      obtain ⟨hOpenSlice, hOpenStop⟩ := hScans.slice_token hOpenMem
      obtain ⟨hCloseSlice, hCloseStop⟩ := hScans.slice_token hCloseMem
      rw [(hScans.lexeme opener hOpenMem).parenthesis.1 hOpener] at hOpenSlice hOpenStop
      rw [(hScans.lexeme closer hCloseMem).parenthesis.2 hCloser] at hCloseSlice hCloseStop
      have hOpenSpan : opener.span = ⟨opener.span.start, opener.span.start + 1⟩ :=
        congrArg (Span.mk opener.span.start) hOpenStop
      have hCloseStart : closer.span.stop - 1 = closer.span.start := by
        rw [hCloseStop]
        rfl
      -- The tokens of the list are in order, and so are those between the parentheses.
      have hOrder := (List.pairwise_append.mp (List.pairwise_append.mp hScans.ordered).2.1).1
      obtain ⟨hBehind, hOrder⟩ := List.pairwise_cons.mp hOrder
      obtain ⟨hOrder, -, hBefore⟩ := List.pairwise_append.mp hOrder
      refine ⟨hOpenSpan ▸ hOpenSlice, ?_, hInner.inOrder hOrder ?_⟩
      · rw [hCloseStart]
        exact hCloseSlice
      · intro token hToken
        have hAfter := hBehind token (by simp [hToken])
        have hUpTo := hBefore token hToken closer (by simp)
        rw [hOpenStop] at hAfter
        exact ⟨hAfter, hCloseStart ▸ hUpTo⟩

/-- An offset between two characters, or at an end of the text. -/
def IsBoundary (text : List Char) (offset : Nat) : Prop :=
  ∃ front rest, text = front ++ rest ∧ byteLength front = offset

/-- Every span covers a part of the text, between characters. -/
theorem span_of_node {text : List Char} {program : List Expr}
    (hRead : readProgram text = .ok program) {node : Expr} (hNode : node ∈ Expr.nodesAll program) :
    node.span.start < node.span.stop ∧ node.span.stop ≤ byteLength text ∧
      IsBoundary text node.span.start ∧ IsBoundary text node.span.stop := by
  obtain ⟨tokens, hScans, hDerives, -⟩ := readProgram_eq_ok_iff.mp hRead
  obtain ⟨before, own, after, rfl, hSpells, -⟩ := hDerives.exists_spells hNode
  obtain ⟨front, middle, rest, rfl, hSpan, hMiddle⟩ := hSpells.cut hScans
  have hPos : 0 < byteLength middle := by
    obtain ⟨first, tail, -, -, rfl, -⟩ := hSpells.ends
    obtain ⟨front', rest', rfl, -⟩ := hMiddle.token_at List.mem_cons_self
    have hFirst := (hMiddle.lexeme first List.mem_cons_self).byteLength_pos
    simp only [byteLength_append]
    omega
  rw [hSpan]
  refine ⟨by simpa using hPos, by simp, ⟨front, middle ++ rest, rfl, rfl⟩, front ++ middle, rest, ?_⟩
  simp

/-- Spans are faithful. Every expression of a program, at any depth, covers a part of the text that
by itself reads as exactly this expression, moved to the front. The items of a list stand in order
between its parentheses, and the expressions of the program stand in order in the text. -/
theorem spans_faithful {source label : String} {program : List Expr}
    (hParse : parse source label = .ok program) :
    (∀ node ∈ Expr.nodesAll program,
      node.span.start < node.span.stop ∧ node.span.stop ≤ source.utf8ByteSize ∧
      IsBoundary source.toList node.span.start ∧ IsBoundary source.toList node.span.stop ∧
      ∃ own, own.shift node.span.start = node ∧ ∀ label',
        parse (String.ofList (slice source.toList node.span)) label' = .ok [own]) ∧
    (∀ span items, .list span items ∈ Expr.nodesAll program →
      slice source.toList ⟨span.start, span.start + 1⟩ = ['('] ∧
      slice source.toList ⟨span.stop - 1, span.stop⟩ = [')'] ∧
      InOrder (span.start + 1) (span.stop - 1) items) ∧
    InOrder 0 source.utf8ByteSize program := by
  have hRead := parse_eq_ok_iff.mp hParse
  rw [← byteLength_toList]
  refine ⟨?_, fun span items => inOrder_of_list hRead, ?_⟩
  · intro node hNode
    obtain ⟨hSome, hWithin, hStart, hStop⟩ := span_of_node hRead hNode
    obtain ⟨own, hOwn, hMoved⟩ := readProgram_slice hRead hNode
    refine ⟨hSome, hWithin, hStart, hStop, own, hMoved, fun label' => parse_eq_ok_iff.mpr ?_⟩
    rwa [String.toList_ofList]
  · obtain ⟨tokens, hScans, hDerives, -⟩ := readProgram_eq_ok_iff.mp hRead
    refine hDerives.inOrder hScans.ordered fun token hToken => ⟨Nat.zero_le _, ?_⟩
    obtain ⟨front, rest, hText, hSpan⟩ := hScans.token_at hToken
    rw [hSpan, hText]
    simp

theorem spans_faithful_wide :
    parse "(é \"ü\") x" "t" = .ok [.list ⟨0, 9⟩ [.symbol ⟨1, 3⟩ "é", .string ⟨4, 8⟩ "ü"],
        .symbol ⟨10, 11⟩ "x"] ∧
      (∃ own, own.shift 4 = .string ⟨4, 8⟩ "ü" ∧ ∀ label,
        parse (String.ofList (slice "(é \"ü\") x".toList ⟨4, 8⟩)) label = .ok [own]) ∧
      InOrder 1 8 [.symbol ⟨1, 3⟩ "é", .string ⟨4, 8⟩ "ü"] := by
  have hParse : parse "(é \"ü\") x" "t" = .ok [.list ⟨0, 9⟩
      [.symbol ⟨1, 3⟩ "é", .string ⟨4, 8⟩ "ü"], .symbol ⟨10, 11⟩ "x"] := by
    cbv
  obtain ⟨hNodes, hLists, -⟩ := spans_faithful hParse
  refine ⟨hParse, (hNodes (.string ⟨4, 8⟩ "ü") ?_).2.2.2.2, (hLists ⟨0, 9⟩ _ ?_).2.2⟩
  · simp [Expr.nodesAll, Expr.nodes]
  · simp [Expr.nodesAll, Expr.nodes]

end MessageLisp.Source
