import Mathlib
import MessageLisp.Proofs.Semantics.Simulation

/-! Keyword messages. The parts of such a message are keywords and arguments in turn, and the keywords
together make up the selector. A selector alone does not say where its keywords end, since a keyword
can have colons inside. It does for every message that carries as many arguments as its selector asks
for: all keywords of such a message end at their first colon. -/
namespace MessageLisp

open Source (Expr)

/-! ### Colons -/

/-- The number of colons in a name. -/
def colons (name : String) : Nat :=
  name.toList.count ':'

theorem exists_of_isKeyword {name : String} (h : Source.isKeyword name = true) :
    ∃ body, body ≠ [] ∧ name.toList = body ++ [':'] := by
  rw [Source.isKeyword] at h
  split at h
  · rename_i last rest hReverse
    refine ⟨(last :: rest).reverse, by simp, ?_⟩
    rw [← List.reverse_reverse name.toList, hReverse, List.reverse_cons]
  · cases h

theorem one_le_colons {name : String} (h : Source.isKeyword name = true) : 1 ≤ colons name := by
  obtain ⟨body, -, hName⟩ := exists_of_isKeyword h
  simp [colons, hName]

theorem colons_join (names : List String) : colons (String.join names) = (names.map colons).sum := by
  rw [colons, String.toList_join, List.count_flatMap]
  rfl

/-- Numbers of at least one sum up to how many they are only if all of them are one. -/
theorem sum_eq_length_iff {numbers : List Nat} (hPositive : ∀ n ∈ numbers, 1 ≤ n) :
    numbers.sum = numbers.length ↔ ∀ n ∈ numbers, n = 1 := by
  induction numbers with
  | nil => simp
  | cons n rest ih =>
      obtain ⟨hFirst, hRest⟩ := List.forall_mem_cons.mp hPositive
      have hAtLeast : rest.length ≤ rest.sum := List.length_le_sum_of_one_le rest hRest
      rw [List.sum_cons, List.length_cons, List.forall_mem_cons, ← ih hRest]
      omega

/-- A selector made of keywords asks for one argument for each colon. That is one for each keyword only
if each has a single colon. -/
theorem selectorArity_join_eq_iff {keywords : List String} (hSome : keywords ≠ [])
    (hKeywords : ∀ keyword ∈ keywords, Source.isKeyword keyword = true) :
    selectorArity (String.join keywords) = keywords.length ↔
      ∀ keyword ∈ keywords, colons keyword = 1 := by
  have hEach : ∀ n ∈ keywords.map colons, 1 ≤ n := by
    simpa using fun keyword hMem => one_le_colons (hKeywords keyword hMem)
  have hCount : (String.join keywords).toList.count ':' = (keywords.map colons).sum :=
    colons_join keywords
  have hPositive : 0 < (keywords.map colons).sum := by
    have hAtLeast := List.length_le_sum_of_one_le _ hEach
    have hLength := List.length_pos_of_ne_nil hSome
    rw [List.length_map] at hAtLeast
    omega
  have hArity : selectorArity (String.join keywords) = (keywords.map colons).sum := by
    simp only [selectorArity, hCount, if_pos hPositive]
  rw [hArity, ← List.length_map (f := colons), sum_eq_length_iff hEach, List.forall_mem_map]

/-- What comes before the first colon and what comes after it. -/
theorem eq_of_append_colon {body body' rest rest' : List Char} (h : ':' ∉ body) (h' : ':' ∉ body')
    (hSame : body ++ ':' :: rest = body' ++ ':' :: rest') : body = body' ∧ rest = rest' := by
  induction body generalizing body' with
  | nil =>
      cases body' with
      | nil => exact ⟨rfl, (List.cons.inj hSame).2⟩
      | cons c body' => exact absurd (List.cons.inj hSame).1 (List.ne_of_not_mem_cons h')
  | cons c body ih =>
      cases body' with
      | nil => exact absurd (List.cons.inj hSame).1.symm (List.ne_of_not_mem_cons h)
      | cons c' body' =>
          obtain ⟨hFirst, hOthers⟩ := List.cons.inj hSame
          obtain ⟨hBody, hRest⟩ :=
            ih (List.not_mem_of_not_mem_cons h) (List.not_mem_of_not_mem_cons h') hOthers
          exact ⟨by rw [hFirst, hBody], hRest⟩

/-- A keyword with a single colon has it at its end. -/
theorem exists_of_colons_eq_one {name : String} (h : Source.isKeyword name = true)
    (hColons : colons name = 1) : ∃ body, name.toList = body ++ [':'] ∧ ':' ∉ body := by
  obtain ⟨body, -, hName⟩ := exists_of_isKeyword h
  refine ⟨body, hName, List.count_eq_zero.mp ?_⟩
  rw [colons, hName, List.count_append, List.count_singleton_self] at hColons
  omega

/-- A keyword leaves no selector empty. -/
theorem join_ne_empty {keyword : String} (h : Source.isKeyword keyword = true) (rest : List String) :
    String.join (keyword :: rest) ≠ "" := by
  intro hEmpty
  have hFirst := one_le_colons h
  have hSum := colons_join (keyword :: rest)
  rw [hEmpty, List.map_cons, List.sum_cons] at hSum
  have hNone : colons "" = 0 := rfl
  omega

/-- Keywords of one colon each can be told apart when they are written one after the other. -/
theorem eq_of_join_eq {keywords keywords' : List String}
    (h : ∀ keyword ∈ keywords, Source.isKeyword keyword = true ∧ colons keyword = 1)
    (h' : ∀ keyword ∈ keywords', Source.isKeyword keyword = true ∧ colons keyword = 1)
    (hSame : String.join keywords = String.join keywords') : keywords = keywords' := by
  induction keywords generalizing keywords' with
  | nil =>
      cases keywords' with
      | nil => rfl
      | cons keyword' rest' =>
          exact absurd hSame.symm (join_ne_empty (h' keyword' List.mem_cons_self).1 rest')
  | cons keyword rest ih =>
      obtain ⟨⟨hKeyword, hColons⟩, hRest⟩ := List.forall_mem_cons.mp h
      cases keywords' with
      | nil => exact absurd hSame (join_ne_empty hKeyword rest)
      | cons keyword' rest' =>
          obtain ⟨⟨hKeyword', hColons'⟩, hRest'⟩ := List.forall_mem_cons.mp h'
          obtain ⟨body, hName, hBody⟩ := exists_of_colons_eq_one hKeyword hColons
          obtain ⟨body', hName', hBody'⟩ := exists_of_colons_eq_one hKeyword' hColons'
          have hTexts := congrArg String.toList hSame
          simp only [String.join_cons, String.toList_append, hName, hName', List.append_assoc,
            List.singleton_append] at hTexts
          obtain ⟨hFirst, hOthers⟩ := eq_of_append_colon hBody hBody' hTexts
          have hHead : keyword = keyword' := String.ext (by rw [hName, hName', hFirst])
          rw [hHead, ih hRest hRest' (String.ext hOthers)]

/-! ### Decoding -/

/-- The parts are keywords and arguments in turn. -/
inductive Alternate : (parts : List Expr) → (keywords : List String) → (arguments : List Expr) → Prop where
  | nil : Alternate [] [] []
  | cons {parts arguments : List Expr} {keywords : List String} {keyword : String}
      (span : Source.Span) (hKeyword : Source.isKeyword keyword = true) (argument : Expr)
      (hRest : Alternate parts keywords arguments) :
      Alternate (.symbol span keyword :: argument :: parts) (keyword :: keywords)
        (argument :: arguments)

namespace Alternate

variable {parts arguments : List Expr} {keywords : List String}

theorem isKeyword (h : Alternate parts keywords arguments) :
    ∀ keyword ∈ keywords, Source.isKeyword keyword = true := by
  induction h with
  | nil => exact fun _ hMem => absurd hMem List.not_mem_nil
  | cons _ hKeyword _ _ ih => exact List.forall_mem_cons.mpr ⟨hKeyword, ih⟩

theorem length_eq (h : Alternate parts keywords arguments) : keywords.length = arguments.length := by
  induction h with
  | nil => rfl
  | cons _ _ _ _ ih => rw [List.length_cons, List.length_cons, ih]

theorem selectorArity_eq_iff (h : Alternate parts keywords arguments)
    (hForm : parts.head?.any Expr.isKeyword = true) :
    selectorArity (String.join keywords) = keywords.length ↔
      ∀ keyword ∈ keywords, colons keyword = 1 := by
  have hSome : keywords ≠ [] := by
    rintro rfl
    cases h
    cases hForm
  exact selectorArity_join_eq_iff hSome h.isKeyword

end Alternate

namespace Eval

variable {α : Type} {session later : Session}

theorem runIn_misspelled_ne (receiver : Value) (parts : List Expr) (a : α) :
    (misspelled receiver parts).runIn session ≠ (.ok a, later) :=
  nofun

theorem length_of_runIn_mapM {β : Type} {f : α → Eval β} {items : List α} {results : List β}
    (h : (items.mapM f).runIn session = (.ok results, later)) : results.length = items.length := by
  induction items generalizing session results with
  | nil =>
      cases h
      rfl
  | cons item items ih =>
      rw [List.mapM_cons] at h
      obtain ⟨b, middle, -, hOthers⟩ := exists_of_runIn_bind h
      obtain ⟨rest, last, hRest, hResults⟩ := exists_of_runIn_bind hOthers
      cases hResults
      rw [List.length_cons, List.length_cons, ih hRest]

end Eval

namespace Evaluator

open Eval

variable {ev : Evaluator} {receiver : Value} {scope : ScopeId}

/-- Keywords and arguments are read to the end, or not at all. -/
theorem alternate_of_decodeKeywords {whole parts : List Expr} {session later : Session}
    {message : Message}
    (h : (ev.decodeKeywords receiver whole scope parts).runIn session = (.ok message, later)) :
    ∃ keywords arguments, Alternate parts keywords arguments ∧
      message.selector = String.join keywords ∧
      (arguments.mapM fun argument => ev.evaluate argument scope).runIn session =
        (.ok message.arguments, later) := by
  match parts with
  | [] =>
      rw [decodeKeywords] at h
      cases h
      exact ⟨[], [], .nil, rfl, rfl⟩
  | [_] =>
      rw [decodeKeywords] at h
      exact absurd h (runIn_misspelled_ne receiver whole message)
  | keyword :: argument :: rest =>
      rw [decodeKeywords] at h
      split at h
      · rename_i name hSymbol
        split at h
        · rename_i hKeyword
          obtain ⟨value, middle, hValue, hOthers⟩ := exists_of_runIn_bind h
          obtain ⟨inner, last, hInner, hMessage⟩ := exists_of_runIn_bind hOthers
          cases hMessage
          obtain ⟨keywords, arguments, hAlternate, hSelector, hArguments⟩ :=
            alternate_of_decodeKeywords hInner
          obtain ⟨span, rfl⟩ : ∃ span, keyword = .symbol span name := by
            cases keyword <;> cases hSymbol
            exact ⟨_, rfl⟩
          refine ⟨name :: keywords, argument :: arguments, .cons span hKeyword argument hAlternate, ?_, ?_⟩
          · rw [String.join_cons, hSelector]
          · rw [List.mapM_cons, runIn_bind_ok hValue, runIn_bind_ok hArguments]
            rfl
        · exact absurd h (runIn_misspelled_ne receiver whole message)
      · exact absurd h (runIn_misspelled_ne receiver whole message)

/-- A message that starts with a keyword is read as keywords and arguments. -/
theorem decodeMessage_keywords {parts : List Expr} (hForm : parts.head?.any Expr.isKeyword = true)
    {session later : Session} {message : Message}
    (h : (ev.decodeMessage receiver parts scope).runIn session = (.ok message, later)) :
    (ev.decodeKeywords receiver parts scope parts).runIn session = (.ok message, later) := by
  match parts with
  | [] => cases hForm
  | [selector] =>
      have hKeyword : selector.isKeyword = true := hForm
      rw [decodeMessage, if_pos hKeyword] at h
      exact absurd h (runIn_misspelled_ne receiver _ message)
  | [selector, argument] =>
      have hKeyword : selector.isKeyword = true := hForm
      rwa [decodeMessage, if_pos hKeyword] at h
  | first :: second :: third :: rest =>
      rw [decodeMessage] at h
      · split at h
        · exact h
        · exact absurd h (runIn_misspelled_ne receiver _ message)
      all_goals simp

theorem alternate_of_decodeMessage {parts : List Expr} (hForm : parts.head?.any Expr.isKeyword = true)
    {session later : Session} {message : Message}
    (h : (ev.decodeMessage receiver parts scope).runIn session = (.ok message, later)) :
    ∃ keywords arguments, Alternate parts keywords arguments ∧
      message.selector = String.join keywords ∧
      message.arguments.length = keywords.length ∧
      (arguments.mapM fun argument => ev.evaluate argument scope).runIn session =
        (.ok message.arguments, later) := by
  obtain ⟨keywords, arguments, hAlternate, hSelector, hArguments⟩ :=
    alternate_of_decodeKeywords (decodeMessage_keywords hForm h)
  refine ⟨keywords, arguments, hAlternate, hSelector, ?_, hArguments⟩
  rw [length_of_runIn_mapM hArguments, hAlternate.length_eq]

/-- A receiver that has a method for a message runs it, if the message carries as many arguments as
its selector asks for. -/
theorem runIn_send_found {session : Session} {message : Message} {start? : Option ClassId}
    {method : Method}
    (h : session.hierarchy.resolve? (start?.getD (session.classOf receiver)) message.selector =
      some method) :
    (ev.send receiver message start?).runIn session =
      if selectorArity message.selector = message.arguments.length then
        (ev.runMethod method receiver message.arguments).runIn session
      else
        (.error (.error (.arityMismatch message.selector (selectorArity message.selector)
          message.arguments.length)), session) := by
  rw [send, runIn_get_bind, h]
  by_cases hArity : selectorArity message.selector = message.arguments.length
  · simp only [hArity, ne_eq, not_true_eq_false, if_false, if_true]
  · simp only [if_neg hArity, ne_eq, Ne.symm hArity, not_false_eq_true, if_true]
    rfl

end Evaluator

/-- A keyword message is read in one way. If it starts with a keyword and can be decoded at all, its
parts are keywords and arguments in turn from the first to the last; the keywords one after the other
are its selector, and it carries the values of the arguments, as many as there are keywords. That is as
many as the selector asks for, and a receiver that has a method for it runs the method, only if each
keyword has a single colon. Another message with the same selector that carries as many arguments as
asked for has the same keywords. -/
theorem keyword_message_read_one_way {ev : Evaluator} {receiver : Value} {parts : List Expr}
    {scope : ScopeId} {session later : Session} {message : Message}
    (hForm : parts.head?.any Expr.isKeyword = true)
    (hDecode : (ev.decodeMessage receiver parts scope).runIn session = (.ok message, later)) :
    ∃ keywords arguments, Alternate parts keywords arguments ∧
      message.selector = String.join keywords ∧
      message.arguments.length = keywords.length ∧
      (arguments.mapM fun argument => ev.evaluate argument scope).runIn session =
        (.ok message.arguments, later) ∧
      (selectorArity message.selector = message.arguments.length ↔
        ∀ keyword ∈ keywords, colons keyword = 1) ∧
      (∀ start? method,
        later.hierarchy.resolve? (start?.getD (later.classOf receiver)) message.selector =
            some method →
          (ev.send receiver message start?).runIn later =
            if selectorArity message.selector = message.arguments.length then
              (ev.runMethod method receiver message.arguments).runIn later
            else
              (.error (.error (.arityMismatch message.selector (selectorArity message.selector)
                message.arguments.length)), later)) ∧
      ∀ (ev' : Evaluator) (receiver' : Value) (parts' : List Expr) (scope' : ScopeId)
        (session' later' : Session) (message' : Message),
        parts'.head?.any Expr.isKeyword = true →
        (ev'.decodeMessage receiver' parts' scope').runIn session' = (.ok message', later') →
        message'.selector = message.selector →
        selectorArity message.selector = message.arguments.length →
        selectorArity message'.selector = message'.arguments.length →
          message'.arguments.length = message.arguments.length ∧
          ∃ arguments', Alternate parts' keywords arguments' := by
  obtain ⟨keywords, arguments, hAlternate, hSelector, hLength, hArguments⟩ :=
    Evaluator.alternate_of_decodeMessage hForm hDecode
  have hArity : selectorArity message.selector = message.arguments.length ↔
      ∀ keyword ∈ keywords, colons keyword = 1 := by
    rw [hSelector, hLength]
    exact hAlternate.selectorArity_eq_iff hForm
  refine ⟨keywords, arguments, hAlternate, hSelector, hLength, hArguments, hArity,
    fun start? method => Evaluator.runIn_send_found, ?_⟩
  intro ev' receiver' parts' scope' session' later' message' hForm' hDecode' hSame hPass hPass'
  obtain ⟨keywords', arguments', hAlternate', hSelector', hLength', -⟩ :=
    Evaluator.alternate_of_decodeMessage hForm' hDecode'
  rw [hSelector', hLength', hAlternate'.selectorArity_eq_iff hForm'] at hPass'
  have hKeywords : keywords' = keywords := by
    apply eq_of_join_eq
    · exact fun keyword hMem => ⟨hAlternate'.isKeyword keyword hMem, hPass' keyword hMem⟩
    · exact fun keyword hMem => ⟨hAlternate.isKeyword keyword hMem, hArity.mp hPass keyword hMem⟩
    · rw [← hSelector', hSame, hSelector]
  rw [hLength', hLength, ← hKeywords]
  exact ⟨rfl, arguments', hAlternate'⟩

/-- Two keywords with an argument each. -/
def twoKeywords : List Expr :=
  [.symbol ⟨0, 3⟩ "at:", .int ⟨4, 5⟩ 0, .symbol ⟨6, 10⟩ "put:", .int ⟨11, 12⟩ 1]

/-- One keyword with two colons. -/
def oneKeyword : List Expr :=
  [.symbol ⟨0, 7⟩ "at:put:", .int ⟨8, 9⟩ 0]

/-- Both messages have the same selector. The first one carries the two arguments that it asks for, the
second one does not. -/
theorem keyword_message_read_one_way_put :
    (∃ keywords arguments, Alternate twoKeywords keywords arguments ∧
        "at:put:" = String.join keywords ∧ ∀ keyword ∈ keywords, colons keyword = 1) ∧
      ∃ keywords arguments, Alternate oneKeyword keywords arguments ∧
        "at:put:" = String.join keywords ∧ ¬∀ keyword ∈ keywords, colons keyword = 1 := by
  have hTwo : ((Evaluator.ofFuel 1).decodeMessage .null twoKeywords Environment.root).runIn
      (Session.new 8) = (.ok ⟨"at:put:", [.int 0, .int 1]⟩, Session.new 8) := rfl
  have hOne : ((Evaluator.ofFuel 1).decodeMessage .null oneKeyword Environment.root).runIn
      (Session.new 8) = (.ok ⟨"at:put:", [.int 0]⟩, Session.new 8) := rfl
  obtain ⟨keywords, arguments, hAlternate, hSelector, -, -, hArity, -⟩ :=
    keyword_message_read_one_way (by decide) hTwo
  obtain ⟨keywords', arguments', hAlternate', hSelector', -, -, hArity', -⟩ :=
    keyword_message_read_one_way (by decide) hOne
  exact ⟨⟨keywords, arguments, hAlternate, hSelector, hArity.mp (by decide)⟩,
    keywords', arguments', hAlternate', hSelector', fun hColons =>
      absurd (hArity'.mpr hColons) (by decide)⟩

end MessageLisp
