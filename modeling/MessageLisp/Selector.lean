import MessageLisp.Text.Alphanumeric

/-! Selectors: the names of messages. The form of a selector fixes how many arguments the message
carries. -/
namespace MessageLisp

/-- An operator: the first character is neither a letter, a digit nor an underscore. -/
def isBinarySelector (selector : String) : Bool :=
  match selector.toList with
  | first :: _ => !Text.isAlphanumeric first && first != '_'
  | [] => false

/-- One argument for each colon. Without colons an operator takes one and everything else none. -/
def selectorArity (selector : String) : Nat :=
  let keywords := selector.toList.count ':'
  if 0 < keywords then keywords
  else if isBinarySelector selector then 1
  else 0

end MessageLisp
