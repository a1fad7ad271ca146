import QuantumRisk.Grammar.Parser

/-!
# The words of Solidity

A word is either spelled out (`contract`, `+=`) or belongs to a class (`Identifier`). The order of
the list is the order of kinds: it decides between two classes that match the same text, and it is
the order in which messages list what they expect.
-/

namespace QuantumRisk.Solidity

open QuantumRisk.Grammar

/-- A word of the language, or a class of words. -/
inductive Terminal where
  | spelled (text : String)
  | named (name : String)
  deriving DecidableEq, Inhabited

/-- All terminals in the order of their kinds, starting with kind `1`. -/
def terminals : List Terminal :=
  (["pragma", ";", "||", "^", "~", ">=", ">", "<", "<=", "=", "as", "import", "*", "from", "\x7b",
    ",", "\x7d", "abstract", "contract", "interface", "library", "is", "(", ")", "error", "using",
    "for", "struct", "modifier", "function", "returns", "event", "enum", "[", "]", "address", ".",
    "mapping", "=>", "memory", "storage", "calldata", "if", "else", "try", "catch", "while",
    "unchecked", "assembly", "do", "return", "throw", "emit", "revert", "var", "bool", "string",
    "byte", "++", "--", "new", ":", "+", "-", "after", "delete", "!", "**", "/", "%", "<<", ">>",
    "&", "|", "==", "!=", "&&", "?", "|=", "^=", "&=", "<<=", ">>=", "+=", "-=", "*=", "/=", "%=",
    "let", ":=", "=:", "switch", "case", "default", "->", "callback", "override"].map
      Terminal.spelled)
  ++ (["Int", "Uint", "Byte", "Fixed", "Ufixed", "BooleanLiteral", "DecimalNumber", "HexNumber",
    "NumberUnit", "HexLiteralFragment", "ReservedKeyword"].map Terminal.named)
  ++ (["anonymous", "break", "constant", "immutable", "continue", "leave", "external", "indexed",
    "internal", "payable", "private", "public", "virtual", "pure", "type", "view", "constructor",
    "fallback", "receive"].map Terminal.spelled)
  ++ (["Identifier", "StringLiteralFragment", "VersionLiteral"].map Terminal.named)

/-- The kind of a terminal. -/
def Terminal.kind (t : Terminal) : Kind := terminals.idxOf t + 1

/-- The kind of a spelled word. -/
def word (text : String) : Kind := (Terminal.spelled text).kind

/-- The kind of a class of words. -/
def classOf (name : String) : Kind := (Terminal.named name).kind

namespace Terminal

/-- How messages show a terminal. -/
def display : Terminal → String
  | .spelled text => "'" ++ text ++ "'"
  | .named name => name

end Terminal

/-- How Solidity words are written in messages. A made-up word shows its spelling; classes that come
before the last spelled word have none. -/
def vocabulary : Vocabulary :=
  let late := ["Identifier", "StringLiteralFragment", "VersionLiteral"]
  let madeUp := fun
    | Terminal.spelled text => "<missing '" ++ text ++ "'>"
    | Terminal.named name =>
      if late.contains name then "<missing " ++ name ++ ">" else "<missing <INVALID>>"
  { names := ("<EOF>" :: terminals.map Terminal.display).toArray
    madeUp := ("<missing EOF>" :: terminals.map madeUp).toArray }

end QuantumRisk.Solidity
