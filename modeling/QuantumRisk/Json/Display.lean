import QuantumRisk.Json.Basic
import QuantumRisk.Number.Shortest
import QuantumRisk.Text.Quoted

/-!
# Values inside messages

Messages show values in a notation of their own: `None`, `True`, texts in quotes, lists and records
with a blank behind each comma. A text that is a message by itself is shown without quotes.
-/

namespace QuantumRisk.Json

mutual

/-- A value inside a message. -/
def literal : Json → String
  | .null => "None"
  | .bool b => if b then "True" else "False"
  | .int n => toString n
  | .float x => x.text
  | .str s => Text.quoted s
  | .arr items => "[" ++ literalItems items ++ "]"
  | .obj members => "\x7b" ++ literalMembers members ++ "\x7d"

def literalItems : List Json → String
  | [] => ""
  | [v] => literal v
  | v :: vs => literal v ++ ", " ++ literalItems vs

def literalMembers : List (String × Json) → String
  | [] => ""
  | [(k, v)] => Text.quoted k ++ ": " ++ literal v
  | (k, v) :: ms => Text.quoted k ++ ": " ++ literal v ++ ", " ++ literalMembers ms

end

/-- A value as a message by itself: a text stays as it is. -/
def display : Json → String
  | .str s => s
  | v => literal v

/-- Is this something, as opposed to nothing: neither null, false, zero, nor empty? -/
def isSome : Json → Bool
  | .null => false
  | .bool b => b
  | .int n => n != 0
  | .float x => !x.isZero
  | .str s => s != ""
  | .arr items => !items.isEmpty
  | .obj members => !members.isEmpty

/-- The value, or another one in place of nothing. -/
def orElse (v other : Json) : Json := if v.isSome then v else other

/-- The name of the kind of a value, for messages about values of the wrong kind. -/
def kindName : Json → String
  | .null => "NoneType"
  | .bool _ => "bool"
  | .int _ => "int"
  | .float _ => "float"
  | .str _ => "str"
  | .arr _ => "list"
  | .obj _ => "dict"

end QuantumRisk.Json
