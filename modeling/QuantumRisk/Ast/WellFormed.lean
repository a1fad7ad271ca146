import QuantumRisk.Ast.Graph

/-!
# Well-formed records

The fields of a record may hold anything. In the records that are made from source code, types and
names are texts, and places have numbers for lines and columns. Such a record can be read without a
fault, whatever the records are that it refers to.
-/

namespace QuantumRisk.Ast

namespace Datum

def isText : Datum → Bool
  | .str _ => true
  | _ => false

/-- Is this a text, or nothing? -/
def isTextOrNull : Datum → Bool
  | .null => true
  | d => d.isText

def isRecordOrNull : Datum → Bool
  | .null => true
  | .record _ => true
  | _ => false

def isNumber : Datum → Bool
  | .int _ => true
  | _ => false

@[simp] theorem isText_str (s : String) : (str s).isText := rfl
@[simp] theorem isTextOrNull_null : null.isTextOrNull := rfl
@[simp] theorem isTextOrNull_str (s : String) : (str s).isTextOrNull := rfl
@[simp] theorem isRecordOrNull_null : null.isRecordOrNull := rfl
@[simp] theorem isRecordOrNull_record (id : Nat) : (record id).isRecordOrNull := rfl
@[simp] theorem isNumber_int (n : Int) : (int n).isNumber := rfl

end Datum

namespace Fields

structure WellFormed (fs : Fields) : Prop where
  type : (get fs "type").isTextOrNull
  /-- A declared name may be missing. -/
  declared : get fs "type" = .str "VariableDeclaration" ∨ get fs "type" = .str "Parameter"
    ∨ get fs "type" = .str "EventParameter" → (get fs "name").isTextOrNull
  identifier : get fs "type" = .str "Identifier" → (get fs "name").isText
  elementary : get fs "type" = .str "ElementaryTypeName" → (get fs "name").isText
  userDefined : get fs "type" = .str "UserDefinedTypeName" →
    (get fs "namePath").isText ∧ get? fs "name" = none
  /-- A place begins at a record. -/
  start : (get fs "start").isRecordOrNull
  /-- A line comes with a column. -/
  line : get fs "line" = .null ∨ (get fs "line").isNumber ∧ (get fs "column").isNumber

theorem wellFormed_nil : WellFormed [] := by
  constructor <;> simp [get, get?]

theorem WellFormed.userDefinedTypeName {d : Datum} (h : d.isText) :
    WellFormed [("type", .str "UserDefinedTypeName"), ("namePath", d)] := by
  constructor <;> simp [get, get?, h]

end Fields

end QuantumRisk.Ast
