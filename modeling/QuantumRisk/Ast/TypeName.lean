import QuantumRisk.Json.Display

/-!
# Types as text

A type is a record whose `type` field says how it is built: a plain name, a mapping of two types, an
array of a type with an optional length, or a function type. Its text is the one that programmers
write.
-/

namespace QuantumRisk.Ast

/-- A field's value is smaller than the record. -/
theorem sizeOf_lookup_lt {key : String} {members : List (String × Json)} {v : Json}
    (h : Json.lookup key members = some v) : sizeOf v < sizeOf members := by
  induction members with
  | nil => simp [Json.lookup] at h
  | cons m rest ih =>
    obtain ⟨k, w⟩ := m
    by_cases hk : k = key
    · simp [Json.lookup, hk] at h
      subst h
      simp
      omega
    · have : Json.lookup key rest = some v := by simpa [Json.lookup, hk] using h
      have := ih this
      simp
      omega

/-- A member, or the empty text. -/
def memberOrEmpty (key : String) (members : List (String × Json)) : Json :=
  (Json.lookup key members).getD (.str "")

/-- The text of an array's length: a number, else a name; nothing for an open array. -/
def lengthText : Option Json → String
  | none => ""
  | some (.obj members) =>
    let number := (Json.lookup "number" members).getD .null
    let name := (Json.lookup "name" members).getD .null
    (number.orElse (name.orElse (.str ""))).display
  | some v => (v.orElse (.str "")).display

/-- The text of a type. Plain names are given back as they are, whatever their kind. -/
def typeText : Json → Json
  | .obj members =>
    match Json.lookup "type" members with
    | some (.str "ElementaryTypeName") => memberOrEmpty "name" members
    | some (.str "UserDefinedTypeName") =>
      (memberOrEmpty "namePath" members).orElse (memberOrEmpty "name" members)
    | some (.str "Mapping") =>
      let key := match _h : Json.lookup "keyType" members with
        | some v => typeText v
        | none => .str ""
      let value := match _h : Json.lookup "valueType" members with
        | some v => typeText v
        | none => .str ""
      .str ("mapping(" ++ key.display ++ " => " ++ value.display ++ ")")
    | some (.str "ArrayTypeName") =>
      let base := match _h : Json.lookup "baseTypeName" members with
        | some v => typeText v
        | none => .str ""
      .str (base.display ++ "[" ++ lengthText (Json.lookup "length" members) ++ "]")
    | some (.str "FunctionTypeName") => .str "function(...)"
    | _ => .str (memberOrEmpty "name" members).display
  | v => if v.isSome then .str v.display else .str ""
termination_by t => sizeOf t
decreasing_by
  all_goals
    have := sizeOf_lookup_lt _h
    simp
    omega

end QuantumRisk.Ast
