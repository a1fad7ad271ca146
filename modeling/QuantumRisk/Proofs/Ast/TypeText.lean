import QuantumRisk.Ast.Fault
import QuantumRisk.Ast.TypeName

/-!
# What the text of a type depends on

The text of a type is made from some members of a record, looked up by their names, so the order of
members does not matter, unless the text shows a record or a list as a whole. `Spelled` says that it
does not. `Alike` relates values that differ in the order of members and items only, as far as a
reader of members can tell.
-/

namespace QuantumRisk

namespace Json

/-! ## Values in another order -/

/-- Neither a list nor a record. -/
def isPlain : Json → Bool
  | .arr _ => false
  | .obj _ => false
  | _ => true

/-- Two values that agree but for the order of members and items. -/
inductive Alike : Json → Json → Prop
  | refl (v : Json) : Alike v v
  | arr {items items' : List Json} (h : items.isEmpty = items'.isEmpty) :
      Alike (.arr items) (.arr items')
  | obj {members members' : List (String × Json)}
      (hkeys : ∀ key, (lookup key members').isSome = (lookup key members).isSome)
      (hvalues : ∀ key v v',
        lookup key members = some v → lookup key members' = some v' → Alike v v') :
      Alike (.obj members) (.obj members')

variable {v v' w w' : Json} {members members' : List (String × Json)} {key : String}

theorem Alike.eq_of_plain (h : Alike v v') (hv : v.isPlain = true) : v' = v := by
  cases h with
  | refl => rfl
  | arr => cases hv
  | obj => cases hv

theorem Alike.symm (h : Alike v v') : Alike v' v := by
  induction h with
  | refl v => exact .refl v
  | arr h => exact .arr h.symm
  | obj hkeys _ ih =>
    exact .obj (fun key ↦ (hkeys key).symm) fun key v v' hv hv' ↦ ih key v' v hv' hv

theorem forall_lookup_isSome_eq_false_iff :
    (∀ key, (lookup key members).isSome = false) ↔ members = [] := by
  constructor
  · intro h
    cases members with
    | nil => rfl
    | cons m rest => simpa [lookup] using h m.1
  · rintro rfl key
    rfl

theorem Alike.isSome (h : Alike v v') : v'.isSome = v.isSome := by
  cases h with
  | refl => rfl
  | arr h => simp only [Json.isSome, h]
  | @obj members members' hkeys hvalues =>
    have hempty : members' = [] ↔ members = [] := by
      simp only [← forall_lookup_isSome_eq_false_iff, hkeys]
    rw [Json.isSome, Json.isSome, Bool.eq_iff_iff]
    simp [hempty]

theorem Alike.orElse (h : Alike v v') (hw : Alike w w') : Alike (v.orElse w) (v'.orElse w') := by
  rw [Json.orElse, Json.orElse, h.isSome]
  split
  · exact h
  · exact hw

theorem Alike.toInteger {n : Int} (h : Alike v v') (hn : v.toInteger = .ok n) :
    v'.toInteger = .ok n := by
  cases h with
  | refl => exact hn
  | arr => cases hn
  | obj => cases hn

theorem Alike.exists_obj (h : Alike (.obj members) v') : ∃ members', v' = .obj members' := by
  cases h with
  | refl => exact ⟨members, rfl⟩
  | obj => exact ⟨_, rfl⟩

/-- What a member is in the other record. -/
theorem Alike.lookup (h : Alike (.obj members) (.obj members')) {v : Json}
    (hv : Json.lookup key members = some v) :
    ∃ v', Json.lookup key members' = some v' ∧ Alike v v' := by
  cases h with
  | refl => exact ⟨v, hv, .refl v⟩
  | obj hkeys hvalues =>
    have hsome : (Json.lookup key members').isSome = true := by rw [hkeys, hv]; rfl
    obtain ⟨v', hv'⟩ := Option.isSome_iff_exists.mp hsome
    exact ⟨v', hv', hvalues key v v' hv hv'⟩

theorem Alike.lookup_eq_none (h : Alike (.obj members) (.obj members'))
    (hnone : Json.lookup key members = none) : Json.lookup key members' = none := by
  cases h with
  | refl => exact hnone
  | obj hkeys hvalues =>
    have hsome := hkeys key
    rw [hnone] at hsome
    exact Option.isSome_eq_false_iff.mp hsome |> Option.isNone_iff_eq_none.mp

theorem Alike.lookup_getD (h : Alike (.obj members) (.obj members')) (key : String) (d : Json) :
    Alike ((Json.lookup key members).getD d) ((Json.lookup key members').getD d) := by
  cases hv : Json.lookup key members with
  | none =>
    rw [h.lookup_eq_none hv]
    exact .refl _
  | some v =>
    obtain ⟨v', hv', halike⟩ := h.lookup hv
    rw [hv']
    exact halike

end Json

namespace Ast

open Json (Alike)

variable {members members' : List (String × Json)}

/-! ## The text, type by type -/

/-- The text of a type that may be missing. -/
def typeTextOf : Option Json → Json
  | some v => typeText v
  | none => .str ""

theorem typeText_elementary
    (h : Json.lookup "type" members = some (.str "ElementaryTypeName")) :
    typeText (.obj members) = memberOrEmpty "name" members := by
  rw [typeText]
  simp only [h]

theorem typeText_userDefined
    (h : Json.lookup "type" members = some (.str "UserDefinedTypeName")) :
    typeText (.obj members)
      = (memberOrEmpty "namePath" members).orElse (memberOrEmpty "name" members) := by
  rw [typeText]
  simp only [h]

theorem typeText_mapping (h : Json.lookup "type" members = some (.str "Mapping")) :
    typeText (.obj members)
      = .str ("mapping(" ++ (typeTextOf (Json.lookup "keyType" members)).display ++ " => "
        ++ (typeTextOf (Json.lookup "valueType" members)).display ++ ")") := by
  rw [typeText]
  simp only [h]
  split <;> split <;> simp_all [typeTextOf]

theorem typeText_array (h : Json.lookup "type" members = some (.str "ArrayTypeName")) :
    typeText (.obj members)
      = .str ((typeTextOf (Json.lookup "baseTypeName" members)).display ++ "["
        ++ lengthText (Json.lookup "length" members) ++ "]") := by
  rw [typeText]
  simp only [h]
  split <;> simp_all [typeTextOf]

theorem typeText_function (h : Json.lookup "type" members = some (.str "FunctionTypeName")) :
    typeText (.obj members) = .str "function(...)" := by
  rw [typeText]
  simp only [h]

/-- The types of records that have a text of their own form. -/
def typeForms : List String :=
  ["ElementaryTypeName", "UserDefinedTypeName", "Mapping", "ArrayTypeName", "FunctionTypeName"]

theorem typeText_other (h : ∀ form ∈ typeForms, Json.lookup "type" members ≠ some (.str form)) :
    typeText (.obj members) = .str (memberOrEmpty "name" members).display := by
  rw [typeText]
  simp only [typeForms, List.forall_mem_cons] at h
  split <;> simp_all

/-- The value that stands for the length of an array. -/
def shownLength : Json → Json
  | .obj members => ((Json.lookup "number" members).getD .null).orElse
      (((Json.lookup "name" members).getD .null).orElse (.str ""))
  | v => v.orElse (.str "")

theorem lengthText_some (v : Json) : lengthText (some v) = (shownLength v).display := by
  cases v <;> rfl

theorem shownLength_alike {v v' : Json} (h : Alike v v') :
    Alike (shownLength v) (shownLength v') := by
  cases h with
  | refl => exact .refl _
  | arr hempty => exact (Alike.arr hempty).orElse (.refl _)
  | obj hkeys hvalues =>
    have h := Alike.obj hkeys hvalues
    exact (h.lookup_getD "number" .null).orElse ((h.lookup_getD "name" .null).orElse (.refl _))

/-! ## Texts that show no record and no list -/

/-- The text of a type is spelled from plain values alone. -/
inductive Spelled : Json → Prop
  | plain {v : Json} (h : v.isPlain = true) : Spelled v
  | elementary {members : List (String × Json)}
      (htype : Json.lookup "type" members = some (.str "ElementaryTypeName"))
      (hname : (memberOrEmpty "name" members).isPlain = true) : Spelled (.obj members)
  | userDefined {members : List (String × Json)}
      (htype : Json.lookup "type" members = some (.str "UserDefinedTypeName"))
      (hname : ((memberOrEmpty "namePath" members).orElse (memberOrEmpty "name" members)).isPlain
        = true) : Spelled (.obj members)
  | mapping {members : List (String × Json)}
      (htype : Json.lookup "type" members = some (.str "Mapping"))
      (hkey : ∀ v, Json.lookup "keyType" members = some v → Spelled v)
      (hvalue : ∀ v, Json.lookup "valueType" members = some v → Spelled v) : Spelled (.obj members)
  | array {members : List (String × Json)}
      (htype : Json.lookup "type" members = some (.str "ArrayTypeName"))
      (hbase : ∀ v, Json.lookup "baseTypeName" members = some v → Spelled v)
      (hlength : ∀ v, Json.lookup "length" members = some v → (shownLength v).isPlain = true) :
      Spelled (.obj members)
  | function {members : List (String × Json)}
      (htype : Json.lookup "type" members = some (.str "FunctionTypeName")) : Spelled (.obj members)
  | other {members : List (String × Json)}
      (htype : ∀ form ∈ typeForms, Json.lookup "type" members ≠ some (.str form))
      (hname : (memberOrEmpty "name" members).isPlain = true) : Spelled (.obj members)

theorem lookup_type_of_alike (h : Alike (.obj members) (.obj members')) {form : String}
    (hform : Json.lookup "type" members = some (.str form)) :
    Json.lookup "type" members' = some (.str form) := by
  obtain ⟨v, hv, halike⟩ := h.lookup hform
  rw [hv, halike.eq_of_plain rfl]

theorem typeTextOf_eq_of_alike {key : String} (h : Alike (.obj members) (.obj members'))
    (ih : ∀ v, Json.lookup key members = some v → ∀ v', Alike v v' → typeText v' = typeText v) :
    typeTextOf (Json.lookup key members') = typeTextOf (Json.lookup key members) := by
  cases hv : Json.lookup key members with
  | none => rw [h.lookup_eq_none hv]
  | some v =>
    obtain ⟨v', hv', halike⟩ := h.lookup hv
    rw [hv']
    exact ih v hv v' halike

/-- **The order of members** does not change a text that is spelled from plain values. -/
theorem typeText_eq_of_alike {v v' : Json} (hv : Spelled v) (h : Alike v v') :
    typeText v' = typeText v := by
  induction hv generalizing v' with
  | plain hplain => rw [h.eq_of_plain hplain]
  | elementary htype hname =>
    obtain ⟨members', rfl⟩ := h.exists_obj
    rw [typeText_elementary htype, typeText_elementary (lookup_type_of_alike h htype)]
    exact (h.lookup_getD "name" _).eq_of_plain hname
  | userDefined htype hname =>
    obtain ⟨members', rfl⟩ := h.exists_obj
    rw [typeText_userDefined htype, typeText_userDefined (lookup_type_of_alike h htype)]
    exact ((h.lookup_getD "namePath" _).orElse (h.lookup_getD "name" _)).eq_of_plain hname
  | mapping htype hkey hvalue ihkey ihvalue =>
    obtain ⟨members', rfl⟩ := h.exists_obj
    rw [typeText_mapping htype, typeText_mapping (lookup_type_of_alike h htype),
      typeTextOf_eq_of_alike h fun v hv v' ↦ ihkey v hv,
      typeTextOf_eq_of_alike h fun v hv v' ↦ ihvalue v hv]
  | @array members htype hbase hlength ih =>
    obtain ⟨members', rfl⟩ := h.exists_obj
    have hshown : lengthText (Json.lookup "length" members')
        = lengthText (Json.lookup "length" members) := by
      cases hv : Json.lookup "length" members with
      | none => rw [h.lookup_eq_none hv]
      | some v =>
        obtain ⟨v', hv', halike⟩ := h.lookup hv
        rw [hv', lengthText_some, lengthText_some,
          (shownLength_alike halike).eq_of_plain (hlength v hv)]
    rw [typeText_array htype, typeText_array (lookup_type_of_alike h htype), hshown,
      typeTextOf_eq_of_alike h fun v hv v' ↦ ih v hv]
  | function htype =>
    obtain ⟨members', rfl⟩ := h.exists_obj
    rw [typeText_function htype, typeText_function (lookup_type_of_alike h htype)]
  | @other members htype hname =>
    obtain ⟨members', rfl⟩ := h.exists_obj
    have htype' : ∀ form ∈ typeForms, Json.lookup "type" members' ≠ some (.str form) := by
      intro form hform hv'
      exact htype form hform (lookup_type_of_alike h.symm hv')
    have hname' : memberOrEmpty "name" members' = memberOrEmpty "name" members :=
      (h.lookup_getD "name" _).eq_of_plain hname
    rw [typeText_other htype, typeText_other htype', hname']

end Ast

end QuantumRisk
