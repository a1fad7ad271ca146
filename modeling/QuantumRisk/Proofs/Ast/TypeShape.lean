import Mathlib
import QuantumRisk.Proofs.Ast.TypeText
import QuantumRisk.Proofs.Match.Counting

/-!
# The text of a type says which type it is

Mappings and arrays are written with the same few marks at every depth, and types nest. Still no two
types have the same text. A `TypeShape` is what there is to know about a type: it does not tell an
elementary name from a user's name of the same spelling, nor a number from a constant of the same
spelling as the length of an array, since these have the same text.

## How a text is taken apart

The end of a text tells a name, a mapping and an array from each other. The last opening bracket of
an array is that of its length, because lengths have no brackets. In a mapping it is harder to see
where the key ends, since key and value may be mappings themselves. The blank behind the key is the
first one outside of parentheses: `beforeBlank` counts parentheses, and reading over a whole type
brings the count back to where it was (`beforeBlank_text`).
-/

namespace QuantumRisk.Ast

/-! ## Shapes -/

/-- The marks that the text of a type is put together with. -/
def isTypeMark (c : Char) : Bool := [' ', '(', ')', '[', ']'].contains c

/-- The name of a type or the length of an array: anything but nothing that has no marks in it, such
as letters, digits, underscores, dollar signs and dots. -/
@[ext] structure TypeWord where
  text : String
  ne_empty : text ≠ ""
  noMark : ∀ c ∈ text.toList, isTypeMark c = false
  deriving DecidableEq

inductive TypeShape where
  | name (word : TypeWord)
  | mapping (key value : TypeShape)
  | array (base : TypeShape) (length : Option TypeWord)
  deriving DecidableEq

/-- An open array has no length. -/
def TypeWord.textOf : Option TypeWord → String
  | none => ""
  | some word => word.text

def TypeShape.text : TypeShape → String
  | .name word => word.text
  | .mapping key value => "mapping(" ++ key.text ++ " => " ++ value.text ++ ")"
  | .array base length => base.text ++ "[" ++ TypeWord.textOf length ++ "]"

/-! ## Records of types -/

/-- What a record gives as the length of an array. -/
inductive IsLength : Option Json → Option TypeWord → Prop
  | absent : IsLength none none
  | null : IsLength (some .null) none
  | number {members : List (String × Json)} {word : TypeWord}
      (htype : Json.lookup "type" members = some (.str "NumberLiteral"))
      (hnumber : Json.lookup "number" members = some (.str word.text)) :
      IsLength (some (.obj members)) (some word)
  | identifier {members : List (String × Json)} {word : TypeWord}
      (htype : Json.lookup "type" members = some (.str "Identifier"))
      (hnumber : Json.lookup "number" members = none)
      (hname : Json.lookup "name" members = some (.str word.text)) :
      IsLength (some (.obj members)) (some word)

/-- The records that stand for types of a shape. Members that do not matter may be there as well,
and all may be in any order. -/
inductive HasShape : Json → TypeShape → Prop
  | elementary {members : List (String × Json)} {word : TypeWord}
      (htype : Json.lookup "type" members = some (.str "ElementaryTypeName"))
      (hname : Json.lookup "name" members = some (.str word.text)) :
      HasShape (.obj members) (.name word)
  | userDefined {members : List (String × Json)} {word : TypeWord}
      (htype : Json.lookup "type" members = some (.str "UserDefinedTypeName"))
      (hname : (memberOrEmpty "namePath" members).orElse (memberOrEmpty "name" members)
        = .str word.text) :
      HasShape (.obj members) (.name word)
  | mapping {members : List (String × Json)} {v v' : Json} {key value : TypeShape}
      (htype : Json.lookup "type" members = some (.str "Mapping"))
      (hkey : Json.lookup "keyType" members = some v)
      (hvalue : Json.lookup "valueType" members = some v') :
      HasShape v key → HasShape v' value → HasShape (.obj members) (.mapping key value)
  | array {members : List (String × Json)} {v : Json} {base : TypeShape} {length : Option TypeWord}
      (htype : Json.lookup "type" members = some (.str "ArrayTypeName"))
      (hbase : Json.lookup "baseTypeName" members = some v)
      (hlength : IsLength (Json.lookup "length" members) length) :
      HasShape v base → HasShape (.obj members) (.array base length)

theorem lengthText_of_isLength {v : Option Json} {length : Option TypeWord}
    (h : IsLength v length) : lengthText v = TypeWord.textOf length := by
  have hsome (word : TypeWord) (v : Json) : (Json.str word.text).orElse v = .str word.text := by
    simp [Json.orElse, Json.isSome, word.ne_empty]
  cases h with
  | absent => rfl
  | null => rfl
  | number _ hnumber =>
    rw [lengthText, hnumber, Option.getD_some, hsome]
    rfl
  | identifier _ hnumber hname =>
    rw [lengthText, hnumber, hname, Option.getD_none, Option.getD_some, hsome]
    rfl

/-- The text of a type is that of its shape. -/
theorem typeText_of_hasShape {v : Json} {t : TypeShape} (h : HasShape v t) :
    typeText v = .str t.text := by
  induction h with
  | elementary htype hname =>
    rw [typeText_elementary htype, memberOrEmpty, hname]
    rfl
  | userDefined htype hname =>
    rw [typeText_userDefined htype, hname]
    rfl
  | mapping htype hkey hvalue _ _ ihkey ihvalue =>
    rw [typeText_mapping htype, hkey, hvalue, typeTextOf, typeTextOf, ihkey, ihvalue]
    rfl
  | array htype hbase hlength _ ih =>
    rw [typeText_array htype, hbase, typeTextOf, ih, lengthText_of_isLength hlength]
    rfl

/-- The shortest record of a shape, with names that are elementary and lengths that are numbers. -/
def TypeShape.node : TypeShape → Json
  | .name word => .obj [("type", .str "ElementaryTypeName"), ("name", .str word.text)]
  | .mapping key value =>
    .obj [("type", .str "Mapping"), ("keyType", key.node), ("valueType", value.node)]
  | .array base none => .obj [("type", .str "ArrayTypeName"), ("baseTypeName", base.node)]
  | .array base (some word) =>
    .obj [("type", .str "ArrayTypeName"), ("baseTypeName", base.node),
      ("length", .obj [("type", .str "NumberLiteral"), ("number", .str word.text)])]

theorem hasShape_node (t : TypeShape) : HasShape t.node t := by
  induction t with
  | name word => exact .elementary rfl rfl
  | mapping key value ihkey ihvalue => exact .mapping rfl rfl rfl ihkey ihvalue
  | array base length ih =>
    cases length with
    | none => exact .array rfl rfl .absent ih
    | some word => exact .array rfl rfl (.number rfl rfl) ih

/-! ## Where the key of a mapping ends -/

/-- What stands before the first blank outside of parentheses, if `depth` are open. -/
def beforeBlank : Nat → List Char → List Char
  | _, [] => []
  | depth, c :: cs =>
    if c = ' ' ∧ depth = 0 then []
    else c :: beforeBlank (if c = '(' then depth + 1 else if c = ')' then depth - 1 else depth) cs

theorem TypeWord.notMem (word : TypeWord) {c : Char} (hc : isTypeMark c = true) :
    c ∉ word.text.toList := by
  intro hmem
  rw [word.noMark c hmem] at hc
  cases hc

theorem TypeWord.notMem_textOf {c : Char} (hc : isTypeMark c = true) :
    ∀ length : Option TypeWord, c ∉ (TypeWord.textOf length).toList
  | none => List.not_mem_nil
  | some word => word.notMem hc

/-- Where there are no blanks and no parentheses, nothing happens. -/
theorem beforeBlank_append {cs : List Char} (h : ∀ c ∈ cs, c ≠ ' ' ∧ c ≠ '(' ∧ c ≠ ')')
    (depth : Nat) (rest : List Char) :
    beforeBlank depth (cs ++ rest) = cs ++ beforeBlank depth rest := by
  induction cs with
  | nil => rfl
  | cons c cs ih =>
    obtain ⟨⟨hblank, hopen, hclose⟩, hcs⟩ := List.forall_mem_cons.mp h
    rw [List.cons_append, beforeBlank, if_neg fun hc ↦ hblank hc.1, if_neg hopen, if_neg hclose,
      ih hcs, List.cons_append]

theorem beforeBlank_textOf (depth : Nat) (length : Option TypeWord) (rest : List Char) :
    beforeBlank depth ((TypeWord.textOf length).toList ++ rest)
      = (TypeWord.textOf length).toList ++ beforeBlank depth rest := by
  refine beforeBlank_append (fun c hc ↦ ?_) depth rest
  have hne {d : Char} (hd : isTypeMark d = true) : c ≠ d := fun h ↦
    TypeWord.notMem_textOf hd length (h ▸ hc)
  exact ⟨hne rfl, hne rfl, hne rfl⟩

/-- Reading over a type: every parenthesis that it opens is closed again, and every blank in it
stands inside of one. -/
theorem beforeBlank_text (t : TypeShape) (depth : Nat) (rest : List Char) :
    beforeBlank depth (t.text.toList ++ rest) = t.text.toList ++ beforeBlank depth rest := by
  induction t generalizing depth rest with
  | name word => exact beforeBlank_textOf depth (some word) rest
  | mapping key value ihkey ihvalue =>
    have hopen (cs : List Char) : beforeBlank depth ("mapping(".toList ++ cs)
        = "mapping(".toList ++ beforeBlank (depth + 1) cs := by
      simp [beforeBlank]
    have harrow (cs : List Char) : beforeBlank (depth + 1) (" => ".toList ++ cs)
        = " => ".toList ++ beforeBlank (depth + 1) cs := by
      simp [beforeBlank]
    have hclose : beforeBlank (depth + 1) (")".toList ++ rest)
        = ")".toList ++ beforeBlank depth rest := by
      simp [beforeBlank]
    simp only [TypeShape.text, String.toList_append, List.append_assoc, hopen, ihkey, harrow,
      ihvalue, hclose]
  | array base length ih =>
    have hopen (cs : List Char) : beforeBlank depth ("[".toList ++ cs)
        = "[".toList ++ beforeBlank depth cs := by
      simp [beforeBlank]
    have hclose :
        beforeBlank depth ("]".toList ++ rest) = "]".toList ++ beforeBlank depth rest := by
      simp [beforeBlank]
    simp only [TypeShape.text, String.toList_append, List.append_assoc, ih, hopen,
      beforeBlank_textOf, hclose]

theorem beforeBlank_key (key : TypeShape) (cs : List Char) :
    beforeBlank 0 (key.text.toList ++ (" => ".toList ++ cs)) = key.text.toList := by
  rw [beforeBlank_text]
  simp [beforeBlank]

theorem mapping_inj {key key' value value' : TypeShape}
    (h : (TypeShape.mapping key value).text = (TypeShape.mapping key' value').text) :
    key.text = key'.text ∧ value.text = value'.text := by
  have hchars := congrArg String.toList h
  simp only [TypeShape.text, String.toList_append, List.append_assoc] at hchars
  have hrest := List.append_cancel_left hchars
  have hkey : key.text.toList = key'.text.toList := by
    rw [← beforeBlank_key key (value.text.toList ++ ")".toList), hrest, beforeBlank_key]
  rw [hkey] at hrest
  have hvalue := List.append_cancel_left (List.append_cancel_left hrest)
  exact ⟨String.toList_inj.mp hkey, String.toList_inj.mp (List.append_cancel_right hvalue)⟩

/-! ## Where the length of an array begins -/

/-- Two lists are cut in the same way at the last place of an item. -/
theorem append_cons_inj {α : Type} {a : α} {xs ys xs' ys' : List α} (hys : a ∉ ys)
    (hys' : a ∉ ys') (h : xs ++ a :: ys = xs' ++ a :: ys') : xs = xs' ∧ ys = ys' := by
  rcases List.append_eq_append_iff.mp h with ⟨more, rfl, hrest⟩ | ⟨more, rfl, hrest⟩
  all_goals
    cases more with
    | nil =>
      rw [List.nil_append] at hrest
      obtain ⟨-, htail⟩ := List.cons.inj hrest
      exact ⟨by simp, by simp [htail]⟩
    | cons b more =>
      -- then the item stands in one of the two rests
      obtain ⟨-, htail⟩ := List.cons.inj hrest
      simp [htail] at hys hys'

theorem TypeWord.textOf_injective : Function.Injective TypeWord.textOf := by
  intro length length' h
  cases length with
  | none =>
    cases length' with
    | none => rfl
    | some word => exact absurd h.symm word.ne_empty
  | some word =>
    cases length' with
    | none => exact absurd h word.ne_empty
    | some word' => exact congrArg some (TypeWord.ext h)

theorem array_inj {base base' : TypeShape} {length length' : Option TypeWord}
    (h : (TypeShape.array base length).text = (TypeShape.array base' length').text) :
    base.text = base'.text ∧ length = length' := by
  have hchars := congrArg String.toList h
  simp only [TypeShape.text, String.toList_append] at hchars
  have hinit := List.append_cancel_right hchars
  rw [List.append_assoc, List.append_assoc] at hinit
  obtain ⟨hbase, hlength⟩ := append_cons_inj (TypeWord.notMem_textOf rfl length)
    (TypeWord.notMem_textOf rfl length') hinit
  exact ⟨String.toList_inj.mp hbase, TypeWord.textOf_injective (String.toList_inj.mp hlength)⟩

/-! ## Main statement -/

/-- The last character of a mapping or an array. -/
theorem exists_text_mapping (key value : TypeShape) :
    ∃ cs, (TypeShape.mapping key value).text.toList = cs ++ [')'] :=
  ⟨_, String.toList_append⟩

theorem exists_text_array (base : TypeShape) (length : Option TypeWord) :
    ∃ cs, (TypeShape.array base length).text.toList = cs ++ [']'] :=
  ⟨_, String.toList_append⟩

theorem TypeWord.ne_of_end (word : TypeWord) {s : String} {c : Char} (hc : isTypeMark c = true)
    (hs : ∃ cs, s.toList = cs ++ [c]) : word.text ≠ s := by
  rintro rfl
  obtain ⟨cs, hcs⟩ := hs
  exact word.notMem hc (hcs ▸ List.mem_append_right cs (List.mem_singleton_self c))

theorem mapping_ne_array (key value base : TypeShape) (length : Option TypeWord) :
    (TypeShape.mapping key value).text ≠ (TypeShape.array base length).text := by
  intro h
  obtain ⟨cs, hcs⟩ := exists_text_mapping key value
  obtain ⟨ds, hds⟩ := exists_text_array base length
  rw [h, hds] at hcs
  exact absurd (List.append_inj' hcs rfl).2 (by decide)

theorem text_injective : Function.Injective TypeShape.text := by
  intro t
  induction t with
  | name word =>
    intro t' h
    cases t' with
    | name word' => exact congrArg TypeShape.name (TypeWord.ext h)
    | mapping key value => exact absurd h (word.ne_of_end rfl (exists_text_mapping key value))
    | array base length => exact absurd h (word.ne_of_end rfl (exists_text_array base length))
  | mapping key value ihkey ihvalue =>
    intro t' h
    cases t' with
    | name word => exact absurd h.symm (word.ne_of_end rfl (exists_text_mapping key value))
    | mapping key' value' => rw [ihkey (mapping_inj h).1, ihvalue (mapping_inj h).2]
    | array base length => exact absurd h (mapping_ne_array key value base length)
  | array base length ih =>
    intro t' h
    cases t' with
    | name word => exact absurd h.symm (word.ne_of_end rfl (exists_text_array base length))
    | mapping key value => exact absurd h.symm (mapping_ne_array key value base length)
    | array base' length' => rw [ih (array_inj h).1, (array_inj h).2]

open Matcher (findingOf keyFinding)

/-- **Types with the same text have the same shape.** In particular a text that is a mere word is
the name of a type and of nothing else. So for every choice of types, the rule for key exposure
finds a declaration with the name of a key exactly if its type is among them. -/
theorem typeText_eq_iff {v v' : Json} {t t' : TypeShape} (h : HasShape v t) (h' : HasShape v' t') :
    (typeText v = typeText v' ↔ t = t') ∧
      (∀ word : TypeWord, typeText v = .str word.text ↔ t = .name word) ∧
      ∀ (types : List TypeShape) (name : String) (scope : Scope) (l : Option Location),
        findingOf (.declaration (.str name) (typeText v) scope l)
            (keyExposureRule (types.map fun t ↦ .str t.text))
          = .ok (if t ∈ types ∧ isKeyName name then [keyFinding name l] else []) := by
  have hinj (t' : TypeShape) : Json.str t.text = .str t'.text ↔ t = t' :=
    ⟨fun h ↦ text_injective (Json.str.inj h), fun h ↦ h ▸ rfl⟩
  rw [typeText_of_hasShape h, typeText_of_hasShape h']
  refine ⟨hinj t', fun word ↦ hinj (.name word), fun types name scope l ↦ ?_⟩
  have hcontains : (types.map TypeShape.text).contains t.text = decide (t ∈ types) := by
    rw [Bool.eq_iff_iff, List.contains_iff_mem, List.mem_map_of_injective text_injective,
      decide_eq_true_iff]
  have hfinding := Matcher.findingOf_keyExposureRule (types.map TypeShape.text) name t.text scope l
  rw [hcontains, List.map_map] at hfinding
  refine hfinding.trans ?_
  simp

def addressType : TypeShape := .name ⟨"address", by decide, by simp [isTypeMark]⟩

def bytesType : TypeShape := .name ⟨"bytes32", by decide, by simp [isTypeMark]⟩

/-- From addresses to lists of bytes. -/
def keyring : TypeShape := .mapping addressType (.array bytesType none)

/-- A mapping to arrays, and an array of mappings. A variable of the first type is found exactly if
this type is among those that are looked for. -/
theorem typeText_mapping_array :
    HasShape keyring.node keyring ∧
      HasShape (TypeShape.array (.mapping addressType bytesType) none).node
        (.array (.mapping addressType bytesType) none) ∧
      typeText keyring.node
        ≠ typeText (TypeShape.array (.mapping addressType bytesType) none).node ∧
      findingOf (.declaration (.str "publicKey") (typeText keyring.node) .stateVariable none)
          (keyExposureRule [.str bytesType.text]) = .ok [] ∧
      findingOf (.declaration (.str "publicKey") (typeText keyring.node) .stateVariable none)
          (keyExposureRule [.str bytesType.text, .str keyring.text])
        = .ok [keyFinding "publicKey" none] := by
  have h := hasShape_node keyring
  have h' := hasShape_node (.array (.mapping addressType bytesType) none)
  have hname : isKeyName "publicKey" = true := by decide +kernel
  obtain ⟨hiff, -, hfinding⟩ := typeText_eq_iff h h'
  refine ⟨h, h', fun htext ↦ ?_, ?_, ?_⟩
  · cases hiff.mp htext
  · refine (hfinding [bytesType] "publicKey" .stateVariable none).trans ?_
    simp [bytesType, keyring]
  · refine (hfinding [bytesType, keyring] "publicKey" .stateVariable none).trans ?_
    simp [hname]

end QuantumRisk.Ast
