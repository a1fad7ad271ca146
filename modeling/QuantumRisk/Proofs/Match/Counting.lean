import Mathlib
import QuantumRisk.Proofs.Ast.DepthFirst
import QuantumRisk.Proofs.Match.Counts

/-!
# What the standard rules count

The standard rules count records: calls of the bare name `ecrecover`, and declarations of certain
types with names like those of keys. Both are properties of a record and of what its fields refer
to; neither the way on which the walk comes to a record nor the number of these ways matters.

`Legible` says what a record must be like so that it can be looked at without a fault. If all
records that can be reached are legible, the counts are the numbers of these records.
-/

namespace QuantumRisk

/-! ## Values and names -/

namespace Json

theorem equals_str_iff {v : Json} {s : String} : v.equals (.str s) = true ↔ v = .str s := by
  cases v with
  | float x => cases x <;> simp [equals, same] <;> split <;> simp_all
  | _ => simp [equals, same]

theorem str_equals_str_iff {s t : String} : (Json.str s).equals (.str t) = true ↔ s = t := by
  simp [equals, same]

end Json

theorem occursIn_iff {part cs : List Char} : occursIn part cs = true ↔ part <:+: cs := by
  induction cs with
  | nil => simp [occursIn]
  | cons c cs ih =>
    rw [occursIn, Bool.or_eq_true, ih, List.isPrefixOf_iff_prefix, List.infix_cons_iff]

/-- A name like that of a key: in small letters it has one of two words in it. -/
def IsKeyName (name : String) : Prop :=
  "pub".toList <:+: (Text.lower name).toList ∨ "key".toList <:+: (Text.lower name).toList

theorem isKeyName_iff {name : String} : isKeyName name = true ↔ IsKeyName name := by
  simp only [isKeyName, keyMarkers, List.any_cons, List.any_nil, Bool.or_false, Bool.or_eq_true,
    occursIn_iff]
  rfl

theorem not_isKeyName_empty : ¬ IsKeyName "" := by
  rw [← isKeyName_iff]
  decide

namespace Ast.Graph

variable {g : Graph} {i : Nat} {d : Datum} {fs : Fields} {s : String}

theorem value_str (g : Graph) (s : String) : g.value (.str s) = .str s := by
  rw [value, unfold]

theorem unfold_eq_str_iff {fuel : Nat} {path : List Nat} :
    g.unfold fuel path d = .str s ↔ d = .str s := by
  cases d with
  | record id =>
    cases fuel with
    | zero => simp [unfold]
    | succ fuel =>
      rw [unfold]
      split <;> simp
  | _ => simp [unfold]

theorem value_eq_str_iff : g.value d = .str s ↔ d = .str s := unfold_eq_str_iff

theorem nameOf_of_str (h : Fields.get fs "name" = .str s) : g.nameOf fs = .str s := by
  rw [nameOf, h, value_str, Json.orElse]
  by_cases hs : s = "" <;> simp [Json.isSome, hs]

theorem nameOf_of_null (h : Fields.get fs "name" = .null) : g.nameOf fs = .str "" := by
  rw [nameOf, h, value, unfold]
  rfl

theorem nameOf_eq_str_iff (hs : s ≠ "") : g.nameOf fs = .str s ↔ Fields.get fs "name" = .str s := by
  constructor
  · intro h
    rw [nameOf, Json.orElse] at h
    split at h
    · exact value_eq_str_iff.mp h
    · cases h
      exact absurd rfl hs
  · exact nameOf_of_str

/-- The name of a declaration, where a missing one is no name of a key. -/
theorem exists_nameOf
    (h : Fields.get fs "name" = .null ∨ ∃ name, Fields.get fs "name" = .str name) :
    ∃ name, g.nameOf fs = .str name ∧
      (isKeyName name = true ↔ ∃ name, Fields.get fs "name" = .str name ∧ IsKeyName name) := by
  rcases h with hnull | ⟨name, hname⟩
  · refine ⟨"", nameOf_of_null hnull, ?_⟩
    simp [hnull, isKeyName_iff, not_isKeyName_empty]
  · refine ⟨name, nameOf_of_str hname, ?_⟩
    simp [hname, isKeyName_iff]

/-! ## Records -/

/-- A record that can be reached from the root. -/
def Reached (g : Graph) (i : Nat) : Prop :=
  i < g.records.size ∧ Relation.ReflTransGen g.Refers g.root i

theorem mem_visits : i ∈ g.visits ↔ g.Reached i := mem_visits_iff

def HasType (g : Graph) (i : Nat) (type : String) : Prop :=
  Fields.get (g.fields i) "type" = .str type

/-- A call of the bare name `ecrecover`. -/
def CallsEcrecover (g : Graph) (i : Nat) : Prop :=
  g.HasType i "FunctionCall" ∧ ∃ callee, Fields.get (g.fields i) "expression" = .record callee ∧
    g.HasType callee "Identifier" ∧ Fields.get (g.fields callee) "name" = .str "ecrecover"

def IsDeclaration (g : Graph) (i : Nat) : Prop :=
  g.HasType i "VariableDeclaration" ∨ g.HasType i "Parameter" ∨ g.HasType i "EventParameter"

/-- The text of the declared type. -/
def typeTextAt (g : Graph) (i : Nat) : Json :=
  typeText (g.value (Fields.get (g.fields i) "typeName"))

/-- A declaration of one of the types, with a name like that of a key. -/
def DeclaresKey (g : Graph) (types : List String) (i : Nat) : Prop :=
  g.IsDeclaration i ∧ (∃ type ∈ types, g.typeTextAt i = .str type) ∧
    ∃ name, Fields.get (g.fields i) "name" = .str name ∧ IsKeyName name

/-- A record states no place, or one that can be read. -/
inductive WellPlaced (g : Graph) (fs : Fields) : Prop
  | absent (hloc : ∀ loc, Fields.get fs "loc" ≠ .record loc)
  | noStart {loc : Nat} (hloc : Fields.get fs "loc" = .record loc)
      (hstart : ∀ start, Fields.get (g.fields loc) "start" ≠ .record start)
      (hnothing : g.isSome (Fields.get (g.fields loc) "start") = false)
  | noLine {loc start : Nat} (hloc : Fields.get fs "loc" = .record loc)
      (hstart : Fields.get (g.fields loc) "start" = .record start)
      (hline : Fields.get (g.fields start) "line" = .null)
  | start {loc start : Nat} {line column : Int} (hloc : Fields.get fs "loc" = .record loc)
      (hstart : Fields.get (g.fields loc) "start" = .record start)
      (hline : (g.value (Fields.get (g.fields start) "line")).toInteger = .ok line)
      (hcolumn : ((g.value (Fields.get (g.fields start) "column")).orElse (.int 0)).toInteger
        = .ok column)

theorem wellPlaced_of_null (h : Fields.get fs "loc" = .null) : g.WellPlaced fs :=
  .absent (by simp [h])

section Places

variable {loc start : Nat}

theorem location_of_absent (hloc : ∀ loc, Fields.get fs "loc" ≠ .record loc) :
    g.location fs = .ok none := by
  rw [location]
  split
  · next loc heq => exact absurd heq (hloc loc)
  · rfl

theorem location_of_noStart (hloc : Fields.get fs "loc" = .record loc)
    (hstart : ∀ start, Fields.get (g.fields loc) "start" ≠ .record start)
    (hnothing : g.isSome (Fields.get (g.fields loc) "start") = false) :
    g.location fs = .ok none := by
  simp only [location, hloc]
  generalize Fields.get (g.fields loc) "start" = start at hstart hnothing
  cases start with
  | record id => exact absurd rfl (hstart id)
  | _ =>
    simp only [hnothing]
    rfl

theorem location_of_noLine (hloc : Fields.get fs "loc" = .record loc)
    (hstart : Fields.get (g.fields loc) "start" = .record start)
    (hline : Fields.get (g.fields start) "line" = .null) : g.location fs = .ok none := by
  simp only [location, hloc, hstart, hline]

theorem location_of_start {line column : Int} (hloc : Fields.get fs "loc" = .record loc)
    (hstart : Fields.get (g.fields loc) "start" = .record start)
    (hline : (g.value (Fields.get (g.fields start) "line")).toInteger = .ok line)
    (hcolumn : ((g.value (Fields.get (g.fields start) "column")).orElse (.int 0)).toInteger
      = .ok column) : g.location fs = .ok (some ⟨line, column⟩) := by
  simp only [location, hloc, hstart]
  split
  · next hnull =>
    rw [hnull, value, unfold] at hline
    cases hline
  · simp only [hline, hcolumn]
    rfl

theorem WellPlaced.location (h : g.WellPlaced fs) : ∃ l, g.location fs = .ok l := by
  cases h with
  | absent hloc => exact ⟨none, location_of_absent hloc⟩
  | noStart hloc hstart hnothing => exact ⟨none, location_of_noStart hloc hstart hnothing⟩
  | noLine hloc hstart hline => exact ⟨none, location_of_noLine hloc hstart hline⟩
  | start hloc hstart hline hcolumn => exact ⟨_, location_of_start hloc hstart hline hcolumn⟩

end Places

/-- A record that can be looked at without a fault. -/
structure Legible (g : Graph) (i : Nat) : Prop where
  /-- The type is a plain value. -/
  type : (∀ items, Fields.get (g.fields i) "type" ≠ .list items) ∧
    ∀ id, Fields.get (g.fields i) "type" ≠ .record id
  place : g.HasType i "FunctionCall" ∨ g.IsDeclaration i → g.WellPlaced (g.fields i)
  name : g.IsDeclaration i → Fields.get (g.fields i) "name" = .null ∨
    ∃ name, Fields.get (g.fields i) "name" = .str name
  typeName : g.IsDeclaration i → ∃ type, g.typeTextAt i = .str type

/-- Records of all other types are legible. -/
theorem legible_of_other {type : String} (h : g.HasType i type)
    (hother : type ∉ ["FunctionCall", "VariableDeclaration", "Parameter", "EventParameter"]) :
    g.Legible i := by
  simp only [List.mem_cons, List.not_mem_nil, or_false, not_or] at hother
  obtain ⟨hcall, hvariable, hparameter, hevent⟩ := hother
  rw [HasType] at h
  have hdeclaration : ¬ g.IsDeclaration i := by
    simp [IsDeclaration, HasType, h, hvariable, hparameter, hevent]
  refine ⟨by simp [h], ?_, fun hd ↦ absurd hd hdeclaration, fun hd ↦ absurd hd hdeclaration⟩
  rintro (hc | hd)
  · rw [HasType, h] at hc
    exact absurd (Datum.str.inj hc) hcall
  · exact absurd hd hdeclaration

theorem not_isDeclaration_of_call (h : g.HasType i "FunctionCall") : ¬ g.IsDeclaration i := by
  rw [HasType] at h
  simp [IsDeclaration, HasType, h]

theorem legible_of_call (h : g.HasType i "FunctionCall") (hplace : g.WellPlaced (g.fields i)) :
    g.Legible i := by
  have hdeclaration := not_isDeclaration_of_call h
  rw [HasType] at h
  exact ⟨by simp [h], fun _ ↦ hplace, fun h ↦ absurd h hdeclaration, fun h ↦ absurd h hdeclaration⟩

theorem legible_of_declaration (h : g.IsDeclaration i) (hplace : g.WellPlaced (g.fields i))
    (hname : Fields.get (g.fields i) "name" = .null ∨
      ∃ name, Fields.get (g.fields i) "name" = .str name)
    (htype : ∃ type, g.typeTextAt i = .str type) : g.Legible i := by
  refine ⟨?_, fun _ ↦ hplace, fun _ ↦ hname, fun _ ↦ htype⟩
  rcases h with h | h | h
  all_goals
    rw [HasType] at h
    simp [h]

/-! ## Calls and declarations -/

theorem classify_of_call (h : g.HasType i "FunctionCall") {l : Option Location}
    (hl : g.location (g.fields i) = .ok l) :
    ∃ callee calleeType, g.classify i = .ok (some (.call callee calleeType l)) ∧
      (isEcrecoverCall (.call callee calleeType l) = true ↔ g.CallsEcrecover i) := by
  rw [HasType] at h
  simp only [classify, h, readCall, hl]
  refine ⟨_, _, rfl, ?_⟩
  rw [isEcrecoverCall, Bool.and_eq_true, Json.equals_str_iff, Json.equals_str_iff,
    nameOf_eq_str_iff (by decide), CallsEcrecover]
  simp only [HasType, h, true_and]
  cases hexpression : Fields.get (g.fields i) "expression" with
  | record callee =>
    simp only [Datum.record.injEq, exists_eq_left', and_congr_left_iff]
    intro _
    rw [Fields.get]
    cases Fields.get? (g.fields callee) "type" with
    | none => simp
    | some d => exact value_eq_str_iff
  | _ => simp [Fields.get?]

theorem classify_of_declaration (h : g.IsDeclaration i) {l : Option Location}
    (hl : g.location (g.fields i) = .ok l) :
    ∃ scope, g.classify i
      = .ok (some (.declaration (g.nameOf (g.fields i)) (g.typeTextAt i) scope l)) := by
  rcases h with h | h | h
  all_goals
    rw [HasType] at h
    simp only [classify, h, declarationScope, readDeclaration, hl]
    exact ⟨_, rfl⟩

theorem classify_of_other (hcall : ¬ g.HasType i "FunctionCall")
    (hdeclaration : ¬ g.IsDeclaration i)
    (hlist : ∀ items, Fields.get (g.fields i) "type" ≠ .list items)
    (hrecord : ∀ id, Fields.get (g.fields i) "type" ≠ .record id) : g.classify i = .ok none := by
  rw [IsDeclaration, not_or, not_or] at hdeclaration
  obtain ⟨hvariable, hparameter, hevent⟩ := hdeclaration
  rw [HasType] at hcall hvariable hparameter hevent
  cases htype : Fields.get (g.fields i) "type" with
  | str type =>
    simp only [htype, Datum.str.injEq] at hcall hvariable hparameter hevent
    simp [classify, htype, declarationScope]
  | list items => exact absurd htype (hlist items)
  | record id => exact absurd htype (hrecord id)
  | _ => simp [classify, htype]

end Ast.Graph

/-! ## Findings of the standard rules -/

/-- The matcher with the standard rules for a set of types. -/
def standardMatcher (types : List String) : Matcher := .ofRules (defaultRules (types.map .str))

/-- The counts of both kinds. -/
def tally (calls keys : Nat) : Counts := [(.ecrecoverUsage, calls), (.keyExposure, keys)]

namespace Matcher

open Ast (Graph Location Scope)

variable {g : Graph} {i : Nat}

theorem rulesFor_call (types : List String) :
    (standardMatcher types).rulesFor .call = [ecrecoverRule] := rfl

theorem rulesFor_declaration (types : List String) :
    (standardMatcher types).rulesFor .declaration = [keyExposureRule (types.map .str)] := rfl

theorem blank_standardMatcher (types : List String) :
    (standardMatcher types).blank = { counts := tally 0 0 } := rfl

theorem fillTemplate_ecrecoverMessage (name : Json) :
    Text.fillTemplate ecrecoverMessage name = .ok ecrecoverMessage := by
  cbv

theorem fillTemplate_keyExposureMessage (name : String) :
    Text.fillTemplate keyExposureMessage (.str name)
      = .ok ("⚠ Exposes raw public key bytes '" ++ name
        ++ "' — harvestable for quantum key recovery") := by
  cbv

theorem findingOf_ecrecoverRule (callee calleeType : Json) (l : Option Location) :
    findingOf (.call callee calleeType l) ecrecoverRule
      = .ok (if isEcrecoverCall (.call callee calleeType l) then
          [⟨"PQ-001", .ecrecoverUsage, ecrecoverMessage, callee, l⟩] else []) := by
  have hfinding : ecrecoverRule.finding (.call callee calleeType l)
      = .ok ⟨"PQ-001", .ecrecoverUsage, ecrecoverMessage, callee, l⟩ := by
    rw [Rule.finding, ecrecoverRule, fillTemplate_ecrecoverMessage]
    rfl
  have happlies : ecrecoverRule.appliesTo (.call callee calleeType l)
      = .ok (isEcrecoverCall (.call callee calleeType l)) := rfl
  rw [findingOf, happlies, hfinding]
  cases isEcrecoverCall (.call callee calleeType l) <;> rfl

/-- The finding of a declaration. -/
def keyFinding (name : String) (l : Option Location) : Finding where
  rule := "PQ-002"
  kind := .keyExposure
  message := "⚠ Exposes raw public key bytes '" ++ name ++ "' — harvestable for quantum key recovery"
  name := .str name
  location := l

theorem findingOf_keyExposureRule (types : List String) (name type : String) (scope : Scope)
    (l : Option Location) :
    findingOf (.declaration (.str name) (.str type) scope l) (keyExposureRule (types.map .str))
      = .ok (if types.contains type && isKeyName name then [keyFinding name l] else []) := by
  let rule := keyExposureRule (types.map .str)
  let node := Ast.Node.declaration (.str name) (.str type) scope l
  have hfinding : rule.finding node = .ok (keyFinding name l) := by
    simp only [rule, node, Rule.finding, keyExposureRule, Ast.Node.name,
      fillTemplate_keyExposureMessage]
    rfl
  have hmember : (types.map Json.str).any (·.equals (.str type)) = types.contains type := by
    rw [Bool.eq_iff_iff]
    simp [Json.str_equals_str_iff]
  have happlies : rule.appliesTo node = .ok (types.contains type && isKeyName name) := by
    have hpredicate : rule.appliesTo node = isKeyExposure (types.map .str) node := rfl
    rw [hpredicate, isKeyExposure, hmember]
    cases types.contains type <;> rfl
  rw [findingOf, happlies, hfinding]
  cases types.contains type && isKeyName name <;> rfl

theorem findingsAt_of_call {callee calleeType : Json} {l : Option Location} (types : List String)
    (h : g.classify i = .ok (some (.call callee calleeType l))) :
    (standardMatcher types).findingsAt g i
      = findingOf (.call callee calleeType l) ecrecoverRule := by
  rw [findingsAt, h]
  simp only [Ast.Node.category, rulesFor_call, List.mapM_cons, List.mapM_nil]
  cases findingOf (.call callee calleeType l) ecrecoverRule with
  | error e => rfl
  | ok fs => exact congrArg Except.ok List.flatten_singleton

theorem findingsAt_of_declaration {name type : Json} {scope : Scope} {l : Option Location}
    (types : List String) (h : g.classify i = .ok (some (.declaration name type scope l))) :
    (standardMatcher types).findingsAt g i
      = findingOf (.declaration name type scope l) (keyExposureRule (types.map .str)) := by
  rw [findingsAt, h]
  simp only [Ast.Node.category, rulesFor_declaration, List.mapM_cons, List.mapM_nil]
  cases findingOf (.declaration name type scope l) (keyExposureRule (types.map .str)) with
  | error e => rfl
  | ok fs => exact congrArg Except.ok List.flatten_singleton

open Classical in
/-- **One record**: a legible record makes no match fail, and is found as what it is. -/
theorem findingsAt_of_legible (types : List String) (h : g.Legible i) :
    ∃ fs, (standardMatcher types).findingsAt g i = .ok fs ∧
      fs.countP (·.kind = .ecrecoverUsage) = (if g.CallsEcrecover i then 1 else 0) ∧
      fs.countP (·.kind = .keyExposure) = if g.DeclaresKey types i then 1 else 0 := by
  by_cases hcall : g.HasType i "FunctionCall"
  · obtain ⟨l, hl⟩ := (h.place (.inl hcall)).location
    obtain ⟨callee, calleeType, hclassify, hiff⟩ := Graph.classify_of_call hcall hl
    have hkey : ¬ g.DeclaresKey types i := fun hkey ↦ Graph.not_isDeclaration_of_call hcall hkey.1
    refine ⟨_, (findingsAt_of_call types hclassify).trans (findingOf_ecrecoverRule ..), ?_⟩
    by_cases hecrecover : g.CallsEcrecover i
    · simp [hiff.mpr hecrecover, hecrecover, hkey]
    · simp [mt hiff.mp hecrecover, hecrecover, hkey]
  have hecrecover : ¬ g.CallsEcrecover i := fun hecrecover ↦ hcall hecrecover.1
  by_cases hdeclaration : g.IsDeclaration i
  · obtain ⟨l, hl⟩ := (h.place (.inr hdeclaration)).location
    obtain ⟨scope, hclassify⟩ := Graph.classify_of_declaration hdeclaration hl
    obtain ⟨type, htype⟩ := h.typeName hdeclaration
    obtain ⟨name, hname, hkeyName⟩ := Graph.exists_nameOf (h.name hdeclaration)
    rw [hname, htype] at hclassify
    have hkey : g.DeclaresKey types i ↔ (types.contains type && isKeyName name) = true := by
      simp [Graph.DeclaresKey, hdeclaration, htype, hkeyName]
    refine ⟨_, (findingsAt_of_declaration types hclassify).trans (findingOf_keyExposureRule ..), ?_⟩
    simp only [hkey, hecrecover]
    cases types.contains type && isKeyName name <;> simp [keyFinding]
  · have hkey : ¬ g.DeclaresKey types i := fun hkey ↦ hdeclaration hkey.1
    refine ⟨[], ?_, by simp [hecrecover], by simp [hkey]⟩
    rw [findingsAt, Graph.classify_of_other hcall hdeclaration h.type.1 h.type.2]

/-! ## Counting -/

open Classical in
/-- Counting what is found at records is counting the records. -/
theorem countP_flatMap_eq {found : Nat → List Finding} {k : FindingKind} {P : Nat → Prop}
    {visits : List Nat}
    (h : ∀ i ∈ visits, (found i).countP (·.kind = k) = if P i then 1 else 0) :
    (visits.flatMap found).countP (·.kind = k) = visits.countP P := by
  induction visits with
  | nil => rfl
  | cons i visits ih =>
    rw [List.flatMap_cons, List.countP_append, h i List.mem_cons_self,
      ih fun j hj ↦ h j (List.mem_cons_of_mem i hj), List.countP_cons]
    by_cases hi : P i <;> simp [hi, Nat.add_comm]

open Classical in
/-- The walk meets every record that can be reached once. -/
theorem countP_visits (g : Graph) (P : Nat → Prop) :
    g.visits.countP P = {i | g.Reached i ∧ P i}.ncard := by
  have hset : {i | g.Reached i ∧ P i} = ((g.visits.filter P).toFinset : Set Nat) := by
    ext i
    simp [Graph.mem_visits]
  rw [hset, Set.ncard_coe_finset, List.toFinset_card_of_nodup, List.countP_eq_length_filter]
  exact (Graph.visits_nodup g).filter _

/-- Every finding is of one of the two kinds. -/
theorem ofKinds_both (fs : List Finding) : OfKinds [.ecrecoverUsage, .keyExposure] fs := by
  intro f _
  cases f.kind <;> decide

theorem counts_addAll (fs : List Finding) :
    (MatchResult.addAll ⟨[], tally 0 0⟩ fs).counts
      = tally (fs.countP (·.kind = .ecrecoverUsage)) (fs.countP (·.kind = .keyExposure)) :=
  congrArg MatchResult.counts (addAll_tallyOf (by decide) [] (ofKinds_both fs))

/-- The findings at a record where none makes a match fail. -/
def foundAt (m : Matcher) (g : Graph) (i : Nat) : List Finding :=
  (m.findingsAt g i).toOption.getD []

theorem foundAt_eq {m : Matcher} {fs : List Finding} (h : m.findingsAt g i = .ok fs) :
    m.foundAt g i = fs := by
  rw [foundAt, h]
  rfl

open Classical in
theorem foundAt_of_legible (types : List String) (h : g.Legible i) :
    (standardMatcher types).findingsAt g i = .ok ((standardMatcher types).foundAt g i) ∧
      ((standardMatcher types).foundAt g i).countP (·.kind = .ecrecoverUsage)
        = (if g.CallsEcrecover i then 1 else 0) ∧
      ((standardMatcher types).foundAt g i).countP (·.kind = .keyExposure)
        = if g.DeclaresKey types i then 1 else 0 := by
  obtain ⟨fs, hfs, hcounts⟩ := findingsAt_of_legible types h
  rw [foundAt_eq hfs]
  exact ⟨hfs, hcounts⟩

/-- **A whole match** with the standard rules. -/
theorem run_standardMatcher (types : List String) {t : Ast.SyntaxTree}
    (h : ∀ i, t.graph.Reached i → t.graph.Legible i) :
    ∃ r : MatchResult, (standardMatcher types).run t = .ok r ∧
      r = (standardMatcher types).blank.addAll
        (t.graph.visits.flatMap ((standardMatcher types).foundAt t.graph)) ∧
      r.counts = tally {i | t.graph.Reached i ∧ t.graph.CallsEcrecover i}.ncard
        {i | t.graph.Reached i ∧ t.graph.DeclaresKey types i}.ncard := by
  have hfound := fun i (hi : i ∈ t.graph.visits) ↦
    foundAt_of_legible types (h i (Graph.mem_visits.mp hi))
  refine ⟨_, run_eq_ok fun i hi ↦ (hfound i hi).1, rfl, ?_⟩
  rw [blank_standardMatcher, counts_addAll, countP_flatMap_eq fun i hi ↦ (hfound i hi).2.1,
    countP_visits, countP_flatMap_eq fun i hi ↦ (hfound i hi).2.2, countP_visits]

end Matcher

end QuantumRisk
