import Mathlib
import QuantumRisk.Proofs.Ast.Rearrangement
import QuantumRisk.Proofs.Match.Counting
import QuantumRisk.Risk

/-!
# The order does not count

A graph with its fields and items in another order gives the same counts, so the same score, and the
same findings in another order. What is found at a record is read by the names of fields; the one
exception is a declared type whose text shows a whole list or record, in the order that it has.
-/

namespace QuantumRisk

namespace Ast.Graph

variable {g g' : Graph} {i : Nat}

/-! ## Records -/

theorem Rearranged.get_eq_str_iff (h : g.Rearranged g') {key s : String} :
    Fields.get (g'.fields i) key = .str s ↔ Fields.get (g.fields i) key = .str s :=
  (h.get i key).eq_iff (by simp)

theorem Rearranged.get_eq_record_iff (h : g.Rearranged g') {key : String} {id : Nat} :
    Fields.get (g'.fields i) key = .record id ↔ Fields.get (g.fields i) key = .record id :=
  (h.get i key).eq_iff (by simp)

theorem Rearranged.get_eq_null_iff (h : g.Rearranged g') {key : String} :
    Fields.get (g'.fields i) key = .null ↔ Fields.get (g.fields i) key = .null :=
  (h.get i key).eq_iff (by simp)

theorem Rearranged.hasType_iff (h : g.Rearranged g') {type : String} :
    g'.HasType i type ↔ g.HasType i type :=
  h.get_eq_str_iff

theorem Rearranged.isDeclaration_iff (h : g.Rearranged g') :
    g'.IsDeclaration i ↔ g.IsDeclaration i := by
  simp only [IsDeclaration, h.hasType_iff]

theorem Rearranged.callsEcrecover_iff (h : g.Rearranged g') :
    g'.CallsEcrecover i ↔ g.CallsEcrecover i := by
  simp only [CallsEcrecover, h.hasType_iff, h.get_eq_record_iff, h.get_eq_str_iff]

theorem isSome_eq_of_rearranged {d d' : Datum} (h : d.Rearranged d') (hd : ∀ id, d ≠ .record id) :
    g'.isSome d' = g.isSome d := by
  cases h with
  | list hitems hperm => simp only [isSome, isEmpty_eq hitems hperm]
  | refl =>
    cases d with
    | record id => exact absurd rfl (hd id)
    | _ => rfl

theorem Rearranged.location_eq (h : g.Rearranged g') (hplaced : g.WellPlaced (g.fields i)) :
    g'.location (g'.fields i) = g.location (g.fields i) := by
  cases hplaced with
  | absent hloc =>
    have hloc' : ∀ loc, Fields.get (g'.fields i) "loc" ≠ .record loc := fun loc hloc' ↦
      hloc loc (h.get_eq_record_iff.mp hloc')
    rw [location_of_absent hloc, location_of_absent hloc']
  | @noStart loc hloc hstart hnothing =>
    have hstart' : ∀ start, Fields.get (g'.fields loc) "start" ≠ .record start :=
      fun start hstart' ↦ hstart start (h.get_eq_record_iff.mp hstart')
    have hnothing' : g'.isSome (Fields.get (g'.fields loc) "start") = false := by
      rw [isSome_eq_of_rearranged (h.get loc "start") hstart, hnothing]
    rw [location_of_noStart hloc hstart hnothing,
      location_of_noStart (h.get_eq_record_iff.mpr hloc) hstart' hnothing']
  | noLine hloc hstart hline =>
    rw [location_of_noLine hloc hstart hline, location_of_noLine (h.get_eq_record_iff.mpr hloc)
      (h.get_eq_record_iff.mpr hstart) (h.get_eq_null_iff.mpr hline)]
  | @start loc start line column hloc hstart hline hcolumn =>
    have hline' := (h.value_alike (h.get start "line")).toInteger hline
    have hcolumn' :=
      ((h.value_alike (h.get start "column")).orElse (.refl (.int 0))).toInteger hcolumn
    rw [location_of_start hloc hstart hline hcolumn, location_of_start
      (h.get_eq_record_iff.mpr hloc) (h.get_eq_record_iff.mpr hstart) hline' hcolumn']

theorem Rearranged.nameOf_eq (h : g.Rearranged g')
    (hname : Fields.get (g.fields i) "name" = .null ∨
      ∃ name, Fields.get (g.fields i) "name" = .str name) :
    g'.nameOf (g'.fields i) = g.nameOf (g.fields i) := by
  rcases hname with hnull | ⟨name, hname⟩
  · rw [nameOf_of_null hnull, nameOf_of_null (h.get_eq_null_iff.mpr hnull)]
  · rw [nameOf_of_str hname, nameOf_of_str (h.get_eq_str_iff.mpr hname)]

theorem Rearranged.typeTextAt_eq (h : g.Rearranged g')
    (hspelled : Spelled (g.value (Fields.get (g.fields i) "typeName"))) :
    g'.typeTextAt i = g.typeTextAt i :=
  typeText_eq_of_alike hspelled (h.value_alike (h.get i "typeName"))

end Ast.Graph

/-! ## Findings -/

namespace Matcher

open Ast (Graph)

variable {g g' : Graph} {i : Nat}

theorem isEcrecoverCall_callee {callee calleeType : Json} {l : Option Ast.Location}
    (h : isEcrecoverCall (.call callee calleeType l) = true) : callee = .str "ecrecover" := by
  rw [isEcrecoverCall, Bool.and_eq_true, Json.equals_str_iff, Json.equals_str_iff] at h
  exact h.2

/-- **One record** gives the same findings in both graphs. -/
theorem findingsAt_rearranged (types : List String) (h : g.Rearranged g') (hlegible : g.Legible i)
    (hspelled : g.IsDeclaration i →
      Ast.Spelled (g.value (Ast.Fields.get (g.fields i) "typeName"))) :
    (standardMatcher types).findingsAt g' i = (standardMatcher types).findingsAt g i := by
  by_cases hcall : g.HasType i "FunctionCall"
  · have hplaced := hlegible.place (.inl hcall)
    obtain ⟨l, hl⟩ := hplaced.location
    obtain ⟨callee, calleeType, hclassify, hiff⟩ := Graph.classify_of_call hcall hl
    obtain ⟨callee', calleeType', hclassify', hiff'⟩ :=
      Graph.classify_of_call (h.hasType_iff.mpr hcall) ((h.location_eq hplaced).trans hl)
    rw [findingsAt_of_call types hclassify, findingsAt_of_call types hclassify',
      findingOf_ecrecoverRule, findingOf_ecrecoverRule]
    rw [h.callsEcrecover_iff] at hiff'
    by_cases hecrecover : g.CallsEcrecover i
    · rw [if_pos (hiff.mpr hecrecover), if_pos (hiff'.mpr hecrecover),
        isEcrecoverCall_callee (hiff.mpr hecrecover), isEcrecoverCall_callee (hiff'.mpr hecrecover)]
    · rw [if_neg (mt hiff.mp hecrecover), if_neg (mt hiff'.mp hecrecover)]
  by_cases hdeclaration : g.IsDeclaration i
  · have hplaced := hlegible.place (.inr hdeclaration)
    obtain ⟨l, hl⟩ := hplaced.location
    obtain ⟨scope, hclassify⟩ := Graph.classify_of_declaration hdeclaration hl
    obtain ⟨scope', hclassify'⟩ := Graph.classify_of_declaration
      (h.isDeclaration_iff.mpr hdeclaration) ((h.location_eq hplaced).trans hl)
    obtain ⟨name, hname, -⟩ := Graph.exists_nameOf (hlegible.name hdeclaration)
    obtain ⟨type, htype⟩ := hlegible.typeName hdeclaration
    rw [hname, htype] at hclassify
    rw [h.nameOf_eq (hlegible.name hdeclaration), hname, h.typeTextAt_eq (hspelled hdeclaration),
      htype] at hclassify'
    rw [findingsAt_of_declaration types hclassify, findingsAt_of_declaration types hclassify',
      findingOf_keyExposureRule, findingOf_keyExposureRule]
  · have hlist : ∀ items, Ast.Fields.get (g'.fields i) "type" ≠ .list items := by
      intro items hitems
      have hr := h.get i "type"
      rw [hitems] at hr
      obtain ⟨items', hitems'⟩ := hr.exists_list
      exact hlegible.type.1 items' hitems'
    have hrecord : ∀ id, Ast.Fields.get (g'.fields i) "type" ≠ .record id := fun id hid ↦
      hlegible.type.2 id (h.get_eq_record_iff.mp hid)
    rw [findingsAt, findingsAt, Graph.classify_of_other hcall hdeclaration hlegible.type.1
      hlegible.type.2, Graph.classify_of_other (mt h.hasType_iff.mp hcall)
      (mt h.isDeclaration_iff.mp hdeclaration) hlist hrecord]

/-! ## Main statement -/

section Perm

variable {fs fs' : List Finding}

theorem counts_addAll_perm (types : List String) (h : fs'.Perm fs) :
    ((standardMatcher types).blank.addAll fs').counts
      = ((standardMatcher types).blank.addAll fs).counts := by
  rw [blank_standardMatcher, counts_addAll, counts_addAll, h.countP_eq, h.countP_eq]

theorem findings_addAll_perm (types : List String) (h : fs'.Perm fs) :
    ((standardMatcher types).blank.addAll fs').findings.Perm
      ((standardMatcher types).blank.addAll fs).findings := by
  rw [MatchResult.findings_addAll, MatchResult.findings_addAll]
  exact h.append_left _

end Perm

open Ast (Spelled SyntaxTree)

/-- **Exact counts in any order.** If all records that can be reached are legible, a match with the
standard rules succeeds. It counts the calls of `ecrecover` and the declarations of keys among these
records, each record once. A graph in another order, none of whose declared types shows a whole list
or record, gives the same counts and score, and the same findings and messages in another order. -/
theorem counts_reached_records (types : List String) (t : SyntaxTree)
    (hlegible : ∀ i, t.graph.Reached i → t.graph.Legible i) :
    ∃ r : MatchResult, (Matcher.ofRules (defaultRules (types.map .str))).run t = .ok r ∧
      r.counts = tally {i | t.graph.Reached i ∧ t.graph.CallsEcrecover i}.ncard
        {i | t.graph.Reached i ∧ t.graph.DeclaresKey types i}.ncard ∧
      ∀ t' : SyntaxTree, t.graph.Rearranged t'.graph →
        (∀ i, t.graph.Reached i → t.graph.IsDeclaration i →
          Spelled (t.graph.value (Ast.Fields.get (t.graph.fields i) "typeName"))) →
        ∃ r' : MatchResult, (Matcher.ofRules (defaultRules (types.map .str))).run t' = .ok r' ∧
          r'.counts = r.counts ∧ (∀ w, score r'.counts w = score r.counts w) ∧
          r'.findings.Perm r.findings ∧ r'.messages.Perm r.messages := by
  obtain ⟨r, hrun, hr, hcounts⟩ := run_standardMatcher types hlegible
  refine ⟨r, hrun, hcounts, fun t' h hspelled ↦ ?_⟩
  have hrun' : (standardMatcher types).run t' = .ok ((standardMatcher types).blank.addAll
      (t'.graph.visits.flatMap ((standardMatcher types).foundAt t.graph))) := by
    refine run_eq_ok fun i hi ↦ ?_
    have hreached : t.graph.Reached i := Graph.mem_visits.mp (h.visits_perm.mem_iff.mp hi)
    rw [findingsAt_rearranged types h (hlegible i hreached) (hspelled i hreached)]
    exact (foundAt_of_legible types (hlegible i hreached)).1
  have hperm := h.visits_perm.flatMap_right ((standardMatcher types).foundAt t.graph)
  have hcounts' := counts_addAll_perm types hperm
  rw [← hr] at hcounts'
  have hfindings := findings_addAll_perm types hperm
  rw [← hr] at hfindings
  refine ⟨_, hrun', hcounts', fun w ↦ by rw [hcounts'], hfindings, hfindings.map _⟩

/-! ## A contract in a knot -/

/-- A contract that holds a call twice and a declaration; the call holds the contract. -/
def knot (children : List Ast.Datum) (call : Ast.Fields) : Graph where
  records := #[[("type", .str "SourceUnit"), ("children", .list children)],
    call,
    [("type", .str "VariableDeclaration"), ("typeName", .record 4), ("name", .str "pubKey")],
    [("type", .str "Identifier"), ("name", .str "ecrecover")],
    [("type", .str "ElementaryTypeName"), ("name", .str "bytes32")]]
  root := 0

def tightKnot : Graph := knot [.record 1, .record 2, .record 1]
  [("type", .str "FunctionCall"), ("expression", .record 3), ("arguments", .list [.record 0])]

/-- The same contract in another order. -/
def looseKnot : Graph := knot [.record 2, .record 1, .record 1]
  [("arguments", .list [.record 0]), ("expression", .record 3), ("type", .str "FunctionCall")]

theorem visits_tightKnot : tightKnot.visits = [0, 1, 3, 2, 4] := by cbv

theorem reached_tightKnot : tightKnot.Reached i ↔ i = 0 ∨ i = 1 ∨ i = 3 ∨ i = 2 ∨ i = 4 := by
  simp [← Graph.mem_visits, visits_tightKnot]

theorem typeName_tightKnot : tightKnot.value (Ast.Fields.get (tightKnot.fields 2) "typeName")
    = .obj [("type", .str "ElementaryTypeName"), ("name", .str "bytes32")] := by
  rw [show Ast.Fields.get (tightKnot.fields 2) "typeName" = .record 4 from rfl]
  cbv

theorem typeTextAt_tightKnot : tightKnot.typeTextAt 2 = .str "bytes32" := by
  rw [Graph.typeTextAt, typeName_tightKnot, Ast.typeText_elementary (by simp [Json.lookup])]
  simp [Ast.memberOrEmpty, Json.lookup]

theorem isDeclaration_tightKnot (h : tightKnot.Reached i)
    (hdeclaration : tightKnot.IsDeclaration i) : i = 2 := by
  rcases reached_tightKnot.mp h with rfl | rfl | rfl | rfl | rfl
  case inr.inr.inr.inl => rfl
  all_goals
    rcases hdeclaration with h | h | h
    all_goals exact absurd (Ast.Datum.str.inj h) (by decide)

theorem legible_tightKnot (h : tightKnot.Reached i) : tightKnot.Legible i := by
  rcases reached_tightKnot.mp h with rfl | rfl | rfl | rfl | rfl
  · exact Graph.legible_of_other (show tightKnot.HasType 0 "SourceUnit" from rfl) (by decide)
  · exact Graph.legible_of_call rfl (Graph.wellPlaced_of_null rfl)
  · exact Graph.legible_of_other (show tightKnot.HasType 3 "Identifier" from rfl) (by decide)
  · exact Graph.legible_of_declaration (.inl rfl) (Graph.wellPlaced_of_null rfl)
      (.inr ⟨"pubKey", rfl⟩) ⟨"bytes32", typeTextAt_tightKnot⟩
  · exact Graph.legible_of_other (show tightKnot.HasType 4 "ElementaryTypeName" from rfl)
      (by decide)

theorem rearranged_tightKnot : tightKnot.Rearranged looseKnot := by
  have hchildren : Ast.Datum.Rearranged (.list [.record 1, .record 2, .record 1])
      (.list [.record 2, .record 1, .record 1]) :=
    .list (List.forall₂_same.mpr fun d _ ↦ .refl d) (List.Perm.swap ..)
  refine Graph.rearranged_of_records rfl rfl fun i (hi : i < 5) ↦ ?_
  interval_cases i
  · exact ⟨by decide, looseKnot.fields 0, .cons ⟨rfl, .refl _⟩ (.cons ⟨rfl, hchildren⟩ .nil),
      .refl _⟩
  · exact ⟨by decide, .of_perm (List.reverse_perm (tightKnot.fields 1)).symm⟩
  · exact ⟨by decide, .refl _⟩
  · exact ⟨by decide, .refl _⟩
  · exact ⟨by decide, .refl _⟩

theorem callsEcrecover_tightKnot :
    {i | tightKnot.Reached i ∧ tightKnot.CallsEcrecover i} = {1} := by
  ext i
  simp only [Set.mem_ofPred_eq, Set.mem_singleton_iff, reached_tightKnot]
  constructor
  · rintro ⟨rfl | rfl | rfl | rfl | rfl, htype, -⟩
    · exact absurd (Ast.Datum.str.inj htype) (by decide)
    · rfl
    · exact absurd (Ast.Datum.str.inj htype) (by decide)
    · exact absurd (Ast.Datum.str.inj htype) (by decide)
    · exact absurd (Ast.Datum.str.inj htype) (by decide)
  · rintro rfl
    exact ⟨by simp, rfl, 3, rfl, rfl, rfl⟩

theorem declaresKey_tightKnot :
    {i | tightKnot.Reached i ∧ tightKnot.DeclaresKey ["bytes32"] i} = {2} := by
  ext i
  simp only [Set.mem_ofPred_eq, Set.mem_singleton_iff]
  constructor
  · exact fun h ↦ isDeclaration_tightKnot h.1 h.2.1
  · rintro rfl
    exact ⟨reached_tightKnot.mpr (by decide), .inl rfl, ⟨"bytes32", by simp, typeTextAt_tightKnot⟩,
      "pubKey", rfl, isKeyName_iff.mp (by cbv)⟩

theorem spelled_tightKnot (h : tightKnot.Reached i) (hdeclaration : tightKnot.IsDeclaration i) :
    Spelled (tightKnot.value (Ast.Fields.get (tightKnot.fields i) "typeName")) := by
  rw [isDeclaration_tightKnot h hdeclaration, typeName_tightKnot]
  exact .elementary (by simp [Json.lookup]) (by simp [Ast.memberOrEmpty, Json.lookup, Json.isPlain])

/-- The call that is met twice and the declaration are counted once each, in both orders. -/
theorem counts_reached_records_knot : ∃ r r' : MatchResult,
    (Matcher.ofRules (defaultRules (["bytes32"].map .str))).run ⟨tightKnot, "", []⟩ = .ok r ∧
    (Matcher.ofRules (defaultRules (["bytes32"].map .str))).run ⟨looseKnot, "", []⟩ = .ok r' ∧
    r.counts = tally 1 1 ∧ r'.counts = tally 1 1 ∧ r'.findings.Perm r.findings := by
  obtain ⟨r, hrun, hcounts, hrearranged⟩ := counts_reached_records ["bytes32"] ⟨tightKnot, "", []⟩
    fun i ↦ legible_tightKnot
  obtain ⟨r', hrun', hcounts', -, hperm, -⟩ := hrearranged ⟨looseKnot, "", []⟩ rearranged_tightKnot
    fun i ↦ spelled_tightKnot
  rw [callsEcrecover_tightKnot, declaresKey_tightKnot, Set.ncard_singleton, Set.ncard_singleton]
    at hcounts
  exact ⟨r, r', hrun, hrun', hcounts, hcounts'.trans hcounts, hperm⟩

/-! ## What the order can change -/

/-- A declaration of a key. Its type has a record for a name, which the text of the type shows. -/
def named (name : Ast.Fields) : Graph where
  records := #[
    [("type", .str "VariableDeclaration"), ("typeName", .record 1), ("name", .str "key")],
    [("type", .str "T"), ("name", .record 2)],
    name]
  root := 0

theorem typeTextAt_named (name : Ast.Fields) {members : List (String × Json)}
    (h : (named name).value (.record 1) = .obj [("type", .str "T"), ("name", .obj members)]) :
    (named name).typeTextAt 0 = .str (Json.obj members).display := by
  rw [Graph.typeTextAt, show Ast.Fields.get ((named name).fields 0) "typeName" = .record 1 from rfl,
    h, Ast.typeText_other (by simp [Ast.typeForms, Json.lookup])]
  simp [Ast.memberOrEmpty, Json.lookup]

theorem run_named {name : Ast.Fields} {text : String} (types : List String)
    (hvisits : (named name).visits = [0, 1, 2]) (huntyped : Ast.Fields.get name "type" = .null)
    (htext : (named name).typeTextAt 0 = .str text) :
    ∃ r : MatchResult, (standardMatcher types).run ⟨named name, "", []⟩ = .ok r ∧
      r.counts = tally 0 (if types.contains text then 1 else 0) := by
  let found (i : Nat) : List Finding :=
    if i = 0 && types.contains text then [keyFinding "key" none] else []
  have hfound (i : Nat) (hi : i ∈ (named name).visits) :
      (standardMatcher types).findingsAt (named name) i = .ok (found i) := by
    simp only [hvisits, List.mem_cons, List.not_mem_nil, or_false] at hi
    rcases hi with rfl | rfl | rfl
    · obtain ⟨scope, hclassify⟩ := Graph.classify_of_declaration (g := named name) (i := 0)
        (.inl rfl) (l := none) rfl
      rw [htext, Graph.nameOf_of_str rfl] at hclassify
      rw [findingsAt_of_declaration types hclassify, findingOf_keyExposureRule]
      simp [found, show isKeyName "key" = true from by cbv]
    · rw [findingsAt, show (named name).classify 1 = .ok none from rfl]
      rfl
    · have huntyped' : Ast.Fields.get ((named name).fields 2) "type" = .null := huntyped
      rw [findingsAt, Graph.classify]
      simp [huntyped', found]
  refine ⟨_, run_eq_ok hfound, ?_⟩
  rw [blank_standardMatcher, counts_addAll, hvisits]
  by_cases hmember : text ∈ types <;> simp [found, hmember, keyFinding]

/-- **Neither part holds of all graphs.** A list in place of a type makes a match fail. The order of
the fields shows where a record is the name of a type. -/
theorem order_can_change_counts :
    (Matcher.ofRules (defaultRules [])).run ⟨⟨#[[("type", .list [])]], 0⟩, "", []⟩
      = .error (.data (.unhashable "list")) ∧
    ∃ t t' : SyntaxTree, t.graph.Rearranged t'.graph ∧ ∃ (types : List String) (r r' : MatchResult),
      (Matcher.ofRules (defaultRules (types.map .str))).run t = .ok r ∧
      (Matcher.ofRules (defaultRules (types.map .str))).run t' = .ok r' ∧
      r.counts = tally 0 1 ∧ r'.counts = tally 0 0 := by
  refine ⟨by cbv, ⟨named [("a", .int 1), ("b", .int 2)], "", []⟩,
    ⟨named [("b", .int 2), ("a", .int 1)], "", []⟩, ?_, ["\x7b'a': 1, 'b': 2\x7d"], ?_⟩
  · refine Graph.rearranged_of_records rfl rfl fun i (hi : i < 3) ↦ ?_
    interval_cases i
    · exact ⟨by decide, .refl _⟩
    · exact ⟨by decide, .refl _⟩
    · exact ⟨by decide, .of_perm (List.Perm.swap ..)⟩
  · have htext := typeTextAt_named [("a", .int 1), ("b", .int 2)] (by cbv)
    have htext' := typeTextAt_named [("b", .int 2), ("a", .int 1)] (by cbv)
    have hshown : (Json.obj [("a", .int 1), ("b", .int 2)]).display
        = "\x7b'a': 1, 'b': 2\x7d" := by cbv
    have hshown' : (Json.obj [("b", .int 2), ("a", .int 1)]).display
        = "\x7b'b': 2, 'a': 1\x7d" := by cbv
    rw [hshown] at htext
    rw [hshown'] at htext'
    obtain ⟨r, hrun, hcounts⟩ := run_named ["\x7b'a': 1, 'b': 2\x7d"] (by cbv) rfl htext
    obtain ⟨r', hrun', hcounts'⟩ := run_named ["\x7b'a': 1, 'b': 2\x7d"] (by cbv) rfl htext'
    exact ⟨r, r', hrun, hrun', by simpa using hcounts, by simpa using hcounts'⟩

end Matcher

end QuantumRisk
