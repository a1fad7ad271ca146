import QuantumRisk.Proofs.Json.Visible
import QuantumRisk.Report

/-!
# Saved reports can be read back

A saved report is read back field by field: the text of a report is the report again,
`ofText_text`, and it has no carriage return, so it also survives a text file. The bounds that the
reader checks are those that a report carries with it, so they are never the reason for a rejection.
-/

namespace QuantumRisk.Report

open Validation

theorem exactItems_map_str (ws : List String) : Json.ExactItems (ws.map .str) := by
  induction ws with
  | nil => trivial
  | cons w ws ih => exact ⟨trivial, ih⟩

theorem exact_toJson (r : Report) : r.toJson.Exact := by
  refine ⟨?_, trivial, trivial, trivial, trivial, exactItems_map_str r.warnings, trivial⟩
  simp

theorem carriageReturn_notMem_text (r : Report) : '\r' ∉ r.text.toList :=
  Json.carriageReturn_notMem_render .report r.exact_toJson

/-! ## Fields -/

theorem integerWithin_natCast (n : Nat) (high : Option Int) (h : ∀ b ∈ high, (n : Int) ≤ b) :
    integerWithin (some 0) high (.int n) = .ok n := by
  have hlow : ¬ (n : Int) < 0 := by omega
  cases high with
  | none => simp [integerWithin, integer, hlow, bind, Except.bind, pure, Except.pure]
  | some b =>
    have hb : ¬ b < (n : Int) := by
      have := h b rfl
      omega
    simp [integerWithin, integer, hlow, hb, bind, Except.bind, pure, Except.pure]

theorem textItems_map_str (origin : Origin) (place : List Step) (ws : List String) :
    textItems origin place (.arr (ws.map .str)) = .ok ws := by
  have hnone : ((ws.map Json.str).mapIdx fun i v ↦
      complaintAt (place ++ [.item i]) (Validation.text v)).flatten = [] := by
    rw [List.flatten_eq_nil_iff]
    intro cs hcs
    obtain ⟨i, hi, rfl⟩ := List.mem_mapIdx.mp hcs
    rw [List.getElem_map]
    rfl
  simp only [textItems, hnone]
  refine congrArg Except.ok ?_
  rw [List.filterMap_map]
  exact List.filterMap_some

/-- The members of a saved report give the report back. -/
theorem ofJson_toJson (r : Report) : ofJson .text r.toJson = .ok r := by
  have hscore : (r.riskScore : Int) ≤ 100 := Int.ofNat_le.mpr r.score_le
  have he := integerWithin_natCast r.ecrecoverCount none (by simp)
  have hk := integerWithin_natCast r.keyExposureCount none (by simp)
  have hs := integerWithin_natCast r.riskScore (some 100) (by simpa using hscore)
  have hw := textItems_map_str .text [.member "warnings"] r.warnings
  simp [toJson, ofJson, ofMembers, readContract, readCount, readWarnings, Field.find, Json.lookup,
    contractField, ecrecoverField, keyExposureField, scoreField, warningsField, Validation.text,
    he, hk, hs, hw, r.score_le]

/-- **The text of a report is the report.** -/
theorem ofText_text (r : Report) : ofText r.text = .ok r := by
  rw [ofText, text, Json.parse?_render .report r.exact_toJson]
  exact ofJson_toJson r

end QuantumRisk.Report
