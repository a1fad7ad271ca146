import QuantumRisk.Proofs.Report.RoundTrip

/-!
# Reports on what was found

Counts are never negative and the score stays within its bounds, so the report on a match is never
rejected.
-/

namespace QuantumRisk

variable {counts : Counts}

theorem Counts.get_nonneg (h : ∀ c ∈ counts, 0 ≤ c.2) (k : FindingKind) : 0 ≤ counts.get k := by
  rw [get]
  cases hlookup : List.lookup k counts with
  | none => exact Int.le_refl 0
  | some n =>
    obtain ⟨before, after, hcounts, -⟩ := List.lookup_eq_some_iff.mp hlookup
    exact h (k, n) (by simp [hcounts])

/-- The score of counts that are not negative is a number up to the ceiling. -/
theorem exists_score (h : ∀ c ∈ counts, 0 ≤ c.2) (w : RiskWeights) :
    ∃ n : Nat, score counts w = n ∧ n ≤ w.ceiling := by
  have hraw : 0 ≤ rawScore counts w := by
    induction counts with
    | nil => exact Int.le_refl 0
    | cons c counts ih =>
      have hc := h c List.mem_cons_self
      have hrest := ih fun c hc ↦ h c (List.mem_cons_of_mem _ hc)
      exact Int.add_nonneg (Int.mul_nonneg (Int.natCast_nonneg _) hc) hrest
  refine ⟨(score counts w).toNat, ?_, ?_⟩ <;> rw [score] <;> omega

namespace Report

/-- The report with given counts and a given score. -/
theorem build_eq (contract : String) {found : MatchResult} {w : RiskWeights} {e k n : Nat}
    (he : found.count .ecrecoverUsage = e) (hk : found.count .keyExposure = k)
    (hn : score found.counts w = n) (hle : n ≤ 100) :
    build contract found w = .ok ⟨contract, e, k, n, hle, found.messages⟩ := by
  have hscore : (n : Int) ≤ 100 := Int.ofNat_le.mpr hle
  have hecrecover := integerWithin_natCast e none (by simp)
  have hkeys := integerWithin_natCast k none (by simp)
  have hrisk := integerWithin_natCast n (some 100) (by simpa using hscore)
  have hwarnings := textItems_map_str .memory [.member "warnings"] found.messages
  simp [build, ofMembers, readContract, readCount, readWarnings, Field.find, Json.lookup,
    contractField, ecrecoverField, keyExposureField, scoreField, warningsField, Validation.text,
    he, hk, hn, hecrecover, hkeys, hrisk, hwarnings, hle]

/-- **No report on a match is rejected.** -/
theorem exists_build (contract : String) {found : MatchResult} (h : ∀ c ∈ found.counts, 0 ≤ c.2)
    (w : RiskWeights) : ∃ r, build contract found w = .ok r := by
  obtain ⟨e, he⟩ := Int.eq_ofNat_of_zero_le (Counts.get_nonneg h .ecrecoverUsage)
  obtain ⟨k, hk⟩ := Int.eq_ofNat_of_zero_le (Counts.get_nonneg h .keyExposure)
  obtain ⟨n, hn, hceiling⟩ := exists_score h w
  exact ⟨_, build_eq contract he hk hn (Nat.le_trans hceiling w.ceiling_le)⟩

end Report

end QuantumRisk
