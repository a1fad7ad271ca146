import QuantumRisk.Proofs.Match.Findings
import QuantumRisk.Risk

/-!
# Counts and findings agree

A match keeps its counts beside its findings, in a table that is changed entry by entry, and the
score is computed from the table alone. `Counted` says that the table tells the truth about the
findings. It holds before the walk, where every kind of the rules stands at zero; each finding that
is added keeps it; so it holds of every match, whatever the rules and the tree are. Where every
finding has a kind that the table begins with, the table itself is known (`tallyOf`): no kind is
entered on the way.
-/

namespace QuantumRisk

/-! ## Tables of counts -/

namespace Counts

variable (cs : Counts) (k l : FindingKind) (n : Int)

theorem get_cons (c : FindingKind × Int) :
    get (c :: cs) l = if l = c.1 then c.2 else get cs l := by
  rw [get, List.lookup_cons]
  by_cases h : l = c.1
  · simp [h]
  · simp [h, beq_eq_false_iff_ne.mpr h, get]

theorem get_set : (cs.set k n).get l = if l = k then n else cs.get l := by
  induction cs with
  | nil => rw [set, get_cons]
  | cons c cs ih =>
    rw [set]
    split
    · next h =>
      subst h
      rw [get_cons, get_cons]
      split <;> rfl
    · next h =>
      rw [get_cons, ih, get_cons]
      by_cases hl : l = c.1
      · rw [if_pos hl, if_pos hl, if_neg (hl ▸ h)]
      · rw [if_neg hl, if_neg hl]

/-- A kind that is only entered counts nothing. -/
theorem get_enter : (cs.enter k).get l = cs.get l := by
  rw [enter]
  split
  · rfl
  · next hnew =>
    clear hnew
    induction cs with
    | nil =>
      rw [List.nil_append, get_cons]
      exact ite_self _
    | cons c cs ih => rw [List.cons_append, get_cons, get_cons, ih]

theorem get_increment : (cs.increment k).get l = cs.get l + if l = k then 1 else 0 := by
  rw [increment, get_set]
  split
  · next h => rw [h]
  · rw [Int.add_zero]

end Counts

section Scores

variable (cs : Counts) (k : FindingKind) (w : RiskWeights)

theorem rawScore_cons (c : FindingKind × Int) :
    rawScore (c :: cs) w = w.weight c.1 * c.2 + rawScore cs w := rfl

theorem rawScore_append (ds : Counts) :
    rawScore (cs ++ ds) w = rawScore cs w + rawScore ds w := by
  induction cs with
  | nil => exact (Int.zero_add _).symm
  | cons c cs ih => rw [List.cons_append, rawScore_cons, rawScore_cons, ih, Int.add_assoc]

/-- Setting a count changes the sum by the weight of the difference. -/
theorem rawScore_set (n : Int) :
    rawScore (cs.set k n) w = rawScore cs w + w.weight k * (n - cs.get k) := by
  induction cs with
  | nil =>
    rw [Counts.set, rawScore_cons, Int.add_comm]
    simp [Counts.get]
  | cons c cs ih =>
    rw [Counts.set, Counts.get_cons]
    split
    · next h =>
      rw [if_pos h.symm, rawScore_cons, rawScore_cons, ← h, Int.mul_sub]
      dsimp only
      omega
    · next h =>
      rw [if_neg (Ne.symm h), rawScore_cons, rawScore_cons, ih, Int.add_assoc]

theorem rawScore_enter : rawScore (cs.enter k) w = rawScore cs w := by
  rw [Counts.enter]
  split
  · rfl
  · rw [rawScore_append, rawScore_cons, Int.mul_zero]
    exact Int.add_zero _

theorem rawScore_increment : rawScore (cs.increment k) w = rawScore cs w + w.weight k := by
  have hone : cs.get k + 1 - cs.get k = 1 := by omega
  rw [Counts.increment, rawScore_set, hone, Int.mul_one]

end Scores

/-! ## Matches -/

namespace MatchResult

variable {r : MatchResult}

/-- The number of findings of a kind. -/
def found (r : MatchResult) (k : FindingKind) : Nat := r.findings.countP (·.kind = k)

/-- The counts and their score are those of the findings. -/
structure Counted (r : MatchResult) : Prop where
  count : ∀ k, r.count k = r.found k
  rawScore : ∀ w, rawScore r.counts w
    = w.weight .ecrecoverUsage * r.found .ecrecoverUsage
      + w.weight .keyExposure * r.found .keyExposure

theorem found_add (r : MatchResult) (f : Finding) (k : FindingKind) :
    (r.add f).found k = r.found k + if f.kind = k then 1 else 0 := by
  simp [found, add, List.countP_append, List.countP_singleton]

theorem Counted.add (h : r.Counted) (f : Finding) : (r.add f).Counted where
  count k := by
    rw [MatchResult.count, MatchResult.add, Counts.get_increment, ← MatchResult.count, h.count,
      ← MatchResult.add, found_add]
    simp only [eq_comm (a := k)]
    split <;> rfl
  rawScore w := by
    rw [found_add, found_add, MatchResult.add, rawScore_increment, h.rawScore]
    cases f.kind with
    | ecrecoverUsage => simp [Int.mul_add]; omega
    | keyExposure => simp [Int.mul_add]; omega

theorem Counted.addAll (h : r.Counted) (fs : List Finding) : (r.addAll fs).Counted := by
  induction fs generalizing r with
  | nil => exact h
  | cons f fs ih => exact ih (h.add f)

theorem length_findings (r : MatchResult) :
    r.findings.length = r.found .ecrecoverUsage + r.found .keyExposure := by
  rw [List.length_eq_countP_add_countP (·.kind = .ecrecoverUsage), found, found]
  congr 1
  refine List.countP_congr fun f _ ↦ ?_
  cases f.kind <;> simp

end MatchResult

namespace Matcher

/-! ## The tally -/

section Tally

variable {kinds : List FindingKind} {fs : List Finding}

/-- All findings have kinds of the table. -/
def OfKinds (kinds : List FindingKind) (fs : List Finding) : Prop := ∀ f ∈ fs, f.kind ∈ kinds

/-- The number of findings of each kind. -/
def tallyOf (kinds : List FindingKind) (fs : List Finding) : Counts :=
  kinds.map fun k ↦ (k, (fs.countP (·.kind = k) : Int))

theorem get_tallyOf {k : FindingKind} (hk : k ∈ kinds) (fs : List Finding) :
    (tallyOf kinds fs).get k = fs.countP (·.kind = k) := by
  induction kinds with
  | nil => cases hk
  | cons l kinds ih =>
    rw [tallyOf, List.map_cons, ← tallyOf, Counts.get_cons]
    split
    · next h => rw [h]
    · next h => exact ih (List.mem_of_ne_of_mem h hk)

/-- Setting the count of a kind changes that kind alone. -/
theorem set_map {k : FindingKind} (hnodup : kinds.Nodup) (hk : k ∈ kinds)
    (count : FindingKind → Int) (m : Int) :
    Counts.set (kinds.map fun l ↦ (l, count l)) k m
      = kinds.map fun l ↦ (l, if l = k then m else count l) := by
  induction kinds with
  | nil => cases hk
  | cons l kinds ih =>
    obtain ⟨hl, hrest⟩ := List.nodup_cons.mp hnodup
    rw [List.map_cons, List.map_cons, Counts.set]
    split
    · next heq =>
      subst heq
      refine congrArg _ (List.map_congr_left fun k' hk' ↦ ?_)
      have hne : k' ≠ l := fun h ↦ hl (h ▸ hk')
      rw [if_neg hne]
    · next hne => rw [ih hrest (List.mem_of_ne_of_mem (Ne.symm hne) hk)]

/-- One more finding of a kind that is in the table. -/
theorem increment_tallyOf (hnodup : kinds.Nodup) {f : Finding} (hf : f.kind ∈ kinds)
    (fs : List Finding) :
    (tallyOf kinds fs).increment f.kind = tallyOf kinds (fs ++ [f]) := by
  rw [Counts.increment, get_tallyOf hf, tallyOf, set_map hnodup hf]
  refine List.map_congr_left fun k _ ↦ ?_
  rw [List.countP_append, List.countP_singleton]
  by_cases hk : k = f.kind
  · simp [hk]
  · simp [hk, Ne.symm hk]

theorem addAll_tallyOf (hnodup : kinds.Nodup) (before : List Finding) (h : OfKinds kinds fs) :
    MatchResult.addAll ⟨before, tallyOf kinds before⟩ fs
      = ⟨before ++ fs, tallyOf kinds (before ++ fs)⟩ := by
  induction fs generalizing before with
  | nil => rw [List.append_nil]; rfl
  | cons f fs ih =>
    obtain ⟨hf, hfs⟩ := List.forall_mem_cons.mp h
    rw [MatchResult.addAll, List.foldl_cons, ← MatchResult.addAll, MatchResult.add,
      increment_tallyOf hnodup hf, ih _ hfs, List.append_assoc, List.singleton_append]

end Tally

/-! ## Every match -/

theorem counted_blank (m : Matcher) : m.blank.Counted := by
  have henter : ∀ (rules : List Rule) (cs : Counts), (∀ k, cs.get k = 0) →
      (∀ w, rawScore cs w = 0) →
      (∀ k, Counts.get (rules.foldl (fun cs r ↦ cs.enter r.kind) cs) k = 0) ∧
        ∀ w, rawScore (rules.foldl (fun cs r ↦ cs.enter r.kind) cs) w = 0 := by
    intro rules
    induction rules with
    | nil => exact fun cs hget hraw ↦ ⟨hget, hraw⟩
    | cons r rules ih =>
      intro cs hget hraw
      refine ih _ (fun k ↦ ?_) fun w ↦ ?_
      · rw [Counts.get_enter, hget]
      · rw [rawScore_enter, hraw]
  obtain ⟨hget, hraw⟩ := henter m.rules [] (fun _ ↦ rfl) fun _ ↦ rfl
  exact ⟨hget, fun w ↦ by simpa [MatchResult.found, blank] using hraw w⟩

/-- **Every match counts what it finds.** -/
theorem counted_run {m : Matcher} {t : Ast.SyntaxTree} {r : MatchResult} (h : m.run t = .ok r) :
    r.Counted := by
  rw [run_eq] at h
  cases hfound : t.graph.visits.mapM (m.findingsAt t.graph) with
  | error e =>
    rw [hfound] at h
    cases h
  | ok found =>
    rw [hfound] at h
    cases h
    exact m.counted_blank.addAll found.flatten

end Matcher

end QuantumRisk
