import Mathlib.Data.List.Forall2
import QuantumRisk.Grammar.Network

/-!
# The parts of rules

A rule calls other rules, and their nodes become parts of its own. Say which parts a node may have,
as a relation between rule numbers. Whether a rule keeps to it can be read off its branches
(`Branch.fits`), and neither resolving left recursion nor laying out the network changes that: what
the steps of a procedure call, the branches of its rule call (`Network.fits_procedure`).
-/

namespace QuantumRisk.Grammar

variable (may : Nat → Nat → Bool) (r : Nat)

/-! ## Phrases and steps -/

mutual

/-- Does a phrase of rule `r` lead only to parts that nodes of `r` may have? An operator has the
node that it extends as a part. -/
def Phrase.fits : Phrase → Bool
  | .token _ => true
  | .oneOf _ => true
  | .call q _ => may r q
  | .extend _ => may r r
  | .choice bs => branchesFit bs
  | .optional bs => branchesFit bs
  | .star bs => branchesFit bs
  | .plus bs => branchesFit bs

def Branch.fits : List Phrase → Bool
  | [] => true
  | p :: ps => p.fits && Branch.fits ps

def branchesFit : List (List Phrase) → Bool
  | [] => true
  | b :: bs => Branch.fits b && branchesFit bs

end

mutual

/-- Does a step of rule `r` lead only to parts that nodes of `r` may have? -/
def Step.fits : Step → Bool
  | .token _ _ => true
  | .oneOf _ _ => true
  | .call _ q _ => may r q
  | .extend _ _ => may r r
  | .choice _ bs => pathsFit bs
  | .optional _ bs => pathsFit bs
  | .star _ _ body => stepsFit body
  | .plus _ _ body => stepsFit body

def stepsFit : List Step → Bool
  | [] => true
  | s :: ss => s.fits && stepsFit ss

def pathsFit : List (List Step) → Bool
  | [] => true
  | b :: bs => stepsFit b && pathsFit bs

end

def Body.fits : Body → Bool
  | .plain bs => branchesFit may r bs
  | .climbed primaries operators => branchesFit may r primaries && branchesFit may r operators

variable {may r}

theorem Branch.fits_iff {b : Branch} : Branch.fits may r b ↔ ∀ p ∈ b, p.fits may r := by
  induction b with
  | nil => simp [fits]
  | cons p ps ih => simp [fits, ih]

theorem branchesFit_iff {bs : List Branch} :
    branchesFit may r bs ↔ ∀ b ∈ bs, Branch.fits may r b := by
  induction bs with
  | nil => simp [branchesFit]
  | cons b bs ih => simp [branchesFit, ih]

theorem pathsFit_iff {bs : List (List Step)} :
    pathsFit may r bs ↔ ∀ b ∈ bs, stepsFit may r b := by
  induction bs with
  | nil => simp [pathsFit]
  | cons b bs ih => simp [pathsFit, ih]

/-! ## Left recursion -/

namespace Branch

variable {b b' : Branch} {level : Nat}

theorem fits_closeAt (h : fits may r b) (hr : endsWith r b) : fits may r (closeAt r level b) := by
  rw [fits_iff] at h ⊢
  rw [endsWith] at hr
  have hself : may r r := by
    split at hr
    · next q level hlast =>
      have hq : q = r := by simpa using hr
      have hcall := h _ (List.mem_of_getLast? hlast)
      rwa [Phrase.fits, hq] at hcall
    · cases hr
  intro p hp
  rcases List.mem_append.mp hp with hp | hp
  · exact h p (List.dropLast_subset b hp)
  · rw [List.mem_singleton.mp hp, Phrase.fits]
    exact hself

theorem fits_of_startsWith (h : fits may r b) (hr : startsWith r b) :
    may r r ∧ fits may r b.tail := by
  unfold startsWith at hr
  split at hr
  · next q level rest =>
    have hq : q = r := by simpa using hr
    rw [fits, Phrase.fits, hq, Bool.and_eq_true] at h
    exact h
  · cases hr

theorem fits_primary? (h : fits may r b) (hb : primary? r level b = some b') : fits may r b' := by
  rw [primary?] at hb
  split at hb
  · cases hb
  · split at hb
    · next hends =>
      cases hb
      exact fits_closeAt h hends
    · cases hb
      exact h

theorem fits_binary? (h : fits may r b) (hb : binary? r level b = some b') : fits may r b' := by
  rw [binary?] at hb
  split at hb
  · next hboth =>
    cases hb
    obtain ⟨hstarts, hends⟩ := Bool.and_eq_true_iff.mp hboth
    obtain ⟨hself, htail⟩ := fits_of_startsWith h hstarts
    rw [fits, Phrase.fits, hself, fits_closeAt htail hends]
    rfl
  · cases hb

theorem fits_suffix? (h : fits may r b) (hb : suffix? r level b = some b') : fits may r b' := by
  rw [suffix?] at hb
  split at hb
  · next hboth =>
    cases hb
    obtain ⟨hself, htail⟩ := fits_of_startsWith h (Bool.and_eq_true_iff.mp hboth).1
    rw [fits, Phrase.fits, hself, htail]
    rfl
  · cases hb

end Branch

theorem Rule.fits_of_mem_graded {rule : Rule} {level : Nat} {b : Branch}
    (h : branchesFit may r rule.branches) (hb : (level, b) ∈ rule.graded) :
    Branch.fits may r b := by
  obtain ⟨⟨i, b'⟩, hmem, heq⟩ := List.mem_map.mp hb
  cases heq
  exact branchesFit_iff.mp h _ (List.of_mem_zip hmem).2

/-- Resolving left recursion leaves the parts as they are. -/
theorem Rule.fits_climb {rule : Rule} (h : branchesFit may r rule.branches) :
    (rule.climb r).fits may r := by
  unfold climb
  split
  · simp only [Body.fits, Bool.and_eq_true, branchesFit_iff, List.mem_append, List.mem_filterMap]
    refine ⟨?_, ?_⟩
    · rintro b ⟨⟨level, b'⟩, hb', hb⟩
      exact Branch.fits_primary? (fits_of_mem_graded h hb') hb
    · rintro b (⟨⟨level, b'⟩, hb', hb⟩ | ⟨⟨level, b'⟩, hb', hb⟩)
      · exact Branch.fits_binary? (fits_of_mem_graded h hb') hb
      · exact Branch.fits_suffix? (fits_of_mem_graded h hb') hb
  · exact h

/-! ## Layout -/

namespace Network.Layout

theorem stepsFit_loopBody (s : Nat) (bs : List (List Step)) :
    stepsFit may r (loopBody s bs) = pathsFit may r bs := by
  unfold loopBody
  split
  · rw [pathsFit, pathsFit, Bool.and_true]
  · rw [stepsFit, stepsFit, Step.fits, Bool.and_true]

mutual

theorem fits_phrase (p : Phrase) (target : Nat) (plan : Plan) :
    ((phrase r target p).run plan).1.2.fits may r = p.fits may r := by
  -- The steps are read off the end of a layout, whatever states it makes before.
  cases p with
  | token kind => rfl
  | oneOf kinds => rfl
  | call q level => rfl
  | extend level => rfl
  | choice bs => exact fits_branches bs _ _
  | optional bs => exact fits_branches bs _ _
  | star bs => exact (stepsFit_loopBody _ _).trans (fits_branches bs _ _)
  | plus bs => exact (stepsFit_loopBody _ _).trans (fits_branches bs _ _)

theorem fits_sequence (ps : List Phrase) (target : Nat) (plan : Plan) :
    stepsFit may r ((sequence r target ps).run plan).1.2 = Branch.fits may r ps := by
  cases ps with
  | nil => rfl
  | cons p ps => exact congrArg₂ and (fits_phrase p _ _) (fits_sequence ps _ _)

theorem fits_branches (bs : List (List Phrase)) (closing : Nat) (plan : Plan) :
    pathsFit may r (paths ((branches r closing bs).run plan).1) = branchesFit may r bs := by
  cases bs with
  | nil => rfl
  | cons b bs => exact congrArg₂ and (fits_sequence b _ _) (fits_branches bs _ _)

end

theorem fits_rule {body : Body} (h : body.fits may r) (plan : Plan) :
    stepsFit may r ((rule r body).run plan).1.steps := by
  cases body with
  | plain bs =>
    cases bs with
    | nil => rfl
    | cons b bs =>
      cases bs with
      | nil => exact (fits_sequence b _ _).trans (by simpa [Body.fits, branchesFit] using h)
      | cons b' bs =>
        exact congrArg₂ and ((fits_phrase (.choice (b :: b' :: bs)) (stopOf r) plan).trans h) rfl
  | climbed primaries operators =>
    rw [Body.fits, Bool.and_eq_true] at h
    have hloop := (fits_phrase (.star operators) (stopOf r) plan).trans h.2
    have hfirst (entry : Nat) (plan : Plan) :=
      (fits_phrase (.choice primaries) entry plan).trans h.1
    exact congrArg₂ and (hfirst ((phrase r (stopOf r) (.star operators)).run plan).1.1 _)
      (congrArg₂ and hloop rfl)

/-- Each rule is laid out with the parts that it has, whatever was laid out before. -/
theorem fits_rules {l : Language} (h : ∀ r, branchesFit may r (l.rules.getD r default).branches)
    (plan : Plan) :
    List.Forall₂ (fun r p ↦ stepsFit may r p.steps) (List.range l.rules.size)
      ((rules l).run plan).1 := by
  rw [rules]
  induction List.range l.rules.size generalizing plan with
  | nil => exact .nil
  | cons r rs ih =>
    rw [List.mapM_cons]
    exact .cons (fits_rule (Rule.fits_climb (h r)) plan) (ih _)

end Network.Layout

/-- **The procedure of a rule** leads to the parts that the branches of the rule lead to. -/
theorem Network.fits_procedure {l : Language}
    (h : ∀ r, branchesFit may r (l.rules.getD r default).branches) (r : Nat) :
    stepsFit may r ((ofLanguage l).procedure r).steps := by
  obtain ⟨plan, hprocedures⟩ : ∃ plan,
      (ofLanguage l).procedures = ((Layout.rules l).run plan).1.toArray := ⟨_, rfl⟩
  have hfits := Layout.fits_rules h plan
  rw [procedure, hprocedures, Array.getD_eq_getD_getElem?, List.getElem?_toArray]
  by_cases hr : r < ((Layout.rules l).run plan).1.length
  · rw [List.getElem?_eq_getElem hr]
    have hget := hfits.get (hfits.length_eq.symm ▸ hr) hr
    simpa using hget
  · rw [List.getElem?_eq_none (Nat.le_of_not_lt hr)]
    rfl

end QuantumRisk.Grammar
