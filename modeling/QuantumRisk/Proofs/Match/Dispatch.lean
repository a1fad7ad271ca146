import Mathlib
import QuantumRisk.Proofs.Match.Extension

/-!
# Dispatch by category

A matcher sorts its rules by category and tries at a node only those of the node's category. It is
short for something simpler: every rule of the table is asked at every node, in the order of the
table (`askAlong`). A rule of another category is asked for nothing but its category, so it finds
nothing and cannot fail. Leaving it out changes neither a finding nor the fault that comes first.

The counts begin with the kinds of the table and grow with the findings. Every finding has the kind
of a rule, so growing never enters a new kind, and at the end the counts are a tally of the findings
over the kinds of the table.
-/

namespace QuantumRisk.Matcher

open Ast (Graph Node SyntaxTree)

variable {n : Node} {rules : List Rule} {fs : List Finding}

/-! ## Asking every rule -/

/-- What rules find at a node if all are asked, one after another. -/
def askRules (n : Node) : List Rule → Except MatchFault (List Finding)
  | [] => .ok []
  | r :: rules =>
    match r.appliesTo n with
    | .error e => .error (.data e)
    | .ok false => askRules n rules
    | .ok true =>
      match r.finding n with
      | .error e => .error (.template e)
      | .ok f => (askRules n rules).map (f :: ·)

/-- What rules find along a walk if all are asked at each node. -/
def askAlong (rules : List Rule) (g : Graph) : List Nat → Except MatchFault (List Finding)
  | [] => .ok []
  | i :: ids =>
    match g.classify i with
    | .error e => .error (.data e)
    | .ok none => askAlong rules g ids
    | .ok (some n) =>
      match askRules n rules with
      | .error e => .error e
      | .ok fs => (askAlong rules g ids).map (fs ++ ·)

theorem askRules_eq (n : Node) (rules : List Rule) :
    askRules n rules = (rules.mapM (findingOf n)).map List.flatten := by
  induction rules with
  | nil => rfl
  | cons r rules ih =>
    rw [map_flatten_mapM_cons, ← ih, askRules, findingOf]
    cases r.appliesTo n with
    | error e => rfl
    | ok applies =>
      cases applies with
      | false => cases askRules n rules <;> rfl
      | true => cases r.finding n <;> rfl

/-- A rule of another category does not apply, and need not be asked. -/
theorem askRules_filter (n : Node) (rules : List Rule) :
    askRules n (rules.filter (·.category = n.category)) = askRules n rules := by
  induction rules with
  | nil => rfl
  | cons r rules ih =>
    by_cases hr : r.category = n.category
    · rw [List.filter_cons_of_pos (by simpa using hr), askRules, askRules, ih]
    · have hother : r.appliesTo n = .ok false := if_neg (Ne.symm hr)
      rw [List.filter_cons_of_neg (by simpa using hr), ih, askRules, hother]

theorem findingsAt_ofRules (rules : List Rule) (g : Graph) (id : Nat) :
    (ofRules rules).findingsAt g id = match g.classify id with
      | .error e => .error (.data e)
      | .ok none => .ok []
      | .ok (some n) => askRules n rules := by
  rw [findingsAt]
  cases g.classify id with
  | error e => rfl
  | ok node =>
    cases node with
    | none => rfl
    | some n => simp only [rulesFor_ofRules, ← askRules_eq, askRules_filter]

theorem askAlong_eq (rules : List Rule) (g : Graph) (ids : List Nat) :
    askAlong rules g ids
      = (ids.mapM ((ofRules rules).findingsAt g)).map List.flatten := by
  induction ids with
  | nil => rfl
  | cons i ids ih =>
    rw [map_flatten_mapM_cons, ← ih, findingsAt_ofRules, askAlong]
    cases g.classify i with
    | error e => rfl
    | ok node =>
      cases node with
      | none => cases askAlong rules g ids <;> rfl
      | some n =>
        dsimp only
        cases askRules n rules <;> rfl

/-! ## Kinds of findings -/

theorem exists_of_map_eq_ok {ε α β : Type} {x : Except ε α} {f : α → β} {b : β}
    (h : x.map f = .ok b) : ∃ a, x = .ok a ∧ f a = b := by
  cases x with
  | error e => cases h
  | ok a => exact ⟨a, rfl, Except.ok.inj h⟩

theorem kind_of_finding {r : Rule} {f : Finding} (h : r.finding n = .ok f) : f.kind = r.kind := by
  rw [Rule.finding] at h
  obtain ⟨message, -, hf⟩ := exists_of_bind_eq_ok h
  cases hf
  rfl

theorem ofKinds_askRules (h : askRules n rules = .ok fs) : OfKinds (rules.map (·.kind)) fs := by
  induction rules generalizing fs with
  | nil =>
    cases h
    exact fun f hf ↦ absurd hf List.not_mem_nil
  | cons r rules ih =>
    have hmono {fs : List Finding} (h : OfKinds (rules.map (·.kind)) fs) :
        OfKinds ((r :: rules).map (·.kind)) fs := fun f hf ↦ List.mem_cons_of_mem _ (h f hf)
    rw [askRules] at h
    split at h
    · cases h
    · exact hmono (ih h)
    · split at h
      · cases h
      · next f hf =>
        obtain ⟨fs', hrest, rfl⟩ := exists_of_map_eq_ok h
        refine List.forall_mem_cons.mpr ⟨?_, hmono (ih hrest)⟩
        rw [kind_of_finding hf]
        exact List.mem_cons_self

theorem ofKinds_askAlong {g : Graph} {ids : List Nat} (h : askAlong rules g ids = .ok fs) :
    OfKinds (rules.map (·.kind)) fs := by
  induction ids generalizing fs with
  | nil =>
    cases h
    exact fun f hf ↦ absurd hf List.not_mem_nil
  | cons i ids ih =>
    rw [askAlong] at h
    split at h
    · cases h
    · exact ih h
    · split at h
      · cases h
      · next found hfound =>
        obtain ⟨more, hmore, rfl⟩ := exists_of_map_eq_ok h
        exact List.forall_mem_append.mpr ⟨ofKinds_askRules hfound, ih hmore⟩

/-! ## The kinds of a table -/

theorem nodup_eraseDups {α : Type} [DecidableEq α] (xs : List α) : xs.eraseDups.Nodup := by
  cases xs with
  | nil => exact List.nodup_nil
  | cons x xs =>
    rw [List.eraseDups_cons, List.nodup_cons, List.mem_eraseDups]
    exact ⟨by simp, nodup_eraseDups _⟩
termination_by xs.length
decreasing_by exact Nat.lt_succ_of_le (List.length_filter_le _ _)

/-- Entering the kinds of rules one by one puts each behind those before it, once. -/
theorem foldl_enter (rules : List Rule) (cs : Counts) :
    rules.foldl (fun cs r ↦ cs.enter r.kind) cs
      = cs ++ tallyOf (((rules.map (·.kind)).filter fun k ↦ !cs.any (·.1 = k)).eraseDups) [] := by
  induction rules generalizing cs with
  | nil => exact (List.append_nil cs).symm
  | cons r rules ih =>
    rw [List.foldl_cons, List.map_cons, ih, Counts.enter]
    by_cases hr : cs.any (·.1 = r.kind) = true
    · rw [if_pos hr, List.filter_cons_of_neg (by simp [hr])]
    · rw [if_neg hr, List.filter_cons_of_pos (by simp [hr]), List.eraseDups_cons,
        List.filter_filter, List.append_assoc]
      congr 1
      refine congrArg (fun ks ↦ (r.kind, (0 : Int)) :: tallyOf (List.eraseDups ks) []) ?_
      refine List.filter_congr fun k _ ↦ ?_
      by_cases hk : k = r.kind
      · simp [hk]
      · simp [hk, Ne.symm hk]

theorem counts_blank (rules : List Rule) :
    (ofRules rules).blank.counts = tallyOf (rules.map (·.kind)).eraseDups [] := by
  rw [blank, foldl_enter, List.filter_eq_self.mpr (by simp)]
  rfl

/-- If no kind is missing, the tally counts every finding once. -/
theorem sum_tallyOf {kinds : List FindingKind} (hnodup : kinds.Nodup) (h : OfKinds kinds fs) :
    ((tallyOf kinds fs).map (·.2)).sum = fs.length := by
  induction fs with
  | nil => simp [tallyOf, Function.comp_def]
  | cons f fs ih =>
    obtain ⟨hf, hfs⟩ := List.forall_mem_cons.mp h
    have hone : (kinds.map fun k ↦ if k = f.kind then (1 : Int) else 0).sum = 1 := by
      rw [List.sum_map_ite_eq, List.count_eq_one_of_mem hnodup hf]
      simp
    have hsplit : (tallyOf kinds (f :: fs)).map (·.2)
        = kinds.map fun k ↦ (fs.countP (·.kind = k) : Int) + if k = f.kind then 1 else 0 := by
      rw [tallyOf, List.map_map]
      refine List.map_congr_left fun k _ ↦ ?_
      simp [List.countP_cons, eq_comm]
    have hrest : (kinds.map fun k ↦ (fs.countP (·.kind = k) : Int)).sum = fs.length := by
      rw [← ih hfs, tallyOf, List.map_map]
      rfl
    rw [hsplit, List.sum_map_add, hrest, hone, List.length_cons]
    push_cast
    rfl

/-! ## Main statement -/

/-- **Dispatch by category is asking every rule.** A match has the findings that are made if all
rules of the table are asked, in order, at all nodes of the walk, or fails as that fails first. Its
counts are the kinds of the table in the order in which they first occur there, each with the number
of its findings, and so the counts sum up to the number of findings. -/
theorem run_eq_askAlong (rules : List Rule) (t : SyntaxTree) :
    (ofRules rules).run t = (askAlong rules t.graph t.graph.visits).map
        (fun fs ↦ ⟨fs, tallyOf (rules.map (·.kind)).eraseDups fs⟩) ∧
      ((ofRules rules).run t).map (fun r ↦ (r.counts.map (·.2)).sum)
        = ((ofRules rules).run t).map (fun r ↦ (r.findings.length : Int)) := by
  have hnodup := nodup_eraseDups (rules.map (·.kind))
  have hrun : (ofRules rules).run t
      = (askAlong rules t.graph t.graph.visits).map (ofRules rules).blank.addAll := by
    rw [run_eq, askAlong_eq]
    cases t.graph.visits.mapM ((ofRules rules).findingsAt t.graph) <;> rfl
  cases hasked : askAlong rules t.graph t.graph.visits with
  | error e =>
    rw [hrun, hasked]
    exact ⟨rfl, rfl⟩
  | ok fs =>
    have hkinds : OfKinds (rules.map (·.kind)).eraseDups fs := fun f hf ↦
      List.mem_eraseDups.mpr (ofKinds_askAlong hasked f hf)
    have hblank : (ofRules rules).blank = ⟨[], tallyOf (rules.map (·.kind)).eraseDups []⟩ := by
      rw [← counts_blank]
      rfl
    have hresult : (ofRules rules).run t
        = .ok ⟨fs, tallyOf (rules.map (·.kind)).eraseDups fs⟩ := by
      rw [hrun, hasked, hblank]
      exact congrArg Except.ok (addAll_tallyOf hnodup [] hkinds)
    rw [hresult]
    exact ⟨rfl, congrArg Except.ok (sum_tallyOf hnodup hkinds)⟩

end QuantumRisk.Matcher
