import QuantumRisk.Ast.Walk
import Mathlib.Data.Finset.Card
import Mathlib.Logic.Relation

/-!
# The walk is a depth-first traversal

The walk keeps a stack and marks, and a record may be on the stack several times. `depthFirst` is
the traversal as one would write it down: go to a record, then to what it refers to, one after
another, and hand the list of visited records on from each to the next. Both give the same sequence.

The stack needs no invariant for this. A stack is a list of data, the traversal is defined on such
lists, and it goes through two lists in a row as through their concatenation
(`depthFirstAll_append`); so pushing the parts of a datum in front of the stack is what the
recursion does.
-/

namespace QuantumRisk.Ast.Graph

variable {g : Graph} {visited : List Nat} {i j : Nat} {d : Datum}

/-! ## The recursive traversal -/

/-- The number of records that are still to be visited. -/
def unvisited (g : Graph) (visited : List Nat) : Nat :=
  ((Finset.range g.records.size).filter (· ∉ visited)).card

theorem unvisited_append_le (g : Graph) (visited more : List Nat) :
    g.unvisited (visited ++ more) ≤ g.unvisited visited := by
  refine Finset.card_le_card fun k hk ↦ ?_
  rw [Finset.mem_filter, List.mem_append, not_or] at hk
  exact Finset.mem_filter.mpr ⟨hk.1, hk.2.1⟩

theorem unvisited_append_lt (hi : i < g.records.size) (hnew : i ∉ visited) :
    g.unvisited (visited ++ [i]) < g.unvisited visited := by
  refine Finset.card_lt_card (Finset.ssubset_iff_of_subset ?_ |>.mpr ⟨i, ?_, ?_⟩)
  · intro k hk
    rw [Finset.mem_filter, List.mem_append, not_or] at hk
    exact Finset.mem_filter.mpr ⟨hk.1, hk.2.1⟩
  · exact Finset.mem_filter.mpr ⟨Finset.mem_range.mpr hi, hnew⟩
  · simp

/-- Going on with more visited records and less to look at makes the measure smaller. -/
theorem lex_unvisited_append (g : Graph) (visited more : List Nat) {m n : Nat} (h : m < n) :
    Prod.Lex (· < ·) (· < ·) (g.unvisited (visited ++ more), m) (g.unvisited visited, n) := by
  rcases Nat.lt_or_eq_of_le (unvisited_append_le g visited more) with hlt | heq
  · exact Prod.Lex.left _ _ hlt
  · rw [heq]
    exact Prod.Lex.right _ h

mutual

/-- The records that are met for the first time from a datum, each before what it refers to. -/
def depthFirst (g : Graph) (visited : List Nat) : Datum → List Nat
  | .record i =>
    if _h : i < g.records.size ∧ i ∉ visited then
      i :: depthFirstAll g (visited ++ [i]) (g.branches i)
    else []
  | .list items => depthFirstAll g visited items
  | _ => []
termination_by d => (g.unvisited visited, sizeOf d)
decreasing_by
  · exact Prod.Lex.left _ _ (unvisited_append_lt _h.1 _h.2)
  · apply Prod.Lex.right
    rw [Datum.list.sizeOf_spec]
    omega

/-- The same from several data, one after another. -/
def depthFirstAll (g : Graph) (visited : List Nat) : List Datum → List Nat
  | [] => []
  | d :: ds =>
    depthFirst g visited d ++ depthFirstAll g (visited ++ depthFirst g visited d) ds
termination_by ds => (g.unvisited visited, sizeOf ds)
decreasing_by
  · apply Prod.Lex.right
    rw [List.cons.sizeOf_spec]
    omega
  · apply lex_unvisited_append
    rw [List.cons.sizeOf_spec]
    omega

end

@[simp] theorem depthFirstAll_nil (g : Graph) (visited : List Nat) :
    g.depthFirstAll visited [] = [] := by
  rw [depthFirstAll]

theorem depthFirstAll_cons (g : Graph) (visited : List Nat) (d : Datum) (ds : List Datum) :
    g.depthFirstAll visited (d :: ds)
      = g.depthFirst visited d ++ g.depthFirstAll (visited ++ g.depthFirst visited d) ds := by
  rw [depthFirstAll]

theorem depthFirst_of_not_branch (g : Graph) (visited : List Nat) (h : d.isBranch = false) :
    g.depthFirst visited d = [] := by
  cases d with
  | list items => cases h
  | record i => cases h
  | _ => simp [depthFirst]

/-- Two lists in a row are traversed as their concatenation is. -/
theorem depthFirstAll_append (g : Graph) (visited : List Nat) (ds es : List Datum) :
    g.depthFirstAll visited (ds ++ es)
      = g.depthFirstAll visited ds
        ++ g.depthFirstAll (visited ++ g.depthFirstAll visited ds) es := by
  induction ds generalizing visited with
  | nil => simp
  | cons d ds ih =>
    rw [List.cons_append, depthFirstAll_cons, depthFirstAll_cons, ih, List.append_assoc,
      List.append_assoc]

/-- A datum that leads nowhere new can be left out. -/
theorem depthFirstAll_cons_of_nil (h : g.depthFirst visited d = []) (ds : List Datum) :
    g.depthFirstAll visited (d :: ds) = g.depthFirstAll visited ds := by
  rw [depthFirstAll_cons, h, List.append_nil, List.nil_append]

/-! ## The walk gives the same sequence -/

/-- The marks say which records have been visited. -/
structure Marks (g : Graph) (seen : Array Bool) (visited : List Nat) : Prop where
  size : seen.size = g.records.size
  marked : ∀ {i}, (hi : i < seen.size) → (seen[i] = true ↔ i ∈ visited)

theorem marks_start (g : Graph) : Marks g (Array.replicate g.records.size false) [] :=
  ⟨Array.size_replicate, by simp⟩

theorem Marks.set {seen : Array Bool} (h : Marks g seen visited) (hi : i < seen.size) :
    Marks g (seen.set i true) (visited ++ [i]) := by
  refine ⟨by rw [Array.size_set, h.size], fun {j} hj ↦ ?_⟩
  rw [Array.getElem_set]
  rw [Array.size_set] at hj
  by_cases hij : i = j
  · simp [hij]
  · simp [hij, h.marked hj, Ne.symm hij]

/-- **The walk with a stack is the recursive traversal.** -/
theorem visit_eq_depthFirstAll {seen : Array Bool} (hmarks : Marks g seen visited)
    (pending : List Datum) : g.visit seen pending = g.depthFirstAll visited pending := by
  fun_induction visit g seen pending generalizing visited with
  | case1 seen => rw [depthFirstAll_nil]
  | case2 seen items rest ih =>
    rw [ih hmarks, depthFirstAll_append, depthFirstAll_cons, depthFirst]
  | case3 seen i rest hi hseen ih =>
    have hold : i ∈ visited := (hmarks.marked hi).mp hseen
    rw [ih hmarks, depthFirstAll_cons_of_nil]
    rw [depthFirst, dif_neg fun h ↦ h.2 hold]
  | case4 seen i rest hi hseen ih =>
    have hnew : i ∉ visited := fun h ↦ hseen ((hmarks.marked hi).mpr h)
    have hrange : i < g.records.size := hmarks.size ▸ hi
    rw [ih (hmarks.set hi), depthFirstAll_append, depthFirstAll_cons, depthFirst,
      dif_pos ⟨hrange, hnew⟩, List.cons_append]
    simp only [List.append_assoc, List.singleton_append]
  | case5 seen i rest hi ih =>
    rw [ih hmarks, depthFirstAll_cons_of_nil]
    rw [depthFirst, dif_neg fun h ↦ hi (hmarks.size ▸ h.1)]
  | case6 seen rest ih | case7 seen _ rest ih | case8 seen _ rest ih | case9 seen _ rest ih
  | case10 seen _ rest ih =>
    rw [ih hmarks, depthFirstAll_cons_of_nil (depthFirst_of_not_branch g visited rfl)]

theorem visits_eq_depthFirst (g : Graph) : g.visits = g.depthFirst [] (.record g.root) := by
  rw [visits, visit_eq_depthFirstAll (marks_start g), depthFirstAll_cons, depthFirstAll_nil,
    List.append_nil]

/-! ## What is visited -/

/-- A datum is a record or a list with the record somewhere in it. -/
inductive Holds : Datum → Nat → Prop
  | record (i : Nat) : Holds (.record i) i
  | item {d : Datum} {items : List Datum} {i : Nat} : d ∈ items → Holds d i → Holds (.list items) i

/-- A record refers to another one in a field that may hold parts of the program. -/
def Refers (g : Graph) (i j : Nat) : Prop :=
  ∃ key d, (key, d) ∈ g.fields i ∧ key ∉ nonBranchKeys ∧ Holds d j

/-- One of several data holds a record. -/
def Offers (ds : List Datum) (j : Nat) : Prop := ∃ d ∈ ds, Holds d j

theorem Holds.isBranch (h : Holds d i) : d.isBranch = true := by
  cases h with
  | record => rfl
  | item => rfl

theorem holds_record_iff : Holds (.record i) j ↔ j = i := by
  constructor
  · rintro ⟨⟩
    rfl
  · rintro rfl
    exact .record j

theorem holds_list_iff {items : List Datum} : Holds (.list items) j ↔ Offers items j := by
  constructor
  · rintro (_ | ⟨hd, hj⟩)
    exact ⟨_, hd, hj⟩
  · rintro ⟨d, hd, hj⟩
    exact .item hd hj

theorem offers_cons {ds : List Datum} : Offers (d :: ds) j ↔ Holds d j ∨ Offers ds j := by
  simp [Offers]

theorem offers_append {ds es : List Datum} : Offers (ds ++ es) j ↔ Offers ds j ∨ Offers es j := by
  simp [Offers, or_and_right, exists_or]

theorem refers_iff : g.Refers i j ↔ Offers (g.branches i) j := by
  constructor
  · rintro ⟨key, d, hfield, hkey, hd⟩
    refine ⟨d, List.mem_filterMap.mpr ⟨(key, d), hfield, ?_⟩, hd⟩
    simp [hkey, hd.isBranch]
  · rintro ⟨d, hmem, hd⟩
    obtain ⟨⟨key, d'⟩, hfield, hsome⟩ := List.mem_filterMap.mp hmem
    simp only [Bool.and_eq_true, Bool.not_eq_true', Option.ite_none_right_eq_some,
      Option.some.injEq] at hsome
    obtain ⟨⟨hkey, -⟩, rfl⟩ := hsome
    exact ⟨key, d', hfield, by simpa using hkey, hd⟩

theorem Refers.lt_size (h : g.Refers i j) : i < g.records.size := by
  obtain ⟨key, d, hfield, -⟩ := h
  refine Nat.lt_of_not_le fun hle ↦ ?_
  rw [fields, Array.getD_eq_getD_getElem?, Array.getElem?_eq_none hle] at hfield
  cases hfield

/-- No record is visited twice, nor one that was visited before. -/
theorem visit_nodup {seen : Array Bool} (hmarks : Marks g seen visited) (pending : List Datum) :
    (g.visit seen pending).Nodup ∧
      ∀ i ∈ g.visit seen pending, i < g.records.size ∧ i ∉ visited := by
  fun_induction visit g seen pending generalizing visited with
  | case1 seen => simp
  | case2 seen items rest ih => exact ih hmarks
  | case3 seen i rest hi hseen ih => exact ih hmarks
  | case4 seen i rest hi hseen ih =>
    obtain ⟨hnodup, hnew⟩ := ih (hmarks.set hi)
    refine ⟨List.nodup_cons.mpr ⟨fun hmem ↦ ?_, hnodup⟩, fun k hk ↦ ?_⟩
    · exact (hnew i hmem).2 (by simp)
    · rcases List.mem_cons.mp hk with rfl | hk
      · exact ⟨hmarks.size ▸ hi, fun h ↦ hseen ((hmarks.marked hi).mpr h)⟩
      · exact ⟨(hnew k hk).1, fun h ↦ (hnew k hk).2 (List.mem_append_left _ h)⟩
  | case5 seen i rest hi ih => exact ih hmarks
  | case6 seen rest ih | case7 seen _ rest ih | case8 seen _ rest ih | case9 seen _ rest ih
  | case10 seen _ rest ih => exact ih hmarks

/-- Every visited record is reached from something on the stack. -/
theorem exists_offers_of_mem_visit {seen : Array Bool} {pending : List Datum}
    (hi : i ∈ g.visit seen pending) :
    ∃ j, Offers pending j ∧ Relation.ReflTransGen g.Refers j i := by
  fun_induction visit g seen pending with
  | case1 => cases hi
  | case2 seen items rest ih =>
    obtain ⟨j, hj, hreach⟩ := ih hi
    rw [offers_append, ← holds_list_iff] at hj
    exact ⟨j, offers_cons.mpr hj, hreach⟩
  | case4 seen k rest hk hseen ih =>
    rcases List.mem_cons.mp hi with rfl | hi
    · exact ⟨i, offers_cons.mpr (.inl (.record i)), .refl⟩
    · obtain ⟨j, hj, hreach⟩ := ih hi
      rcases offers_append.mp hj with hj | hj
      · exact ⟨k, offers_cons.mpr (.inl (.record k)), .head (refers_iff.mpr hj) hreach⟩
      · exact ⟨j, offers_cons.mpr (.inr hj), hreach⟩
  | case3 seen k rest hk hseen ih | case5 seen k rest hk ih | case6 seen rest ih
  | case7 seen _ rest ih | case8 seen _ rest ih | case9 seen _ rest ih | case10 seen _ rest ih =>
    obtain ⟨j, hj, hreach⟩ := ih hi
    exact ⟨j, offers_cons.mpr (.inr hj), hreach⟩

/-! ## Nothing is left out

The invariant of the walk: what visited records refer to has been visited or is on the stack. Each
step keeps it, and when the stack is empty the visited records are closed.
-/

/-- What visited records refer to has been visited or is pending. -/
def Closed (g : Graph) (visited : List Nat) (pending : List Datum) : Prop :=
  ∀ i ∈ visited, ∀ j, g.Refers i j → j < g.records.size → j ∈ visited ∨ Offers pending j

/-- With the new records the visited ones are closed, and all that was pending is visited. -/
structure Completed (g : Graph) (visited : List Nat) (pending : List Datum) (new : List Nat) :
    Prop where
  closed : Closed g (visited ++ new) []
  visited : ∀ j, Offers pending j → j < g.records.size → j ∈ visited ++ new

section Steps

variable {rest items : List Datum} {new : List Nat}

theorem Closed.skip (h : Closed g visited (d :: rest))
    (hd : ∀ j, Holds d j → j < g.records.size → j ∈ visited) : Closed g visited rest := by
  intro i hi j hij hj
  rcases h i hi j hij hj with hold | hoffers
  · exact .inl hold
  · rcases offers_cons.mp hoffers with hholds | hrest
    · exact .inl (hd j hholds hj)
    · exact .inr hrest

theorem Completed.skip (h : Completed g visited rest new)
    (hd : ∀ j, Holds d j → j < g.records.size → j ∈ visited) :
    Completed g visited (d :: rest) new := by
  refine ⟨h.closed, fun j hoffers hj ↦ ?_⟩
  rcases offers_cons.mp hoffers with hholds | hrest
  · exact List.mem_append_left _ (hd j hholds hj)
  · exact h.visited j hrest hj

theorem Closed.list (h : Closed g visited (.list items :: rest)) :
    Closed g visited (items ++ rest) := by
  intro i hi j hij hj
  rw [offers_append, ← holds_list_iff, ← offers_cons]
  exact h i hi j hij hj

theorem Completed.list (h : Completed g visited (items ++ rest) new) :
    Completed g visited (.list items :: rest) new := by
  refine ⟨h.closed, fun j hoffers hj ↦ h.visited j ?_ hj⟩
  rwa [offers_cons, holds_list_iff, ← offers_append] at hoffers

theorem Closed.record (h : Closed g visited (.record i :: rest)) :
    Closed g (visited ++ [i]) (g.branches i ++ rest) := by
  intro k hk j hkj hj
  rw [offers_append, List.mem_append, List.mem_singleton]
  rcases List.mem_append.mp hk with hk | hk
  · rcases h k hk j hkj hj with hold | hoffers
    · exact .inl (.inl hold)
    · rcases offers_cons.mp hoffers with hholds | hrest
      · exact .inl (.inr (holds_record_iff.mp hholds))
      · exact .inr (.inr hrest)
  · obtain rfl := List.mem_singleton.mp hk
    exact .inr (.inl (refers_iff.mp hkj))

theorem Completed.record (h : Completed g (visited ++ [i]) (g.branches i ++ rest) new) :
    Completed g visited (.record i :: rest) (i :: new) := by
  have happend : visited ++ [i] ++ new = visited ++ i :: new := by simp
  refine ⟨happend ▸ h.closed, fun j hoffers hj ↦ ?_⟩
  rcases offers_cons.mp hoffers with hholds | hrest
  · rw [holds_record_iff.mp hholds]
    simp
  · rw [← happend]
    exact h.visited j (offers_append.mpr (.inr hrest)) hj

end Steps

theorem completed_visit {seen : Array Bool} {pending : List Datum} (hmarks : Marks g seen visited)
    (hclosed : Closed g visited pending) :
    Completed g visited pending (g.visit seen pending) := by
  fun_induction visit g seen pending generalizing visited with
  | case1 seen =>
    refine ⟨by rwa [List.append_nil], ?_⟩
    rintro j ⟨d, hd, -⟩
    cases hd
  | case2 seen items rest ih => exact (ih hmarks hclosed.list).list
  | case3 seen i rest hi hseen ih =>
    have hd : ∀ j, Holds (.record i) j → j < g.records.size → j ∈ visited := by
      intro j hholds _
      rw [holds_record_iff.mp hholds]
      exact (hmarks.marked hi).mp hseen
    exact (ih hmarks (hclosed.skip hd)).skip hd
  | case4 seen i rest hi hseen ih => exact (ih (hmarks.set hi) hclosed.record).record
  | case5 seen i rest hi ih =>
    -- a number without a record
    have hd : ∀ j, Holds (.record i) j → j < g.records.size → j ∈ visited := by
      intro j hholds hj
      rw [holds_record_iff.mp hholds, ← hmarks.size] at hj
      exact absurd hj hi
    exact (ih hmarks (hclosed.skip hd)).skip hd
  | case6 seen rest ih | case7 seen _ rest ih | case8 seen _ rest ih | case9 seen _ rest ih
  | case10 seen _ rest ih =>
    exact (ih hmarks (hclosed.skip fun _ h ↦ nomatch h)).skip fun _ h ↦ nomatch h

theorem visits_nodup (g : Graph) : g.visits.Nodup := (visit_nodup (marks_start g) _).1

/-- **The walk visits exactly the records that can be reached from the root.** -/
theorem mem_visits_iff : i ∈ g.visits ↔
    i < g.records.size ∧ Relation.ReflTransGen g.Refers g.root i := by
  constructor
  · intro hi
    obtain ⟨j, hj, hreach⟩ := exists_offers_of_mem_visit hi
    obtain rfl : j = g.root := by
      obtain ⟨d, hd, hholds⟩ := hj
      rw [List.mem_singleton.mp hd] at hholds
      exact holds_record_iff.mp hholds
    exact ⟨((visit_nodup (marks_start g) _).2 i hi).1, hreach⟩
  · rintro ⟨hi, hreach⟩
    have hstart : Closed g [] [.record g.root] := by
      intro i hi
      cases hi
    have hdone := completed_visit (marks_start g) hstart
    -- along the path from the root: each record on it is visited
    induction hreach with
    | refl => exact hdone.visited _ (offers_cons.mpr (.inl (.record _))) hi
    | tail hpath hstep ih =>
      rcases hdone.closed _ (ih hstep.lt_size) _ hstep hi with hmem | ⟨d, hd, -⟩
      · exact hmem
      · cases hd

end QuantumRisk.Ast.Graph
