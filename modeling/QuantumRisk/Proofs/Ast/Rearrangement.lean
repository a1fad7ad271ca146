import Mathlib.Data.List.Forall2
import Mathlib.Data.List.Nodup
import QuantumRisk.Proofs.Ast.DepthFirst
import QuantumRisk.Proofs.Ast.TypeText

/-!
# Graphs in another order

The fields of a record and the items of a list may be put in another order. This changes the order
in which records are met and nothing else: the same records can be reached, and what is read from
them by the names of fields is the same.
-/

namespace QuantumRisk.Ast

/-! ## Rearrangements -/

/-- The same datum with the items of its lists in another order. -/
inductive Datum.Rearranged : Datum → Datum → Prop
  | refl (d : Datum) : Rearranged d d
  | list {items items' items'' : List Datum} (hitems : List.Forall₂ Rearranged items items')
      (hperm : items'.Perm items'') : Rearranged (.list items) (.list items'')

/-- The same fields, with their data rearranged, in another order. -/
def Fields.Rearranged (fs fs' : Fields) : Prop :=
  ∃ mid : Fields, List.Forall₂ (fun f f' ↦ f.1 = f'.1 ∧ Datum.Rearranged f.2 f'.2) fs mid ∧
    mid.Perm fs'

/-- The same graph in another order. Of the fields of a record no two have one name. -/
structure Graph.Rearranged (g g' : Graph) : Prop where
  root : g'.root = g.root
  size : g'.records.size = g.records.size
  names : ∀ i, ((g.fields i).map Prod.fst).Nodup
  fields : ∀ i, Fields.Rearranged (g.fields i) (g'.fields i)

theorem Fields.Rearranged.refl (fs : Fields) : Fields.Rearranged fs fs :=
  ⟨fs, List.forall₂_same.mpr fun f _ ↦ ⟨rfl, .refl f.2⟩, .refl fs⟩

theorem Fields.Rearranged.of_perm {fs fs' : Fields} (h : fs.Perm fs') : Fields.Rearranged fs fs' :=
  ⟨fs, List.forall₂_same.mpr fun f _ ↦ ⟨rfl, .refl f.2⟩, h⟩

theorem Graph.fields_of_le {g : Graph} {i : Nat} (h : g.records.size ≤ i) : g.fields i = [] := by
  rw [Graph.fields, Array.getD_eq_getD_getElem?, Array.getElem?_eq_none h]
  rfl

/-- It is enough to compare the records that are there. -/
theorem Graph.rearranged_of_records {g g' : Graph} (hroot : g'.root = g.root)
    (hsize : g'.records.size = g.records.size)
    (h : ∀ i < g.records.size, ((g.fields i).map Prod.fst).Nodup ∧
      Fields.Rearranged (g.fields i) (g'.fields i)) : g.Rearranged g' := by
  have hall : ∀ i, ((g.fields i).map Prod.fst).Nodup ∧
      Fields.Rearranged (g.fields i) (g'.fields i) := by
    intro i
    rcases Nat.lt_or_ge i g.records.size with hi | hi
    · exact h i hi
    · rw [Graph.fields_of_le hi, Graph.fields_of_le (hsize ▸ hi)]
      exact ⟨List.nodup_nil, .refl []⟩
  exact ⟨hroot, hsize, fun i ↦ (hall i).1, fun i ↦ (hall i).2⟩

section Partners

variable {α β : Type} {R : α → β → Prop} {xs : List α} {ys : List β}

theorem exists_partner (h : List.Forall₂ R xs ys) {x : α} (hx : x ∈ xs) : ∃ y ∈ ys, R x y := by
  induction h with
  | nil => cases hx
  | @cons a b xs ys hr _ ih =>
    rcases List.mem_cons.mp hx with rfl | hx
    · exact ⟨b, List.mem_cons_self, hr⟩
    · obtain ⟨y, hy, hxy⟩ := ih hx
      exact ⟨y, List.mem_cons_of_mem b hy, hxy⟩

theorem exists_partner_right (h : List.Forall₂ R xs ys) {y : β} (hy : y ∈ ys) : ∃ x ∈ xs, R x y :=
  exists_partner (R := flip R) (List.Forall₂.flip h) hy

theorem isEmpty_eq {zs : List β} (h : List.Forall₂ R xs ys) (hperm : ys.Perm zs) :
    xs.isEmpty = zs.isEmpty := by
  rw [Bool.eq_iff_iff, List.isEmpty_iff_length_eq_zero, List.isEmpty_iff_length_eq_zero,
    h.length_eq, hperm.length_eq]

end Partners

namespace Datum

variable {d d' : Datum} {j : Nat}

/-- What is no list stays as it is. -/
theorem Rearranged.eq_iff (h : Rearranged d d') {e : Datum} (he : ∀ items, e ≠ .list items) :
    d' = e ↔ d = e := by
  cases h with
  | refl => rfl
  | list => exact ⟨fun heq ↦ absurd heq.symm (he _), fun heq ↦ absurd heq.symm (he _)⟩

theorem Rearranged.exists_list {items : List Datum} (h : Rearranged d (.list items)) :
    ∃ items', d = .list items' := by
  cases h with
  | refl => exact ⟨items, rfl⟩
  | list => exact ⟨_, rfl⟩

/-- A rearranged datum holds the same records. -/
theorem Rearranged.holds_iff (h : Rearranged d d') : Graph.Holds d' j ↔ Graph.Holds d j := by
  constructor
  · intro hd
    induction hd generalizing d with
    | record i =>
      cases h
      exact .record i
    | item hmem hd ih =>
      cases h with
      | refl => exact .item hmem hd
      | list hitems hperm =>
        obtain ⟨x, hx, hr⟩ := exists_partner_right hitems (hperm.mem_iff.mpr hmem)
        exact .item hx (ih hr)
  · intro hd
    induction hd generalizing d' with
    | record i =>
      cases h
      exact .record i
    | item hmem hd ih =>
      cases h with
      | refl => exact .item hmem hd
      | list hitems hperm =>
        obtain ⟨x, hx, hr⟩ := exists_partner hitems hmem
        exact .item (hperm.mem_iff.mp hx) (ih hr)

end Datum

/-! ## Fields by name -/

namespace Fields

variable {fs fs' : Fields} {key : String} {d : Datum}

theorem get?_eq_some_iff (h : (fs.map Prod.fst).Nodup) : get? fs key = some d ↔ (key, d) ∈ fs := by
  induction fs with
  | nil => simp [get?]
  | cons f fs ih =>
    obtain ⟨key', d'⟩ := f
    obtain ⟨hnew, hrest⟩ := List.nodup_cons.mp h
    by_cases hkey : key' = key
    · subst hkey
      have hnone : (key', d) ∉ fs := fun hmem ↦ hnew (List.mem_map.mpr ⟨_, hmem, rfl⟩)
      simp [get?, hnone, eq_comm]
    · have hget : get? ((key', d') :: fs) key = get? fs key := by simp [get?, hkey]
      rw [hget, ih hrest]
      simp [Ne.symm hkey]

theorem Rearranged.names_perm (h : Rearranged fs fs') :
    (fs.map Prod.fst).Perm (fs'.map Prod.fst) := by
  obtain ⟨mid, hmid, hperm⟩ := h
  have hnames : fs.map Prod.fst = mid.map Prod.fst := by
    clear hperm
    induction hmid with
    | nil => rfl
    | cons hf _ ih => rw [List.map_cons, List.map_cons, hf.1, ih]
  rw [hnames]
  exact hperm.map Prod.fst

theorem Rearranged.exists_mem (h : Rearranged fs fs') (hd : (key, d) ∈ fs) :
    ∃ d', (key, d') ∈ fs' ∧ Datum.Rearranged d d' := by
  obtain ⟨mid, hmid, hperm⟩ := h
  obtain ⟨⟨key', d'⟩, hmem, rfl, hr⟩ := exists_partner hmid hd
  exact ⟨d', hperm.mem_iff.mp hmem, hr⟩

theorem Rearranged.exists_mem_right (h : Rearranged fs fs') {d' : Datum} (hd' : (key, d') ∈ fs') :
    ∃ d, (key, d) ∈ fs ∧ Datum.Rearranged d d' := by
  obtain ⟨mid, hmid, hperm⟩ := h
  obtain ⟨⟨key', d⟩, hmem, rfl, hr⟩ := exists_partner_right hmid (hperm.mem_iff.mpr hd')
  exact ⟨d, hmem, hr⟩

/-- What a field is in the other order. -/
theorem Rearranged.get? (h : Rearranged fs fs') (hnames : (fs.map Prod.fst).Nodup) (key : String) :
    Option.Rel Datum.Rearranged (Fields.get? fs key) (Fields.get? fs' key) := by
  have hnames' : (fs'.map Prod.fst).Nodup := h.names_perm.nodup_iff.mp hnames
  cases hd : Fields.get? fs key with
  | some d =>
    obtain ⟨d', hd', hr⟩ := h.exists_mem ((get?_eq_some_iff hnames).mp hd)
    rw [(get?_eq_some_iff hnames').mpr hd']
    exact .some hr
  | none =>
    cases hd' : Fields.get? fs' key with
    | none => exact .none
    | some d' =>
      obtain ⟨d, hmem, -⟩ := h.exists_mem_right ((get?_eq_some_iff hnames').mp hd')
      rw [(get?_eq_some_iff hnames).mpr hmem] at hd
      cases hd

theorem Rearranged.get (h : Rearranged fs fs') (hnames : (fs.map Prod.fst).Nodup) (key : String) :
    Datum.Rearranged (Fields.get fs key) (Fields.get fs' key) := by
  have hrel := h.get? hnames key
  rw [Fields.get, Fields.get]
  generalize Fields.get? fs key = d, Fields.get? fs' key = d' at hrel
  cases hrel with
  | some hr => exact hr
  | none => exact .refl _

end Fields

namespace Graph

variable {g g' : Graph} {i j : Nat}

/-! ## Reachability -/

theorem Rearranged.refers_iff (h : g.Rearranged g') : g'.Refers i j ↔ g.Refers i j := by
  constructor
  · rintro ⟨key, d', hmem, hkey, hd'⟩
    obtain ⟨d, hd, hr⟩ := (h.fields i).exists_mem_right hmem
    exact ⟨key, d, hd, hkey, hr.holds_iff.mp hd'⟩
  · rintro ⟨key, d, hmem, hkey, hd⟩
    obtain ⟨d', hd', hr⟩ := (h.fields i).exists_mem hmem
    exact ⟨key, d', hd', hkey, hr.holds_iff.mpr hd⟩

/-- The walk meets the same records, in another order. -/
theorem Rearranged.visits_perm (h : g.Rearranged g') : g'.visits.Perm g.visits := by
  have hrefers : g'.Refers = g.Refers := by
    funext i j
    exact propext h.refers_iff
  refine (List.perm_ext_iff_of_nodup g'.visits_nodup g.visits_nodup).mpr fun i ↦ ?_
  rw [mem_visits_iff, mem_visits_iff, h.size, h.root, hrefers]

/-! ## Values -/

theorem lookup_unfoldFields (g : Graph) (fuel : Nat) (path : List Nat) (fs : Fields)
    (key : String) :
    Json.lookup key (g.unfoldFields fuel path fs)
      = (Fields.get? fs key).map (g.unfold fuel path) := by
  induction fs with
  | nil => simp [unfoldFields, Json.lookup, Fields.get?]
  | cons f fs ih =>
    obtain ⟨key', d⟩ := f
    by_cases hkey : key' = key
    · simp [unfoldFields, Json.lookup, Fields.get?, hkey]
    · simpa [unfoldFields, Json.lookup, Fields.get?, hkey] using ih

theorem isEmpty_unfoldItems (g : Graph) (fuel : Nat) (path : List Nat) (items : List Datum) :
    (g.unfoldItems fuel path items).isEmpty = items.isEmpty := by
  cases items <;> simp [unfoldItems]

theorem unfold_list (g : Graph) (fuel : Nat) (path : List Nat) (items : List Datum) :
    g.unfold fuel path (.list items) = .arr (g.unfoldItems fuel path items) := by
  rw [unfold]

/-- Lists and plain values are alike in both graphs if records are. -/
theorem unfold_alike_of_records {fuel : Nat} {path : List Nat}
    (hrecords : ∀ id,
      Json.Alike (g.unfold fuel path (.record id)) (g'.unfold fuel path (.record id)))
    {d d' : Datum} (hd : d.Rearranged d') :
    Json.Alike (g.unfold fuel path d) (g'.unfold fuel path d') := by
  cases hd with
  | list hitems hperm =>
    rw [unfold_list, unfold_list]
    exact .arr (by rw [isEmpty_unfoldItems, isEmpty_unfoldItems, isEmpty_eq hitems hperm])
  | refl d =>
    cases d with
    | record id => exact hrecords id
    | list items =>
      rw [unfold_list, unfold_list]
      exact .arr (by rw [isEmpty_unfoldItems, isEmpty_unfoldItems])
    | _ =>
      simp only [unfold]
      exact .refl _

/-- A datum has the same value, but for the order of members and items. -/
theorem Rearranged.unfold_alike (h : g.Rearranged g') {d d' : Datum} (hd : d.Rearranged d')
    (fuel : Nat) (path : List Nat) :
    Json.Alike (g.unfold fuel path d) (g'.unfold fuel path d') := by
  induction fuel generalizing d d' path with
  | zero =>
    refine unfold_alike_of_records (fun id ↦ ?_) hd
    simp only [unfold]
    exact .refl _
  | succ fuel ih =>
    refine unfold_alike_of_records (fun id ↦ ?_) hd
    simp only [unfold]
    split
    · exact .refl _
    · have hfields := (h.fields id).get? (h.names id)
      refine .obj (fun key ↦ ?_) fun key v v' hv hv' ↦ ?_
      · have hrel := hfields key
        rw [lookup_unfoldFields, lookup_unfoldFields]
        generalize Fields.get? (g.fields id) key = d, Fields.get? (g'.fields id) key = d' at hrel
        cases hrel <;> rfl
      · have hrel := hfields key
        rw [lookup_unfoldFields] at hv hv'
        generalize Fields.get? (g.fields id) key = d, Fields.get? (g'.fields id) key = d'
          at hrel hv hv'
        cases hrel with
        | none => cases hv
        | some hd =>
          cases hv
          cases hv'
          exact ih hd (id :: path)

theorem Rearranged.value_alike (h : g.Rearranged g') {d d' : Datum} (hd : d.Rearranged d') :
    Json.Alike (g.value d) (g'.value d') := by
  rw [value, value, h.size]
  exact h.unfold_alike hd _ _

/-- The same field of the same record, in both graphs. -/
theorem Rearranged.get (h : g.Rearranged g') (i : Nat) (key : String) :
    Datum.Rearranged (Fields.get (g.fields i) key) (Fields.get (g'.fields i) key) :=
  (h.fields i).get (h.names i) key

end Graph

end QuantumRisk.Ast
