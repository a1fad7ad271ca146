import Mathlib.Data.List.Perm.Subperm
import QuantumRisk.Proofs.Solidity.Legible

/-!
# Places do not change what is read

A graph may state, in each of its records, the place that the record comes from. The walk does not
follow places, and no reader looks at them but the one that asks for the place. There is one way in
which they could still be seen: where a reader shows a whole record, with all that is in it. This
never happens in a graph that is *plainly labelled*: the name of a callee or of what is declared,
and the labels of types and lengths, hold no records.

So the nodes along the walk of a plainly labelled graph and of the same graph with places are the
same, but for the place of each; and if one walk stops with a fault so does the other.
-/

namespace QuantumRisk.Ast

open Json (lookup)

/-- The node without its place. -/
def Node.unplaced : Node → Node
  | .call callee calleeType _ => .call callee calleeType none
  | .declaration name typeName scope _ => .declaration name typeName scope none

theorem Node.unplaced_unplaced (n : Node) : n.unplaced.unplaced = n.unplaced := by
  cases n <;> rfl

/-! ## Graphs with places -/

/-- The same graph with places in some of its records, and perhaps more records behind the others.
A record that says nothing says no place either. -/
structure Graph.Placed (g g' : Graph) : Prop where
  root : g'.root = g.root
  size : g.records.size ≤ g'.records.size
  fields : ∀ i < g.records.size, (g'.fields i).filter (·.1 != "loc") = g.fields i
  empty : ∀ i < g.records.size, g.fields i = [] → g'.fields i = []
  wellPlaced : ∀ i < g.records.size, g'.WellPlaced (g'.fields i)

/-! ## Labels -/

/-- All records in a datum come before the `n`-th. -/
def Datum.Below (n : Nat) (d : Datum) : Prop := ∀ j, Graph.Holds d j → j < n

/-- There are no records in a datum. -/
def Datum.Plain (d : Datum) : Prop := ∀ j, ¬ Graph.Holds d j

/-- A name and a number hold no records. -/
structure Fields.Labelled (fs : Fields) : Prop where
  name : (get fs "name").Plain
  number : (get fs "number").Plain

/-- No record at all, or one of the given records, with a label. -/
inductive Datum.Labelled (rs : Array Fields) : Datum → Prop
  | plain {d : Datum} (h : d.Plain) : Labelled rs d
  | record {i : Nat} {fs : Fields} (hi : rs[i]? = some fs) (hfs : fs.Labelled) :
      Labelled rs (.record i)

/-- The fields of a record refer to given records, and what is shown of it holds none: its type, the
name of what it calls or declares, and the labels of the types that it is made of. -/
structure Fields.PlainlyLabelled (rs : Array Fields) (fs : Fields) : Prop where
  below : ∀ f ∈ fs, f.2.Below rs.size
  type : (get fs "type").Plain
  callee : get fs "type" = .str "FunctionCall" → ∀ {j : Nat} {callee : Fields},
    get fs "expression" = .record j → rs[j]? = some callee → (get callee "name").Plain
  declared : get fs "type" = .str "VariableDeclaration" ∨ get fs "type" = .str "Parameter"
    ∨ get fs "type" = .str "EventParameter" →
      (get fs "name").Plain ∧ (get fs "typeName").Labelled rs
  userDefined : get fs "type" = .str "UserDefinedTypeName" → (get fs "namePath").Plain
  mapping : get fs "type" = .str "Mapping" →
    (get fs "keyType").Labelled rs ∧ (get fs "valueType").Labelled rs
  array : get fs "type" = .str "ArrayTypeName" →
    (get fs "baseTypeName").Labelled rs ∧ (get fs "length").Labelled rs

/-- A graph with a list of parts at its root, whose records are plainly labelled. -/
structure Graph.PlainlyLabelled (g : Graph) : Prop where
  root : g.root < g.records.size
  children : ∃ items, Fields.get (g.fields g.root) "children" = .list items
  records : ∀ fs ∈ g.records, fs.PlainlyLabelled g.records

/-- The members that the text of a type is made from. -/
theorem typeText_congr {members members' : List (String × Json)}
    (htype : lookup "type" members' = lookup "type" members)
    (hname : lookup "name" members' = lookup "name" members)
    (hpath : lookup "type" members = some (.str "UserDefinedTypeName") →
      lookup "namePath" members' = lookup "namePath" members)
    (hmapping : lookup "type" members = some (.str "Mapping") →
      typeTextOf (lookup "keyType" members') = typeTextOf (lookup "keyType" members) ∧
        typeTextOf (lookup "valueType" members') = typeTextOf (lookup "valueType" members))
    (harray : lookup "type" members = some (.str "ArrayTypeName") →
      typeTextOf (lookup "baseTypeName" members') = typeTextOf (lookup "baseTypeName" members) ∧
        lengthText (lookup "length" members') = lengthText (lookup "length" members)) :
    typeText (.obj members') = typeText (.obj members) := by
  by_cases hform : ∃ form ∈ typeForms, lookup "type" members = some (.str form)
  case neg =>
    have hother : ∀ form ∈ typeForms, lookup "type" members ≠ some (.str form) :=
      fun form hmem heq ↦ hform ⟨form, hmem, heq⟩
    rw [typeText_other hother, typeText_other (htype ▸ hother), memberOrEmpty, memberOrEmpty, hname]
  obtain ⟨form, hmem, hform⟩ := hform
  have hform' := htype.trans hform
  simp only [typeForms, List.mem_cons, List.not_mem_nil, or_false] at hmem
  rcases hmem with rfl | rfl | rfl | rfl | rfl
  · rw [typeText_elementary hform, typeText_elementary hform', memberOrEmpty, memberOrEmpty, hname]
  · simp only [typeText_userDefined hform, typeText_userDefined hform', memberOrEmpty, hname,
      hpath hform]
  · obtain ⟨hkey, hvalue⟩ := hmapping hform
    rw [typeText_mapping hform, typeText_mapping hform', hkey, hvalue]
  · obtain ⟨hbase, hlength⟩ := harray hform
    rw [typeText_array hform, typeText_array hform', hbase, hlength]
  · rw [typeText_function hform, typeText_function hform']

variable {g g' : Graph} {i : Nat} {d : Datum} {key : String}

namespace Datum

theorem plain_of_not_branch (h : d.isBranch = false) : d.Plain := by
  intro j hj
  rw [hj.isBranch] at h
  cases h

theorem plain_of_isTextOrNull (h : d.isTextOrNull) : d.Plain := by
  rcases isTextOrNull_iff.mp h with rfl | ⟨s, rfl⟩
  · exact plain_of_not_branch rfl
  · exact plain_of_not_branch rfl

theorem plain_of_isText (h : d.isText) : d.Plain := by
  obtain ⟨s, rfl⟩ := isText_iff.mp h
  exact plain_of_not_branch rfl

@[simp] theorem plain_list {items : List Datum} : (list items).Plain ↔ ∀ d ∈ items, d.Plain := by
  simp only [Plain, Graph.holds_list_iff, Graph.Offers, not_exists, not_and]
  exact ⟨fun h d hd j ↦ h j d hd, fun h j d hd ↦ h d hd j⟩

theorem Plain.ne_record (h : d.Plain) (i : Nat) : d ≠ .record i := by
  rintro rfl
  exact h i (Graph.holds_record_iff.mpr rfl)

theorem Plain.below (h : d.Plain) (n : Nat) : d.Below n := fun j hj ↦ absurd hj (h j)

@[simp] theorem below_null (n : Nat) : Below n .null := (plain_of_not_branch rfl).below n
@[simp] theorem below_bool (n : Nat) (b : Bool) : Below n (.bool b) :=
  (plain_of_not_branch rfl).below n
@[simp] theorem below_str (n : Nat) (s : String) : Below n (.str s) :=
  (plain_of_not_branch rfl).below n

theorem below_of_isText (n : Nat) (h : d.isText) : d.Below n := (plain_of_isText h).below n

@[simp] theorem below_record {n : Nat} : Below n (.record i) ↔ i < n := by
  simp [Below, Graph.holds_record_iff]

@[simp] theorem below_list {n : Nat} {items : List Datum} :
    Below n (.list items) ↔ ∀ item ∈ items, item.Below n := by
  simp only [Below, Graph.holds_list_iff, Graph.Offers]
  constructor
  · intro h item hitem j hj
    exact h j ⟨item, hitem, hj⟩
  · rintro h j ⟨item, hitem, hj⟩
    exact h item hitem j hj

theorem Labelled.null {rs : Array Fields} : Labelled rs .null := .plain (plain_of_not_branch rfl)

@[simp] theorem Labelled.below {rs : Array Fields} (h : d.Labelled rs) : d.Below rs.size := by
  cases h with
  | plain h => exact h.below _
  | record hi => exact below_record.mpr (Array.getElem?_eq_some_iff.mp hi).1

end Datum

namespace Graph

theorem fields_of_getElem? {fs : Fields} (h : g.records[i]? = some fs) : g.fields i = fs := by
  rw [Graph.fields, Array.getD_eq_getD_getElem?, h]
  rfl

theorem getElem?_of_lt (h : i < g.records.size) : g.records[i]? = some (g.fields i) := by
  rw [fields_of_getElem? (Array.getElem?_eq_getElem h), Array.getElem?_eq_getElem h]

namespace PlainlyLabelled

theorem fields (h : g.PlainlyLabelled) (hi : i < g.records.size) :
    (g.fields i).PlainlyLabelled g.records :=
  h.records _ (Array.mem_of_getElem? (getElem?_of_lt hi))

theorem get_below (h : g.PlainlyLabelled) (hi : i < g.records.size) (key : String) :
    (Fields.get (g.fields i) key).Below g.records.size := by
  rw [Fields.get, Fields.get?]
  cases hfind : List.find? (fun f ↦ f.1 == key) (g.fields i) with
  | none => exact Datum.below_null _
  | some f => exact (h.fields hi).below f (List.mem_of_find?_eq_some hfind)

theorem below_branches (h : g.PlainlyLabelled) (hi : i < g.records.size) :
    ∀ d ∈ g.branches i, d.Below g.records.size := by
  intro d hd
  obtain ⟨⟨key, d'⟩, hf, hbranch⟩ := List.mem_filterMap.mp hd
  cases (Option.ite_none_right_eq_some.mp hbranch).2
  exact (h.fields hi).below _ hf

end PlainlyLabelled

namespace Placed

theorem get? (h : g.Placed g') (hi : i < g.records.size) (hkey : "loc" ≠ key) :
    Fields.get? (g'.fields i) key = Fields.get? (g.fields i) key := by
  rw [← h.fields i hi, Fields.get?, Fields.get?, List.find?_filter]
  congr 2
  funext f
  by_cases hf : f.1 = key
  · simp [hf, hkey.symm]
  · simp [hf]

theorem get (h : g.Placed g') (hi : i < g.records.size) (hkey : "loc" ≠ key) :
    Fields.get (g'.fields i) key = Fields.get (g.fields i) key := by
  rw [Fields.get, h.get? hi hkey, Fields.get]

/-- The graph without places has none. -/
theorem location_eq (h : g.Placed g') (hi : i < g.records.size) :
    g.location (g.fields i) = .ok none := by
  have hnone : Fields.get (g.fields i) "loc" = .null := by
    rw [← h.fields i hi, Fields.get, Fields.get?, List.find?_filter]
    simp [List.find?_eq_none.mpr]
  exact location_of_absent (by simp [hnone])

theorem isSome_eq (h : g.Placed g') (hd : d.Below g.records.size) : g'.isSome d = g.isSome d := by
  cases d with
  | record j =>
    have hj := Datum.below_record.mp hd
    rw [isSome, isSome, ← h.fields j hj]
    by_cases hempty : g.fields j = []
    · rw [h.empty j hj hempty]
      rfl
    · rw [← h.fields j hj] at hempty
      have hempty' : g'.fields j ≠ [] := fun heq ↦ hempty (by rw [heq]; rfl)
      rw [List.isEmpty_eq_false_iff.mpr hempty, List.isEmpty_eq_false_iff.mpr hempty']
  | _ => rfl

/-! ## The walk -/

theorem branches_eq (h : g.Placed g') (hi : i < g.records.size) :
    g'.branches i = g.branches i := by
  rw [branches, branches, ← h.fields i hi, List.filterMap_filter]
  refine List.filterMap_congr fun f _ ↦ ?_
  by_cases hf : f.1 = "loc"
  · simp [hf, nonBranchKeys]
  · simp [hf]

/-- With the same records visited before, the walk goes the same way. -/
theorem visit_eq (h : g.Placed g') (hs : g.PlainlyLabelled) {seen seen' : Array Bool}
    {visited : List Nat} {pending : List Datum} (hmarks : Marks g seen visited)
    (hmarks' : Marks g' seen' visited) (hbelow : ∀ d ∈ pending, d.Below g.records.size) :
    g'.visit seen' pending = g.visit seen pending := by
  -- The marks of the two walks are of different sizes; what they mark is the same.
  fun_induction visit g seen pending generalizing seen' visited with
  | case1 seen => rw [visit]
  | case2 seen items rest ih =>
    rw [visit]
    refine ih hmarks hmarks' fun d hd ↦ ?_
    rcases List.mem_append.mp hd with hd | hd
    · exact Datum.below_list.mp (hbelow _ List.mem_cons_self) d hd
    · exact hbelow d (List.mem_cons_of_mem _ hd)
  | case3 seen i rest hi hseen ih =>
    have hi' : i < seen'.size := by rw [hmarks'.size]; exact (hmarks.size ▸ hi).trans_le h.size
    have hseen' : seen'[i] = true := (hmarks'.marked hi').mpr ((hmarks.marked hi).mp hseen)
    rw [visit, dif_pos hi', dif_pos hseen']
    exact ih hmarks hmarks' fun d hd ↦ hbelow d (List.mem_cons_of_mem _ hd)
  | case4 seen i rest hi hseen ih =>
    have hin : i < g.records.size := hmarks.size ▸ hi
    have hi' : i < seen'.size := by rw [hmarks'.size]; exact hin.trans_le h.size
    have hseen' : ¬ seen'[i] = true := fun hold ↦
      hseen ((hmarks.marked hi).mpr ((hmarks'.marked hi').mp hold))
    rw [visit, dif_pos hi', dif_neg hseen', h.branches_eq hin]
    congr 1
    refine ih (hmarks.set hi) (hmarks'.set hi') fun d hd ↦ ?_
    rcases List.mem_append.mp hd with hd | hd
    · exact hs.below_branches hin d hd
    · exact hbelow d (List.mem_cons_of_mem _ hd)
  | case5 seen i rest hi ih =>
    -- A record of places could be met here, but nothing in the graph without places refers to one.
    exact absurd (Datum.below_record.mp (hbelow _ List.mem_cons_self)) (hmarks.size ▸ hi)
  | case6 seen rest ih | case7 seen _ rest ih | case8 seen _ rest ih | case9 seen _ rest ih
  | case10 seen _ rest ih =>
    rw [visit]
    exact ih hmarks hmarks' fun d hd ↦ hbelow d (List.mem_cons_of_mem _ hd)

/-- **The walk** of a graph with places meets the same records in the same order. -/
theorem visits_eq (h : g.Placed g') (hs : g.PlainlyLabelled) : g'.visits = g.visits := by
  rw [visits, visits, h.root]
  refine h.visit_eq hs (marks_start g) (marks_start g') ?_
  simpa using hs.root

end Placed

/-! ## Types as text -/

/-- There is fuel enough to write out records that are not on the path, of which there are `n`. -/
structure Room (n : Nat) (path : List Nat) (fuel : Nat) : Prop where
  nodup : path.Nodup
  below : ∀ i ∈ path, i < n
  enough : n ≤ path.length + fuel

theorem room_start {m n : Nat} (h : m ≤ n) : Room m [] n :=
  ⟨List.nodup_nil, by simp, by simpa using h⟩

/-- Going to a record that is not on the path takes fuel, and there is some left. -/
theorem Room.cons {n fuel : Nat} {path : List Nat} (h : Room n path fuel) (hi : i < n)
    (hnew : i ∉ path) : ∃ rest, fuel = rest + 1 ∧ Room n (i :: path) rest := by
  have hnodup : (i :: path).Nodup := List.nodup_cons.mpr ⟨hnew, h.nodup⟩
  have hbelow : ∀ j ∈ i :: path, j < n := List.forall_mem_cons.mpr ⟨hi, h.below⟩
  -- The path is a list of different numbers below `n`, so it is never longer than `n`.
  have hlength : (i :: path).length ≤ n := by
    have hsub : (i :: path).Subperm (List.range n) :=
      hnodup.subperm fun j hj ↦ List.mem_range.mpr (hbelow j hj)
    simpa using hsub.length_le
  have henough := h.enough
  rw [List.length_cons] at hlength
  refine ⟨fuel - 1, by omega, hnodup, hbelow, ?_⟩
  rw [List.length_cons]
  omega

theorem unfold_of_mem {fuel : Nat} {path : List Nat} (h : i ∈ path) :
    g.unfold fuel path (.record i) = .null := by
  cases fuel with
  | zero => rw [unfold]
  | succ fuel => rw [unfold, if_pos (List.contains_iff_mem.mpr h)]

theorem unfold_of_not_mem {fuel : Nat} {path : List Nat} (h : i ∉ path) :
    g.unfold (fuel + 1) path (.record i)
      = .obj (g.unfoldFields fuel (i :: path) (g.fields i)) := by
  rw [unfold, if_neg (mt List.contains_iff_mem.mp h)]

mutual

/-- Data without records are shown in the same way in every graph. -/
theorem unfold_of_plain {fuel fuel' : Nat} {path path' : List Nat} (d : Datum) (h : d.Plain) :
    g'.unfold fuel' path' d = g.unfold fuel path d := by
  cases d with
  | list items => rw [unfold, unfold, unfoldItems_of_plain items (Datum.plain_list.mp h)]
  | record i => exact absurd rfl (h.ne_record i)
  | _ => rw [unfold, unfold]

theorem unfoldItems_of_plain {fuel fuel' : Nat} {path path' : List Nat} (items : List Datum)
    (h : ∀ d ∈ items, d.Plain) :
    g'.unfoldItems fuel' path' items = g.unfoldItems fuel path items := by
  cases items with
  | nil => rw [unfoldItems, unfoldItems]
  | cons d items =>
    obtain ⟨hd, hitems⟩ := List.forall_mem_cons.mp h
    rw [unfoldItems, unfoldItems, unfold_of_plain d hd, unfoldItems_of_plain items hitems]

end

theorem value_of_plain (h : d.Plain) : g'.value d = g.value d := unfold_of_plain d h

namespace Placed

variable {fuel fuel' : Nat} {path path' : List Nat}

/-- A plain field of a record is the same with places. -/
theorem lookup_of_plain (h : g.Placed g') (hi : i < g.records.size) (hkey : "loc" ≠ key)
    (hplain : (Fields.get (g.fields i) key).Plain) :
    lookup key (g'.unfoldFields fuel' path' (g'.fields i))
      = lookup key (g.unfoldFields fuel path (g.fields i)) := by
  rw [lookup_unfoldFields, lookup_unfoldFields, h.get? hi hkey]
  rw [Fields.get] at hplain
  cases hd : Fields.get? (g.fields i) key with
  | none => rfl
  | some d =>
    rw [hd] at hplain
    exact congrArg some (unfold_of_plain d hplain)

/-- What stands for a length is shown by its label. -/
theorem lengthText_eq (h : g.Placed g') (hd : d.Labelled g.records)
    (hroom : Room g.records.size path fuel) (hroom' : Room g.records.size path fuel') :
    lengthText (some (g'.unfold fuel' path d)) = lengthText (some (g.unfold fuel path d)) := by
  cases hd with
  | plain hd => rw [unfold_of_plain d hd]
  | @record i fs hi hfs =>
    by_cases hmem : i ∈ path
    · rw [unfold_of_mem hmem, unfold_of_mem hmem]
    have hlt : i < g.records.size := (Array.getElem?_eq_some_iff.mp hi).1
    obtain ⟨rest, rfl, -⟩ := hroom.cons hlt hmem
    obtain ⟨rest', rfl, -⟩ := hroom'.cons hlt hmem
    rw [← fields_of_getElem? hi] at hfs
    rw [unfold_of_not_mem hmem, unfold_of_not_mem hmem]
    simp only [lengthText]
    rw [h.lookup_of_plain hlt (by decide) hfs.name, h.lookup_of_plain hlt (by decide) hfs.number]

/-- A type within a type. -/
theorem typeTextOf_lookup (h : g.Placed g') (hi : i < g.records.size) (hkey : "loc" ≠ key)
    (hd : (Fields.get (g.fields i) key).Labelled g.records)
    (hparts : ∀ d, d.Labelled g.records →
      typeText (g'.unfold fuel' path d) = typeText (g.unfold fuel path d)) :
    typeTextOf (lookup key (g'.unfoldFields fuel' path (g'.fields i)))
      = typeTextOf (lookup key (g.unfoldFields fuel path (g.fields i))) := by
  rw [lookup_unfoldFields, lookup_unfoldFields, h.get? hi hkey]
  rw [Fields.get] at hd
  cases hget : Fields.get? (g.fields i) key with
  | none => rfl
  | some d =>
    rw [hget] at hd
    exact hparts d hd

theorem lengthText_lookup (h : g.Placed g') (hi : i < g.records.size)
    (hd : (Fields.get (g.fields i) "length").Labelled g.records)
    (hroom : Room g.records.size path fuel) (hroom' : Room g.records.size path fuel') :
    lengthText (lookup "length" (g'.unfoldFields fuel' path (g'.fields i)))
      = lengthText (lookup "length" (g.unfoldFields fuel path (g.fields i))) := by
  rw [lookup_unfoldFields, lookup_unfoldFields, h.get? hi (by decide)]
  rw [Fields.get] at hd
  cases hget : Fields.get? (g.fields i) "length" with
  | none => rfl
  | some d =>
    rw [hget] at hd
    exact h.lengthText_eq hd hroom hroom'

/-- **The text of a type** is the same with places, if what stands for the type has a label. -/
theorem typeText_unfold (h : g.Placed g') (hs : g.PlainlyLabelled) (hd : d.Labelled g.records)
    (hroom : Room g.records.size path fuel) (hroom' : Room g.records.size path fuel') :
    typeText (g'.unfold fuel' path d) = typeText (g.unfold fuel path d) := by
  induction fuel using Nat.strongRecOn generalizing fuel' path d with
  | ind fuel ih =>
    cases hd with
    | plain hd => rw [unfold_of_plain d hd]
    | @record i fs hi hfs =>
      by_cases hmem : i ∈ path
      · rw [unfold_of_mem hmem, unfold_of_mem hmem]
      have hlt : i < g.records.size := (Array.getElem?_eq_some_iff.mp hi).1
      obtain ⟨rest, rfl, hrest⟩ := hroom.cons hlt hmem
      obtain ⟨rest', rfl, hrest'⟩ := hroom'.cons hlt hmem
      have hparts (d : Datum) (hd : d.Labelled g.records) :=
        ih rest (Nat.lt_succ_self rest) hd hrest hrest'
      have hplain := hs.fields hlt
      rw [← fields_of_getElem? hi] at hfs
      rw [unfold_of_not_mem hmem, unfold_of_not_mem hmem]
      refine typeText_congr (h.lookup_of_plain hlt (by decide) hplain.type)
        (h.lookup_of_plain hlt (by decide) hfs.name) (fun hform ↦ ?_) (fun hform ↦ ?_)
        (fun hform ↦ ?_)
      · exact h.lookup_of_plain hlt (by decide) (hplain.userDefined (get_of_lookup_str hform))
      · obtain ⟨hkey, hvalue⟩ := hplain.mapping (get_of_lookup_str hform)
        exact ⟨h.typeTextOf_lookup hlt (by decide) hkey hparts,
          h.typeTextOf_lookup hlt (by decide) hvalue hparts⟩
      · obtain ⟨hbase, hlength⟩ := hplain.array (get_of_lookup_str hform)
        exact ⟨h.typeTextOf_lookup hlt (by decide) hbase hparts,
          h.lengthText_lookup hlt hlength hrest hrest'⟩

/-! ## Calls and declarations -/

theorem nameOf_eq (h : g.Placed g') (hi : i < g.records.size)
    (hname : (Fields.get (g.fields i) "name").Plain) :
    g'.nameOf (g'.fields i) = g.nameOf (g.fields i) := by
  rw [nameOf, nameOf, h.get hi (by decide), value_of_plain hname]

/-- **A call** is the same with places, but for its place. -/
theorem readCall_eq (h : g.Placed g') (hs : g.PlainlyLabelled) (hi : i < g.records.size)
    (htype : g.HasType i "FunctionCall") :
    g.readCall (g.fields i) = (g'.readCall (g'.fields i)).map Node.unplaced := by
  obtain ⟨l, hl⟩ := (h.wellPlaced i hi).location
  have hbelow := hs.get_below hi "expression"
  simp only [readCall, h.location_eq hi, hl, h.get hi (show "loc" ≠ "expression" by decide)]
  refine congrArg Except.ok ?_
  cases hcallee : Fields.get (g.fields i) "expression" with
  | record j =>
    rw [hcallee, Datum.below_record] at hbelow
    have hname := (hs.fields hi).callee htype hcallee (getElem?_of_lt hbelow)
    have hplain := (hs.fields hbelow).type
    rw [Fields.get] at hplain
    simp only [Node.unplaced, h.nameOf_eq hbelow hname,
      h.get? hbelow (show "loc" ≠ "type" by decide)]
    cases hget : Fields.get? (g.fields j) "type" with
    | none => rfl
    | some d =>
      rw [hget] at hplain
      have hvalue : g'.value d = g.value d := value_of_plain hplain
      simp only [hvalue]
  | _ =>
    -- What is called is no record, so it has neither a name nor a type.
    have hname : g'.nameOf [] = g.nameOf [] := by
      rw [nameOf, nameOf, value_of_plain (Datum.plain_of_not_branch rfl)]
    simp only [Node.unplaced, hname]
    rfl

/-- **A declaration** is the same with places, but for its place. -/
theorem readDeclaration_eq (h : g.Placed g') (hs : g.PlainlyLabelled) (hi : i < g.records.size)
    (htype : g.IsDeclaration i) (scope : Scope) :
    g.readDeclaration scope (g.fields i)
      = (g'.readDeclaration scope (g'.fields i)).map Node.unplaced := by
  obtain ⟨l, hl⟩ := (h.wellPlaced i hi).location
  obtain ⟨hname, htypeName⟩ := (hs.fields hi).declared htype
  have hscope := h.isSome_eq (hs.get_below hi "isStateVar")
  have htext : typeText (g'.value (Fields.get (g.fields i) "typeName"))
      = typeText (g.value (Fields.get (g.fields i) "typeName")) :=
    h.typeText_unfold hs htypeName (room_start (Nat.le_refl _)) (room_start h.size)
  simp only [readDeclaration, h.location_eq hi, hl, h.nameOf_eq hi hname,
    h.get hi (show "loc" ≠ "isStateVar" by decide),
    h.get hi (show "loc" ≠ "typeName" by decide), hscope, htext]
  rfl

theorem isDeclaration_of_scope {type : String} {scope : Scope} (h : g.HasType i type)
    (hscope : declarationScope type = some scope) : g.IsDeclaration i := by
  unfold declarationScope at hscope
  split at hscope
  · exact .inl h
  · exact .inr (.inl h)
  · exact .inr (.inr h)
  · cases hscope

/-- **A record** is the same call or declaration with places, but for the place; or it cannot be
read with or without. -/
theorem classify_eq (h : g.Placed g') (hs : g.PlainlyLabelled) (hi : i < g.records.size) :
    g.classify i = (g'.classify i).map (Option.map Node.unplaced) := by
  simp only [classify, h.get hi (show "loc" ≠ "type" by decide)]
  cases htype : Fields.get (g.fields i) "type" with
  | str type =>
    by_cases hcall : type = "FunctionCall"
    · subst hcall
      simp only [h.readCall_eq hs hi htype]
      cases g'.readCall (g'.fields i) <;> rfl
    · simp only
      cases hscope : declarationScope type with
      | none => rfl
      | some scope =>
        simp only [h.readDeclaration_eq hs hi (isDeclaration_of_scope htype hscope) scope]
        cases g'.readDeclaration scope (g'.fields i) <;> rfl
  | _ => rfl

end Placed

/-! ## Nodes along the walk -/

/-- The walks of two graphs meet the same records, and what is made of each is the same but for
places. -/
structure SameButPlaces (g g' : Graph) : Prop where
  visits : g'.visits = g.visits
  classify : ∀ i ∈ g.visits, (g'.classify i).map (Option.map Node.unplaced)
    = (g.classify i).map (Option.map Node.unplaced)

theorem SameButPlaces.refl (g : Graph) : SameButPlaces g g := ⟨rfl, fun _ _ ↦ rfl⟩

theorem Placed.sameButPlaces (h : g.Placed g') (hs : g.PlainlyLabelled) : SameButPlaces g' g := by
  have hvisits := h.visits_eq hs
  refine ⟨hvisits.symm, fun i hi ↦ ?_⟩
  rw [hvisits] at hi
  rw [h.classify_eq hs (mem_visits_iff.mp hi).1]
  cases g'.classify i with
  | error e => rfl
  | ok n => cases n <;> simp [Except.map, Node.unplaced_unplaced]

/-- One record of the walk, and the nodes behind it. -/
theorem nodes_step {c c' : Except DataFault (Option Node)}
    {rest rest' : Except DataFault (List Node)}
    (hc : c'.map (Option.map Node.unplaced) = c.map (Option.map Node.unplaced))
    (hrest : rest'.map (List.map Node.unplaced) = rest.map (List.map Node.unplaced)) :
    Except.map (List.map Node.unplaced) (do
        match ← c' with
        | some node => return node :: (← rest')
        | none => rest')
      = Except.map (List.map Node.unplaced) (do
        match ← c with
        | some node => return node :: (← rest)
        | none => rest) := by
  cases c with
  | error e =>
    cases c' with
    | error e' => cases hc; rfl
    | ok n' => cases hc
  | ok n =>
    cases c' with
    | error e' => cases hc
    | ok n' =>
      have hn : n'.map Node.unplaced = n.map Node.unplaced := Except.ok.inj hc
      cases n with
      | none =>
        obtain rfl := Option.map_eq_none_iff.mp hn
        exact hrest
      | some n =>
        obtain ⟨m, rfl, hm⟩ := Option.map_eq_some_iff.mp hn
        cases rest <;> cases rest' <;> simp_all [bind, Except.bind, pure, Except.pure, Except.map]

/-- **The nodes along the walk** are the same but for places, or both walks stop with the same
fault. -/
theorem SameButPlaces.nodes (h : SameButPlaces g g') :
    g'.nodes.map (List.map Node.unplaced) = g.nodes.map (List.map Node.unplaced) := by
  have hclassify := h.classify
  rw [Graph.nodes, Graph.nodes, h.visits]
  generalize g.visits = ids at hclassify
  induction ids with
  | nil => rfl
  | cons i ids ih =>
    obtain ⟨hi, hids⟩ := List.forall_mem_cons.mp hclassify
    exact nodes_step hi (ih hids)

namespace Placed

/-! ## The top level -/

theorem topLevel_eq (h : g.Placed g') (hs : g.PlainlyLabelled) (source : String)
    (diagnostics : List Diagnostic) :
    SyntaxTree.topLevel ⟨g', source, diagnostics⟩
      = SyntaxTree.topLevel ⟨g, source, diagnostics⟩ := by
  obtain ⟨items, hitems⟩ := hs.children
  have hbelow := hs.get_below hs.root "children"
  rw [hitems, Datum.below_list] at hbelow
  simp only [SyntaxTree.topLevel, h.root, h.get hs.root (show "loc" ≠ "children" by decide), hitems,
    Except.ok.injEq]
  refine List.filterMap_congr fun item hitem ↦ ?_
  cases item with
  | record id =>
    have hid := Datum.below_record.mp (hbelow _ hitem)
    simp only [h.get hid (show "loc" ≠ "type" by decide), h.isSome_eq (hs.get_below hid "type")]
  | _ => rfl

theorem lt_of_mem_topLevel (hs : g.PlainlyLabelled) {source : String}
    {diagnostics : List Diagnostic} {ids : List Nat}
    (h : SyntaxTree.topLevel ⟨g, source, diagnostics⟩ = .ok ids) :
    ∀ i ∈ ids, i < g.records.size := by
  obtain ⟨items, hitems⟩ := hs.children
  have hbelow := hs.get_below hs.root "children"
  rw [hitems, Datum.below_list] at hbelow
  simp only [SyntaxTree.topLevel, hitems] at h
  cases h
  intro i hi
  obtain ⟨item, hitem, hi⟩ := List.mem_filterMap.mp hi
  split at hi
  · cases (Option.ite_none_right_eq_some.mp hi).2
    exact Datum.below_record.mp (hbelow _ hitem)
  · cases hi

theorem topLevelTypes_eq (h : g.Placed g') (hs : g.PlainlyLabelled) (source : String)
    (diagnostics : List Diagnostic) :
    SyntaxTree.topLevelTypes ⟨g', source, diagnostics⟩
      = SyntaxTree.topLevelTypes ⟨g, source, diagnostics⟩ := by
  rw [SyntaxTree.topLevelTypes, SyntaxTree.topLevelTypes, h.topLevel_eq hs]
  cases hids : SyntaxTree.topLevel ⟨g, source, diagnostics⟩ with
  | error e => rfl
  | ok ids =>
    refine congrArg Except.ok (List.map_congr_left fun i hi ↦ ?_)
    have hlt := lt_of_mem_topLevel hs hids i hi
    rw [h.get hlt (by decide), value_of_plain (hs.fields hlt).type]

end Placed

end Graph

end QuantumRisk.Ast
