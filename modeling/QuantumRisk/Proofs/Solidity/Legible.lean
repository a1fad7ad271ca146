import QuantumRisk.Proofs.Ast.Rearrangement
import QuantumRisk.Proofs.Match.Counting
import QuantumRisk.Solidity.Parse

/-!
# Source code gives legible graphs

A record that is made from source code is well-formed, and stays so when its place is put beside it.
In a graph of well-formed records every record is legible, although places and types are read across
several records: which records these are does not matter, since all are well-formed.
-/

namespace QuantumRisk

namespace Ast

open Json (lookup)

/-! ## Well-formed records -/

namespace Datum

variable {d : Datum}

theorem isText_iff : d.isText = true ↔ ∃ s, d = .str s := by
  cases d <;> simp [isText]

theorem isTextOrNull_iff : d.isTextOrNull = true ↔ d = .null ∨ ∃ s, d = .str s := by
  cases d <;> simp [isTextOrNull, isText]

theorem isRecordOrNull_iff : d.isRecordOrNull = true ↔ d = .null ∨ ∃ id, d = .record id := by
  cases d <;> simp [isRecordOrNull]

theorem isNumber_iff : d.isNumber = true ↔ ∃ n, d = .int n := by
  cases d <;> simp [isNumber]

end Datum

namespace Fields

variable {fs : Fields} {key : String}

theorem get?_of_get {d : Datum} (h : get fs key = d) (hd : d ≠ .null) : get? fs key = some d := by
  rw [get] at h
  cases hget : get? fs key with
  | none => exact absurd (by rw [← h, hget]; rfl) hd
  | some d' => rw [← h, hget]; rfl

theorem get?_concat_of_ne {key' : String} (d : Datum) (h : key' ≠ key) :
    get? (fs ++ [(key', d)]) key = get? fs key := by
  simp [get?, List.find?_append, h]

/-- A place beside the other fields does not change what is read of them. -/
theorem WellFormed.concat_place (h : WellFormed fs) (d : Datum) :
    WellFormed (fs ++ [("loc", d)]) := by
  have hget {key : String} (hkey : "loc" ≠ key) : get (fs ++ [("loc", d)]) key = get fs key := by
    rw [get, get, get?_concat_of_ne d hkey]
  constructor
  · rw [hget (by decide)]
    exact h.type
  · rw [hget (by decide), hget (by decide)]
    exact h.declared
  · rw [hget (by decide), hget (by decide)]
    exact h.identifier
  · rw [hget (by decide), hget (by decide)]
    exact h.elementary
  · rw [hget (by decide), hget (by decide), get?_concat_of_ne d (by decide)]
    exact h.userDefined
  · rw [hget (by decide)]
    exact h.start
  · rw [hget (by decide), hget (by decide)]
    exact h.line

end Fields

/-! ## Graphs of well-formed records -/

namespace Graph

def WellFormed (g : Graph) : Prop := ∀ fs ∈ g.records, Fields.WellFormed fs

theorem value_int (g : Graph) (n : Int) : g.value (.int n) = .int n := by
  rw [value, unfold]

theorem get_of_lookup_str {g : Graph} {fuel : Nat} {path : List Nat} {fs : Fields} {key s : String}
    (h : lookup key (g.unfoldFields fuel path fs) = some (.str s)) :
    Fields.get fs key = .str s := by
  rw [lookup_unfoldFields, Option.map_eq_some_iff] at h
  obtain ⟨d, hd, hs⟩ := h
  rw [Fields.get, hd]
  exact unfold_eq_str_iff.mp hs

namespace WellFormed

variable {g : Graph} (h : g.WellFormed)
include h

theorem fields (i : Nat) : Fields.WellFormed (g.fields i) := by
  rw [Graph.fields, Array.getD]
  split
  · exact h _ (Array.getElem_mem _)
  · exact Fields.wellFormed_nil

/-- A place is read across three records; whichever these are, each is well-formed. -/
theorem wellPlaced (fs : Fields) : g.WellPlaced fs := by
  by_cases hloc : ∃ loc, Fields.get fs "loc" = .record loc
  case neg => exact .absent fun loc heq ↦ hloc ⟨loc, heq⟩
  obtain ⟨loc, hloc⟩ := hloc
  rcases Datum.isRecordOrNull_iff.mp (h.fields loc).start with hstart | ⟨start, hstart⟩
  · exact .noStart hloc (by simp [hstart]) (by simp [hstart, isSome])
  rcases (h.fields start).line with hline | ⟨hline, hcolumn⟩
  · exact .noLine hloc hstart hline
  obtain ⟨line, hline⟩ := Datum.isNumber_iff.mp hline
  obtain ⟨column, hcolumn⟩ := Datum.isNumber_iff.mp hcolumn
  have hline : (g.value (Fields.get (g.fields start) "line")).toInteger = .ok line := by
    rw [hline, value_int]
    rfl
  have hcolumn : ((g.value (Fields.get (g.fields start) "column")).orElse (.int 0)).toInteger
      = .ok column := by
    rw [hcolumn, value_int, Json.orElse]
    split
    · rfl
    · next hzero => rw [show column = 0 by simpa [Json.isSome] using hzero]; rfl
  exact .start hloc hstart hline hcolumn

/-- The text of a type that is a record is a text. -/
theorem exists_typeText_record (fuel : Nat) (path : List Nat) (i : Nat) :
    ∃ s, typeText (.obj (g.unfoldFields fuel path (g.fields i))) = .str s := by
  have hmember {key s : String} (hkey : Fields.get (g.fields i) key = .str s) :
      memberOrEmpty key (g.unfoldFields fuel path (g.fields i)) = .str s := by
    rw [memberOrEmpty, lookup_unfoldFields, Fields.get?_of_get hkey (by simp)]
    simp [unfold]
  by_cases hform : ∃ form ∈ typeForms,
      lookup "type" (g.unfoldFields fuel path (g.fields i)) = some (.str form)
  case neg => exact ⟨_, typeText_other fun form hmem heq ↦ hform ⟨form, hmem, heq⟩⟩
  obtain ⟨form, hmem, hform⟩ := hform
  simp only [typeForms, List.mem_cons, List.not_mem_nil, or_false] at hmem
  -- only plain names are given back as they are; the other forms make a text of anything
  rcases hmem with rfl | rfl | rfl | rfl | rfl
  · obtain ⟨s, hs⟩ := Datum.isText_iff.mp ((h.fields i).elementary (get_of_lookup_str hform))
    exact ⟨s, by rw [typeText_elementary hform, hmember hs]⟩
  · obtain ⟨hpath, hname⟩ := (h.fields i).userDefined (get_of_lookup_str hform)
    obtain ⟨s, hs⟩ := Datum.isText_iff.mp hpath
    rw [typeText_userDefined hform, hmember hs, Json.orElse]
    split
    · exact ⟨s, rfl⟩
    · -- an empty path gives way to the name, of which there is none
      rw [memberOrEmpty, lookup_unfoldFields, hname]
      exact ⟨"", rfl⟩
  · exact ⟨_, typeText_mapping hform⟩
  · exact ⟨_, typeText_array hform⟩
  · exact ⟨_, typeText_function hform⟩

theorem exists_typeText (d : Datum) : ∃ s, typeText (g.value d) = .str s := by
  have hother {v : Json} (hv : ∀ members, v ≠ .obj members) : ∃ s, typeText v = .str s := by
    rw [typeText.eq_def]
    split
    · next members => exact absurd rfl (hv members)
    · split
      · exact ⟨_, rfl⟩
      · exact ⟨_, rfl⟩
  cases d with
  | record id =>
    rw [value]
    cases g.records.size with
    | zero => exact hother (by simp [unfold])
    | succ fuel =>
      simp only [unfold, List.contains_nil, Bool.false_eq_true, if_false]
      exact h.exists_typeText_record fuel [id] id
  | _ => exact hother (by simp [value, unfold])

theorem legible (i : Nat) : g.Legible i := by
  refine ⟨?_, fun _ ↦ h.wellPlaced _, fun hd ↦ ?_, fun _ ↦ h.exists_typeText _⟩
  · rcases Datum.isTextOrNull_iff.mp (h.fields i).type with htype | ⟨type, htype⟩ <;> simp [htype]
  · exact Datum.isTextOrNull_iff.mp ((h.fields i).declared hd)

end WellFormed

end Graph

end Ast

/-! ## Graphs from source code -/

namespace Solidity

open Ast (Fields Graph SyntaxTree)

namespace Records

variable (r : Records)

theorem wellFormed_fields : ∀ fs ∈ r.fields, Fields.WellFormed fs := by
  intro fs hfs
  obtain ⟨record, -, rfl⟩ := Array.mem_map.mp hfs
  exact record.wellFormed

theorem wellFormed_placeFields (base i : Nat) (start stop : Grammar.Token) :
    ∀ fs ∈ placeFields base i start stop, Fields.WellFormed fs := by
  simp only [placeFields, List.forall_mem_cons]
  refine ⟨?_, ?_, ?_, by simp⟩
  all_goals constructor <;> simp [Fields.get, Fields.get?]

theorem wellFormed_withPlaces {fields : Array Fields} (h : r.withPlaces = some fields) :
    ∀ fs ∈ fields, Fields.WellFormed fs := by
  simp only [withPlaces, Option.pure_def, Option.bind_eq_bind, Option.bind_eq_some_iff,
    Option.some.injEq] at h
  obtain ⟨spans, -, rfl⟩ := h
  intro fs hfs
  rcases Array.mem_append.mp hfs with hfs | hfs
  · obtain ⟨i, hi, rfl⟩ := Array.mem_mapIdx.mp hfs
    exact (r.wellFormed_fields _ (Array.getElem_mem hi)).concat_place _
  · rw [List.mem_toArray, List.mem_flatten] at hfs
    obtain ⟨places, hplaces, hfs⟩ := hfs
    obtain ⟨i, hi, rfl⟩ := List.mem_mapIdx.mp hplaces
    exact wellFormed_placeFields _ _ _ _ fs hfs

end Records

variable {t : Grammar.Tree} {g : Graph}

theorem wellFormed_graphOf (h : graphOf t = .ok g) : g.WellFormed := by
  rw [graphOf] at h
  split at h
  · cases h
    exact Records.wellFormed_fields _
  · cases h
  · cases h

theorem wellFormed_placedGraphOf (h : placedGraphOf t = .ok g) : g.WellFormed := by
  rw [placedGraphOf] at h
  split at h
  · split at h
    · next fields hfields =>
      cases h
      exact Records.wellFormed_withPlaces _ hfields
    · cases h
  · cases h
  · cases h

theorem wellFormed_lastOutcome {places : Bool} (h : lastOutcome (attempts places t) = .ok g) :
    g.WellFormed := by
  rw [attempts] at h
  split at h
  · split at h
    · next hplaced =>
      cases h
      exact wellFormed_placedGraphOf hplaced
    · exact wellFormed_graphOf h
  · exact wellFormed_graphOf h

theorem conclude_cases (u : SourceUnit) (diagnostics : List Diagnostic)
    (outcome : Except BuildFault Graph) :
    (∃ message, conclude u diagnostics outcome = .error (parseFailure u diagnostics message)) ∨
      ∃ g, outcome = .ok g ∧ conclude u diagnostics outcome = .ok ⟨g, u.basename, diagnostics⟩ := by
  cases outcome with
  | error fault => exact .inl ⟨_, rfl⟩
  | ok g =>
    simp only [conclude]
    split
    · exact .inl ⟨_, rfl⟩
    · exact .inr ⟨g, rfl, rfl⟩

/-- **Every parse** fails as such, or gives a graph of well-formed records. -/
theorem parseUnit_cases (places : Bool) (u : SourceUnit) :
    (∃ diagnostics message,
      (parseUnit places u).result = .error (parseFailure u diagnostics message)) ∨
      ∃ tree, (parseUnit places u).result = .ok tree ∧ tree.graph.WellFormed := by
  rw [parseUnit]
  split
  · exact .inl ⟨_, _, rfl⟩
  · next t ht =>
    rcases conclude_cases u (parseText u.text).diagnostics (lastOutcome (attempts places t)) with
      ⟨message, h⟩ | ⟨g, hg, h⟩
    · exact .inl ⟨_, message, h⟩
    · exact .inr ⟨_, h, wellFormed_lastOutcome hg⟩

end Solidity

end QuantumRisk
