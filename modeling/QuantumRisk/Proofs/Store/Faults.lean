import QuantumRisk.Proofs.Path
import QuantumRisk.Proofs.Store.Names
import QuantumRisk.Proofs.Store.Write

/-!
# Why a report is not saved

The system refuses an action on files for a reason, and a refusal becomes a failure of the write.
One thing the system cannot even be asked about: a path with a null byte in it. Such a path is only
met if there is a null byte in the directory of the reports, in the suffix of their names, or in the
current directory.
-/

namespace QuantumRisk

/-! ## Null bytes -/

namespace Path

variable {p : Path} {s : String}

def HasNull (p : Path) : Prop := '\x00' ∈ p.anchor.toList ∨ ∃ name ∈ p.parts, '\x00' ∈ name.toList

theorem mem_intercalate_slash {c : Char} {names : List String}
    (h : c ∈ (String.intercalate "/" names).toList) :
    c = '/' ∨ ∃ name ∈ names, c ∈ name.toList := by
  induction names with
  | nil => simp at h
  | cons name names ih =>
    cases names with
    | nil => exact .inr ⟨name, by simp, by simpa using h⟩
    | cons next names =>
      simp only [String.intercalate_cons_cons, String.toList_append, List.mem_append] at h
      rcases h with (h | h) | h
      · exact .inr ⟨name, List.mem_cons_self, h⟩
      · exact .inl (by simpa using h)
      · obtain h | ⟨name', hname', hc⟩ := ih h
        · exact .inl h
        · exact .inr ⟨name', List.mem_cons_of_mem _ hname', hc⟩

theorem hasNull_of_mem_text (h : '\x00' ∈ p.text.toList) : p.HasNull := by
  rw [text] at h
  split at h
  · simp at h
  · rw [String.toList_append, List.mem_append] at h
    exact h.imp_right fun h ↦ (mem_intercalate_slash h).resolve_left (by decide)

theorem HasNull.of_parent (h : p.parent.HasNull) : p.HasNull :=
  h.imp_right fun ⟨name, hname, hnull⟩ ↦ ⟨name, List.dropLast_subset _ hname, hnull⟩

theorem mem_of_mem_split {cs part : List Char} {c : Char} (hpart : part ∈ split cs)
    (hc : c ∈ part) : c ∈ cs := by
  fun_induction split cs generalizing part with
  | case1 =>
    rw [List.mem_singleton] at hpart
    rwa [hpart] at hc
  | case2 rest ih =>
    rcases List.mem_cons.mp hpart with rfl | hpart
    · cases hc
    · exact List.mem_cons_of_mem _ (ih hpart hc)
  | case3 c' rest hslash hsplit ih =>
    rw [List.mem_singleton] at hpart
    rw [hpart, List.mem_singleton] at hc
    exact hc ▸ List.mem_cons_self
  | case4 c' rest hslash part' parts hsplit ih =>
    rcases List.mem_cons.mp hpart with rfl | hpart
    · rcases List.mem_cons.mp hc with rfl | hc
      · exact List.mem_cons_self
      · exact List.mem_cons_of_mem _ (ih (hsplit ▸ List.mem_cons_self) hc)
    · exact List.mem_cons_of_mem _ (ih (hsplit ▸ List.mem_cons_of_mem _ hpart) hc)

theorem null_notMem_anchorOf (cs : List Char) : '\x00' ∉ (anchorOf cs).toList := by
  fun_cases anchorOf cs <;> simp

theorem null_mem_of_ofString (h : (ofString s).HasNull) : '\x00' ∈ s.toList := by
  rcases h with hanchor | ⟨name, hname, hnull⟩
  · exact absurd hanchor (null_notMem_anchorOf s.toList)
  · obtain ⟨hmem, -⟩ := List.mem_filter.mp hname
    obtain ⟨part, hpart, rfl⟩ := List.mem_map.mp hmem
    rw [String.toList_ofList] at hnull
    exact mem_of_mem_split hpart hnull

theorem HasNull.of_append (h : (p.append s).HasNull) : p.HasNull ∨ '\x00' ∈ s.toList := by
  rw [append, join] at h
  split at h
  · exact .inr (null_mem_of_ofString h)
  · rcases h with hanchor | ⟨name, hname, hnull⟩
    · exact .inl (.inl hanchor)
    · rcases List.mem_append.mp hname with hname | hname
      · exact .inl (.inr ⟨name, hname, hnull⟩)
      · exact .inr (null_mem_of_ofString (.inr ⟨name, hname, hnull⟩))

end Path

/-! ## Faults of the system -/

namespace FileSystem

variable {fs fs' : FileSystem} {p : Path} {e : PathFault}

/-- A walk only ends early because nothing is there or because a name is too long. -/
theorem walk_error {follow : Bool} {links : Nat} {place : Place} {names : List String}
    {reason : Refusal} (h : fs.walk follow links place names = .error reason) :
    reason.meansAbsent = true ∨ reason = .nameTooLong := by
  fun_induction walk fs follow links place names with
  | case1 | case5 | case8 | case10 => cases h
  | case2 links place rest ih => exact ih h
  | case3 links place rest hdot ih => exact ih h
  | case4 =>
    cases h
    exact .inr rfl
  | case6 | case9 | case11 =>
    cases h
    exact .inl rfl
  | case7 links place name rest hdot hdots hsize hdir ih => exact ih h
  | case12 place name rest hdot hdots hsize target hlink hend links ih => exact ih h

theorem locate_error {follow : Bool} (h : fs.locate follow p = .error e) :
    e = .nullByte ∧ p.HasNull ∨ ∃ reason, e = .refused reason p.text ∧
      (reason.meansAbsent = true ∨ reason = .nameTooLong) := by
  rw [locate] at h
  split at h
  · next hnull =>
    cases h
    exact .inl ⟨rfl, Path.hasNull_of_mem_text (by simpa using hnull)⟩
  · split at h
    · cases h
      exact .inr ⟨_, rfl, .inr rfl⟩
    · split at h
      · cases h
      · next reason hwalk =>
        cases h
        exact .inr ⟨reason, rfl, walk_error hwalk⟩

theorem stat_error (h : fs.stat p = .error e) :
    e = .nullByte ∧ p.HasNull ∨ ∃ reason, e = .refused reason p.text ∧
      (reason.meansAbsent = true ∨ reason = .nameTooLong) := by
  rw [stat] at h
  split at h
  · next hlocate =>
    cases h
    exact locate_error hlocate
  · split at h
    · cases h
    · cases h
      exact .inr ⟨.noEntry, rfl, .inl rfl⟩

/-- A fault of the system: it refuses, or it cannot be asked because of a null byte. -/
inductive SystemFault (null : Prop) : PathFault → Prop
  | refused (reason : Refusal) (path : String) : SystemFault null (.refused reason path)
  | nullByte (h : null) : SystemFault null .nullByte

theorem SystemFault.mono {null null' : Prop} (h : SystemFault null e) (himp : null → null') :
    SystemFault null' e := by
  cases h with
  | refused reason path => exact .refused reason path
  | nullByte h => exact .nullByte (himp h)

end FileSystem

/-! ## Faults of a write -/

namespace Store

open FileSystem (SystemFault)

variable {s : Store} {w w' : Workspace} {events : List Event} {fault : Fault}

/-- A null byte where the paths of a write come from. -/
def HasNull (s : Store) (fs : FileSystem) : Prop :=
  s.directory.HasNull ∨ '\x00' ∈ s.suffix.toList ∨ ∃ name ∈ fs.current, '\x00' ∈ name.toList

end Store

end QuantumRisk
