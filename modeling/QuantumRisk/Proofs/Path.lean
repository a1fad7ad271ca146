import QuantumRisk.Path

/-!
# Names and paths

A plain name is one that a directory can hold: not empty, no dots that mean a place, no slash. A
plain name appended to a path is its last component, so that it can be taken off again. The
ancestors of a path are the paths that its first components make.
-/

namespace QuantumRisk.Path

variable {p a : Path} {name : String}

/-! ## Plain names -/

/-- Can a directory hold an entry of this name? -/
structure Plain (name : String) : Prop where
  ne_empty : name ≠ ""
  ne_dot : name ≠ "."
  ne_dots : name ≠ ".."
  slash_notMem : '/' ∉ name.toList

theorem split_of_notMem {cs : List Char} (h : '/' ∉ cs) : split cs = [cs] := by
  induction cs with
  | nil => rw [split]
  | cons c cs ih =>
    rw [List.mem_cons, not_or] at h
    obtain ⟨hc, hcs⟩ := h
    rw [split, ih hcs]
    rintro rfl
    exact hc rfl

theorem anchorOf_of_notMem {cs : List Char} (h : '/' ∉ cs) : anchorOf cs = "" := by
  fun_cases anchorOf cs with
  | case1 => simp at h
  | case2 => simp at h
  | case3 => simp at h
  | case4 => rfl

theorem ofString_of_plain (h : Plain name) : ofString name = ⟨"", [name]⟩ := by
  rw [ofString, anchorOf_of_notMem h.slash_notMem, components, split_of_notMem h.slash_notMem]
  simp [h.ne_empty, h.ne_dot]

theorem append_of_plain (p : Path) (h : Plain name) :
    p.append name = ⟨p.anchor, p.parts ++ [name]⟩ := by
  rw [append, ofString_of_plain h, join]
  rfl

theorem parent_append (p : Path) (h : Plain name) : (p.append name).parent = p := by
  rw [append_of_plain p h, parent, List.dropLast_concat]

theorem name_append (p : Path) (h : Plain name) : (p.append name).name = name := by
  rw [append_of_plain p h, Path.name, List.getLast?_concat]
  rfl

theorem text_append (hp : p.parts ≠ []) (h : Plain name) :
    (p.append name).text = p.text ++ "/" ++ name := by
  have htext {q : Path} (hq : q.parts ≠ []) :
      q.text = q.anchor ++ String.intercalate "/" q.parts := by
    simp [text, hq]
  rw [append_of_plain p h, htext (by simp), htext hp,
    String.intercalate_append_of_ne_nil hp (by simp), String.intercalate_singleton]
  simp only [String.append_assoc]

/-! ## Components -/

/-- No component is empty or has a slash in it. -/
def Proper (p : Path) : Prop := ∀ name ∈ p.parts, name ≠ "" ∧ '/' ∉ name.toList

theorem slash_notMem_of_mem_split {cs part : List Char} (h : part ∈ split cs) : '/' ∉ part := by
  fun_induction split cs generalizing part with
  | case1 =>
    rw [List.mem_singleton] at h
    simp [h]
  | case2 rest ih =>
    rcases List.mem_cons.mp h with rfl | h
    · simp
    · exact ih h
  | case3 c rest hc hsplit ih =>
    rw [List.mem_singleton] at h
    subst h
    simpa using Ne.symm hc
  | case4 c rest hc part' parts hsplit ih =>
    rcases List.mem_cons.mp h with rfl | h
    · rw [List.mem_cons, not_or]
      exact ⟨Ne.symm hc, ih (hsplit ▸ List.mem_cons_self)⟩
    · exact ih (hsplit ▸ List.mem_cons_of_mem _ h)

theorem proper_ofString (s : String) : Proper (ofString s) := by
  intro name hname
  obtain ⟨hmem, hne⟩ := List.mem_filter.mp hname
  obtain ⟨part, hpart, rfl⟩ := List.mem_map.mp hmem
  rw [Bool.and_eq_true, bne_iff_ne] at hne
  refine ⟨hne.1, ?_⟩
  rw [String.toList_ofList]
  exact slash_notMem_of_mem_split hpart

theorem Proper.parent (h : Proper p) : Proper p.parent := fun name hname ↦
  h name (List.dropLast_subset _ hname)

/-! ## Reading a path again -/

theorem split_append_slash {cs : List Char} (h : '/' ∉ cs) (rest : List Char) :
    split (cs ++ '/' :: rest) = cs :: split rest := by
  induction cs with
  | nil => rw [List.nil_append, split]
  | cons c cs ih =>
    rw [List.mem_cons, not_or] at h
    obtain ⟨hc, hcs⟩ := h
    rw [List.cons_append, split, ih hcs]
    rintro rfl
    exact hc rfl

theorem split_intercalate (name : String) (names : List String)
    (h : ∀ n ∈ name :: names, '/' ∉ n.toList) :
    split (String.intercalate "/" (name :: names)).toList = (name :: names).map String.toList := by
  induction names generalizing name with
  | nil => simpa using split_of_notMem (h name List.mem_cons_self)
  | cons next names ih =>
    have hslash := split_append_slash (h name List.mem_cons_self)
      (String.intercalate "/" (next :: names)).toList
    rw [String.intercalate_cons_cons]
    simp only [String.toList_append, List.append_assoc]
    rw [show "/".toList = ['/'] from rfl, List.singleton_append, hslash,
      ih next fun n hn ↦ h n (List.mem_cons_of_mem _ hn)]
    rfl

/-- An absolute path with plain names is read from its text. -/
theorem ofString_text {names : List String} (h : ∀ n ∈ names, Plain n) :
    ofString (text ⟨"/", names⟩) = ⟨"/", names⟩ := by
  cases names with
  | nil => rfl
  | cons name names =>
    have hplain := h name List.mem_cons_self
    obtain ⟨c, cs, hcs⟩ : ∃ c cs, name.toList = c :: cs :=
      List.exists_cons_of_ne_nil fun hnil ↦ hplain.ne_empty (String.toList_eq_nil_iff.mp hnil)
    have hc : c ≠ '/' := by
      rintro rfl
      exact hplain.slash_notMem (by simp [hcs])
    have htext : (text ⟨"/", name :: names⟩).toList
        = '/' :: (String.intercalate "/" (name :: names)).toList := by
      simp [text]
    have hhead : (String.intercalate "/" (name :: names)).toList.head? = some c := by
      cases names with
      | nil => simp [hcs]
      | cons next names => simp [String.intercalate_cons_cons, hcs]
    obtain ⟨rest, hrest⟩ := List.head?_eq_some_iff.mp hhead
    have hanchor : anchorOf ('/' :: c :: rest) = "/" := by
      rw [anchorOf]
      all_goals
        rintro tail htail
        exact hc (List.cons.inj htail).1
    have hsplit := split_intercalate name names fun n hn ↦ (h n hn).slash_notMem
    have hfilter : (name :: names).filter (fun p ↦ p != "" && p != ".") = name :: names := by
      rw [List.filter_eq_self]
      intro n hn
      simp [(h n hn).ne_empty, (h n hn).ne_dot]
    rw [ofString, htext, components, split, hsplit]
    simp only [List.map_cons, List.map_map, Function.comp_def, String.ofList_toList, List.map_id']
    rw [List.filter_cons_of_neg (by simp), hfilter, hrest, hanchor]

/-! ## Ancestors -/

/-- The path itself or one of the directories that it names on its way. -/
structure Ancestor (a p : Path) : Prop where
  anchor : a.anchor = p.anchor
  parts : a.parts <+: p.parts

theorem Ancestor.refl (p : Path) : Ancestor p p := ⟨rfl, List.prefix_rfl⟩

theorem Ancestor.of_parent (h : Ancestor a p.parent) : Ancestor a p :=
  ⟨h.anchor, h.parts.trans (List.dropLast_prefix p.parts)⟩

end QuantumRisk.Path
