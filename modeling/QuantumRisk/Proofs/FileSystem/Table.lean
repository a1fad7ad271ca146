import QuantumRisk.FileSystem.Actions

/-!
# The table of entries

The tree is a list of places with entries, and only the entry that a lookup finds counts. Setting
and removing are described by what lookups find afterwards, with one exception: setting a place
where nothing was puts it at the end of the list, and removing it again gives the *same list* back.
That is what makes a temporary file leave no trace, not even in the order in which names are listed.
-/

namespace QuantumRisk.FileSystem

variable {fs : FileSystem} {p q : Place} {e : Entry}

@[simp] theorem entryAt_nil (fs : FileSystem) : fs.entryAt [] = some .directory := if_pos rfl

theorem ne_nil_of_entryAt_eq_none (h : fs.entryAt q = none) : q ≠ [] := by
  rintro rfl
  simp at h

/-- A place without an entry does not occur in the table. -/
theorem notMem_places_of_entryAt_eq_none (h : fs.entryAt q = none) : q ∉ fs.entries.map (·.1) := by
  rw [entryAt, if_neg (ne_nil_of_entryAt_eq_none h), List.lookup_eq_none_iff] at h
  intro hq
  obtain ⟨⟨q', e⟩, hmem, rfl⟩ := List.mem_map.mp hq
  simpa using h _ hmem

/-! ## Setting an entry -/

theorem putEntry_of_notMem {entries : List (Place × Entry)} (h : q ∉ entries.map (·.1)) :
    putEntry q e entries = entries ++ [(q, e)] := by
  induction entries with
  | nil => rfl
  | cons a entries ih =>
    rw [List.map_cons, List.mem_cons, not_or] at h
    rw [putEntry, if_neg fun heq ↦ h.1 heq.symm, ih h.2, List.cons_append]

theorem entries_put (h : fs.entryAt q = none) : (fs.put q e).entries = fs.entries ++ [(q, e)] :=
  putEntry_of_notMem (notMem_places_of_entryAt_eq_none h)

theorem put_of_free (h : fs.entryAt q = none) :
    fs.put q e = ⟨fs.entries ++ [(q, e)], fs.current⟩ := by
  rw [← entries_put h]
  rfl

theorem lookup_putEntry (p q : Place) (e : Entry) (entries : List (Place × Entry)) :
    List.lookup p (putEntry q e entries) = if p = q then some e else List.lookup p entries := by
  induction entries with
  | nil =>
    by_cases h : p = q
    · simp [putEntry, h]
    · simp [putEntry, h]
  | cons a entries ih =>
    obtain ⟨q', old⟩ := a
    rw [putEntry]
    by_cases hp : p = q'
    · by_cases h : q' = q
      · simp [hp, h]
      · simp [hp, h]
    · have hbeq : (p == q') = false := beq_eq_false_iff_ne.mpr hp
      by_cases h : q' = q
      · rw [if_pos h, List.lookup_cons, List.lookup_cons, hbeq, if_neg (h ▸ hp)]
      · rw [if_neg h, List.lookup_cons, List.lookup_cons, hbeq]
        exact ih

theorem entryAt_put_self (hq : q ≠ []) : entryAt (fs.put q e) q = some e := by
  rw [entryAt, if_neg hq, put, lookup_putEntry, if_pos rfl]

theorem entryAt_put_of_ne (h : p ≠ q) : entryAt (fs.put q e) p = fs.entryAt p := by
  rw [entryAt, entryAt, put, lookup_putEntry, if_neg h]

/-! ## Removing an entry -/

theorem filter_of_notMem {entries : List (Place × Entry)} (h : q ∉ entries.map (·.1)) :
    entries.filter (fun a ↦ a.1 ≠ q) = entries := by
  rw [List.filter_eq_self]
  intro a ha
  have : a.1 ≠ q := fun heq ↦ h (heq ▸ List.mem_map_of_mem ha)
  simpa using this

/-- An entry that is set where nothing was and removed again leaves no trace. -/
theorem erase_put (h : fs.entryAt q = none) : (fs.put q e).erase q = fs := by
  have hmem := notMem_places_of_entryAt_eq_none h
  rw [erase, entries_put h, List.filter_append, filter_of_notMem hmem]
  simp [put]

/-- The same with another new entry in between. -/
theorem erase_put_put {e' : Entry} (hp : fs.entryAt p = none) (hq : fs.entryAt q = none)
    (hne : q ≠ p) : ((fs.put p e).put q e').erase p = fs.put q e' := by
  have hmem := notMem_places_of_entryAt_eq_none hp
  have hq' : entryAt (fs.put p e) q = none := by rw [entryAt_put_of_ne hne, hq]
  have hentries : ((fs.put p e).put q e').entries.filter (fun a ↦ a.1 ≠ p)
      = (fs.put q e').entries := by
    rw [entries_put hq', entries_put hp, entries_put hq, List.filter_append, List.filter_append,
      filter_of_notMem hmem]
    simp [hne]
  rw [erase, hentries]
  rfl

/-! ## Names in a directory -/

theorem nameIn_eq_some_iff {d : Place} {name : String} :
    nameIn d p = some name ↔ p = d ++ [name] := by
  induction d generalizing p with
  | nil =>
    match p with
    | [] => simp [nameIn]
    | [n] => simp [nameIn]
    | n :: m :: rest => simp [nameIn]
  | cons c d ih =>
    match p with
    | [] => simp [nameIn]
    | n :: rest =>
      rw [nameIn]
      by_cases h : c = n
      · simp [h, ih]
      · simp [h, Ne.symm h]

/-- The names in a directory are those that a lookup finds something under. -/
theorem mem_namesIn_iff {d : Place} {name : String} :
    name ∈ fs.namesIn d ↔ (fs.entryAt (d ++ [name])).isSome := by
  have hne : d ++ [name] ≠ [] := by simp
  rw [namesIn, List.mem_filterMap, entryAt, if_neg hne, List.lookup_isSome_iff]
  constructor
  · rintro ⟨⟨q, e⟩, hmem, hq⟩
    rw [nameIn_eq_some_iff] at hq
    exact ⟨(q, e), hmem, by simp [hq]⟩
  · rintro ⟨⟨q, e⟩, hmem, hq⟩
    exact ⟨(q, e), hmem, nameIn_eq_some_iff.mpr (by simpa using Eq.symm (eq_of_beq hq))⟩

end QuantumRisk.FileSystem
