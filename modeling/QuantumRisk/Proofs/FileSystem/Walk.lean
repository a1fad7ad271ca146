import QuantumRisk.Proofs.FileSystem.Table
import QuantumRisk.Proofs.Path

/-!
# Where paths lead after a change

A walk looks only at directories and links on its way, and at its end it may find anything. So a
change that keeps the directories and the links keeps every walk, unless it puts a new link at the
very place where the walk ended. That is one lemma, `walk_of_keeps`, and it covers all changes in
this library: entries that are added, and files that are removed.

The second fact takes a walk apart at its last name: the walk to a name in a directory first leads
to the directory.
-/

namespace QuantumRisk.FileSystem

variable {fs fs' : FileSystem} {p q : Place}

/-! ## Changes that keep walks -/

/-- Every directory and every link is still there. Files may have come or gone. -/
structure Keeps (fs fs' : FileSystem) : Prop where
  current : fs'.current = fs.current
  directory : ∀ {p}, fs.entryAt p = some .directory → fs'.entryAt p = some .directory
  link : ∀ {p t}, fs.entryAt p = some (.link t) → fs'.entryAt p = some (.link t)

/-- Taking back a new file keeps the ways. -/
theorem put_keeps (h : fs.entryAt q = none) (bytes : List UInt8) :
    Keeps (fs.put q (.file bytes)) fs := by
  have hself : entryAt (fs.put q (.file bytes)) q = some (.file bytes) :=
    entryAt_put_self (ne_nil_of_entryAt_eq_none h)
  refine ⟨rfl, fun {p} hp ↦ ?_, fun {p t} hp ↦ ?_⟩
  · by_cases hpq : p = q
    · rw [hpq, hself] at hp
      cases hp
    · rwa [entryAt_put_of_ne hpq] at hp
  · by_cases hpq : p = q
    · rw [hpq, hself] at hp
      cases hp
    · rwa [entryAt_put_of_ne hpq] at hp

/-! ## Single steps of a walk -/

section Steps

variable {follow : Bool} {links : Nat} {place : Place} {name : String} {rest : List String}

/-- A name that a walk looks up in the directory it has come to. -/
structure LookedUp (name : String) : Prop where
  ne_dot : name ≠ "."
  ne_dots : name ≠ ".."
  size : ¬ name.utf8ByteSize > nameLimit

theorem walk_dot : fs.walk follow links place ("." :: rest) = fs.walk follow links place rest := by
  rw [walk, if_pos rfl]

theorem walk_dots :
    fs.walk follow links place (".." :: rest) = fs.walk follow links place.dropLast rest := by
  rw [walk, if_neg (by decide), if_pos rfl]

theorem walk_directory (hname : LookedUp name)
    (h : fs.entryAt (place ++ [name]) = some .directory) :
    fs.walk follow links place (name :: rest) = fs.walk follow links (place ++ [name]) rest := by
  rw [walk, if_neg hname.ne_dot, if_neg hname.ne_dots, if_neg hname.size, h]

theorem walk_link {target : String} (hname : LookedUp name)
    (h : fs.entryAt (place ++ [name]) = some (.link target)) (hend : ¬ (rest = [] ∧ ¬ follow)) :
    fs.walk follow (links + 1) place (name :: rest)
      = fs.walk follow links (origin (Path.ofString target).isAbsolute place)
          (targetNames target ++ rest) := by
  rw [walk, if_neg hname.ne_dot, if_neg hname.ne_dots, if_neg hname.size, h]
  simp only [hend, if_false]

/-- A walk ends at its last name unless it follows a link there. -/
theorem walk_singleton (hname : LookedUp name)
    (h : follow = true → ∀ t, fs.entryAt (place ++ [name]) ≠ some (.link t)) :
    fs.walk follow links place [name] = .ok (place ++ [name]) := by
  rw [walk, if_neg hname.ne_dot, if_neg hname.ne_dots, if_neg hname.size]
  cases hentry : fs.entryAt (place ++ [name]) with
  | none => rfl
  | some e =>
    cases e with
    | file bytes => rfl
    | directory => rw [walk]
    | link t =>
      have hfollow : ¬ follow := fun hf ↦ h hf t hentry
      simp [hfollow]

/-- A walk goes on behind a name only through a directory or a link. -/
theorem lookedUp_of_walk_cons (hdot : name ≠ ".") (hdots : name ≠ "..") (hrest : rest ≠ [])
    (h : fs.walk follow links place (name :: rest) = .ok q) :
    LookedUp name ∧ (fs.entryAt (place ++ [name]) = some .directory ∨
      links ≠ 0 ∧ ∃ t, fs.entryAt (place ++ [name]) = some (.link t)) := by
  rw [walk, if_neg hdot, if_neg hdots] at h
  split at h
  · cases h
  next hsize =>
  refine ⟨⟨hdot, hdots, hsize⟩, ?_⟩
  cases hentry : fs.entryAt (place ++ [name]) with
  | none => simp [hentry] at h
  | some e =>
    cases e with
    | file bytes => simp [hentry] at h
    | directory => exact .inl rfl
    | link t =>
      refine .inr ⟨?_, t, rfl⟩
      rintro rfl
      simp [hentry, hrest] at h

end Steps

/-! ## Walks survive -/

/-- **Walks survive.** A walk leads to the same place after a change that keeps directories and
links and puts no new link there. -/
theorem walk_of_keeps {follow : Bool} {links : Nat} {place : Place} {names : List String}
    (hk : Keeps fs fs') (h : fs.walk follow links place names = .ok q)
    (hq : ∀ t, fs'.entryAt q = some (.link t) → fs.entryAt q = some (.link t)) :
    fs'.walk follow links place names = .ok q := by
  fun_induction walk fs follow links place names with
  | case1 links place => rwa [walk]
  | case2 links place rest ih =>
    rw [walk_dot]
    exact ih h
  | case3 links place rest hdot ih =>
    rw [walk_dots]
    exact ih h
  | case5 links place name hdot hdots hsize hnone =>
    -- the walk ended where nothing was, and at most a file or a directory has come there
    cases h
    refine walk_singleton ⟨hdot, hdots, hsize⟩ fun _ t ht ↦ ?_
    have := hq t ht
    rw [hnone] at this
    cases this
  | case7 links place name rest hdot hdots hsize hdir ih =>
    rw [walk_directory ⟨hdot, hdots, hsize⟩ (hk.directory hdir)]
    exact ih h
  | case8 links place name hdot hdots hsize bytes hfile =>
    cases h
    refine walk_singleton ⟨hdot, hdots, hsize⟩ fun _ t ht ↦ ?_
    have := hq t ht
    rw [hfile] at this
    cases this
  | case10 links place name rest hdot hdots hsize target hlink hend =>
    cases h
    obtain ⟨rfl, hfollow⟩ := hend
    exact walk_singleton ⟨hdot, hdots, hsize⟩ fun hf ↦ absurd hf hfollow
  | case12 place name rest hdot hdots hsize target hlink hend links ih =>
    rw [walk_link ⟨hdot, hdots, hsize⟩ (hk.link hlink) hend]
    exact ih h
  | case4 | case6 | case9 | case11 => cases h

theorem locate_eq_ok_iff {follow : Bool} {p : Path} :
    fs.locate follow p = .ok q ↔
      p.text.contains '\x00' = false ∧ p.text.utf8ByteSize < pathLimit ∧
        fs.walk follow linkLimit (origin p.isAbsolute fs.current) p.parts = .ok q := by
  rw [locate]
  split
  · next hnull => simp [hnull]
  · next hnull =>
    split
    · next hsize =>
      have : ¬ p.text.utf8ByteSize < pathLimit := by omega
      simp [this]
    · next hsize =>
      have : p.text.utf8ByteSize < pathLimit := by omega
      cases hwalk : fs.walk follow linkLimit (origin p.isAbsolute fs.current) p.parts with
      | ok place => simp [hnull, this]
      | error r => simp

theorem locate_of_keeps {follow : Bool} {p : Path} (hk : Keeps fs fs')
    (h : fs.locate follow p = .ok q)
    (hq : ∀ t, fs'.entryAt q = some (.link t) → fs.entryAt q = some (.link t)) :
    fs'.locate follow p = .ok q := by
  rw [locate_eq_ok_iff] at h ⊢
  obtain ⟨hnull, hsize, hwalk⟩ := h
  refine ⟨hnull, hsize, ?_⟩
  rw [hk.current]
  exact walk_of_keeps hk hwalk hq

/-! ## Following the last name -/

/-- Only a link at the end makes a difference between following it and not. -/
theorem walk_follow {links : Nat} {place : Place} {names : List String}
    (h : fs.walk false links place names = .ok q) (hq : ∀ t, fs.entryAt q ≠ some (.link t)) :
    fs.walk true links place names = .ok q := by
  fun_induction walk fs false links place names with
  | case1 links place => rwa [walk]
  | case2 links place rest ih =>
    rw [walk_dot]
    exact ih h
  | case3 links place rest hdot ih =>
    rw [walk_dots]
    exact ih h
  | case5 links place name hdot hdots hsize hnone =>
    cases h
    exact walk_singleton ⟨hdot, hdots, hsize⟩ fun _ ↦ hq
  | case7 links place name rest hdot hdots hsize hdir ih =>
    rw [walk_directory ⟨hdot, hdots, hsize⟩ hdir]
    exact ih h
  | case8 links place name hdot hdots hsize bytes hfile =>
    cases h
    exact walk_singleton ⟨hdot, hdots, hsize⟩ fun _ ↦ hq
  | case10 links place name rest hdot hdots hsize target hlink hend =>
    cases h
    exact absurd hlink (hq target)
  | case12 place name rest hdot hdots hsize target hlink hend links ih =>
    rw [walk_link ⟨hdot, hdots, hsize⟩ hlink (by simp)]
    exact ih h
  | case4 | case6 | case9 | case11 => cases h

theorem locate_follow {p : Path} (h : fs.locate false p = .ok q)
    (hq : ∀ t, fs.entryAt q ≠ some (.link t)) : fs.locate true p = .ok q := by
  rw [locate_eq_ok_iff] at h ⊢
  exact ⟨h.1, h.2.1, walk_follow h.2.2 hq⟩

/-- Where a walk leads to something, it also leads to its last name. -/
theorem exists_walk_nofollow {links : Nat} {place : Place} {names : List String}
    (h : fs.walk true links place names = .ok q) :
    ∃ p, fs.walk false links place names = .ok p := by
  fun_induction walk fs true links place names with
  | case1 links place => exact ⟨place, by rw [walk]⟩
  | case2 links place rest ih =>
    rw [walk_dot]
    exact ih h
  | case3 links place rest hdot ih =>
    rw [walk_dots]
    exact ih h
  | case5 links place name hdot hdots hsize hnone =>
    exact ⟨place ++ [name], walk_singleton ⟨hdot, hdots, hsize⟩ (by simp)⟩
  | case7 links place name rest hdot hdots hsize hdir ih =>
    rw [walk_directory ⟨hdot, hdots, hsize⟩ hdir]
    exact ih h
  | case8 links place name hdot hdots hsize bytes hfile =>
    exact ⟨place ++ [name], walk_singleton ⟨hdot, hdots, hsize⟩ (by simp)⟩
  | case10 links place name rest hdot hdots hsize target hlink hend => simp at hend
  | case12 place name rest hdot hdots hsize target hlink hend links ih =>
    by_cases hrest : rest = []
    · subst hrest
      exact ⟨place ++ [name], walk_singleton ⟨hdot, hdots, hsize⟩ (by simp)⟩
    · rw [walk_link ⟨hdot, hdots, hsize⟩ hlink (by simp [hrest])]
      exact ih h
  | case4 | case6 | case9 | case11 => cases h

theorem exists_locate_nofollow {p : Path} (h : fs.locate true p = .ok q) :
    ∃ q', fs.locate false p = .ok q' := by
  rw [locate_eq_ok_iff] at h
  obtain ⟨q', hq'⟩ := exists_walk_nofollow h.2.2
  exact ⟨q', locate_eq_ok_iff.mpr ⟨h.1, h.2.1, hq'⟩⟩

/-! ## The last name of a walk -/

/-- The walk to a name leads through its directory. A name that is a link may lead on. -/
theorem exists_walk_of_append {follow : Bool} {links : Nat} {place : Place} {names : List String}
    {name : String} (hdot : name ≠ ".") (hdots : name ≠ "..")
    (h : fs.walk follow links place (names ++ [name]) = .ok q) :
    ∃ d, fs.walk true links place names = .ok d ∧
      (q = d ++ [name] ∨ follow = true ∧ ∃ t, fs.entryAt (d ++ [name]) = some (.link t)) := by
  -- the induction is on the walk to the directory, which the longer walk takes step by step too
  fun_induction walk fs true links place names with
  | case1 links place =>
    refine ⟨place, rfl, ?_⟩
    rw [List.nil_append] at h
    have hname : LookedUp name := by
      refine ⟨hdot, hdots, fun hsize ↦ ?_⟩
      rw [walk, if_neg hdot, if_neg hdots, if_pos hsize] at h
      cases h
    by_cases hlink : follow = true ∧ ∃ t, fs.entryAt (place ++ [name]) = some (.link t)
    · exact .inr hlink
    · rw [walk_singleton hname fun hf t ht ↦ hlink ⟨hf, t, ht⟩] at h
      exact .inl (Except.ok.inj h).symm
  | case2 links place rest ih =>
    rw [List.cons_append, walk_dot] at h
    exact ih h
  | case3 links place rest hdot' ih =>
    rw [List.cons_append, walk_dots] at h
    exact ih h
  | case7 links place n rest hdot' hdots' hsize hdir ih =>
    rw [List.cons_append, walk_directory ⟨hdot', hdots', hsize⟩ hdir] at h
    exact ih h
  | case10 links place n rest hdot' hdots' hsize target hlink hend => simp at hend
  | case12 place n rest hdot' hdots' hsize target hlink hend links ih =>
    rw [List.cons_append, walk_link ⟨hdot', hdots', hsize⟩ hlink (by simp),
      ← List.append_assoc] at h
    exact ih h
  -- in the other cases the walk to the directory fails or ends too early
  | case4 links place n rest hdot' hdots' hsize =>
    exact absurd hsize (lookedUp_of_walk_cons hdot' hdots' (by simp) h).1.size
  | case5 links place n hdot' hdots' hsize hentry
  | case6 links place n rest hdot' hdots' hsize hentry
  | case8 links place n hdot' hdots' hsize _ hentry
  | case9 links place n rest hdot' hdots' hsize _ hentry
  | case11 place n rest hdot' hdots' hsize _ hentry =>
    have := (lookedUp_of_walk_cons hdot' hdots' (by simp) h).2
    simp [hentry] at this

/-- A name in a directory is looked for at the place of the directory. -/
theorem locate_append {follow : Bool} {p : Path} {d : Place} {name : String}
    (hname : Path.Plain name) (hd : fs.locate true p = .ok d)
    (h : fs.locate follow (p.append name) = .ok q) :
    q = d ++ [name] ∨ follow = true ∧ ∃ t, fs.entryAt (d ++ [name]) = some (.link t) := by
  rw [Path.append_of_plain p hname] at h
  obtain ⟨-, -, hwalk⟩ := locate_eq_ok_iff.mp h
  obtain ⟨-, -, hwalk'⟩ := locate_eq_ok_iff.mp hd
  obtain ⟨d', hd', hq⟩ := exists_walk_of_append hname.ne_dot hname.ne_dots hwalk
  obtain rfl : d = d' := Except.ok.inj (hwalk'.symm.trans hd')
  exact hq

/-- The other way round, a walk to a directory goes on to every name that is looked up there. -/
theorem walk_append_of_directory {links : Nat} {place d : Place} {names : List String}
    {name : String} (hname : LookedUp name) (h : fs.walk true links place names = .ok d)
    (hd : fs.entryAt d = some .directory) :
    fs.walk false links place (names ++ [name]) = .ok (d ++ [name]) := by
  fun_induction walk fs true links place names with
  | case1 links place =>
    cases h
    exact walk_singleton hname (by simp)
  | case2 links place rest ih =>
    rw [List.cons_append, walk_dot]
    exact ih h
  | case3 links place rest hdot ih =>
    rw [List.cons_append, walk_dots]
    exact ih h
  | case5 links place n hdot hdots hsize hentry | case8 links place n hdot hdots hsize _ hentry =>
    -- the walk ends where no directory is
    cases h
    rw [hd] at hentry
    cases hentry
  | case7 links place n rest hdot hdots hsize hdir ih =>
    rw [List.cons_append, walk_directory ⟨hdot, hdots, hsize⟩ hdir]
    exact ih h
  | case10 links place n rest hdot hdots hsize target hlink hend => simp at hend
  | case12 place n rest hdot hdots hsize target hlink hend links ih =>
    rw [List.cons_append, walk_link ⟨hdot, hdots, hsize⟩ hlink (by simp), ← List.append_assoc]
    exact ih h
  | case4 | case6 | case9 | case11 => cases h

end QuantumRisk.FileSystem
