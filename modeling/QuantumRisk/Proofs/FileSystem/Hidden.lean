import QuantumRisk.Proofs.FileSystem.OneFile

/-!
# Trees that differ in hidden bytes

Two trees have the same places, directories and links, and differ only in the bytes of some files,
the hidden ones. Then every walk goes the same way in both, every question about a path has the same
answer, and every change that is possible in one is possible in the other and leaves two such trees
behind. Only reading a hidden file tells them apart.
-/

namespace QuantumRisk

/-- Two results that can fail are the same failure, or are related. -/
inductive SameEnd {ε α β : Type} (R : α → β → Prop) : Except ε α → Except ε β → Prop
  | error (e : ε) : SameEnd R (.error e) (.error e)
  | ok {a : α} {b : β} (h : R a b) : SameEnd R (.ok a) (.ok b)

theorem SameEnd.cases {ε α β : Type} {R : α → β → Prop} {x : Except ε α} {y : Except ε β}
    (h : SameEnd R x y) :
    (∃ e, x = .error e ∧ y = .error e) ∨ ∃ a b, x = .ok a ∧ y = .ok b ∧ R a b := by
  cases h with
  | error e => exact .inl ⟨e, rfl, rfl⟩
  | ok h => exact .inr ⟨_, _, rfl, rfl, h⟩

namespace FileSystem

/-- Two trees are the same but for the bytes of files at hidden places. -/
structure SameBut (hidden : Place → Prop) (fs fs' : FileSystem) : Prop where
  current : fs'.current = fs.current
  entry : ∀ q, fs'.entryAt q = fs.entryAt q ∨ hidden q ∧
    ∃ b b', fs.entryAt q = some (.file b) ∧ fs'.entryAt q = some (.file b')

namespace SameBut

variable {hidden : Place → Prop} {fs fs' : FileSystem} {p : Path} {q : Place} {e : Entry}

/-! ## Looking -/

theorem shown (h : SameBut hidden fs fs') (hq : ¬ hidden q) : fs'.entryAt q = fs.entryAt q :=
  (h.entry q).resolve_right fun hfiles ↦ hq hfiles.1

/-- The places that differ are among the hidden ones, so no others need be hidden. -/
theorem sharpen (h : SameBut hidden fs fs') :
    SameBut (fun q ↦ fs'.entryAt q ≠ fs.entryAt q) fs fs' where
  current := h.current
  entry q := by
    by_cases hq : fs'.entryAt q = fs.entryAt q
    · exact .inl hq
    · exact .inr ⟨hq, ((h.entry q).resolve_left hq).2⟩

theorem entryAt_eq_none_iff (h : SameBut hidden fs fs') :
    fs'.entryAt q = none ↔ fs.entryAt q = none := by
  rcases h.entry q with heq | ⟨-, b, b', hb, hb'⟩
  · rw [heq]
  · simp [hb, hb']

theorem isSome_entryAt (h : SameBut hidden fs fs') :
    (fs'.entryAt q).isSome = (fs.entryAt q).isSome := by
  rcases h.entry q with heq | ⟨-, b, b', hb, hb'⟩
  · rw [heq]
  · rw [hb, hb']
    rfl

theorem walk (h : SameBut hidden fs fs') (follow : Bool) (links : Nat) (place : Place)
    (names : List String) :
    fs'.walk follow links place names = fs.walk follow links place names := by
  fun_induction FileSystem.walk fs follow links place names with
  | case1 links place => rw [FileSystem.walk]
  | case2 links place rest ih => rw [walk_dot, ih]
  | case3 links place rest hdot ih => rw [walk_dots, ih]
  | case4 links place name rest hdot hdots hsize =>
    rw [FileSystem.walk, if_neg hdot, if_neg hdots, if_pos hsize]
  | case5 links place name hdot hdots hsize hnone =>
    exact walk_singleton ⟨hdot, hdots, hsize⟩ (by simp [h.entryAt_eq_none_iff.mpr hnone])
  | case6 links place name rest hdot hdots hsize hnone hrest =>
    rw [FileSystem.walk, if_neg hdot, if_neg hdots, if_neg hsize, h.entryAt_eq_none_iff.mpr hnone]
    exact if_neg hrest
  | case7 links place name rest hdot hdots hsize hdir ih =>
    have hdir' : fs'.entryAt (place ++ [name]) = some .directory := by
      rw [(h.entry _).resolve_right (by simp [hdir]), hdir]
    rw [walk_directory ⟨hdot, hdots, hsize⟩ hdir', ih]
  | case8 links place name hdot hdots hsize bytes hfile =>
    refine walk_singleton ⟨hdot, hdots, hsize⟩ fun _ t ht ↦ ?_
    rcases h.entry (place ++ [name]) with heq | ⟨-, b, b', hb, hb'⟩
    · simp [heq, hfile] at ht
    · simp [hb'] at ht
  | case9 links place name rest hdot hdots hsize bytes hfile hrest =>
    obtain ⟨b', hfile'⟩ : ∃ b', fs'.entryAt (place ++ [name]) = some (.file b') := by
      rcases h.entry (place ++ [name]) with heq | ⟨-, b, b', -, hb'⟩
      · exact ⟨bytes, heq.trans hfile⟩
      · exact ⟨b', hb'⟩
    rw [FileSystem.walk, if_neg hdot, if_neg hdots, if_neg hsize, hfile']
    exact if_neg hrest
  | case10 links place name rest hdot hdots hsize target hlink hend =>
    obtain ⟨rfl, hfollow⟩ := hend
    exact walk_singleton ⟨hdot, hdots, hsize⟩ fun hf ↦ absurd hf hfollow
  | case11 place name rest hdot hdots hsize target hlink hend =>
    have hlink' : fs'.entryAt (place ++ [name]) = some (.link target) := by
      rw [(h.entry _).resolve_right (by simp [hlink]), hlink]
    rw [FileSystem.walk, if_neg hdot, if_neg hdots, if_neg hsize, hlink']
    exact if_neg hend
  | case12 place name rest hdot hdots hsize target hlink hend links ih =>
    have hlink' : fs'.entryAt (place ++ [name]) = some (.link target) := by
      rw [(h.entry _).resolve_right (by simp [hlink]), hlink]
    rw [walk_link ⟨hdot, hdots, hsize⟩ hlink' hend, ih]

/-- **Every path leads to the same place.** -/
theorem locate (h : SameBut hidden fs fs') (follow : Bool) (p : Path) :
    fs'.locate follow p = fs.locate follow p := by
  rw [FileSystem.locate, FileSystem.locate, h.current, h.walk]

/-- What is not hidden looks the same. -/
theorem stat (h : SameBut hidden fs fs') (hp : ∀ q, fs.locate true p = .ok q → ¬ hidden q) :
    fs'.stat p = fs.stat p := by
  rw [FileSystem.stat, FileSystem.stat, h.locate]
  cases hq : fs.locate true p with
  | error e => rfl
  | ok q => simp only [h.shown (hp q hq)]

/-- A question that is not about bytes has the same answer. -/
theorem probe (h : SameBut hidden fs fs') {test : Entry → Bool}
    (htest : ∀ b b', test (.file b) = test (.file b')) (p : Path) :
    fs'.probe test p = fs.probe test p := by
  rw [FileSystem.probe, FileSystem.probe, FileSystem.stat, FileSystem.stat, h.locate]
  cases fs.locate true p with
  | error e => rfl
  | ok q =>
    rcases h.entry q with heq | ⟨-, b, b', hb, hb'⟩
    · simp only [heq]
    · simp only [hb, hb', htest b b']

theorem isDirectory (h : SameBut hidden fs fs') (p : Path) :
    fs'.isDirectory p = fs.isDirectory p := h.probe (fun _ _ ↦ rfl) p

theorem isTaken (h : SameBut hidden fs fs') (p : Path) : fs'.isTaken p = fs.isTaken p := by
  rw [FileSystem.isTaken, FileSystem.isTaken, h.locate]
  cases fs.locate false p with
  | error e => rfl
  | ok q => exact h.isSome_entryAt

theorem readText (h : SameBut hidden fs fs') (hp : ∀ q, fs.locate true p = .ok q → ¬ hidden q) :
    fs'.readText p = fs.readText p := by
  rw [FileSystem.readText, FileSystem.readText, readBytes, readBytes, h.stat hp]

/-! ## Changing -/

theorem put (h : SameBut hidden fs fs') (q : Place) (e : Entry) :
    SameBut hidden (fs.put q e) (fs'.put q e) where
  current := h.current
  entry p := by
    by_cases hp : p = q
    · left
      by_cases hq : q = []
      · rw [hp, hq, entryAt_nil, entryAt_nil]
      · rw [hp, entryAt_put_self hq, entryAt_put_self hq]
    · rw [entryAt_put_of_ne hp, entryAt_put_of_ne hp]
      exact h.entry p

theorem erase (h : SameBut hidden fs fs') (q : Place) :
    SameBut hidden (fs.erase q) (fs'.erase q) where
  current := h.current
  entry p := by
    by_cases hp : p = q
    · left
      by_cases hq : q = []
      · rw [hp, hq, entryAt_nil, entryAt_nil]
      · rw [hp, entryAt_erase_self hq, entryAt_erase_self hq]
    · rw [entryAt_erase_of_ne hp, entryAt_erase_of_ne hp]
      exact h.entry p

theorem create (h : SameBut hidden fs fs') (p : Path) (e : Entry) :
    SameEnd (SameBut hidden) (fs.create p e) (fs'.create p e) := by
  rw [FileSystem.create, FileSystem.create, h.locate]
  cases fs.locate false p with
  | error fault => exact .error fault
  | ok q =>
    dsimp only
    cases hq : fs.entryAt q with
    | none =>
      simp only [h.entryAt_eq_none_iff.mpr hq]
      exact .ok (h.put q e)
    | some old =>
      obtain ⟨old', hold'⟩ : ∃ old', fs'.entryAt q = some old' := by
        rw [← Option.isSome_iff_exists, h.isSome_entryAt, hq]
        rfl
      simp only [hold']
      exact .error _

theorem remove (h : SameBut hidden fs fs') (p : Path) :
    SameBut hidden (fs.remove p) (fs'.remove p) := by
  rw [FileSystem.remove, FileSystem.remove, h.locate]
  cases fs.locate false p with
  | error e => exact h
  | ok q => exact h.erase q

theorem settle (h : SameBut hidden fs fs') (p : Path) (fault : PathFault) :
    fs'.settle p fault = fs.settle p fault := by
  cases fault with
  | refused reason path => rw [FileSystem.settle, FileSystem.settle, h.isDirectory]
  | nullByte | linkLoop | noHome => rfl

/-- **Making directories ends in the same way.** The induction is on the length of the path. -/
theorem makeDirectories (h : SameBut hidden fs fs') (p : Path) :
    (fs'.makeDirectories p).1 = (fs.makeDirectories p).1 ∧
      SameBut hidden (fs.makeDirectories p).2 (fs'.makeDirectories p).2 := by
  induction hlength : p.parts.length using Nat.strongRecOn generalizing p with
  | _ n ih =>
    subst hlength
    have hsame := h.create p .directory
    rw [FileSystem.makeDirectories.eq_def fs' p, FileSystem.makeDirectories.eq_def fs p,
      makeDirectory, makeDirectory, Disk.allow_willing, Disk.allow_willing]
    generalize fs.create p .directory = made, fs'.create p .directory = made' at hsame
    cases hsame with
    | ok h' => exact ⟨rfl, h'⟩
    | error fault =>
      cases fault with
      | nullByte | linkLoop | noHome => exact ⟨rfl, h⟩
      | refused reason path =>
        cases reason with
        | noEntry =>
          dsimp only
          split
          · exact ⟨rfl, h⟩
          · next hparts =>
            have hlt : p.parent.parts.length < p.parts.length := by
              have := List.length_pos_iff.mpr hparts
              simp only [Path.parent, List.length_dropLast]
              omega
            obtain ⟨hresult, h'⟩ := ih _ hlt p.parent rfl
            generalize fs.makeDirectories p.parent = outcome,
              fs'.makeDirectories p.parent = outcome' at hresult h'
            obtain ⟨result, fs₁⟩ := outcome
            obtain ⟨result', fs₁'⟩ := outcome'
            obtain rfl : result' = result := hresult
            cases result' with
            | error e => exact ⟨rfl, h'⟩
            | ok _ =>
              have hsame := h'.create p .directory
              simp only [makeDirectory, Disk.allow_willing]
              generalize fs₁.create p .directory = made, fs₁'.create p .directory = made' at hsame
              cases hsame with
              | ok h'' => exact ⟨rfl, h''⟩
              | error fault => exact ⟨h'.settle p fault, h'⟩
        | _ =>
          dsimp only
          exact ⟨h.settle p _, h⟩

end SameBut

end FileSystem

end QuantumRisk
