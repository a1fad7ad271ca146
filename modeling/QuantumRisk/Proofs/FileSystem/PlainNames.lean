import QuantumRisk.Proofs.FileSystem.Actions

/-!
# Trees with plain names

In a tree that a system can hold, every name is plain. A walk puts names together only from its path
and from the targets of links, so making directories keeps a tree plain.
-/

namespace QuantumRisk.FileSystem

variable {fs fs' : FileSystem} {p : Path} {q : Place} {e : Entry}

/-- Every name in the tree and on the way to the current directory is plain. -/
structure PlainNames (fs : FileSystem) : Prop where
  current : ∀ name ∈ fs.current, Path.Plain name
  entries : ∀ {q}, (fs.entryAt q).isSome → ∀ name ∈ q, Path.Plain name

theorem PlainNames.put (h : PlainNames fs) (hq : ∀ name ∈ q, Path.Plain name) :
    PlainNames (fs.put q e) := by
  refine ⟨h.current, fun {q'} hq' ↦ ?_⟩
  by_cases heq : q' = q
  · rwa [heq]
  · rw [entryAt_put_of_ne heq] at hq'
    exact h.entries hq'

theorem targetNames_proper (target : String) :
    ∀ name ∈ targetNames target, name ≠ "" ∧ '/' ∉ name.toList := by
  intro name hname
  rw [targetNames] at hname
  rcases List.mem_append.mp hname with hpart | hdot
  · exact Path.proper_ofString target name hpart
  · have : name = "." := by
      split at hdot
      · exact List.mem_singleton.mp hdot
      · exact List.mem_singleton.mp hdot
      · cases hdot
    rw [this]
    decide

theorem plain_of_walk {follow : Bool} {links : Nat} {place : Place} {names : List String}
    (hplace : ∀ name ∈ place, Path.Plain name)
    (hnames : ∀ name ∈ names, name ≠ "" ∧ '/' ∉ name.toList)
    (h : fs.walk follow links place names = .ok q) : ∀ name ∈ q, Path.Plain name := by
  have hsnoc : ∀ {place : Place} {name : String} {rest : List String},
      (∀ n ∈ place, Path.Plain n) → (∀ n ∈ name :: rest, n ≠ "" ∧ '/' ∉ n.toList) →
      ¬ name = "." → ¬ name = ".." → ∀ n ∈ place ++ [name], Path.Plain n := by
    intro place name rest hplace hnames hdot hdots n hn
    rcases List.mem_append.mp hn with hn | hn
    · exact hplace n hn
    · obtain rfl := List.mem_singleton.mp hn
      have := hnames n List.mem_cons_self
      exact ⟨this.1, hdot, hdots, this.2⟩
  fun_induction walk fs follow links place names with
  | case1 links place =>
    cases h
    exact hplace
  | case2 links place rest ih =>
    exact ih hplace (fun n hn ↦ hnames n (List.mem_cons_of_mem _ hn)) h
  | case3 links place rest hdot ih =>
    exact ih (fun n hn ↦ hplace n (List.dropLast_subset _ hn))
      (fun n hn ↦ hnames n (List.mem_cons_of_mem _ hn)) h
  | case7 links place name rest hdot hdots hsize hdir ih =>
    exact ih (hsnoc hplace hnames hdot hdots) (fun n hn ↦ hnames n (List.mem_cons_of_mem _ hn)) h
  | case5 links place name hdot hdots | case8 links place name hdot hdots
  | case10 links place name rest hdot hdots =>
    cases h
    exact hsnoc hplace hnames hdot hdots
  | case12 place name rest hdot hdots hsize target hlink hend links ih =>
    -- the walk starts anew at the link's target, whose names are proper as well
    refine ih ?_ ?_ h
    · intro n hn
      rw [origin] at hn
      split at hn
      · cases hn
      · exact hplace n hn
    · intro n hn
      rcases List.mem_append.mp hn with hn | hn
      · exact targetNames_proper target n hn
      · exact hnames n (List.mem_cons_of_mem _ hn)
  | case4 | case6 | case9 | case11 => cases h

theorem PlainNames.locate {follow : Bool} (h : PlainNames fs) (hp : p.Proper)
    (hq : fs.locate follow p = .ok q) : ∀ name ∈ q, Path.Plain name := by
  obtain ⟨-, -, hwalk⟩ := locate_eq_ok_iff.mp hq
  refine plain_of_walk (fun name hname ↦ ?_) hp hwalk
  rw [origin] at hname
  split at hname
  · cases hname
  · exact h.current name hname

theorem PlainNames.makeDirectory (h : PlainNames fs) (hp : p.Proper)
    (hmake : fs.makeDirectory p = .ok fs') : PlainNames fs' := by
  obtain ⟨q, hq, -, rfl⟩ := create_eq_ok_iff.mp hmake
  exact h.put (h.locate hp hq)

theorem PlainNames.makeDirectories (h : PlainNames fs) (hp : p.Proper) :
    PlainNames (fs.makeDirectories p).2 := by
  fun_induction FileSystem.makeDirectories fs p with
  | case1 p fs₁ hmake => exact h.makeDirectory hp hmake
  | case2 => exact h
  | case3 p path hmake hparts hlt fault fs₁ hparent ih =>
    have := ih hp.parent
    rwa [hparent] at this
  | case4 p path hmake hparts hlt fs₁ hparent fs₂ hmake' ih =>
    have := ih hp.parent
    rw [hparent] at this
    exact this.makeDirectory hp hmake'
  | case5 p path hmake hparts hlt fs₁ hparent fault hmake' ih =>
    have := ih hp.parent
    rwa [hparent] at this
  | case6 => exact h

end QuantumRisk.FileSystem
