import Mathlib.Data.List.DropRight
import QuantumRisk.Proofs.FileSystem.Actions
import QuantumRisk.Proofs.Store.Faults
import QuantumRisk.Workspace

/-!
# The ends of loading

A contract is loaded if its path leads to a regular file that holds a text. If it does not, loading
fails; that no contract was named is a failure of its own. Twice the system's answer is passed on
instead: a tilde may stand for a home that is not known, and a name may be too long to be looked up.

The conditions below exclude each other, so each of them says exactly when loading ends that way.
-/

namespace QuantumRisk.Workspace

variable {w : Workspace} {path : Option String} {p : Path}

/-! ## Homes -/

/-- Slashes at the end do not matter for how a home begins. -/
theorem head?_trimSlashes (s : String) :
    (trimSlashes s).toList.head? = some '~' ↔ s.toList.head? = some '~' := by
  rw [trimSlashes]
  cases hcs : s.toList.reverse.dropWhile (· = '/') with
  | nil =>
    -- nothing but slashes is the root, which does not begin with a tilde either
    have hslash : ∀ c ∈ s.toList, c = '/' := by simpa using List.dropWhile_eq_nil_iff.mp hcs
    cases hs : s.toList with
    | nil => simp
    | cons c cs => simp [hslash c (by simp [hs])]
  | cons c cs =>
    have hprefix : (c :: cs).reverse <+: s.toList := by
      rw [← hcs]
      exact List.rdropWhile_prefix _ _
    obtain ⟨rest, hrest⟩ := hprefix
    rw [← hrest]
    cases hrev : (c :: cs).reverse with
    | nil => simp at hrev
    | cons c' cs' => simp only [String.toList_ofList, hrev, List.cons_append, List.head?_cons]

/-- A tilde stands for the home of an account, which is not known. -/
def LacksHome (w : Workspace) (p : Path) : Prop :=
  ∃ account rest, p = ⟨"", ("~" ++ account) :: rest⟩ ∧
    ∀ dir, w.home account = some dir → dir.toList.head? = some '~'

theorem expandHome_tilde (w : Workspace) (account : String) (rest : List String) :
    w.expandHome ⟨"", ("~" ++ account) :: rest⟩ =
      match (w.home account).map trimSlashes with
      | none => .error .noHome
      | some dir =>
        if dir.toList.head? = some '~' then .error .noHome
        else .ok ((Path.ofString dir).join ⟨"", rest⟩) := by
  have htoList : ("~" ++ account).toList = '~' :: account.toList := by simp
  cases hhome : w.home account with
  | none => simp only [expandHome, htoList, String.ofList_toList, hhome, Option.map_none]
  | some dir => simp only [expandHome, htoList, String.ofList_toList, hhome, Option.map_some]

theorem expandHome_of_lacksHome (h : w.LacksHome p) : w.expandHome p = .error .noHome := by
  obtain ⟨account, rest, rfl, hhome⟩ := h
  rw [expandHome_tilde]
  cases hdir : w.home account with
  | none => rfl
  | some dir => exact if_pos ((head?_trimSlashes dir).mpr (hhome dir hdir))

theorem exists_expandHome (h : ¬ w.LacksHome p) : ∃ q, w.expandHome p = .ok q := by
  by_cases htilde : ∃ account rest, p = ⟨"", ("~" ++ account) :: rest⟩
  · obtain ⟨account, rest, rfl⟩ := htilde
    rw [expandHome_tilde]
    cases hdir : w.home account with
    | none => exact absurd ⟨account, rest, rfl, by simp [hdir]⟩ h
    | some dir =>
      have hhead : dir.toList.head? ≠ some '~' := fun hhead ↦
        h ⟨account, rest, rfl, by simp [hdir, hhead]⟩
      exact ⟨_, if_neg (mt (head?_trimSlashes dir).mp hhead)⟩
  · refine ⟨p, ?_⟩
    rw [expandHome.eq_def]
    split
    · next first rest hanchor hparts =>
      split
      · next account hfirst =>
        refine absurd ⟨String.ofList account, rest, ?_⟩ htilde
        have hname : first = "~" ++ String.ofList account := String.toList_inj.mp (by simp [hfirst])
        rw [← hname, ← hanchor, ← hparts]
      · rfl
    · rfl

/-! ## Conditions -/

/-- No path was given, or nothing but blanks. -/
def Unnamed (path : Option String) : Prop := ∀ given ∈ path, Text.isBlankText given = true

theorem unnamed_some_iff {given : String} :
    Unnamed (some given) ↔ Text.isBlankText given = true := by
  simp [Unnamed]

theorem not_unnamed_of_not_blank {given : String} (h : Text.isBlankText given = false) :
    ¬ Unnamed (some given) := by
  rw [unnamed_some_iff, h]
  exact Bool.false_ne_true

def Homeless (w : Workspace) (path : Option String) : Prop :=
  ¬ Unnamed path ∧ ∃ given ∈ path, w.LacksHome (.ofString given)

/-- The path that is looked up. -/
def LooksUp (w : Workspace) (path : Option String) (p : Path) : Prop :=
  ¬ Unnamed path ∧ ∃ given ∈ path, w.expandHome (.ofString given) = .ok p

/-- Answers of the system that are passed on: a home is not known, or a name on the way is too
long. -/
inductive PassedOn (w : Workspace) (path : Option String) : PathFault → Prop
  | homeless (h : w.Homeless path) : PassedOn w path .noHome
  | overlong {p : Path} (h : w.LooksUp path p)
      (hstat : w.files.stat p = .error (.refused .nameTooLong p.text)) :
      PassedOn w path (.refused .nameTooLong p.text)

/-- The path leads to a regular file that holds the text of `u`. -/
def Readable (w : Workspace) (path : Option String) (u : SourceUnit) : Prop :=
  w.LooksUp path u.path ∧ ∃ bytes s, w.files.stat u.path = .ok (.file bytes) ∧
    Text.decode bytes = .ok s ∧ u.text = Text.unified s

theorem loadSource_of_unnamed (h : Unnamed path) :
    w.loadSource path = .error (.failure (.usage "no contract path supplied")) := by
  cases path with
  | none => rfl
  | some given => rw [loadSource, if_pos (h given rfl)]

theorem loadSource_of_homeless (h : w.Homeless path) :
    w.loadSource path = .error (.path .noHome) := by
  obtain ⟨hnamed, given, rfl, hlacks⟩ := h
  rw [loadSource, if_neg (mt unnamed_some_iff.mpr hnamed), expandHome_of_lacksHome hlacks]

/-- The answer of the system decides. -/
theorem loadSource_of_looksUp (h : w.LooksUp path p) :
    w.files.stat p = .error (.refused .nameTooLong p.text) ∧
        w.loadSource path = .error (.path (.refused .nameTooLong p.text)) ∨
      (∃ bytes s, w.files.stat p = .ok (.file bytes) ∧ Text.decode bytes = .ok s ∧
        w.loadSource path = .ok ⟨p, Text.unified s⟩) ∨
      w.files.stat p ≠ .error (.refused .nameTooLong p.text) ∧
        (∀ bytes s, w.files.stat p = .ok (.file bytes) → Text.decode bytes ≠ .ok s) ∧
        ∃ given reason, path = some given ∧
          w.loadSource path = .error (.failure (.notFound given reason)) := by
  obtain ⟨hnamed, given, rfl, hexpand⟩ := h
  rw [loadSource, if_neg (mt unnamed_some_iff.mpr hnamed), hexpand]
  simp only [FileSystem.exists?, FileSystem.isFile, FileSystem.readText, FileSystem.readBytes,
    FileSystem.probe]
  -- the three questions about the path all rest on one answer
  cases hstat : w.files.stat p with
  | ok e =>
    cases e with
    | file bytes =>
      cases hdecode : Text.decode bytes with
      | ok s => exact .inr (.inl ⟨bytes, s, rfl, hdecode, by simp [Entry.isFile, hdecode]⟩)
      | error e =>
        refine .inr (.inr ⟨by simp, ?_, given, "not a UTF-8 text file (" ++ e.message ++ ")", rfl,
          ?_⟩)
        · rintro bytes' s ⟨⟩
          simp [hdecode]
        · simp [Entry.isFile, hdecode]
    | directory => exact .inr (.inr ⟨by simp, by simp, given, _, rfl, rfl⟩)
    | link target => exact .inr (.inr ⟨by simp, by simp, given, _, rfl, rfl⟩)
  | error e =>
    rcases FileSystem.stat_error hstat with ⟨rfl, -⟩ | ⟨reason, rfl, habsent | rfl⟩
    · exact .inr (.inr ⟨by simp, by simp, given, _, rfl, rfl⟩)
    · refine .inr (.inr ⟨?_, by simp, given, "file not found", rfl, by simp only [habsent]; rfl⟩)
      rintro ⟨⟩
      cases habsent
    · exact .inl ⟨rfl, rfl⟩

theorem loadSource_of_passedOn {e : PathFault} (h : w.PassedOn path e) :
    w.loadSource path = .error (.path e) := by
  cases h with
  | homeless h => exact loadSource_of_homeless h
  | overlong hlooksUp hstat =>
    rcases loadSource_of_looksUp hlooksUp with ⟨-, hload⟩ | ⟨bytes, s, hstat', -⟩ | ⟨hstat', -⟩
    · exact hload
    · rw [hstat] at hstat'
      cases hstat'
    · exact absurd hstat hstat'

theorem loadSource_of_readable {u : SourceUnit} (h : w.Readable path u) :
    w.loadSource path = .ok u := by
  obtain ⟨hlooksUp, bytes, s, hstat, hdecode, htext⟩ := h
  rcases loadSource_of_looksUp hlooksUp with
    ⟨hstat', -⟩ | ⟨bytes', s', hstat', hdecode', hload⟩ | ⟨-, hunreadable, -⟩
  · rw [hstat] at hstat'
    cases hstat'
  · rw [hstat] at hstat'
    cases hstat'
    rw [hdecode] at hdecode'
    cases hdecode'
    rw [hload, ← htext]
  · exact absurd hdecode (hunreadable bytes s hstat)

/-- **Every load** ends in one of four ways. -/
theorem loadSource_cases (w : Workspace) (path : Option String) :
    Unnamed path ∨ (∃ e, w.PassedOn path e) ∨ (∃ u, w.Readable path u) ∨
      ∃ given reason, path = some given ∧
        w.loadSource path = .error (.failure (.notFound given reason)) := by
  by_cases hnamed : Unnamed path
  · exact .inl hnamed
  obtain ⟨given, rfl⟩ : ∃ given, path = some given := by
    cases path with
    | none => exact absurd (by simp [Unnamed]) hnamed
    | some given => exact ⟨given, rfl⟩
  by_cases hhome : w.LacksHome (.ofString given)
  · exact .inr (.inl ⟨_, .homeless ⟨hnamed, given, rfl, hhome⟩⟩)
  obtain ⟨p, hp⟩ := exists_expandHome hhome
  have hlooksUp : w.LooksUp (some given) p := ⟨hnamed, given, rfl, hp⟩
  rcases loadSource_of_looksUp hlooksUp with
    ⟨hstat, -⟩ | ⟨bytes, s, hstat, hdecode, -⟩ | ⟨-, -, hnotFound⟩
  · exact .inr (.inl ⟨_, .overlong hlooksUp hstat⟩)
  · exact .inr (.inr (.inl ⟨⟨p, _⟩, hlooksUp, bytes, s, hstat, hdecode, rfl⟩))
  · exact .inr (.inr (.inr hnotFound))

/-! ## Exactly when -/

theorem loadSource_eq_ok_iff {u : SourceUnit} : w.loadSource path = .ok u ↔ w.Readable path u := by
  refine ⟨fun h ↦ ?_, loadSource_of_readable⟩
  rcases loadSource_cases w path with hend | ⟨e, hend⟩ | ⟨u', hend⟩ | ⟨given, reason, -, hend⟩
  · simp [loadSource_of_unnamed hend] at h
  · simp [loadSource_of_passedOn hend] at h
  · rw [loadSource_of_readable hend] at h
    cases h
    exact hend
  · simp [hend] at h

end QuantumRisk.Workspace
