import QuantumRisk.Proofs.Store.Write
import QuantumRisk.Analysis

/-!
# What a run depends on

A run uses the files of its workspace, the clock, and the token drawn last. The environment, the
homes and the settings that are kept are the *surroundings* of a run: they matter for the path of
the contract and for nothing behind it. So two workspaces that are alike up to their surroundings
get the same report under the same name, and are alike afterwards.
-/

namespace QuantumRisk

namespace Workspace

variable {w w' : Workspace}

/-- The same files, the same time, and the same tokens to come. -/
structure Alike (w w' : Workspace) : Prop where
  files : w'.files = w.files
  clock : w'.clock = w.clock
  ticks : w'.ticks = w.ticks
  lastToken : w'.lastToken = w.lastToken

theorem Alike.refl (w : Workspace) : w.Alike w := ⟨rfl, rfl, rfl, rfl⟩

/-- The workspace in the surroundings of another one. -/
def amid (w surroundings : Workspace) : Workspace :=
  { w with
    environment := surroundings.environment
    homes := surroundings.homes
    kept := surroundings.kept }

theorem Alike.eq_amid (h : w.Alike w') : w' = w.amid w' := by
  obtain ⟨hfiles, hclock, hticks, hlast⟩ := h
  cases w'
  cases hfiles
  cases hclock
  cases hticks
  cases hlast
  rfl

/-- Settings that are read change the surroundings only. -/
theorem alike_settings (w : Workspace) : w.Alike w.settings.2 := by
  rw [settings]
  split
  · exact .refl w
  · split
    · exact .refl w
    · exact ⟨rfl, rfl, rfl, rfl⟩

theorem Alike.of_settings (h : w.Alike w') : w.settings.2.Alike w' where
  files := h.files.trans w.alike_settings.files.symm
  clock := h.clock.trans w.alike_settings.clock.symm
  ticks := h.ticks.trans w.alike_settings.ticks.symm
  lastToken := h.lastToken.trans w.alike_settings.lastToken.symm

end Workspace

/-- The end of an action, in other surroundings. -/
def endAmid {α : Type} (x : α × List Event × Workspace) (surroundings : Workspace) :
    α × List Event × Workspace :=
  (x.1, x.2.1, x.2.2.amid surroundings)

namespace Store

variable (s : Store)

theorem claim_amid (temporary : Path) (attempts : Nat) (w v : Workspace) :
    s.claim temporary attempts (w.amid v) = endAmid (s.claim temporary attempts w) v := by
  induction attempts generalizing w with
  | zero => rfl
  | succ attempts ih =>
    have hdraw : draw (w.amid v) = ((draw w).1, (draw w).2.amid v) := rfl
    have hfiles : (w.amid v).files = w.files := rfl
    rw [claim_succ, claim_succ, hdraw, hfiles, ih]
    cases w.files.link temporary (s.reportPath (draw w).1) with
    | ok files => rfl
    | error fault =>
      cases fault with
      | nullByte | linkLoop | noHome => rfl
      | refused reason path => cases reason <;> rfl

theorem deposit_amid (payload : String) (w v : Workspace) :
    s.deposit payload (w.amid v) = endAmid (s.deposit payload w) v := by
  have hfiles : (w.amid v).files = w.files := rfl
  rw [deposit_eq, deposit_eq, hfiles]
  cases freeTemporary w.files (w.files.lexical s.directory) with
  | none => rfl
  | some temporary =>
    dsimp only
    cases w.files.create temporary (.file (Text.encode payload)) with
    | error fault => rfl
    | ok files =>
      have hclaim := s.claim_amid temporary claimLimit { w with files } v
      dsimp only [Workspace.amid] at hclaim ⊢
      rw [hclaim]
      rfl

theorem write_amid (r : Report) (w v : Workspace) :
    s.write r (w.amid v) = endAmid (s.write r w) v := by
  have hfiles : (w.amid v).files = w.files := rfl
  rw [write, write, hfiles]
  rcases w.files.makeDirectories s.directory with ⟨result, files⟩
  cases result with
  | error e => rfl
  | ok _ =>
    have hdeposit := s.deposit_amid r.text { w with files } v
    dsimp only [Workspace.amid] at hdeposit ⊢
    rw [hdeposit]
    rcases s.deposit r.text { w with files } with ⟨result, events, w₁⟩
    cases result with
    | error e => rfl
    | ok saved => rfl

end Store

namespace Analyzer

variable (a : Analyzer) {path path' : Option String} {w v : Workspace}

theorem exists_run_error {e : Fault} (h : w.loadSource path = .error e) :
    (a.run path w).1 = .error e := by
  rw [run, analyze, h]

/-- A run ends in the workspace that the save of its report ends in. -/
theorem exists_write {found : Analysis} {saved : Path} {events : List Event} {w' : Workspace}
    (h : a.run path w = (.ok (found, saved), events, w')) :
    ∃ more, a.store.write found.report w = (.ok saved, more, w') := by
  rw [run] at h
  split at h
  · cases h
  · split at h
    · cases h
    · next more _ hwrite =>
      cases h
      exact ⟨more, hwrite⟩

/-- **Behind the contract that is loaded, surroundings do not matter.** Two runs that load the same
contract, or none, end in the same way. -/
theorem run_amid
    (h : ∀ u, (w.amid v).loadSource path' = .ok u ↔ w.loadSource path = .ok u) :
    (∃ found saved events events' w', a.run path w = (.ok (found, saved), events, w') ∧
        a.run path' (w.amid v) = (.ok (found, saved), events', w'.amid v)) ∨
      ∃ e e', (a.run path w).1 = .error e ∧ (a.run path' (w.amid v)).1 = .error e' := by
  cases hload : w.loadSource path with
  | error e =>
    cases hload' : (w.amid v).loadSource path' with
    | error e' => exact .inr ⟨e, e', a.exists_run_error hload, a.exists_run_error hload'⟩
    | ok u =>
      rw [(h u).mp hload'] at hload
      cases hload
  | ok u =>
    have hload' := (h u).mpr hload
    rw [run, run, analyze, analyze, hload, hload']
    dsimp only
    rcases a.analyzeUnit u with ⟨result, events⟩
    cases result with
    | error e => exact .inr ⟨e, e, rfl, rfl⟩
    | ok found =>
      dsimp only
      rw [Store.write_amid]
      rcases a.store.write found.report w with ⟨result, more, w'⟩
      cases result with
      | error e => exact .inr ⟨e, e, rfl, rfl⟩
      | ok saved => exact .inl ⟨found, saved, _, _, w', rfl, rfl⟩

end Analyzer

end QuantumRisk
