import QuantumRisk.Proofs.Analysis.Clean
import QuantumRisk.Proofs.FileSystem.OneFile
import QuantumRisk.Proofs.Text.RoundTrip
import QuantumRisk.Proofs.Workspace.Load

/-!
# Line ends do not matter

Lines of a file end in a line feed, in a carriage return, or in both. Loading writes all of them as
line feeds, so what is found in a contract does not depend on how its lines end: not the findings
and the lines and columns at which they stand, and not the errors either.

The second of two characters is looked at only behind a carriage return. Where lines end in carriage
returns alone there is no line feed in the file, so none can be taken for half of a line end; that
is the case in which the induction needs more than the text at hand (`unifyLineEnds_flatMap`).
-/

namespace QuantumRisk

/-! ## Ways to end a line -/

namespace Text

/-- How the lines of a file end. -/
inductive LineEnd where
  | lf
  | crlf
  | cr
  deriving DecidableEq

namespace LineEnd

def chars : LineEnd → List Char
  | .lf => ['\n']
  | .crlf => ['\r', '\n']
  | .cr => ['\r']

/-- A character of a text as it is written in a file. -/
def writeChar (e : LineEnd) (c : Char) : List Char := if c = '\n' then e.chars else [c]

/-- A text as it is written in a file. -/
def write (e : LineEnd) (s : String) : String := String.ofList (s.toList.flatMap e.writeChar)

end LineEnd

theorem unifyLineEnds_cons {c : Char} (h : c ≠ '\r') (cs : List Char) :
    unifyLineEnds (c :: cs) = c :: unifyLineEnds cs := by
  rw [unifyLineEnds]
  · exact fun rest hc ↦ absurd hc h
  · exact fun hc ↦ absurd hc h

/-- A carriage return is a line end of its own unless a line feed stands behind it. -/
theorem unifyLineEnds_cr {cs : List Char} (h : '\n' ∉ cs) :
    unifyLineEnds ('\r' :: cs) = '\n' :: unifyLineEnds cs := by
  rw [unifyLineEnds]
  rintro rest rfl
  exact h List.mem_cons_self

theorem lineFeed_notMem_cr (cs : List Char) : '\n' ∉ cs.flatMap LineEnd.cr.writeChar := by
  intro h
  obtain ⟨c, -, hc⟩ := List.mem_flatMap.mp h
  rw [LineEnd.writeChar] at hc
  split at hc
  · exact absurd hc (by decide)
  · next hne => exact hne (List.mem_singleton.mp hc).symm

theorem unifyLineEnds_flatMap (e : LineEnd) {cs : List Char} (h : '\r' ∉ cs) :
    unifyLineEnds (cs.flatMap e.writeChar) = cs := by
  induction cs with
  | nil => rfl
  | cons c cs ih =>
    have hc : c ≠ '\r' := fun hc ↦ h (hc ▸ List.mem_cons_self)
    have hcs := ih fun hmem ↦ h (List.mem_cons_of_mem c hmem)
    rw [List.flatMap_cons, LineEnd.writeChar]
    split
    · next hfeed =>
      subst hfeed
      cases e with
      | lf => rw [LineEnd.chars, List.singleton_append, unifyLineEnds_cons (by decide), hcs]
      | crlf =>
        rw [LineEnd.chars, List.cons_append, List.singleton_append, unifyLineEnds, hcs]
      | cr =>
        rw [LineEnd.chars, List.singleton_append, unifyLineEnds_cr (lineFeed_notMem_cr cs), hcs]
    · rw [List.singleton_append, unifyLineEnds_cons hc, hcs]

/-- **Reading undoes writing**, however lines end. -/
theorem unified_write (e : LineEnd) {s : String} (h : '\r' ∉ s.toList) :
    unified (e.write s) = s := by
  rw [unified, LineEnd.write, String.toList_ofList, unifyLineEnds_flatMap e h, String.ofList_toList]

theorem carriageReturn_notMem_unified (s : String) : '\r' ∉ (unified s).toList := by
  rw [unified, String.toList_ofList]
  fun_induction unifyLineEnds s.toList with
  | case1 => exact List.not_mem_nil
  | case2 rest ih => simpa using ih
  | case3 rest _ ih => simpa using ih
  | case4 c rest _ hc ih =>
    intro h
    rcases List.mem_cons.mp h with h | h
    · exact hc h.symm
    · exact ih h

end Text

/-! ## Files -/

open Text (LineEnd)

namespace Workspace

variable {w : Workspace} {path : Option String} {p : Path} {bytes : List UInt8}

/-- The path leads to a file with these bytes; `p` is the path without a tilde. -/
structure Holds (w : Workspace) (path : Option String) (p : Path) (bytes : List UInt8) : Prop where
  looksUp : w.LooksUp path p
  stat : w.files.stat p = .ok (.file bytes)

theorem Holds.loadSource {s : String} (hs : '\r' ∉ s.toList) {e : LineEnd}
    (h : w.Holds path p (Text.encode (e.write s))) : w.loadSource path = .ok ⟨p, s⟩ :=
  loadSource_of_readable
    ⟨h.looksUp, _, _, h.stat, Text.decode_encode _, (Text.unified_write e hs).symm⟩

/-- A file can be saved again, and its path still leads to it. -/
theorem Holds.writeFile (h : w.Holds path p bytes) (bytes' : List UInt8) :
    ∃ fs, w.files.writeFile p bytes' = .ok fs ∧ Holds { w with files := fs } path p bytes' := by
  obtain ⟨q, hq, hentry⟩ := FileSystem.stat_eq_ok_iff.mp h.stat
  have hne := FileSystem.ne_nil_of_file hentry
  have hdiffer := FileSystem.differAt_put hne (FileSystem.isFile_of_file hentry) bytes'
  refine ⟨w.files.put q (.file bytes'), ?_, h.looksUp, ?_⟩
  · rw [FileSystem.writeFile, hq]
    simp only [hentry]
  · exact FileSystem.stat_eq_ok_iff.mpr
      ⟨q, hdiffer.locate_eq_ok_iff.mpr hq, FileSystem.entryAt_put_self hne⟩

end Workspace

/-! ## Main statement -/

namespace Analyzer

open Matcher (keyFinding)
open Solidity (keyHolder)

/-- An analysis knows no more of where a contract comes from than the name of its file. -/
theorem analyzeUnit_congr (a : Analyzer) {u v : SourceUnit} (hname : u.basename = v.basename)
    (htext : u.text = v.text) : a.analyzeUnit u = a.analyzeUnit v := by
  have hparse : Solidity.parseUnit a.withPlaces u = Solidity.parseUnit a.withPlaces v := by
    simp only [Solidity.parseUnit, Solidity.conclude, Solidity.parseFailure, hname, htext]
  rw [analyzeUnit, analyzeUnit, hparse, hname]

/-- **Line ends do not matter.** Files that hold one text with different line ends load as this
text, and if they have the same name their analyses are the same in all respects. What is loaded
never has a carriage return, and however it is saved again it loads as before. -/
theorem analyze_any_line_ends (a : Analyzer) :
    (∀ s : String, '\r' ∉ s.toList → ∀ (w w' : Workspace) (path path' : Option String)
        (p p' : Path) (e e' : LineEnd), w.Holds path p (Text.encode (e.write s)) →
        w'.Holds path' p' (Text.encode (e'.write s)) →
      w.loadSource path = .ok ⟨p, s⟩ ∧ w'.loadSource path' = .ok ⟨p', s⟩ ∧
        (p.name = p'.name → a.analyze path w = a.analyze path' w')) ∧
    ∀ (w : Workspace) (path : Option String) (u : SourceUnit), w.loadSource path = .ok u →
      '\r' ∉ u.text.toList ∧
        ∀ e : LineEnd, ∃ fs, w.files.writeFile u.path (Text.encode (e.write u.text)) = .ok fs ∧
          Workspace.loadSource { w with files := fs } path = .ok u := by
  constructor
  · intro s hs w w' path path' p p' e e' h h'
    have hload := h.loadSource hs
    have hload' := h'.loadSource hs
    refine ⟨hload, hload', fun hname ↦ ?_⟩
    rw [analyze, analyze, hload, hload']
    exact a.analyzeUnit_congr hname rfl
  · intro w path u hload
    obtain ⟨hlooksUp, bytes, s, hstat, -, htext⟩ := Workspace.loadSource_eq_ok_iff.mp hload
    have hfeeds : '\r' ∉ u.text.toList := htext ▸ Text.carriageReturn_notMem_unified s
    refine ⟨hfeeds, fun e ↦ ?_⟩
    have hholds : w.Holds path u.path bytes := ⟨hlooksUp, hstat⟩
    obtain ⟨fs, hwrite, hagain⟩ := hholds.writeFile (Text.encode (e.write u.text))
    exact ⟨fs, hwrite, hagain.loadSource hfeeds⟩

/-- The contract with one key in three files of the same name, with all three line ends. -/
def threefold : Workspace where
  files := ⟨[(["lf"], .directory),
    (["lf", "A.sol"], .file (Text.encode (LineEnd.lf.write keyHolder))),
    (["crlf"], .directory),
    (["crlf", "A.sol"], .file (Text.encode (LineEnd.crlf.write keyHolder))),
    (["cr"], .directory),
    (["cr", "A.sol"], .file (Text.encode (LineEnd.cr.write keyHolder)))], []⟩
  clock := 0

/-- The key is found in the second line, at its third character, however the lines end. -/
theorem analyze_threefold : ∃ a, ofSettings {} = .ok a ∧
    threefold.loadSource (some "crlf/A.sol") = .ok ⟨.ofString "crlf/A.sol", keyHolder⟩ ∧
    threefold.loadSource (some "cr/A.sol") = .ok ⟨.ofString "cr/A.sol", keyHolder⟩ ∧
    (a.analyze (some "lf/A.sol") threefold).1
      = .ok ⟨keyReport, [keyFinding "pubKey" (some ⟨2, 2⟩)], []⟩ ∧
    a.analyze (some "lf/A.sol") threefold = a.analyze (some "crlf/A.sol") threefold ∧
    a.analyze (some "crlf/A.sol") threefold = a.analyze (some "cr/A.sol") threefold ∧
    ∃ fs, threefold.files.writeFile (.ofString "crlf/A.sol")
        (Text.encode (LineEnd.lf.write keyHolder)) = .ok fs ∧
      Workspace.loadSource { threefold with files := fs } (some "crlf/A.sol")
        = .ok ⟨.ofString "crlf/A.sol", keyHolder⟩ := by
  have hbytes : ({} : Settings).byteTypes = "bytes32,bytes" := rfl
  obtain ⟨a, ha, -, hanalyze⟩ := exists_keyAnalyzer hbytes rfl
  have hfeeds : '\r' ∉ keyHolder.toList := by decide
  have hlf : threefold.Holds (some "lf/A.sol") (.ofString "lf/A.sol")
      (Text.encode (LineEnd.lf.write keyHolder)) :=
    ⟨⟨Workspace.not_unnamed_of_not_blank (by cbv), "lf/A.sol", rfl, by cbv⟩, by cbv⟩
  have hcrlf : threefold.Holds (some "crlf/A.sol") (.ofString "crlf/A.sol")
      (Text.encode (LineEnd.crlf.write keyHolder)) :=
    ⟨⟨Workspace.not_unnamed_of_not_blank (by cbv), "crlf/A.sol", rfl, by cbv⟩, by cbv⟩
  have hcr : threefold.Holds (some "cr/A.sol") (.ofString "cr/A.sol")
      (Text.encode (LineEnd.cr.write keyHolder)) :=
    ⟨⟨Workspace.not_unnamed_of_not_blank (by cbv), "cr/A.sol", rfl, by cbv⟩, by cbv⟩
  obtain ⟨hends, hagain⟩ := analyze_any_line_ends a
  obtain ⟨hload, hload', hfirst⟩ := hends keyHolder hfeeds _ _ _ _ _ _ _ _ hlf hcrlf
  obtain ⟨-, hload'', hsecond⟩ := hends keyHolder hfeeds _ _ _ _ _ _ _ _ hcrlf hcr
  exact ⟨a, ha, hload', hload'', hanalyze _ _ _ hload (by decide), hfirst (by decide),
    hsecond (by decide), (hagain _ _ _ hload').2 .lf⟩

end Analyzer

end QuantumRisk
