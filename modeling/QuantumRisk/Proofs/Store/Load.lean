import QuantumRisk.Proofs.Report.RoundTrip
import QuantumRisk.Proofs.Store.Write
import QuantumRisk.Proofs.Text.RoundTrip

/-!
# What was written can be read

A saved report is read back as it was: the bytes are decoded to the text, line ends of other kinds
do not occur in it, and the text is read as the report.
-/

namespace QuantumRisk.Store

variable {s : Store} {r : Report} {w w' : Workspace} {p : Path} {events : List Event}
  {fs : FileSystem}

/-- A file with the text of a report is read as that report. -/
theorem load_of_stat (h : fs.stat p = .ok (.file (Text.encode r.text))) : load fs p = .ok r := by
  have hbytes : fs.readBytes p = .ok (Text.encode r.text) := by rw [FileSystem.readBytes, h]
  have htext : fs.readText p = .ok r.text := by
    rw [FileSystem.readText, hbytes]
    simp only [Text.decode_encode, Text.unified_eq_self r.carriageReturn_notMem_text]
  rw [load, htext]
  simp only [Report.ofText_text]

/-- **A report that was written is read back as it was**, whatever the tree, the tokens and the
clock were before. -/
theorem load_write (h : s.write r w = (.ok p, events, w')) : load w'.files p = .ok r := by
  obtain ⟨fs, q, -, hsaved⟩ := write_ok h
  exact load_of_stat hsaved.stat

/-- A report with texts of all kinds: line ends, quotes, control characters, and characters outside
the basic plane. -/
def motley : Report where
  contract := "Δ\r\n\"\\/.sol"
  ecrecoverCount := 10 ^ 30
  keyExposureCount := 0
  riskScore := 99
  warnings := ["", "\t\x01\x7f", "\u2028😀\r"]

theorem load_write_motley :
    ∃ p events w',
      write ⟨.ofString "reports", defaultSuffix⟩ motley { files := ⟨[], []⟩, clock := 0 }
        = (.ok p, events, w') ∧ load w'.files p = .ok motley := by
  let s : Store := ⟨.ofString "reports", defaultSuffix⟩
  let w : Workspace := { files := ⟨[], []⟩, clock := 0 }
  let fs : FileSystem := ⟨[(["reports"], .directory)], []⟩
  have hmake : w.files.makeDirectories s.directory = (.ok (), fs) := by cbv
  have hready : s.Ready w fs (.ofString "/reports/.00000000.tmp") ["reports", ".00000000.tmp"]
      ["reports", "0000000000001-analysis.json"] :=
    ⟨by cbv, by cbv, by cbv, by cbv, by cbv, by decide⟩
  have h : s.write motley w = _ := write_of_ready hmake hready
  exact ⟨_, _, _, h, load_write h⟩

end QuantumRisk.Store
