import QuantumRisk.Console.Run
import Std.Time.DateTime

/-!
# The program

The outer layer: it takes a picture of the files that a command line can depend on, carries the
command line out on the picture, and then prints what was printed and makes the files that were
made. A report is made under a new name only, as in the picture.
-/

namespace QuantumRisk.Program

/-- The names of the environment that matter. -/
def variableNames : List String :=
  "HOME" :: Settings.entries.map fun e ↦ (Settings.namePrefix ++ e.name).map Char.toUpper

def environment : IO (List (String × String)) := do
  let found ← variableNames.mapM fun name ↦ do return (name, ← IO.getEnv name)
  return found.filterMap fun (name, value) ↦ value.map (name, ·)

/-- The text of a place on disk. -/
def diskText (place : Place) : String := (FileSystem.pathOf place).text

/-- Picture what is at a place, if anything. -/
def picture (fs : FileSystem) (place : Place) : IO FileSystem := do
  let disk := (← IO.currentDir) / diskText place
  if ← disk.isDir then return fs.put place .directory
  else if ← disk.pathExists then
    return fs.put place (.file (← IO.FS.readBinFile disk).data.toList)
  else return fs

/-- Picture a path with all that is above it. -/
def picturePath (fs : FileSystem) (p : Path) : IO FileSystem :=
  let place := fs.lexical p
  (List.range place.length).foldlM (fun fs n ↦ picture fs (place.take (n + 1))) fs

/-- Picture a directory with the files in it. -/
def pictureDirectory (fs : FileSystem) (p : Path) : IO FileSystem := do
  let fs ← picturePath fs p
  let place := fs.lexical p
  if fs.entryAt place != some .directory then return fs
  let disk := (← IO.currentDir) / diskText place
  (← disk.readDir).toList.foldlM (fun fs e ↦ picture fs (place ++ [e.fileName])) fs

/-- The report directories that a command may name, and the contract. -/
def mentioned (args : List String) : Option String × Option String :=
  match Console.readArguments args with
  | .ok { command := some (.scan path dir _), .. } => (path, dir)
  | .ok { command := some (.report _ dir), .. } => (none, dir)
  | .ok { command := some (.summary dir), .. } => (none, dir)
  | _ => (none, none)

/-- Picture all that a command line can depend on. -/
def workspace (args : List String) : IO Workspace := do
  let here := (Path.ofString (← IO.currentDir).toString).parts
  let now ← Std.Time.Timestamp.now
  let blank : Workspace :=
    { files := ⟨[], here⟩, environment := ← environment
      clock := now.toNanosecondsSinceUnixEpoch.val }
  let w := { blank with files := ← picturePath blank.files Workspace.settingsFile }
  let (path, dir) := mentioned args
  let dirs := dir.toList ++ match w.settings.1 with
    | .ok s => [s.reportDir]
    | .error _ => []
  let files ← dirs.foldlM (fun fs d ↦ pictureDirectory fs (.ofString d)) w.files
  let contract := path.bind fun p ↦ (w.expandHome (.ofString p)).toOption
  return { w with files := ← contract.toList.foldlM picturePath files }

/-- Make the files that the picture has beyond the old one. -/
def makeNew (old new : FileSystem) : IO Unit := do
  for (place, e) in new.entries do
    if (old.entryAt place).isNone then
      match e with
      | .directory => IO.FS.createDirAll (diskText place)
      | .file bytes =>
        let handle ← IO.FS.Handle.mk (diskText place) .writeNew
        handle.write ⟨bytes.toArray⟩
      | .link _ => pure ()

/-- The words for a fault that the program does not answer for. -/
def faultText : Fault → String
  | .failure f => f.text
  | .rejected r => Store.rejectionText r
  | .path f => f.message
  | .text f => f.message
  | .matching (.data f) => f.message
  | .matching (.template f) => f.message
  | .level f => f.message

end QuantumRisk.Program

open QuantumRisk in
def main (args : List String) : IO UInt32 := do
  let w ← Program.workspace args
  let (outcome, after) := Console.run args w
  Program.makeNew w.files after.files
  IO.print outcome.stdout
  IO.eprint outcome.stderr
  for s in outcome.served do
    IO.println (s.title ++ ": http://" ++ s.host ++ ":" ++ toString s.port)
  match outcome.ending with
  | .exit code => return code.toUInt32
  | .stopped code => return code.toUInt32
  | .raised f =>
    IO.eprintln (Program.faultText f)
    return 1
