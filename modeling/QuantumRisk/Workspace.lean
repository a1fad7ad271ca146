import QuantumRisk.Fault
import QuantumRisk.Settings.Basic
import QuantumRisk.SourceUnit

/-!
# Workspaces

A workspace is all that a run depends on beside its arguments: the files, the environment, the
clock, the token drawn last, and the settings once they have been read. Settings are read once and
kept, so that a change of the environment shows only after they are forgotten. The clock may move in
either direction whenever a token is drawn.
-/

namespace QuantumRisk

structure Workspace where
  files : FileSystem
  environment : List (String × String) := []
  /-- Home directories by account. -/
  homes : List (String × String) := []
  /-- The time in nanoseconds since the epoch. -/
  clock : Int
  /-- What the clock shows after each of the next draws; after the last of them it stands still. -/
  ticks : List Int := []
  lastToken : Int := 0
  /-- The settings that were read. -/
  kept : Option Settings := none
  deriving Inhabited

namespace Workspace

/-! ## Settings -/

def settingsFile : Path := .ofString ".env"

/-- The text of the settings file, if there is one. -/
def settingsText (w : Workspace) : Except Fault (Option String) :=
  match w.files.isFile settingsFile with
  | .error e => .error (.path e)
  | .ok false => .ok none
  | .ok true =>
    match w.files.readText settingsFile with
    | .error e => .error (.ofRead e)
    | .ok s => .ok (some s)

/-- The settings with a caller's values in front. -/
def settingsWith (w : Workspace) (overrides : List (String × Json)) : Except Fault Settings :=
  match w.settingsText with
  | .error e => .error e
  | .ok file =>
    match Settings.read { overrides, environment := w.environment, file } with
    | .error r => .error (.rejected r)
    | .ok s => .ok s

/-- The settings of the workspace, which are kept for the next time. -/
def settings (w : Workspace) : Except Fault Settings × Workspace :=
  match w.kept with
  | some s => (.ok s, w)
  | none =>
    match w.settingsWith [] with
    | .error e => (.error e, w)
    | .ok s => (.ok s, { w with kept := some s })

/-! ## Source files -/

/-- The home directory of an account; the empty name is the caller's. -/
def home (w : Workspace) (account : String) : Option String :=
  if account = "" then List.lookup "HOME" w.environment else List.lookup account w.homes

/-- Drop slashes at the end; nothing but slashes is the root. -/
def trimSlashes (s : String) : String :=
  match s.toList.reverse.dropWhile (· = '/') with
  | [] => "/"
  | cs => String.ofList cs.reverse

/-- Replace a tilde at the beginning of a path by the home directory it stands for. -/
def expandHome (w : Workspace) (p : Path) : Except PathFault Path :=
  match p.anchor, p.parts with
  | "", first :: rest =>
    match first.toList with
    | '~' :: account =>
      match (w.home (String.ofList account)).map trimSlashes with
      | none => .error .noHome
      | some dir =>
        if dir.toList.head? = some '~' then .error .noHome
        else .ok ((Path.ofString dir).join ⟨"", rest⟩)
    | _ => .ok p
  | _, _ => .ok p

/-- Load a contract. -/
def loadSource (w : Workspace) (path : Option String) : Except Fault SourceUnit :=
  match path with
  | none => .error (.failure (.usage "no contract path supplied"))
  | some given =>
    if Text.isBlankText given then .error (.failure (.usage "no contract path supplied"))
    else
      match w.expandHome (.ofString given) with
      | .error e => .error (.path e)
      | .ok p =>
        match w.files.exists? p, w.files.isFile p with
        | .error e, _ => .error (.path e)
        | .ok false, _ => .error (.failure (.notFound given "file not found"))
        | .ok true, .error e => .error (.path e)
        | .ok true, .ok false => .error (.failure (.notFound given "not a regular file"))
        | .ok true, .ok true =>
          match w.files.readText p with
          | .ok text => .ok ⟨p, text⟩
          | .error (.text e) =>
            .error (.failure (.notFound given ("not a UTF-8 text file (" ++ e.message ++ ")")))
          | .error (.path (.refused reason _)) =>
            .error (.failure (.notFound given ("unreadable (" ++ reason.text ++ ")")))
          | .error (.path e) => .error (.path e)

end Workspace

end QuantumRisk
