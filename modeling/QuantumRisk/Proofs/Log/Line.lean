import QuantumRisk.Log.Record
import QuantumRisk.Proofs.Json.Limits
import QuantumRisk.Proofs.Json.Visible

/-!
# What a log line says

Loggers, messages and context come from files that nobody has checked. Whatever they hold, a log
line is one line of printable ASCII, and a reader finds one object there with the keys that the
record calls for and under each of them the value that the record has (`jsonLine_tells`). Some
records have no line at all: their values do not fit their message, or what they tell is beyond the
limits of the writer.

The members of a line are chosen from a fixed list of keys: those under which the record has
something to tell (`jsonMembers_eq_chosen`). So no value can add, replace or repeat a key.
-/

namespace QuantumRisk

/-! ## Members chosen by key -/

namespace Json

variable {keys : List String} {told : String → Option Json}

/-- Members under those of the keys for which there is something to tell. -/
def chosen (keys : List String) (told : String → Option Json) : List (String × Json) :=
  keys.filterMap fun key ↦ (told key).map (key, ·)

theorem chosen_cons_of_none {key : String} (h : told key = none) :
    chosen (key :: keys) told = chosen keys told := by
  simp [chosen, h]

theorem chosen_cons_of_some {key : String} {v : Json} (h : told key = some v) :
    chosen (key :: keys) told = (key, v) :: chosen keys told := by
  simp [chosen, h]

theorem keys_chosen : (chosen keys told).map (·.1) = keys.filter fun key ↦ (told key).isSome := by
  induction keys with
  | nil => rfl
  | cons key keys ih =>
    cases hkey : told key with
    | none => rw [chosen_cons_of_none hkey, ih, List.filter_cons_of_neg (by simp [hkey])]
    | some v =>
      rw [chosen_cons_of_some hkey, List.map_cons, ih, List.filter_cons_of_pos (by simp [hkey])]

theorem lookup_chosen (key : String) :
    lookup key (chosen keys told) = if key ∈ keys then told key else none := by
  induction keys with
  | nil => rfl
  | cons k keys ih =>
    by_cases hk : k = key
    · subst hk
      cases hkey : told k with
      | none => simp [chosen_cons_of_none hkey, ih, hkey]
      | some v => simp [chosen_cons_of_some hkey, lookup]
    · have hmem : key ∈ k :: keys ↔ key ∈ keys := by simp [Ne.symm hk]
      simp only [hmem, ← ih]
      cases hkey : told k with
      | none => rw [chosen_cons_of_none hkey]
      | some v => simp [chosen_cons_of_some hkey, lookup, hk]

theorem exactMembers_chosen (h : ∀ key v, told key = some v → v.Exact) :
    ExactMembers (chosen keys told) := by
  refine exactMembers_iff.mpr fun m hm ↦ ?_
  obtain ⟨key, -, hkey⟩ := List.mem_filterMap.mp hm
  obtain ⟨v, hv, rfl⟩ := Option.map_eq_some_iff.mp hkey
  exact h key v hv

end Json

/-! ## The keys of a line -/

namespace Log

variable {ns : Int} {r : Record} {message : String}

/-- All keys that a line may have, in the order in which they are written. -/
def lineKeys : List String :=
  ["timestamp", "level", "logger", "message", "module", "function", "line", "exception"]
    ++ contextKeys

/-- What a record has to tell under a key, with its message filled in. The place in the program is
there if the path is known, the error if there was one that counts, and context as it was set. -/
def Record.told (r : Record) (ns : Int) (message key : String) : Option Json :=
  match key with
  | "timestamp" => some (.str (Moment.ofNanos ns).isoText)
  | "level" => some (.str (levelName r.level))
  | "logger" => some (.str r.logger)
  | "message" => some (.str message)
  | "module" => if r.path = "" then none else some (.str r.moduleName)
  | "function" => if r.path = "" then none else some (r.function.elim .null .str)
  | "line" => if r.path = "" then none else some (.int r.line)
  | "exception" => r.toldTrouble.map fun t ↦
      .obj [("type", .str t.kind), ("message", .str t.message), ("traceback", .str t.account)]
  | key => if key ∈ contextKeys then Json.lookup key r.extra else none

theorem told_of_notMem {key : String} (h : key ∉ lineKeys) : r.told ns message key = none := by
  simp only [lineKeys, List.mem_append, List.mem_cons, List.not_mem_nil, or_false, not_or] at h
  rw [Record.told]
  · rw [if_neg h.2]
  all_goals
    rintro rfl
    simp at h

theorem told_of_mem_contextKeys {key : String} (h : key ∈ contextKeys) :
    r.told ns message key = Json.lookup key r.extra := by
  simp only [contextKeys, List.mem_cons, List.not_mem_nil, or_false] at h
  rcases h with rfl | rfl | rfl | rfl | rfl
  all_goals rfl

/-- A line has the keys under which its record has something to tell. -/
theorem jsonMembers_eq_chosen :
    jsonMembers ns r message = Json.chosen lineKeys (r.told ns message) := by
  have hcontext : contextKeys.filterMap (fun key ↦ (r.told ns message key).map (key, ·))
      = contextKeys.filterMap fun key ↦ (Json.lookup key r.extra).map (key, ·) :=
    List.filterMap_congr fun key hkey ↦ by rw [told_of_mem_contextKeys hkey]
  rw [Json.chosen, lineKeys, List.filterMap_append, hcontext, jsonMembers]
  congr 1
  by_cases hpath : r.path = ""
  · cases htrouble : r.toldTrouble with
    | none => simp [Record.told, hpath, htrouble]
    | some t => simp [Record.told, hpath, htrouble]
  · cases hfunction : r.function <;> cases htrouble : r.toldTrouble <;>
      simp [Record.told, hpath, hfunction, htrouble]

theorem nodup_lineKeys : lineKeys.Nodup := by decide

/-- What holds of texts, of nothing, of the line number, of accounts of errors and of the context
holds of everything that a record tells. -/
theorem told_induction {P : Json → Prop} (hstr : ∀ s, P (.str s)) (hnull : P .null)
    (hline : P (.int r.line))
    (htrouble : ∀ kind text account, P (.obj [("type", .str kind), ("message", .str text),
      ("traceback", .str account)]))
    (hextra : ∀ x ∈ r.extra, x.1 ∈ contextKeys → P x.2) {key : String} {v : Json}
    (h : r.told ns message key = some v) : P v := by
  have hplace {x : Json} (h : (if r.path = "" then none else some x) = some v) (hx : P x) :
      P v := by
    rw [Option.ite_none_left_eq_some] at h
    exact Option.some.inj h.2 ▸ hx
  by_cases hkey : key ∈ contextKeys
  · rw [told_of_mem_contextKeys hkey, Json.lookup] at h
    obtain ⟨x, hx, rfl⟩ := Option.map_eq_some_iff.mp h
    have hname : x.1 = key := by simpa using List.find?_some hx
    exact hextra x (List.mem_of_find?_eq_some hx) (hname ▸ hkey)
  · unfold Record.told at h
    split at h
    -- the time, the level, the logger and the message are texts
    iterate 4
      · cases h
        exact hstr _
    · exact hplace h (hstr _)
    · refine hplace h ?_
      cases r.function with
      | none => exact hnull
      | some f => exact hstr f
    · exact hplace h hline
    · obtain ⟨t, -, rfl⟩ := Option.map_eq_some_iff.mp h
      exact htrouble t.kind t.message t.account
    · rw [if_neg hkey] at h
      cases h

/-- Texts and numbers are exact, so only the context has to be. -/
theorem exact_told (hextra : ∀ x ∈ r.extra, x.1 ∈ contextKeys → x.2.Exact) {key : String}
    {v : Json} (h : r.told ns message key = some v) : v.Exact :=
  told_induction (P := Json.Exact) (fun _ ↦ trivial) trivial trivial
    (fun _ _ _ ↦ ⟨by simp, trivial, trivial, trivial, trivial⟩) hextra h

/-- A record is within limits that leave room for an account if its line number and its context
are. -/
theorem fits_told {limits : Limits} (hroom : 1 ≤ limits.nesting)
    (hline : r.line.natAbs < 10 ^ limits.digits)
    (hextra : ∀ x ∈ r.extra, x.1 ∈ contextKeys → x.2.Fits limits) {key : String} {v : Json}
    (h : r.told ns message key = some v) : v.Fits limits :=
  told_induction Json.fits_str Json.fits_null (Json.fits_int hline)
    (fun _ _ _ ↦ ⟨hroom, fun _ hn ↦ absurd hn List.not_mem_nil⟩) hextra h

theorem fits_jsonMembers_iff {limits : Limits} :
    (∀ m ∈ jsonMembers ns r message, m.2.Fits limits) ↔
      ∀ key v, r.told ns message key = some v → v.Fits limits := by
  rw [jsonMembers_eq_chosen]
  constructor
  · intro h key v hv
    have hkey : key ∈ lineKeys := by
      by_contra hnot
      rw [told_of_notMem hnot] at hv
      cases hv
    exact h (key, v) (List.mem_filterMap.mpr ⟨key, hkey, by rw [hv]; rfl⟩)
  · intro h m hm
    obtain ⟨key, -, hkey⟩ := List.mem_filterMap.mp hm
    obtain ⟨v, hv, rfl⟩ := Option.map_eq_some_iff.mp hkey
    exact h key v hv

/-! ## Main statement -/

/-- **A log line cannot be forged.** Whatever a record holds, its line is one line of printable
ASCII. It is the text of an object in which no key is repeated, and a reader finds this object:
under each key stands what the record has to tell, and there are no other keys. There is no line
only if the values do not fit the message, or if something that the record tells is beyond the
limits. -/
theorem jsonLine_tells (ns : Int) (r : Record) (limits : Limits)
    (hextra : ∀ x ∈ r.extra, x.1 ∈ contextKeys → x.2.Exact) :
    (r.args = [] → r.text limits = .ok r.message) ∧
    (∀ fault, r.text limits = .error fault → jsonLine ns r limits = .error (.message fault)) ∧
    ∀ message, r.text limits = .ok message →
      ((∃ key v, r.told ns message key = some v ∧ ¬ v.Fits limits) →
        ∃ o, jsonLine ns r limits = .error (.overrun o)) ∧
      ((∀ key v, r.told ns message key = some v → v.Fits limits) → ∃ line members,
        jsonLine ns r limits = .ok line ∧ (∀ c ∈ line.toList, 0x20 ≤ c.toNat ∧ c.toNat < 0x7f) ∧
        line = (Json.obj members).render .log ∧ Json.parse? line = some (.obj members) ∧
        (members.map (·.1)).Nodup ∧
        members.map (·.1) = lineKeys.filter (fun key ↦ (r.told ns message key).isSome) ∧
        ∀ key, Json.lookup key members = r.told ns message key) := by
  refine ⟨fun hargs ↦ ?_, fun fault hfault ↦ ?_, fun message hmessage ↦ ⟨?_, fun hfits ↦ ?_⟩⟩
  · simp [Record.text, hargs]
  · simp only [jsonLine, hfault]
  · rintro ⟨key, v, hv, hbeyond⟩
    have hoverrun : Json.overrunMembers limits.digits limits.nesting (jsonMembers ns r message)
        ≠ none := by
      rw [ne_eq, Json.overrunMembers_eq_none_iff, fits_jsonMembers_iff]
      exact fun h ↦ hbeyond (h key v hv)
    obtain ⟨o, ho⟩ := Option.ne_none_iff_exists'.mp hoverrun
    exact ⟨o, by simp only [jsonLine, hmessage, ho]⟩
  have hwithin : Json.overrunMembers limits.digits limits.nesting (jsonMembers ns r message)
      = none := by
    rw [Json.overrunMembers_eq_none_iff, fits_jsonMembers_iff]
    exact hfits
  have hkeys : (jsonMembers ns r message).map (·.1)
      = lineKeys.filter fun key ↦ (r.told ns message key).isSome := by
    rw [jsonMembers_eq_chosen, Json.keys_chosen]
  have hnodup : ((jsonMembers ns r message).map (·.1)).Nodup := by
    rw [hkeys]
    exact nodup_lineKeys.filter _
  have hexact : (Json.obj (jsonMembers ns r message)).Exact := by
    refine ⟨hnodup, ?_⟩
    rw [jsonMembers_eq_chosen]
    exact Json.exactMembers_chosen fun key v hv ↦ exact_told hextra hv
  refine ⟨_, jsonMembers ns r message, by simp only [jsonLine, hmessage, hwithin],
    Json.printable_render_log hexact, rfl, Json.parse?_render .log hexact, hnodup, hkeys,
    fun key ↦ ?_⟩
  rw [jsonMembers_eq_chosen, Json.lookup_chosen]
  split
  · rfl
  · next hkey => exact (told_of_notMem hkey).symm

/-- A record that tries: quotes and lines of its own in the logger, the message, the path, the
context and the account of an error, a key of the line among its attributes, and characters that
some readers take for the end of a line. -/
def forgery : Record where
  logger := "scan\", \"level\": \"DEBUG"
  level := 20
  message := "done\"\x7d\r\n\x7b\"level\": \"CRITICAL\"\x7d\u0085\u2028\x7f😀"
  path := "/srv/\n.sol"
  line := 7
  extra := [("level", .str "CRITICAL"),
    ("contract", .obj [("message", .str "\"\r\n"), ("level", .arr [.null, .str "\u2028"])]),
    ("error_code", .int (-1000000000000000000000000000000))]
  trouble := some
    { kind := "ValueError"
      message := "\", \"level\": \"DEBUG"
      account := "Traceback (most recent call last):\n  File \"scan\", line 1, in f\n"
        ++ "ValueError: \", \"level\": \"DEBUG" }

theorem jsonLine_tells_forgery : ∃ line members,
    jsonLine 0 forgery = .ok line ∧ (∀ c ∈ line.toList, 0x20 ≤ c.toNat ∧ c.toNat < 0x7f) ∧
    Json.parse? line = some (.obj members) ∧
    members.map (·.1) = ["timestamp", "level", "logger", "message", "module", "function", "line",
      "exception", "contract", "error_code"] ∧
    Json.lookup "level" members = some (.str "INFO") ∧
    Json.lookup "message" members = some (.str forgery.message) ∧
    Json.lookup "contract" members = Json.lookup "contract" forgery.extra ∧
    Json.lookup "exception" members = some (.obj [("type", .str "ValueError"),
      ("message", .str "\", \"level\": \"DEBUG"),
      ("traceback", .str ("Traceback (most recent call last):\n  File \"scan\", line 1, in f\n"
        ++ "ValueError: \", \"level\": \"DEBUG"))]) ∧
    Json.lookup "duration_ms" members = none := by
  have hextra : ∀ x ∈ forgery.extra, x.1 ∈ contextKeys → x.2.Exact := by
    simp [forgery, contextKeys, Json.Exact, Json.ExactItems, Json.ExactMembers]
  have hline : forgery.line.natAbs < 10 ^ Limits.standard.digits :=
    Json.short_of_lt (k := 1) (by decide) (by decide)
  have hcode : Int.natAbs (-1000000000000000000000000000000) < 10 ^ Limits.standard.digits :=
    Json.short_of_lt (k := 31) (by decide) (by decide)
  have hfits : ∀ x ∈ forgery.extra, x.1 ∈ contextKeys → x.2.Fits .standard := by
    simp only [forgery, List.forall_mem_cons]
    exact ⟨fun _ ↦ Json.fits_str _,
      fun _ ↦ ⟨by decide, fun _ hn ↦ absurd hn List.not_mem_nil⟩, fun _ ↦ Json.fits_int hcode,
      fun _ h ↦ absurd h List.not_mem_nil⟩
  obtain ⟨line, members, hline, hprintable, -, hparse, -, hkeys, hlookup⟩ :=
    ((jsonLine_tells 0 forgery .standard hextra).2.2 forgery.message rfl).2
      fun key v hv ↦ fits_told (by decide) hline hfits hv
  exact ⟨line, members, hline, hprintable, hparse, hkeys.trans (by decide), hlookup _, hlookup _,
    hlookup _, hlookup _, hlookup _⟩

/-- A message that wants a number, with a text for it. -/
def misfit : Record where
  logger := "scan"
  level := 20
  message := "%d"
  args := [.str "x"]

/-- A record with a number in it. -/
def numbered (n : Int) : Record where
  logger := "scan"
  level := 20
  message := "done"
  extra := [("error_code", .int n)]

/-- One digit too many, and there is no line. -/
theorem jsonLine_numbered (digits nesting : Nat) :
    jsonLine 0 (numbered (10 ^ digits)) ⟨digits, nesting⟩ = .error (.overrun (.digits digits)) := by
  have hlong : ¬ Int.natAbs (10 ^ digits) < Nat.pow 10 digits := by
    rw [Int.natAbs_pow]
    exact Nat.lt_irrefl _
  have htext (n : Int) : (numbered n).text ⟨digits, nesting⟩ = .ok "done" := rfl
  -- the number is the last thing that is written
  have hlast (n : Int) : Json.overrunMembers digits nesting (jsonMembers 0 (numbered n) "done")
      = (Json.overrun digits nesting (.int n)).or none := rfl
  simp only [jsonLine, htext, hlast, Json.overrun, if_neg hlong, Option.or_none]

/-- A record of an error that counts as nothing. -/
def trifle : Record where
  logger := "scan"
  level := 20
  message := "done"
  trouble := some { kind := "Nothing", message := "", account := "Nothing", counts := false }

/-- **Not every record has a line**, and not every error is told. -/
theorem jsonLine_of_odd_records :
    jsonLine 0 misfit = .error (.message (.notReal 'd' "str")) ∧
      jsonLine 0 (numbered (10 ^ 4300)) = .error (.overrun (.digits 4300)) ∧
      ∃ members, jsonLine 0 trifle = .ok ((Json.obj members).render .log) ∧
        members.map (·.1) = ["timestamp", "level", "logger", "message"] := by
  exact ⟨by cbv, jsonLine_numbered 4300 980, jsonMembers 0 trifle "done", by cbv, by decide⟩

end Log

end QuantumRisk
