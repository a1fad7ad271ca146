import Mathlib
import QuantumRisk.Proofs.Ast.Placed
import QuantumRisk.Proofs.Match.Counting
import QuantumRisk.Proofs.Match.Nodes

/-!
# Contracts without syntax errors

A text that is read without a syntax error is never rejected, as long as a graph can be built from
it: with places if they were asked for and the builder can tell them, else without.

The whole way from a text to its graph can be computed. This is done here for one contract, whose
only variable has the name of a key; `run_of_key` says what the standard rules find in such a tree.
-/

namespace QuantumRisk

open Ast (DataFault Fields Graph Location Node Scope SyntaxTree)

namespace Ast.Graph

variable {g : Graph} {i j : Nat} {name type : String}

theorem foldr_eq_of_pass {α β : Type} {f : α → β → β} {b : β} {xs : List α}
    (h : ∀ x ∈ xs, ∀ b, f x b = b) : xs.foldr f b = b := by
  induction xs with
  | nil => rfl
  | cons x xs ih =>
    obtain ⟨hx, hxs⟩ := List.forall_mem_cons.mp h
    rw [List.foldr_cons, ih hxs, hx]

/-- The nodes of a walk on which a single record is a node: the others are passed over. -/
theorem nodes_of_single {before after : List Nat} {n : Node}
    (hvisits : g.visits = before ++ i :: after)
    (hother : ∀ j ∈ before ++ after, g.classify j = .ok none)
    (hi : g.classify i = .ok (some n)) : g.nodes = .ok [n] := by
  obtain ⟨hbefore, hafter⟩ := List.forall_mem_append.mp hother
  rw [nodes, hvisits, List.foldr_append, foldr_eq_of_pass fun j hj rest ↦ ?_, List.foldr_cons,
    foldr_eq_of_pass fun j hj rest ↦ ?_, hi]
  · rfl
  · rw [hafter j hj]
    rfl
  · rw [hbefore j hj]
    rfl

/-- The text of an elementary type is its name. -/
theorem typeText_of_elementary (hsize : 0 < g.records.size)
    (htype : Fields.get? (g.fields j) "type" = some (.str "ElementaryTypeName"))
    (hname : Fields.get? (g.fields j) "name" = some (.str name)) :
    typeText (g.value (.record j)) = .str name := by
  obtain ⟨fuel, hfuel⟩ := Nat.exists_eq_succ_of_ne_zero (Nat.ne_of_gt hsize)
  have hform : Json.lookup "type" (g.unfoldFields fuel [j] (g.fields j))
      = some (.str "ElementaryTypeName") := by
    rw [lookup_unfoldFields, htype, Option.map_some, unfold]
  rw [value, hfuel, unfold, if_neg (by simp), typeText_elementary hform, memberOrEmpty,
    lookup_unfoldFields, hname, Option.map_some, unfold]
  rfl

/-- A state variable of an elementary type. -/
theorem classify_of_stateVariable {l : Option Location} (hsize : 0 < g.records.size)
    (hvariable : g.HasType i "VariableDeclaration")
    (hstate : Fields.get (g.fields i) "isStateVar" = .bool true)
    (hname : Fields.get (g.fields i) "name" = .str name)
    (hrecord : Fields.get (g.fields i) "typeName" = .record j)
    (htype : Fields.get? (g.fields j) "type" = some (.str "ElementaryTypeName"))
    (hlabel : Fields.get? (g.fields j) "name" = some (.str type))
    (hl : g.location (g.fields i) = .ok l) :
    g.classify i = .ok (some (.declaration (.str name) (.str type) .stateVariable l)) := by
  rw [HasType] at hvariable
  simp only [classify, hvariable, declarationScope, readDeclaration, hstate, hrecord, hl,
    nameOf_of_str hname, typeText_of_elementary hsize htype hlabel]
  rfl

end Ast.Graph

namespace Matcher

variable {name type : String} {scope : Scope} {l : Option Location}

/-- The standard rules find the key in a tree that declares nothing else. -/
theorem run_of_key (types : List String) {t : SyntaxTree} (htype : type ∈ types)
    (hname : isKeyName name)
    (h : t.nodes = .ok [.declaration (.str name) (.str type) scope l]) :
    (standardMatcher types).run t = .ok ⟨[keyFinding name l], tally 0 1⟩ := by
  have hfinding := findingOf_keyExposureRule types name type scope l
  rw [List.contains_iff_mem.mpr htype, hname] at hfinding
  rw [run_of_nodes _ h, List.mapM_cons, nodeFindings, Node.category, rulesFor_declaration,
    List.mapM_cons, hfinding]
  rfl

end Matcher

namespace Solidity

variable {u : SourceUnit} {t : Grammar.Tree} {g : Graph} {builder : Builder}

/-- A text is read without a syntax error. -/
structure ReadsCleanly (text : String) (t : Grammar.Tree) : Prop where
  tree : (parseText text).tree = some t
  diagnostics : (parseText text).diagnostics = []

theorem lastOutcome_of_ok {places : Bool} (h : builder places t = .ok g) :
    lastOutcome (attempts places t builder) = .ok g := by
  cases places with
  | false => exact h
  | true =>
    rw [attempts, if_pos rfl, h]
    rfl

/-- Places that cannot be told are done without. -/
theorem lastOutcome_of_error {fault : BuildFault} (h : builder true t = .error fault) :
    lastOutcome (attempts true t builder) = builder false t := by
  rw [attempts, if_pos rfl, h]
  rfl

/-- **A contract without syntax errors is accepted** if its graph can be built. -/
theorem parseUnit_of_clean (h : ReadsCleanly u.text t) {places : Bool}
    (hg : lastOutcome (attempts places t builder) = .ok g) :
    (parseUnit places u builder).result = .ok ⟨g, u.basename, []⟩ := by
  simp only [parseUnit, h.tree, h.diagnostics, hg]
  rfl

/-! ## One contract -/

/-- The text is read without a syntax error, and its graph without places and with them is as
given. -/
def readsAs (text : String) (g g' : Graph) : Bool :=
  match (parseText text).tree with
  | none => false
  | some t =>
    (parseText text).diagnostics.isEmpty && (standardBuilder false t).toOption == some g
      && (standardBuilder true t).toOption == some g'

theorem eq_ok_of_toOption {ε α : Type} {x : Except ε α} {a : α} (h : x.toOption = some a) :
    x = .ok a := by
  cases x with
  | error e => cases h
  | ok b =>
    cases h
    rfl

theorem readsCleanly_of_readsAs {text : String} {g g' : Graph} (h : readsAs text g g' = true) :
    ∃ t, ReadsCleanly text t ∧ standardBuilder false t = .ok g ∧
      standardBuilder true t = .ok g' := by
  rw [readsAs] at h
  split at h
  · cases h
  · next t ht =>
    simp only [Bool.and_eq_true, List.isEmpty_iff, beq_iff_eq] at h
    exact ⟨t, ⟨ht, h.1.1⟩, eq_ok_of_toOption h.1.2, eq_ok_of_toOption h.2⟩

/-- A contract with one state variable, which is named like a key. -/
def keyHolder : String := "contract A \x7b\n  bytes32 pubKey;\n\x7d\n"

/-- The records of the contract, each with something more. -/
def keyHolderRecords (more : Nat → Fields) : List Fields :=
  [[("type", .str "ElementaryTypeName"), ("name", .str "bytes32")] ++ more 0,
    [("type", .str "VariableDeclaration"), ("typeName", .record 0), ("name", .str "pubKey"),
      ("expression", .null), ("visibility", .str "default"), ("isStateVar", .bool true),
      ("isDeclaredConst", .bool false), ("isIndexed", .bool false)] ++ more 1,
    [("type", .str "StateVariableDeclaration"), ("variables", .list [.record 1]),
      ("initialValue", .null)] ++ more 2,
    [("type", .str "ContractDefinition"), ("name", .str "A"), ("baseContracts", .list []),
      ("subNodes", .list [.record 2]), ("kind", .str "contract")] ++ more 3,
    [("type", .str "SourceUnit"), ("children", .list [.record 3])] ++ more 4]

/-- The records of a place that begins and ends at given lines and columns; the first of them has
the number `i`. -/
def placeRecords (i : Nat) (line column line' column' : Int) : List Fields :=
  [[("start", .record (i + 1)), ("end", .record (i + 2))],
    [("line", .int line), ("column", .int column)],
    [("line", .int line'), ("column", .int column')]]

def keyHolderGraph : Graph := ⟨(keyHolderRecords fun _ ↦ []).toArray, 4⟩

/-- The same with places: those of the variable and its type begin in the second line. -/
def keyHolderPlaced : Graph where
  records := (keyHolderRecords (fun i ↦ [("loc", .record (5 + 3 * i))])
    ++ placeRecords 5 2 2 2 2 ++ placeRecords 8 2 2 2 16 ++ placeRecords 11 2 2 2 16
    ++ placeRecords 14 1 0 3 0 ++ placeRecords 17 1 0 3 0).toArray
  root := 4

-- The kernel runs the whole parser here, which takes it some twenty seconds.
set_option maxRecDepth 100000 in
theorem readsAs_keyHolder : readsAs keyHolder keyHolderGraph keyHolderPlaced = true := by
  decide +kernel

theorem isKeyName_pubKey : isKeyName "pubKey" = true := by decide +kernel

/-- The only node of the contract. -/
def keyNode (l : Option Location) : Node :=
  .declaration (.str "pubKey") (.str "bytes32") .stateVariable l

theorem visits_keyHolderGraph : keyHolderGraph.visits = [4, 3, 2] ++ 1 :: [0] := by cbv

theorem nodes_keyHolderGraph : keyHolderGraph.nodes = .ok [keyNode none] := by
  refine Graph.nodes_of_single visits_keyHolderGraph ?_ ?_
  · simp only [List.cons_append, List.nil_append, List.forall_mem_cons]
    exact ⟨rfl, rfl, rfl, rfl, fun _ h ↦ absurd h List.not_mem_nil⟩
  · exact Graph.classify_of_stateVariable (by decide) rfl rfl rfl rfl rfl rfl rfl

theorem location_keyHolderPlaced :
    keyHolderPlaced.location (keyHolderPlaced.fields 1) = .ok (some ⟨2, 2⟩) := by
  have hloc : Fields.get (keyHolderPlaced.fields 1) "loc" = .record 8 := rfl
  have hstart : Fields.get (keyHolderPlaced.fields 8) "start" = .record 9 := rfl
  have hline : Fields.get (keyHolderPlaced.fields 9) "line" = .int 2 := rfl
  have hcolumn : Fields.get (keyHolderPlaced.fields 9) "column" = .int 2 := rfl
  refine Graph.location_of_start hloc hstart ?_ ?_
  · rw [hline, Graph.value_int]
    rfl
  · rw [hcolumn, Graph.value_int]
    rfl

/-- The places say where the variable stands, and change nothing else. -/
theorem nodes_keyHolderPlaced (hplaced : keyHolderGraph.Placed keyHolderPlaced)
    (hlabels : keyHolderGraph.PlainlyLabelled) :
    keyHolderPlaced.nodes = .ok [keyNode (some ⟨2, 2⟩)] := by
  refine Graph.nodes_of_single ((hplaced.visits_eq hlabels).trans visits_keyHolderGraph) ?_ ?_
  · simp only [List.cons_append, List.nil_append, List.forall_mem_cons]
    exact ⟨rfl, rfl, rfl, rfl, fun _ h ↦ absurd h List.not_mem_nil⟩
  · exact Graph.classify_of_stateVariable (by decide) rfl rfl rfl rfl rfl rfl
      location_keyHolderPlaced

end Solidity

end QuantumRisk
