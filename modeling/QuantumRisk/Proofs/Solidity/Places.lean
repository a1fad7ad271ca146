import QuantumRisk.Proofs.Grammar.Conforming
import QuantumRisk.Proofs.Match.Places
import QuantumRisk.Proofs.Solidity.Build
import QuantumRisk.Proofs.Solidity.Clean

/-!
# Parsing with places and without

Places are asked for first, and given up if the builder cannot tell them. Either way the graph is
built from the same parse tree. Of the builder two things are assumed: asked for places it fails, or
gives the graph that it gives otherwise with places added; and names and types in its graphs hold no
records (`Builder.AddsPlaces`, `Builder.LabelsPlainly`). Then a parse with places fails if and only
if a parse without does, and in the same way; and from then on nobody but those who look at places
can tell the two trees apart.

The standard builder is such a builder. Its graphs are sound because types and expressions have no
other parts: no rule of the grammar for one of them calls any other rule (`branchesFit_grammar`),
and the parser lets nothing foreign in.

Neither the second assumption nor the blindness of rules can be left out (`places_seen`).
-/

namespace QuantumRisk

open Ast (Fields Graph Location Node SyntaxTree)

/-! ## Trees without their places -/

namespace Ast.SyntaxTree

/-- The two trees are the same but for places. -/
structure SameButPlaces (t t' : SyntaxTree) : Prop where
  sourceName : t'.sourceName = t.sourceName
  diagnostics : t'.diagnostics = t.diagnostics
  topLevelTypes : ∃ types, t.topLevelTypes = .ok types ∧ t'.topLevelTypes = .ok types
  /-- The walks agree node by node, in everything but the places, and stop at the same faults. -/
  nodes : t'.nodes.map (List.map Node.unplaced) = t.nodes.map (List.map Node.unplaced)

variable {g g' : Graph}

theorem exists_topLevelTypes {t : SyntaxTree} (h : t.graph.PlainlyLabelled) :
    ∃ types, t.topLevelTypes = .ok types := by
  obtain ⟨items, hitems⟩ := h.children
  rw [topLevelTypes, topLevel]
  simp only [hitems]
  exact ⟨_, rfl⟩

theorem SameButPlaces.refl {t : SyntaxTree} (h : t.graph.PlainlyLabelled) : SameButPlaces t t := by
  obtain ⟨types, htypes⟩ := exists_topLevelTypes h
  exact ⟨rfl, rfl, ⟨types, htypes, htypes⟩, rfl⟩

theorem SameButPlaces.of_placed (h : g.Placed g') (hs : g.PlainlyLabelled) (source : String)
    (diagnostics : List Diagnostic) :
    SameButPlaces ⟨g', source, diagnostics⟩ ⟨g, source, diagnostics⟩ := by
  obtain ⟨types, htypes⟩ := exists_topLevelTypes (t := ⟨g, source, diagnostics⟩) hs
  exact ⟨rfl, rfl, ⟨types, (h.topLevelTypes_eq hs _ _).trans htypes, htypes⟩,
    (h.sameButPlaces hs).nodes⟩

end Ast.SyntaxTree

namespace Solidity

open QuantumRisk.Grammar

/-! ## Types and expressions in parse trees -/

/-- Nodes of types and expressions have only such nodes as parts. -/
def mayHave (r q : Nat) : Bool :=
  !(Nonterminal.ofNumber r).isTerm || (Nonterminal.ofNumber q).isTerm

/-- The rules for types and expressions call no others. -/
theorem branchesFit_grammar (r : Nat) :
    branchesFit mayHave r (grammar.rules.getD r default).branches := by
  by_cases hr : r < grammar.rules.size
  · revert r
    decide +kernel
  · -- There are no more rules.
    rw [Array.getD_eq_getD_getElem?, Array.getElem?_eq_none (Nat.le_of_not_lt hr)]
    rfl

variable {t : Tree}

theorem proper_of_conforms (h : t.Conforms mayHave) : Proper t := by
  induction h with
  | leaf token => exact .leaf token
  | @node rule start stop children hparts hmay ih =>
    refine .node ih fun hterm c hc ↦ ?_
    have hbelongs := hmay c hc
    cases c with
    | leaf token => rfl
    | node q start stop children => simpa [Tree.belongs, mayHave, hterm, isTerm] using hbelongs

theorem proper_of_parseText {text : String} (h : (parseText text).tree = some t) :
    t.isNode Nonterminal.sourceUnit.number ∧ Proper t := by
  obtain ⟨hunit, hconforms⟩ := Tables.conforms_parse branchesFit_grammar h
  exact ⟨hunit, proper_of_conforms hconforms⟩

/-! ## Builders -/

/-- Asked for places, the builder fails or adds places to the graph that it builds otherwise. -/
def Builder.AddsPlaces (b : Builder) : Prop :=
  ∀ text t g', (parseText text).tree = some t → b true t = .ok g' →
    ∃ g, b false t = .ok g ∧ g.Placed g'

/-- The graphs of the builder are plainly labelled. -/
def Builder.LabelsPlainly (b : Builder) : Prop :=
  ∀ text t g, (parseText text).tree = some t → b false t = .ok g → g.PlainlyLabelled

theorem exists_build_of_graphOf {g : Graph} (h : graphOf t = .ok g) :
    ∃ root records, build t = (.ok (.record root), records) ∧ g = ⟨records.fields, root⟩ := by
  rw [graphOf] at h
  split at h
  · next root records hbuild =>
    cases h
    exact ⟨root, records, hbuild, rfl⟩
  · cases h
  · cases h

theorem exists_build_of_placedGraphOf {g : Graph} (h : placedGraphOf t = .ok g) :
    ∃ root records fields, build t = (.ok (.record root), records) ∧
      records.withPlaces = some fields ∧ g = ⟨fields, root⟩ := by
  rw [placedGraphOf] at h
  split at h
  · next root records hbuild =>
    split at h
    · next fields hfields =>
      cases h
      exact ⟨root, records, fields, hbuild, hfields, rfl⟩
    · cases h
  · cases h
  · cases h

theorem addsPlaces_standardBuilder : Builder.AddsPlaces standardBuilder := by
  intro text t g' htree hg'
  obtain ⟨hunit, ht⟩ := proper_of_parseText htree
  obtain ⟨root, records, fields, hbuild, hfields, rfl⟩ := exists_build_of_placedGraphOf hg'
  have hg : standardBuilder false t = .ok ⟨records.fields, root⟩ := by
    rw [standardBuilder, graphOf, hbuild]
  exact ⟨_, hg, placed_of_withPlaces (sound_of_build ht hbuild) hfields⟩

theorem labelsPlainly_standardBuilder : Builder.LabelsPlainly standardBuilder := by
  intro text t g htree hg
  obtain ⟨hunit, ht⟩ := proper_of_parseText htree
  obtain ⟨root, records, hbuild, rfl⟩ := exists_build_of_graphOf hg
  exact plainlyLabelled_of_sound (sound_of_build ht hbuild) (children_of_build ht hunit hbuild)

/-! ## The two graphs -/

variable {b : Builder}

/-- Asking for places gives the same as not asking, or the same graph with places. -/
theorem lastOutcome_with (hplaces : b.AddsPlaces) {text : String}
    (htree : (parseText text).tree = some t) :
    lastOutcome (attempts true t b) = b false t ∨
      ∃ g g', b false t = .ok g ∧ lastOutcome (attempts true t b) = .ok g' ∧ g.Placed g' := by
  cases hplaced : b true t with
  | error e => exact .inl (lastOutcome_of_error hplaced)
  | ok g' =>
    obtain ⟨g, hg, hsame⟩ := hplaces text t g' htree hplaced
    exact .inr ⟨g, g', hg, lastOutcome_of_ok hplaced, hsame⟩

/-- The syntax errors and the parts at the top level decide whether a graph is a result; places do
not. -/
theorem conclude_placed {g g' : Graph} (h : g.Placed g') (hs : g.PlainlyLabelled) (u : SourceUnit)
    (diagnostics : List Diagnostic) :
    (∃ message, conclude u diagnostics (.ok g') = .error (parseFailure u diagnostics message) ∧
        conclude u diagnostics (.ok g) = .error (parseFailure u diagnostics message)) ∨
      conclude u diagnostics (.ok g') = .ok ⟨g', u.basename, diagnostics⟩ ∧
        conclude u diagnostics (.ok g) = .ok ⟨g, u.basename, diagnostics⟩ := by
  simp only [conclude, h.topLevel_eq hs]
  split
  · exact .inl ⟨_, rfl, rfl⟩
  · exact .inr ⟨rfl, rfl⟩

/-- Both parses fail in the same way, or both succeed and their graphs are the same but for
places. -/
theorem conclude_lastOutcome (hplaces : b.AddsPlaces) (hlabels : b.LabelsPlainly)
    (u : SourceUnit) (htree : (parseText u.text).tree = some t) (diagnostics : List Diagnostic) :
    (∃ message, conclude u diagnostics (lastOutcome (attempts true t b))
          = .error (parseFailure u diagnostics message) ∧
        conclude u diagnostics (lastOutcome (attempts false t b))
          = .error (parseFailure u diagnostics message)) ∨
      ∃ tree tree', conclude u diagnostics (lastOutcome (attempts true t b)) = .ok tree ∧
        conclude u diagnostics (lastOutcome (attempts false t b)) = .ok tree' ∧
        tree.SameButPlaces tree' ∧ tree.graph.SameButPlaces tree'.graph := by
  have hplain : lastOutcome (attempts false t b) = b false t := rfl
  rw [hplain]
  rcases lastOutcome_with hplaces htree with heq | ⟨g, g', hg, hg', hplaced⟩
  · -- Places were given up: both results are of the same graph.
    rw [heq]
    rcases conclude_cases u diagnostics (b false t) with ⟨message, hfailed⟩ | ⟨g, hg, hresult⟩
    · exact .inl ⟨_, hfailed, hfailed⟩
    · have hs := hlabels u.text t g htree hg
      exact .inr ⟨_, _, hresult, hresult, .refl hs, .refl g⟩
  · rw [hg, hg']
    have hs := hlabels u.text t g htree hg
    rcases conclude_placed hplaced hs u diagnostics with hfailed | ⟨hresult, hresult'⟩
    · exact .inl hfailed
    · exact .inr ⟨_, _, hresult, hresult', .of_placed hplaced hs _ _, hplaced.sameButPlaces hs⟩

/-! ## One contract, parsed both ways -/

/-- Both parses of the contract with one key succeed, and give the two graphs. -/
theorem parse_keyHolder {u : SourceUnit} (h : u.text = keyHolder) :
    (parseUnit true u).result = .ok ⟨keyHolderPlaced, u.basename, []⟩ ∧
      (parseUnit false u).result = .ok ⟨keyHolderGraph, u.basename, []⟩ ∧
      keyHolderPlaced.nodes = .ok [keyNode (some ⟨2, 2⟩)] := by
  obtain ⟨t, hclean, hplain, hplaced⟩ := readsCleanly_of_readsAs readsAs_keyHolder
  obtain ⟨g, hg, hsame⟩ := addsPlaces_standardBuilder _ t _ hclean.tree hplaced
  have hlabels := labelsPlainly_standardBuilder _ t _ hclean.tree hplain
  obtain rfl : keyHolderGraph = g := Except.ok.inj (hplain.symm.trans hg)
  rw [← h] at hclean
  exact ⟨parseUnit_of_clean hclean (lastOutcome_of_ok hplaced),
    parseUnit_of_clean hclean (lastOutcome_of_ok hplain), nodes_keyHolderPlaced hsame hlabels⟩

/-- The contract with one key, as a source unit. -/
def keyHolderUnit : SourceUnit := ⟨.ofString "A.sol", keyHolder⟩

/-! ## Main statement -/

/-- **Places never affect the result.** Of the builder it is assumed that it adds nothing but
places, and that names and types hold no records. Then a parse that asks for places and one that
does not either fail both, in the same way, or give trees that are the same but for places. What a
table of rules that are shown nodes without their places finds in both trees is the same but for
places. So rules that do not look at places fail in both trees or in none, with the same fault, and
what they find in both has the same counts and messages and makes the same reports. -/
theorem parse_with_places_or_without (b : Builder) (hplaces : b.AddsPlaces)
    (hlabels : b.LabelsPlainly) (u : SourceUnit) :
    (∃ diagnostics message,
        (parseUnit true u b).result = .error (parseFailure u diagnostics message) ∧
        (parseUnit false u b).result = .error (parseFailure u diagnostics message)) ∨
      ∃ t t', (parseUnit true u b).result = .ok t ∧ (parseUnit false u b).result = .ok t' ∧
        t.SameButPlaces t' ∧
        ∀ rules : List Rule,
          ((Matcher.ofRules (rules.map Rule.blinded)).run t').map MatchResult.unplaced
            = ((Matcher.ofRules (rules.map Rule.blinded)).run t).map MatchResult.unplaced ∧
          ((∀ r ∈ rules, r.Blind) →
            (∃ e, (Matcher.ofRules rules).run t = .error e ∧
              (Matcher.ofRules rules).run t' = .error e) ∨
            ∃ found found', (Matcher.ofRules rules).run t = .ok found ∧
              (Matcher.ofRules rules).run t' = .ok found' ∧ found'.counts = found.counts ∧
              found'.messages = found.messages ∧
              ∀ contract w, Report.build contract found' w = Report.build contract found w) := by
  simp only [parseUnit]
  cases htree : (parseText u.text).tree with
  | none => exact .inl ⟨_, _, rfl, rfl⟩
  | some tree =>
    rcases conclude_lastOutcome hplaces hlabels u htree (parseText u.text).diagnostics with
      hfailed | ⟨t, t', hresult, hresult', hsame, hgraphs⟩
    · exact .inl ⟨_, hfailed⟩
    · refine .inr ⟨t, t', hresult, hresult', hsame, fun rules ↦ ?_⟩
      have hrun := Matcher.run_blinded rules hgraphs
      refine ⟨hrun, fun hrules ↦ ?_⟩
      rw [Rule.map_blinded hrules] at hrun
      exact MatchResult.same_of_unplaced hrun

open Matcher (keyFinding) in
/-- The contract with one key is parsed with places and without. The key is found both times, once
with its place. -/
theorem parse_with_places_or_without_keyHolder :
    Builder.AddsPlaces standardBuilder ∧ Builder.LabelsPlainly standardBuilder ∧
    (∀ r ∈ defaultRules defaultByteTypes, r.Blind) ∧
    ∃ t t' found found',
      (parseUnit true keyHolderUnit).result = .ok t ∧
      (parseUnit false keyHolderUnit).result = .ok t' ∧ t.SameButPlaces t' ∧
      (Matcher.ofRules (defaultRules defaultByteTypes)).run t = .ok found ∧
      (Matcher.ofRules (defaultRules defaultByteTypes)).run t' = .ok found' ∧
      found.findings = [keyFinding "pubKey" (some ⟨2, 2⟩)] ∧
      found'.findings = [keyFinding "pubKey" none] ∧
      found.counts = tally 0 1 ∧ found'.counts = found.counts ∧
      found'.messages = found.messages ∧
      ∀ contract w, Report.build contract found' w = Report.build contract found w := by
  have hblind := Rule.blind_defaultRules defaultByteTypes
  refine ⟨addsPlaces_standardBuilder, labelsPlainly_standardBuilder, hblind, ?_⟩
  obtain ⟨hwith, hwithout, hnodes⟩ := parse_keyHolder (u := keyHolderUnit) rfl
  rcases parse_with_places_or_without standardBuilder addsPlaces_standardBuilder
    labelsPlainly_standardBuilder keyHolderUnit with ⟨_, _, hfailed, -⟩ | hparsed
  · rw [hwith] at hfailed
    cases hfailed
  obtain ⟨t, t', ht, ht', hsame, hrules⟩ := hparsed
  obtain rfl := Except.ok.inj (hwith.symm.trans ht)
  obtain rfl := Except.ok.inj (hwithout.symm.trans ht')
  have hfound := Matcher.run_of_key ["bytes32", "bytes"] (t := ⟨_, "A.sol", []⟩)
    List.mem_cons_self isKeyName_pubKey hnodes
  have hfound' := Matcher.run_of_key ["bytes32", "bytes"] (t := ⟨_, "A.sol", []⟩)
    List.mem_cons_self isKeyName_pubKey nodes_keyHolderGraph
  rcases (hrules (defaultRules defaultByteTypes)).2 hblind with ⟨e, herror, -⟩ | hmatched
  · cases herror.symm.trans hfound
  · obtain ⟨found, found', hrun, hrun', hcounts, hmessages, hreports⟩ := hmatched
    obtain rfl := Except.ok.inj (hrun.symm.trans hfound)
    obtain rfl := Except.ok.inj (hrun'.symm.trans hfound')
    exact ⟨_, _, _, _, hwith, hwithout, hsame, hrun, hrun', rfl, rfl, rfl, hcounts, hmessages,
      hreports⟩

/-! ## Where places are seen -/

/-- Records with a call whose callee has a record for a name. -/
def oddCallRecords (more : Fields) : List Fields :=
  [[("name", .str "h")] ++ more, [("type", .str "Identifier"), ("name", .record 0)],
    [("type", .str "FunctionCall"), ("expression", .record 1)],
    [("type", .str "SourceUnit"), ("children", .list [.record 2])]]

def oddCall : Graph := ⟨(oddCallRecords []).toArray, 3⟩

/-- The same with a place in the record that is the name. -/
def oddCallPlaced : Graph where
  records := (oddCallRecords [("loc", .record 4)] ++ placeRecords 4 1 0 1 0).toArray
  root := 3

theorem placed_oddCall : oddCall.Placed oddCallPlaced := by
  refine ⟨rfl, by decide, by decide, by decide, fun i hi ↦ ?_⟩
  by_cases h0 : i = 0
  · have hstart : Fields.get (oddCallPlaced.fields 4) "start" = .record 5 := rfl
    have hline : (oddCallPlaced.value (Fields.get (oddCallPlaced.fields 5) "line")).toInteger
        = .ok 1 := congrArg Json.toInteger (Graph.value_int _ 1)
    have hcolumn : ((oddCallPlaced.value (Fields.get (oddCallPlaced.fields 5) "column")).orElse
        (.int 0)).toInteger = .ok 0 :=
      congrArg (fun v ↦ (Json.orElse v (.int 0)).toInteger) (Graph.value_int _ 0)
    subst h0
    exact .start rfl hstart hline hcolumn
  · have hnull : ∀ i < 4, i ≠ 0 → Fields.get (oddCallPlaced.fields i) "loc" = .null := by decide
    exact Graph.wellPlaced_of_null (hnull i hi h0)

/-- The callee is shown with all that its name holds. -/
theorem nodes_of_oddCall {g : Graph} {name : Json} (hvisits : g.visits = [3] ++ 2 :: [1, 0])
    (h0 : g.classify 0 = .ok none) (h1 : g.classify 1 = .ok none) (h3 : g.classify 3 = .ok none)
    (hcall : g.classify 2
      = .ok (some (.call (g.nameOf (g.fields 1)) (g.value (.str "Identifier")) none)))
    (hname : Fields.get (g.fields 1) "name" = .record 0) (hvalue : g.value (.record 0) = name)
    (hsome : name.isSome) : g.nodes = .ok [.call name (.str "Identifier") none] := by
  rw [Graph.nameOf, hname, hvalue, Json.orElse, if_pos hsome, Graph.value_str] at hcall
  refine Graph.nodes_of_single hvisits ?_ hcall
  simp only [List.cons_append, List.nil_append, List.forall_mem_cons]
  exact ⟨h3, h1, h0, fun _ h ↦ absurd h List.not_mem_nil⟩

def oddName : Json := .obj [("name", .str "h")]

def oddNamePlaced : Json :=
  .obj [("name", .str "h"), ("loc", .obj [("start", .obj [("line", .int 1), ("column", .int 0)]),
    ("end", .obj [("line", .int 1), ("column", .int 0)])])]

theorem nodes_oddCall : oddCall.nodes = .ok [.call oddName (.str "Identifier") none] := by
  have hvisits : oddCall.visits = [3] ++ 2 :: [1, 0] := by cbv
  have hvalue : oddCall.value (.record 0) = oddName := by cbv
  exact nodes_of_oddCall hvisits rfl rfl rfl rfl rfl hvalue rfl

theorem nodes_oddCallPlaced :
    oddCallPlaced.nodes = .ok [.call oddNamePlaced (.str "Identifier") none] := by
  have hvisits : oddCallPlaced.visits = [3] ++ 2 :: [1, 0] := by cbv
  have hvalue : oddCallPlaced.value (.record 0) = oddNamePlaced := by cbv
  exact nodes_of_oddCall hvisits rfl rfl rfl rfl rfl hvalue rfl

/-- A builder that makes the odd call of every tree. -/
def oddBuilder : Builder
  | true, _ => .ok oddCallPlaced
  | false, _ => .ok oddCall

/-- A rule that finds every call and tells its name. -/
def tellCalls : Rule :=
  { id := "R", category := .call, predicate := fun _ ↦ .ok true, kind := .ecrecoverUsage,
    message := "\x7bname\x7d" }

theorem run_tellCalls {t : SyntaxTree} {name calleeType : Json}
    (h : t.nodes = .ok [.call name calleeType none]) :
    (Matcher.ofRules [tellCalls]).run t
      = .ok ⟨[⟨"R", .ecrecoverUsage, name.display, name, none⟩], [(.ecrecoverUsage, 1)]⟩ := by
  have hmessage : Text.fillTemplate tellCalls.message name = .ok ("" ++ name.display ++ "") := by
    cbv
  have hfinding : tellCalls.finding (.call name calleeType none)
      = .ok ⟨"R", .ecrecoverUsage, name.display, name, none⟩ := by
    rw [Rule.finding, Node.name, hmessage, String.empty_append, String.append_empty]
    rfl
  have hfound : Matcher.findingOf (.call name calleeType none) tellCalls
      = .ok [⟨"R", .ecrecoverUsage, name.display, name, none⟩] := by
    rw [Matcher.findingOf, hfinding]
    rfl
  have hrules : (Matcher.ofRules [tellCalls]).rulesFor .call = [tellCalls] := rfl
  rw [Matcher.run_of_nodes _ h, List.mapM_cons, Matcher.nodeFindings, Node.category, hrules,
    List.mapM_cons, hfound]
  rfl

/-- A rule that finds the declarations whose place is known. -/
def findPlaced : Rule :=
  { id := "R", category := .declaration, predicate := fun n ↦ .ok n.location.isSome,
    kind := .keyExposure, message := "" }

theorem run_findPlaced {t : SyntaxTree} {l : Option Location} (h : t.nodes = .ok [keyNode l]) :
    ∃ found, (Matcher.ofRules [findPlaced]).run t = .ok found ∧
      found.counts = [(.keyExposure, if l.isSome then 1 else 0)] := by
  rw [Matcher.run_of_nodes _ h]
  cases l with
  | none => exact ⟨_, rfl, rfl⟩
  | some place => exact ⟨_, rfl, rfl⟩

/-- **Places can be seen** where a name is a record, and by rules that look at them. The builder of
the odd call adds nothing but places; still, a rule that does not look at places tells the place in
its message. And a rule that looks at places finds the key of the contract in one of its two trees
only. -/
theorem places_seen :
    (oddBuilder.AddsPlaces ∧ tellCalls.Blind ∧
      ∃ t t' found found', (parseUnit true keyHolderUnit oddBuilder).result = .ok t ∧
        (parseUnit false keyHolderUnit oddBuilder).result = .ok t' ∧
        (Matcher.ofRules [tellCalls]).run t = .ok found ∧
        (Matcher.ofRules [tellCalls]).run t' = .ok found' ∧
        found'.messages = ["\x7b'name': 'h'\x7d"] ∧ found.messages ≠ found'.messages) ∧
      ∃ t t' found found', (parseUnit true keyHolderUnit).result = .ok t ∧
        (parseUnit false keyHolderUnit).result = .ok t' ∧
        (Matcher.ofRules [findPlaced]).run t = .ok found ∧
        (Matcher.ofRules [findPlaced]).run t' = .ok found' ∧
        found.counts = [(.keyExposure, 1)] ∧ found'.counts = [(.keyExposure, 0)] := by
  refine ⟨⟨?_, fun _ ↦ rfl, ?_⟩, ?_⟩
  · intro text t g' _ hg'
    obtain rfl : oddCallPlaced = g' := Except.ok.inj hg'
    exact ⟨oddCall, rfl, placed_oddCall⟩
  · obtain ⟨t, hclean, -, -⟩ := readsCleanly_of_readsAs readsAs_keyHolder
    have hname : oddName.display = "\x7b'name': 'h'\x7d" := by cbv
    have hnamePlaced : oddNamePlaced.display = "\x7b'name': 'h', 'loc': \x7b'start': \x7b'line': "
        ++ "1, 'column': 0\x7d, 'end': \x7b'line': 1, 'column': 0\x7d\x7d\x7d" := by cbv
    refine ⟨_, _, _, _, parseUnit_of_clean hclean (lastOutcome_of_ok rfl),
      parseUnit_of_clean hclean (lastOutcome_of_ok rfl), run_tellCalls nodes_oddCallPlaced,
      run_tellCalls nodes_oddCall, ?_, ?_⟩
    · exact congrArg (fun s ↦ [s]) hname
    · intro h
      have hsame : oddNamePlaced.display = oddName.display := (List.cons.inj h).1
      rw [hname, hnamePlaced] at hsame
      exact absurd hsame (by decide)
  · obtain ⟨hwith, hwithout, hnodes⟩ := parse_keyHolder (u := keyHolderUnit) rfl
    obtain ⟨found, hfound, hcounts⟩ := run_findPlaced (t := ⟨_, "A.sol", []⟩) hnodes
    obtain ⟨found', hfound', hcounts'⟩ :=
      run_findPlaced (t := ⟨_, "A.sol", []⟩) nodes_keyHolderGraph
    exact ⟨_, _, found, found', hwith, hwithout, hfound, hfound', hcounts, hcounts'⟩

end Solidity

end QuantumRisk
