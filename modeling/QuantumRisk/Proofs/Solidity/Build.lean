import QuantumRisk.Proofs.Solidity.Ensures

/-!
# Building makes sound graphs

Building puts records together from the records of parts. Whatever is referred to was made before,
so it is there. What stands for a type or an expression is made from a type or an expression, and
such a record always has a plain label, or there is nothing. Both together make the graph sound.

That types and expressions have no other parts is a property of the parse tree; what is missing or
misplaced in it does not matter.
-/

namespace QuantumRisk.Solidity

open QuantumRisk.Grammar
open QuantumRisk.Ast (Datum Fields Graph)

variable {t c : Tree} {n : Nonterminal}

namespace Build

open QuantumRisk.Solidity.Part

attribute [local simp] Fields.get_nil Fields.get_cons Datum.Labelled.null

variable {rs : Array Fields} {φ : Prop}

/-! ## Going to the parts -/

/-- Building goes to parts through `visit`: they give data that are there, and terms have labels. -/
structure Visits (rs : Array Fields) (visit : Tree → Build Datum) : Prop where
  below : ∀ {φ c}, Proper c → Ensures rs φ (visit c) (Datum.Below rs.size)
  labelled : ∀ {φ c}, Proper c → isTerm c → Ensures rs φ (visit c) (Datum.Labelled rs)

namespace Visits

variable {visit : Tree → Build Datum} {Q : Datum → Prop} {part : Option Tree} {i : Nat}

theorem visitOr_of {missing : Datum} (hmissing : Q missing)
    (h : ∀ c, part = some c → Ensures rs φ (visit c) Q) :
    Ensures rs φ (visitOr visit missing part) Q := by
  cases part with
  | none => exact .pure fun _ ↦ hmissing
  | some c => exact h c rfl

theorem at?_of (hnull : Q .null) (h : ∀ c ∈ t.children, ∀ φ, Ensures rs φ (visit c) Q) :
    Ensures rs φ (at? visit t i) Q := by
  refine Reads.index.build fun part hpart ↦ visitOr_of hnull fun c hc ↦ h c ?_ φ
  exact List.mem_of_getElem? (hpart.symm.trans hc)

theorem visitLast_of (hnull : Q .null) (h : ∀ c ∈ t.children, ∀ φ, Ensures rs φ (visit c) Q) :
    Ensures rs φ (visitLast visit t) Q := by
  rw [visitLast]
  generalize t.children = cs at h
  have hfold (d : Datum) (hd : φ → Q d) : Ensures rs φ (cs.foldlM (fun _ c ↦ visit c) d) Q := by
    induction cs generalizing d φ with
    | nil => exact .pure hd
    | cons c cs ih =>
      obtain ⟨hc, hcs⟩ := List.forall_mem_cons.mp h
      rw [List.foldlM_cons]
      exact (hc φ).bind fun d ↦ ih hcs d fun h ↦ h.2
  exact hfold .null fun _ ↦ hnull

variable (hv : Visits rs visit) (ht : Proper t)
include hv ht

theorem at? : Ensures rs φ (at? visit t i) (Datum.Below rs.size) :=
  at?_of (Datum.below_null _) fun _ hc _ ↦ hv.below (ht.child hc)

theorem at?_labelled (hterm : isTerm t) : Ensures rs φ (Build.at? visit t i) (Datum.Labelled rs) :=
  at?_of .null fun _ hc _ ↦ hv.labelled (ht.child hc) (ht.isTerm_child hterm hc)

theorem visitLast : Ensures rs φ (visitLast visit t) (Datum.Below rs.size) :=
  visitLast_of (Datum.below_null _) fun _ hc _ ↦ hv.below (ht.child hc)

theorem visitLast_labelled (hterm : isTerm t) :
    Ensures rs φ (Build.visitLast visit t) (Datum.Labelled rs) :=
  visitLast_of .null fun _ hc _ ↦ hv.labelled (ht.child hc) (ht.isTerm_child hterm hc)

theorem only (n : Nonterminal) : Ensures rs φ (only visit t n) (Datum.Below rs.size) :=
  visitOr_of (Datum.below_null _) fun _ hc ↦ hv.below (ht.child (mem_of_one? hc))

theorem only_labelled (hn : n.isTerm) : Ensures rs φ (Build.only visit t n) (Datum.Labelled rs) :=
  visitOr_of .null fun _ hc ↦ hv.labelled (ht.child (mem_of_one? hc)) (isTerm_of_one? hn hc)

theorem visitAll_list {ts : List Tree} (hts : ∀ c ∈ ts, c ∈ t.children) :
    Ensures rs φ (Build.visitAll visit ts) fun d ↦
      ∃ items, d = .list items ∧ ∀ item ∈ items, item.Below rs.size :=
  (Ensures.mapM fun c hc _ ↦ hv.below (ht.child (hts c hc))).bind fun items ↦ .pure fun h ↦
    ⟨items, rfl, h.2⟩

theorem visitAll {ts : List Tree} (hts : ∀ c ∈ ts, c ∈ t.children) :
    Ensures rs φ (Build.visitAll visit ts) (Datum.Below rs.size) :=
  (hv.visitAll_list ht hts).mono fun _ _ ⟨_, hd, hitems⟩ ↦ hd ▸ Datum.below_list.mpr hitems

theorem every (n : Nonterminal) : Ensures rs φ (every visit t n) (Datum.Below rs.size) :=
  hv.visitAll ht fun _ ↦ mem_of_all

theorem visit? (hpart : ∀ c, part = some c → c ∈ t.children) :
    Ensures rs φ (Build.visit? visit part) (Datum.Below rs.size) :=
  visitOr_of (Datum.below_null _) fun c hc ↦ hv.below (ht.child (hpart c hc))

theorem onlyOr (n : Nonterminal) :
    Ensures rs φ (visitOr visit (.list []) (one? t n)) (Datum.Below rs.size) :=
  visitOr_of (by simp) fun _ hc ↦ hv.below (ht.child (mem_of_one? hc))

/-! ## Statements -/

theorem loopCondition : Ensures rs φ (Build.loopCondition visit t) (Datum.Below rs.size) := by
  refine (hv.only ht _).bind fun d ↦ ?_
  cases d with
  | record id => exact Ensures.recordAt.bind fun r ↦ .pure fun h ↦ Fields.below_get h.2 _
  | _ => exact .pure fun h ↦ h.2

theorem declaredVariables :
    Ensures rs φ (Build.declaredVariables visit t) (Datum.Below rs.size) := by
  rw [Build.declaredVariables]
  split
  · next hd =>
    exact (hv.below (ht.child (mem_of_one? hd))).bind fun _ ↦ .pure fun h ↦ by simp [h]
  · next hl => exact hv.below (ht.child (mem_of_one? hl))
  · next hl => exact hv.below (ht.child (mem_of_one? hl))
  · exact .throw _

theorem variableDeclarationList :
    Ensures rs φ (Build.variableDeclarationList visit t) (Datum.Below rs.size) := by
  refine Reads.betweenCommas.build fun parts hparts ↦
    Ensures.bind (P := fun ds ↦ ∀ d ∈ ds, d.Below rs.size) (.mapM fun p hp _ ↦ ?_) fun ds ↦
      .pure fun h ↦ ?_
  · have hpart : some p ∈ parts := by
      obtain ⟨part, hpart, rfl⟩ := List.mem_filterMap.mp hp
      exact (List.takeWhile_prefix _).subset hpart
    exact Reads.textOf.build fun _ _ ↦
      (hv.only_labelled (ht.child (hparts p hpart)) rfl).bind fun _ ↦
      .declared fun h ↦ by simp [h]
  · split
    · exact Datum.below_list.mpr h.2
    · exact Datum.below_null _

omit hv ht in
theorem identifierList : Ensures rs φ (Build.identifierList t) (Datum.Below rs.size) := by
  refine Reads.betweenCommas.build fun parts _ ↦
    Ensures.bind (P := fun ds ↦ ∀ d ∈ ds, d.Below rs.size) (.mapM fun part _ _ ↦ ?_) fun ds ↦
      .pure fun h ↦ Datum.below_list.mpr h.2
  cases part with
  | none => exact .pure fun _ ↦ Datum.below_null _
  | some i => exact .declared fun _ ↦ by simp

theorem statementPart (n : Nonterminal) :
    Ensures rs φ (Build.statementPart visit t n) (Datum.Below rs.size) := by
  cases n with
  | block => exact (hv.every ht _).bind fun _ ↦ .plain fun h ↦ by simp [h]
  | statement | simpleStatement => exact hv.at? ht
  | expressionStatement | uncheckedStatement | emitStatement | revertStatement
  | inlineAssemblyStatement => exact (hv.only ht _).bind fun _ ↦ .plain fun h ↦ by simp [h]
  | ifStatement =>
    have hbodies (i : Nat) (c : Tree) (hc : (all t .statement)[i]? = some c) : c ∈ t.children :=
      mem_of_all (List.mem_of_getElem? hc)
    exact (hv.visit? ht (hbodies 0)).bind fun _ ↦ (hv.visit? ht (hbodies 1)).bind fun _ ↦
      (hv.only ht _).bind fun _ ↦ .plain fun h ↦ by simp [h]
  | tryStatement =>
    exact (hv.only ht _).bind fun _ ↦ (hv.only ht _).bind fun _ ↦ (hv.only ht _).bind fun _ ↦
      (hv.every ht _).bind fun _ ↦ .plain fun h ↦ by simp [h]
  | catchClause =>
    exact (hv.only ht _).bind fun _ ↦ (hv.only ht _).bind fun _ ↦ (hv.only ht _).bind fun _ ↦
      .plain fun h ↦ by simp [h]
  | whileStatement | doWhileStatement =>
    exact (hv.only ht _).bind fun _ ↦ (hv.only ht _).bind fun _ ↦ .plain fun h ↦ by simp [h]
  | forStatement =>
    exact (hv.loopCondition ht).bind fun _ ↦ (hv.only ht _).bind fun _ ↦
      (hv.only ht _).bind fun _ ↦ .bind (.plain fun h ↦ by simp [h]) fun _ ↦
      (hv.only ht _).bind fun _ ↦ .plain fun h ↦ by simp [h]
  | continueStatement | breakStatement | throwStatement => exact .plain fun _ ↦ by simp
  | returnStatement => exact hv.only ht _
  | variableDeclarationStatement =>
    exact (hv.declaredVariables ht).bind fun _ ↦ (hv.only ht _).bind fun _ ↦
      .plain fun h ↦ by simp [h]
  | variableDeclarationList => exact hv.variableDeclarationList ht
  | identifierList => exact identifierList
  | _ => exact hv.visitLast ht

/-! ## Declarations -/

theorem callArguments {args : Option Tree} (hargs : ∀ c, args = some c → c ∈ t.children) :
    Ensures rs φ (Build.callArguments visit args) fun p ↦
      p.1.Below rs.size ∧ p.2.Below rs.size := by
  refine Reads.need.build fun c hc ↦ ?_
  have hproper : Proper c := ht.child (hargs c hc)
  split
  · next hlist =>
    exact (hv.every (hproper.child (mem_of_one? hlist)) _).bind fun _ ↦ .pure fun h ↦ by simp [h]
  · next hlist =>
    refine Ensures.bind (P := fun ps ↦ ∀ p ∈ ps, p.1.Below rs.size ∧ p.2.Below rs.size)
      (.mapM fun pair hpair _ ↦ ?_) fun ps ↦ .pure fun h ↦ ?_
    · have hpair := (hproper.child (mem_of_one? hlist)).child (mem_of_all hpair)
      exact (hv.only hpair _).bind fun _ ↦ Reads.textOf.build fun _ _ ↦ .pure fun h ↦ by simp [h]
    · simp only [Datum.below_list, List.forall_mem_map]
      exact ⟨fun p hp ↦ (h.2 p hp).1, fun p hp ↦ (h.2 p hp).2⟩
  · exact .pure fun _ ↦ by simp

omit hv ht in
theorem functionName : Reads (Build.functionName t) fun _ ↦ True := by
  refine Reads.need.bind fun d _ ↦ ?_
  split <;> exact .pure trivial

theorem functionDefinition :
    Ensures rs φ (Build.functionDefinition visit t) (Datum.Below rs.size) :=
  functionName.build fun _ _ ↦ (hv.only ht _).bind fun _ ↦ (hv.onlyOr ht _).bind fun _ ↦
    (hv.onlyOr ht _).bind fun _ ↦ Reads.need.build fun _ hlist ↦
    (hv.every (ht.child (mem_of_one? hlist)) _).bind fun _ ↦ .plain fun h ↦ by simp [h]

theorem stateVariable : Ensures rs φ (Build.stateVariable visit t) (Datum.Below rs.size) :=
  (hv.only_labelled ht rfl).bind fun _ ↦ Reads.textOf.build fun _ _ ↦
    (hv.only ht _).bind fun _ ↦ .bind (.declared fun h ↦ by simp [h]) fun _ ↦
    .plain fun h ↦ by simp [h]

theorem eventParameters : Ensures rs φ (Build.eventParameters visit t) (Datum.Below rs.size) := by
  refine Ensures.bind (P := fun ds ↦ ∀ d ∈ ds, d.Below rs.size) (.mapM fun p hp _ ↦ ?_) fun ds ↦
    .plain fun h ↦ by simpa using h.2
  exact (hv.only_labelled (ht.child (mem_of_all hp)) rfl).bind fun _ ↦
    .declared fun h ↦ by simp [h]

theorem modifierInvocation :
    Ensures rs φ (Build.modifierInvocation visit t) (Datum.Below rs.size) := by
  rw [Build.modifierInvocation]
  split
  · next hlist =>
    exact (hv.every (ht.child (mem_of_one? hlist)) _).bind fun _ ↦
      Reads.textOf.build fun _ _ ↦ .plain fun h ↦ by simp [h]
  · exact Ensures.null.bind fun _ ↦ Reads.textOf.build fun _ _ ↦ .plain fun h ↦ by simp [h]

/-- A source unit is a record with the list of its parts. -/
theorem sourceUnit : Ensures rs φ (declarationPart visit t .sourceUnit) fun d ↦
    ∃ i items, d = .record i ∧
      rs[i]? = some [("type", .str "SourceUnit"), ("children", .list items)] := by
  refine .ite (.throw _) ((hv.visitAll_list ht fun _ ↦ List.mem_of_mem_dropLast).bind fun d ↦ ?_)
  refine (Ensures.record_added fun h ↦ .of_other (by simp) ?_).mono
    fun ⟨_, items, hd, _⟩ _ ⟨i, ha, hi⟩ ↦ ⟨i, items, ha, hd ▸ hi⟩
  obtain ⟨-, items, rfl, hitems⟩ := h
  simpa using hitems

theorem declarationPart (n : Nonterminal) :
    Ensures rs φ (Build.declarationPart visit t n) (Datum.Below rs.size) := by
  cases n with
  | sourceUnit =>
    exact (hv.sourceUnit ht).mono fun _ _ ⟨_, _, hd, hi⟩ ↦
      hd ▸ Datum.below_record.mpr (Array.getElem?_eq_some_iff.mp hi).1
  | pragmaDirective =>
    exact Reads.textOf.build fun _ _ ↦ Reads.textOf.build fun _ _ ↦ .plain fun _ ↦ by simp
  | importDirective | enumValue => exact Reads.textOf.build fun _ _ ↦ .plain fun _ ↦ by simp
  | contractDefinition =>
    exact Reads.textOf.build fun _ _ ↦ (hv.every ht _).bind fun _ ↦ (hv.every ht _).bind fun _ ↦
      Reads.textAt.build fun _ _ ↦ .plain fun h ↦ by simp [h]
  | contractPart => exact .ite (.throw _) (hv.at? ht)
  | stateVariableDeclaration => exact hv.stateVariable ht
  | fileLevelConstant | typeDefinition =>
    exact (hv.only ht _).bind fun _ ↦ .plain fun h ↦ by simp [h]
  | inheritanceSpecifier | customErrorDefinition =>
    exact (hv.only ht _).bind fun _ ↦ (hv.only ht _).bind fun _ ↦ .plain fun h ↦ by simp [h]
  | usingForDeclaration =>
    exact (hv.at? ht).bind fun _ ↦ Reads.textOf.build fun _ _ ↦ .plain fun h ↦ by simp [h]
  | structDefinition | enumDefinition =>
    exact Reads.textOf.build fun _ _ ↦ (hv.every ht _).bind fun _ ↦ .plain fun h ↦ by simp [h]
  | modifierDefinition =>
    exact (hv.onlyOr ht _).bind fun _ ↦ Reads.textOf.build fun _ _ ↦
      (hv.only ht _).bind fun _ ↦ .plain fun h ↦ by simp [h]
  | modifierInvocation => exact hv.modifierInvocation ht
  | functionDefinition => exact hv.functionDefinition ht
  | returnParameters => exact hv.only ht _
  | eventDefinition =>
    exact Reads.textOf.build fun _ _ ↦ (hv.only ht _).bind fun _ ↦ .plain fun h ↦ by simp [h]
  | parameterList => exact (hv.every ht _).bind fun _ ↦ .plain fun h ↦ by simp [h]
  | parameter | functionTypeParameter =>
    exact (hv.only_labelled ht rfl).bind fun _ ↦ .declared fun h ↦ by simp [h]
  | eventParameterList => exact hv.eventParameters ht
  | variableDeclaration =>
    exact (hv.only_labelled ht rfl).bind fun _ ↦ Reads.textOf.build fun _ _ ↦
      .declared fun h ↦ by simp [h]
  | _ => exact hv.visitLast ht

/-! ## Types -/

theorem functionTypeName :
    Ensures rs φ (Build.functionTypeName visit t) (Datum.Labelled rs) := by
  have hlists (i : Nat) (c : Tree) (hc : (all t .functionTypeParameterList)[i]? = some c) :
      Proper c := ht.child (mem_of_all (List.mem_of_getElem? hc))
  refine Reads.need.build fun first hfirst ↦ (hv.every (hlists 0 first hfirst) _).bind fun _ ↦ ?_
  split
  · next second hsecond =>
    exact (hv.every (hlists 1 second hsecond) _).bind fun _ ↦
      .labelled (by simp) fun h ↦ by simp [h]
  · exact .bind (.pure (Q := Datum.Below rs.size) fun _ ↦ by simp) fun _ ↦
      .labelled (by simp) fun h ↦ by simp [h]

omit hv ht in
theorem array {base length : Datum} (hbase : φ → base.Labelled rs)
    (hlength : φ → length.Labelled rs) :
    Ensures rs φ (record t "ArrayTypeName" [("baseTypeName", base), ("length", length)])
      (Datum.Labelled rs) := by
  refine .added_labelled (fun h ↦ .of_array ?_ (hbase h) (hlength h)) (.cons (by simp))
  simp [hbase h, hlength h]

theorem typeName (hterm : isTerm t) :
    Ensures rs φ (Build.typeName visit t) (Datum.Labelled rs) := by
  refine Reads.count.build fun n _ ↦ .ite (.ite ?_ ?_) (.ite ?_ (hv.at?_labelled ht hterm))
  · exact (hv.at?_labelled ht hterm).bind fun length ↦ (hv.at?_labelled ht hterm).bind fun base ↦
      array (·.2) (·.1.2)
  · -- An array without a length has nothing in its place.
    exact .bind (.pure (Q := Datum.Labelled rs) fun _ ↦ .null) fun length ↦
      (hv.at?_labelled ht hterm).bind fun base ↦ array (·.2) (·.1.2)
  · exact Reads.textAt.build fun _ _ ↦ Reads.textAt.build fun _ _ ↦
      .labelled (by simp) fun _ ↦ by simp

theorem typePart (hterm : isTerm t) (n : Nonterminal) :
    Ensures rs φ (Build.typePart visit t n) (Datum.Labelled rs) := by
  cases n with
  | typeName => exact hv.typeName ht hterm
  | userDefinedTypeName | elementaryTypeName => exact .labelled (by simp) fun _ ↦ by simp
  | mapping =>
    refine (hv.only_labelled ht rfl).bind fun key ↦ (hv.only_labelled ht rfl).bind fun value ↦
      .added_labelled (fun ⟨⟨_, hkey⟩, hvalue⟩ ↦ .of_mapping ?_ hkey hvalue) (.cons (by simp))
    simp [hkey, hvalue]
  | functionTypeName => exact hv.functionTypeName ht
  | _ => exact hv.visitLast_labelled ht hterm

/-! ## Expressions -/

omit hv ht in
theorem call {callee arguments names : Datum} (hcallee : φ → callee.Labelled rs)
    (harguments : φ → arguments.Below rs.size ∧ names.Below rs.size) :
    Ensures rs φ (record t "FunctionCall"
      [("expression", callee), ("arguments", arguments), ("names", names)])
      (Datum.Labelled rs) := by
  refine .added_labelled (fun h ↦ .of_call ?_ (hcallee h)) (.cons (by simp))
  simp [hcallee h, harguments h]

theorem expressionOfTwo : Ensures rs φ (Build.expressionOfTwo visit t) (Datum.Labelled rs) := by
  refine Reads.textAt.build fun _ _ ↦
    .ite ?_ (.ite ?_ (Reads.textAt.build fun _ _ ↦ .ite ?_ (.throw _)))
  · exact (hv.only ht _).bind fun _ ↦ .labelled (by simp) fun h ↦ by simp [h]
  · exact (hv.at? ht).bind fun _ ↦ .labelled (by simp) fun h ↦ by simp [h]
  · exact (hv.at? ht).bind fun _ ↦ .labelled (by simp) fun h ↦ by simp [h]

theorem expressionOfThree :
    Ensures rs φ (Build.expressionOfThree visit t) (Datum.Labelled rs) := by
  refine Reads.textAt.build fun _ _ ↦ Reads.textAt.build fun _ _ ↦ Reads.textAt.build fun _ _ ↦
    .ite ?_ (.ite ?_ (.ite ?_ (.ite ?_ (.throw _))))
  · exact (hv.at? ht).bind fun _ ↦ .labelled (by simp) fun h ↦ by simp [h]
  · exact (hv.at? ht).bind fun _ ↦ (hv.at? ht).bind fun _ ↦ .labelled (by simp) fun h ↦ by simp [h]
  · exact (hv.at? ht).bind fun _ ↦ .labelled (by simp) fun h ↦ by simp [h]
  · exact (hv.at? ht).bind fun _ ↦ (hv.at? ht).bind fun _ ↦ .labelled (by simp) fun h ↦ by simp [h]

theorem expressionOfFour (hterm : isTerm t) :
    Ensures rs φ (Build.expressionOfFour visit t) (Datum.Labelled rs) := by
  refine Reads.textAt.build fun _ _ ↦ Reads.textAt.build fun _ _ ↦ .ite ?_ (.ite ?_ (.throw _))
  · exact (hv.callArguments ht fun _ ↦ mem_of_one?).bind fun _ ↦
      (hv.at?_labelled ht hterm).bind fun _ ↦ call (·.2) (·.1.2)
  · exact (hv.at? ht).bind fun _ ↦ (hv.at? ht).bind fun _ ↦ .labelled (by simp) fun h ↦ by simp [h]

theorem expressionOfFive : Ensures rs φ (Build.expressionOfFive visit t) (Datum.Labelled rs) := by
  refine Reads.textAt.build fun _ _ ↦ Reads.textAt.build fun _ _ ↦ .ite ?_ (.throw _)
  exact (hv.at? ht).bind fun _ ↦ (hv.at? ht).bind fun _ ↦ (hv.at? ht).bind fun _ ↦
    .labelled (by simp) fun h ↦ by simp [h]

omit hv ht in
theorem arrayBase (r : Record) : Ensures rs φ (Build.arrayBase t r) (Datum.Labelled rs) := by
  rw [Build.arrayBase]
  split
  · next hname =>
    -- The name is taken from a record that was built before, and names in records are texts.
    refine .labelled (by simp) fun _ ↦ ?_
    simpa using Datum.below_of_isText _ (r.wellFormed.identifier hname)
  · exact Reads.textAt.build fun _ _ ↦ .labelled (by simp) fun _ ↦ by simp

omit hv ht in
theorem openArray {name : Datum} : Ensures rs φ (Build.openArray t name) (Datum.Labelled rs) := by
  refine Ensures.bind (P := fun _ ↦ True) ?_ fun r ↦ (arrayBase r).bind fun _ ↦
    array (·.2) fun _ ↦ .null
  cases name with
  | record id => exact Ensures.recordAt.mono fun _ _ _ ↦ trivial
  | _ => exact .throw _

theorem primaryExpression (hterm : isTerm t) :
    Ensures rs φ (Build.primaryExpression visit t) (Datum.Labelled rs) := by
  rw [Build.primaryExpression]
  split
  · exact .labelled (by simp) fun _ ↦ by simp
  split
  · next h => exact hv.labelled (ht.child (mem_of_one? h)) (isTerm_of_one? rfl h)
  split
  · exact .labelled (by simp) fun _ ↦ by simp
  · exact Reads.count.build fun _ _ ↦ (hv.at?_labelled ht hterm).bind fun _ ↦
      .ite openArray (.pure fun h ↦ h.2)

theorem tupleExpression :
    Ensures rs φ (Build.expressionPart visit t .tupleExpression) (Datum.Labelled rs) := by
  refine Reads.betweenCommas.build fun parts hparts ↦
    Ensures.bind (P := fun ds ↦ ∀ d ∈ ds, d.Below rs.size) (.mapM fun part hpart _ ↦ ?_) fun ds ↦
      Reads.textAt.build fun _ _ ↦ .labelled (by simp) fun h ↦ by simpa using h.2
  refine hv.visit? ht fun c hc ↦ ?_
  subst hc
  exact List.mem_of_mem_drop (List.mem_of_mem_dropLast (hparts c hpart))

theorem expressionPart (hterm : isTerm t) (n : Nonterminal) :
    Ensures rs φ (Build.expressionPart visit t n) (Datum.Labelled rs) := by
  cases n with
  | expression =>
    refine Reads.count.build fun n _ ↦ ?_
    split
    · exact hv.at?_labelled ht hterm
    · exact hv.expressionOfTwo ht
    · exact hv.expressionOfThree ht
    · exact hv.expressionOfFour ht hterm
    · exact hv.expressionOfFive ht
    · exact .throw _
  | primaryExpression => exact hv.primaryExpression ht hterm
  | functionCall =>
    exact (hv.callArguments ht fun _ ↦ mem_of_one?).bind fun _ ↦
      (hv.only_labelled ht rfl).bind fun _ ↦ call (·.2) (·.1.2)
  | tupleExpression => exact hv.tupleExpression ht
  | numberLiteral =>
    refine Reads.textAt.build fun _ _ ↦ Reads.count.build fun _ _ ↦ .ite ?_ ?_
    · exact Reads.textAt.build fun _ _ ↦
        .bind (.pure (Q := Datum.Below rs.size) fun _ ↦ by simp) fun _ ↦
        .labelled (by simp) fun h ↦ by simp [h]
    · exact Ensures.null.bind fun _ ↦ .labelled (by simp) fun h ↦ by simp [h]
  | identifier | hexLiteral | stringLiteral => exact .labelled (by simp) fun _ ↦ by simp
  | _ => exact hv.visitLast_labelled ht hterm

/-! ## Inline assembly -/

theorem assemblyNames : Ensures rs φ (Build.assemblyNames visit t) (Datum.Below rs.size) := by
  refine Reads.need.build fun names hnames ↦ ?_
  have hproper : Proper names := ht.child (mem_of_one? hnames)
  split
  · next hi =>
    exact (hv.below (hproper.child (mem_of_one? hi))).bind fun _ ↦ .pure fun h ↦ by simp [h]
  · exact Reads.need.build fun list hlist ↦ hv.every (hproper.child (mem_of_one? hlist)) _

theorem assemblyLiteral : Ensures rs φ (Build.assemblyLiteral visit t) (Datum.Below rs.size) := by
  rw [Build.assemblyLiteral]
  split
  · exact .plain fun _ ↦ by simp
  split
  · exact .plain fun _ ↦ by simp
  split
  · exact .plain fun _ ↦ by simp
  · exact hv.only ht _

theorem assemblyItem :
    Ensures rs φ (Build.assemblyPart visit t .assemblyItem) (Datum.Below rs.size) := by
  rw [Build.assemblyPart]
  split
  · next h => exact hv.below (ht.child (mem_of_one? h))
  · exact .plain fun _ ↦ by simp
  · split
    · exact .plain fun _ ↦ by simp
    · exact .plain fun _ ↦ by simp
    · exact hv.at? ht

theorem assemblyPart (n : Nonterminal) :
    Ensures rs φ (Build.assemblyPart visit t n) (Datum.Below rs.size) := by
  cases n with
  | assemblyBlock => exact (hv.every ht _).bind fun _ ↦ .plain fun h ↦ by simp [h]
  | assemblyItem => exact hv.assemblyItem ht
  | assemblyExpression => exact hv.at? ht
  | assemblyMember => exact .throw _
  | assemblyCall =>
    exact Reads.textAt.build fun _ _ ↦ (hv.every ht _).bind fun _ ↦ .plain fun h ↦ by simp [h]
  | assemblyLiteral => exact hv.assemblyLiteral ht
  | assemblySwitch =>
    exact (hv.only ht _).bind fun _ ↦ (hv.every ht _).bind fun _ ↦ .plain fun h ↦ by simp [h]
  | assemblyCase =>
    refine Reads.textAt.build fun _ _ ↦ .ite ?_ ?_
    · exact (hv.only ht _).bind fun _ ↦ (hv.only ht _).bind fun _ ↦ .plain fun h ↦ by simp [h]
    · exact Ensures.null.bind fun _ ↦ (hv.only ht _).bind fun _ ↦ .plain fun h ↦ by simp [h]
  | assemblyLocalDefinition | assemblyAssignment =>
    exact (hv.assemblyNames ht).bind fun _ ↦ (hv.only ht _).bind fun _ ↦
      .plain fun h ↦ by simp [h]
  | assemblyFunctionDefinition =>
    refine Reads.need.build fun parameters hparameters ↦ Reads.need.build fun returns hreturns ↦
      Reads.need.build fun results hresults ↦ Reads.textOf.build fun _ _ ↦ ?_
    have hresults := (ht.child (mem_of_one? hreturns)).child (mem_of_one? hresults)
    exact (hv.every (ht.child (mem_of_one? hparameters)) _).bind fun _ ↦
      (hv.every hresults _).bind fun _ ↦ (hv.only ht _).bind fun _ ↦ .plain fun h ↦ by simp [h]
  | labelDefinition | assemblyStackAssignment =>
    exact Reads.textOf.build fun _ _ ↦ .plain fun _ ↦ by simp
  | assemblyFor =>
    exact (hv.at? ht).bind fun _ ↦ (hv.at? ht).bind fun _ ↦ (hv.at? ht).bind fun _ ↦
      (hv.at? ht).bind fun _ ↦ .plain fun h ↦ by simp [h]
  | assemblyIf =>
    exact (hv.only ht _).bind fun _ ↦ (hv.only ht _).bind fun _ ↦ .plain fun h ↦ by simp [h]
  | _ => exact hv.visitLast ht

/-! ## All parts -/

theorem nodeOf (hn : n.isTerm → isTerm t) :
    Ensures rs φ (Build.nodeOf visit t n) (Datum.Below rs.size) := by
  unfold Build.nodeOf
  split
  all_goals first
    | exact (hv.typePart ht (hn rfl) _).mono fun _ _ ↦ Datum.Labelled.below
    | exact (hv.expressionPart ht (hn rfl) _).mono fun _ _ ↦ Datum.Labelled.below
    | exact hv.statementPart ht _
    | exact hv.assemblyPart ht _
    | exact hv.declarationPart ht _

theorem declarationPart_labelled (hn : n.isTerm) (hterm : isTerm t) :
    Ensures rs φ (Build.declarationPart visit t n) (Datum.Labelled rs) := by
  cases n with
  | functionTypeParameter =>
    refine (hv.only_labelled ht rfl).bind fun _ ↦
      .added_labelled (fun h ↦ .of_declaration ?_ (by simp) (by simp [h])) (.cons (by simp))
    simp [h]
  | _ => first
    | exact hv.visitLast_labelled ht hterm
    | cases hn

theorem nodeOf_labelled (hn : n.isTerm) (hterm : isTerm t) :
    Ensures rs φ (Build.nodeOf visit t n) (Datum.Labelled rs) := by
  unfold Build.nodeOf
  split
  all_goals first
    | exact hv.typePart ht hterm _
    | exact hv.expressionPart ht hterm _
    | exact hv.declarationPart_labelled ht hn hterm
    | cases hn

end Visits

/-- **Building a tree** adds sound records, and what it makes of a term has a label. -/
theorem visits_buildTree (rs : Array Fields) (height : Nat) : Visits rs (buildTree height) := by
  induction height with
  | zero =>
    refine ⟨fun {_ c} _ ↦ ?_, fun {_ c} _ _ ↦ ?_⟩
    · cases c with
      | leaf token => exact .null
      | node rule start stop children => exact .throw _
    · cases c with
      | leaf token => exact .pure fun _ ↦ .null
      | node rule start stop children => exact .throw _
  | succ height ih =>
    refine ⟨fun {_ c} hc ↦ ?_, fun {_ c} hc hterm ↦ ?_⟩
    · cases c with
      | leaf token => exact .null
      | node rule start stop children => exact ih.nodeOf hc id
    · cases c with
      | leaf token => exact .pure fun _ ↦ .null
      | node rule start stop children => exact ih.nodeOf_labelled hc hterm hterm

end Build

/-! ## Graphs -/

/-- **The graph of a tree** is sound, if types and expressions have no other parts in it. -/
theorem sound_of_build (ht : Proper t) {root : Nat} {records : Records}
    (h : build t = (.ok (.record root), records)) : Graph.Sound ⟨records.fields, root⟩ := by
  have hbuild : Build.Ensures records.fields True (buildTree (height t) t)
      (Datum.Below records.fields.size) := (Build.visits_buildTree _ _).below ht
  obtain ⟨-, hholds⟩ := hbuild {} (.record root) records h
  obtain ⟨hrecords, hroot⟩ := hholds trivial List.prefix_rfl (by simp [Records.fields])
  exact ⟨records.wellFormed_fields, Datum.below_record.mp hroot, hrecords⟩

/-- The graph of a source unit has a list of parts at its root. -/
theorem children_of_build (ht : Proper t) (hunit : t.isNode Nonterminal.sourceUnit.number)
    {root : Nat} {records : Records} (h : build t = (.ok (.record root), records)) :
    ∃ items, Fields.get (Graph.fields ⟨records.fields, root⟩ root) "children" = .list items := by
  cases t with
  | leaf token => cases hunit
  | node rule start stop children =>
    obtain rfl : rule = Nonterminal.sourceUnit.number := by simpa [Tree.isNode] using hunit
    -- The last record of the build is the one of the source unit itself.
    have hbuild : Build.Ensures records.fields True _ _ :=
      (Build.visits_buildTree records.fields (heights children)).sourceUnit ht
    obtain ⟨-, hholds⟩ := hbuild {} (.record root) records h
    obtain ⟨-, i, items, hroot, hi⟩ := hholds trivial List.prefix_rfl (by simp [Records.fields])
    cases hroot
    exact ⟨items, by rw [Graph.fields_of_getElem? hi]; rfl⟩

/-- A sound graph is plainly labelled: types and names in its records are texts. -/
theorem plainlyLabelled_of_sound {g : Graph} (hs : g.Sound)
    (hchildren : ∃ items, Fields.get (g.fields g.root) "children" = .list items) :
    g.PlainlyLabelled := by
  refine ⟨hs.root, hchildren, fun fs hfs ↦ ?_⟩
  have hsound := hs.records fs hfs
  have hwell := hs.wellFormed fs hfs
  refine ⟨hsound.below, Datum.plain_of_isTextOrNull hwell.type, fun hcall j callee hj hcallee ↦ ?_,
    fun h ↦ ⟨Datum.plain_of_isTextOrNull (hwell.declared h), hsound.declared h⟩,
    fun h ↦ Datum.plain_of_isText (hwell.userDefined h).1, hsound.mapping, hsound.array⟩
  have hlabelled := hsound.callee hcall
  rw [hj] at hlabelled
  cases hlabelled with
  | plain h => exact absurd rfl (h.ne_record j)
  | record hi hlabel =>
    rw [hcallee] at hi
    cases hi
    exact hlabel.name

/-- The graph with places is the graph without, and one more field in each record. -/
theorem placed_of_withPlaces {records : Records} {fields : Array Fields} {root : Nat}
    (hs : Graph.Sound ⟨records.fields, root⟩) (h : records.withPlaces = some fields) :
    Graph.Placed ⟨records.fields, root⟩ ⟨fields, root⟩ := by
  have hwell : Graph.WellFormed ⟨fields, root⟩ := records.wellFormed_withPlaces h
  simp only [Records.withPlaces, Option.pure_def, Option.bind_eq_bind, Option.bind_eq_some_iff,
    Option.some.injEq] at h
  obtain ⟨spans, -, rfl⟩ := h
  refine ⟨rfl, by simp, fun i hi ↦ ?_, fun i hi hempty ↦ ?_, fun i _ ↦ hwell.wellPlaced _⟩
  · have hi : i < records.fields.size := hi
    have hsound := hs.records _ (Array.getElem_mem hi)
    rw [Graph.fields, Graph.fields, Array.getD_eq_getD_getElem?, Array.getD_eq_getD_getElem?,
      Array.getElem?_append_left (by simpa using hi), Array.getElem?_mapIdx,
      Array.getElem?_eq_getElem hi, Option.map_some, Option.getD_some, Option.getD_some,
      List.filter_append, List.filter_eq_self.mpr fun f hf ↦ by simpa using hsound.unplaced f hf]
    simp
  · -- No record of the graph is empty.
    rw [Graph.fields_of_getElem? (Array.getElem?_eq_getElem hi)] at hempty
    exact absurd hempty (hs.records _ (Array.getElem_mem hi)).nonempty

end QuantumRisk.Solidity
