import QuantumRisk.Proofs.Ast.Placed

/-!
# What a build ensures

A build is a computation that can stop, with the records so far as its state. `Ensures` is the logic
for it. Records are never changed or taken away, so everything is said in terms of the records that
the whole build comes to in the end; a fact about them need not be carried from one state to the
next.

Much of a build only looks at the parse tree. What it sees there (`Reads`) is settled without any
records. Types and expressions have a property of their own: they have no other parts (`Proper`).
-/

namespace QuantumRisk

/-! ## Sound records -/

namespace Ast

/-- The fields of a record refer to given records, and to labelled ones where a record is read
through another; there is no place among them. -/
structure Fields.Sound (rs : Array Fields) (fs : Fields) : Prop where
  nonempty : fs ≠ []
  unplaced : ∀ f ∈ fs, f.1 ≠ "loc"
  below : ∀ f ∈ fs, f.2.Below rs.size
  callee : get fs "type" = .str "FunctionCall" → (get fs "expression").Labelled rs
  declared : get fs "type" = .str "VariableDeclaration" ∨ get fs "type" = .str "Parameter"
    ∨ get fs "type" = .str "EventParameter" → (get fs "typeName").Labelled rs
  mapping : get fs "type" = .str "Mapping" →
    (get fs "keyType").Labelled rs ∧ (get fs "valueType").Labelled rs
  array : get fs "type" = .str "ArrayTypeName" →
    (get fs "baseTypeName").Labelled rs ∧ (get fs "length").Labelled rs

structure Graph.Sound (g : Graph) : Prop where
  wellFormed : g.WellFormed
  root : g.root < g.records.size
  records : ∀ fs ∈ g.records, fs.Sound g.records

namespace Fields

variable {rs : Array Fields} {type : String} {fields : Fields}

/-- The types of records that others are read through. -/
@[simp] def readTypes : List String :=
  ["FunctionCall", "VariableDeclaration", "Parameter", "EventParameter", "Mapping", "ArrayTypeName"]

theorem get_nil (key : String) : get [] key = .null := rfl

theorem get_cons (key key' : String) (d : Datum) :
    get ((key', d) :: fields) key = if key' = key then d else get fields key := by
  by_cases h : key' = key <;> simp [get, get?, h]

theorem below_get {n : Nat} (h : ∀ f ∈ fields, f.2.Below n) (key : String) :
    (get fields key).Below n := by
  rw [get, get?]
  cases hfind : List.find? (fun f ↦ f.1 == key) fields with
  | none => exact Datum.below_null _
  | some f => exact h f (List.mem_of_find?_eq_some hfind)

theorem Labelled.cons (h : (get fields "name").isTextOrNull ∧ (get fields "number").isTextOrNull) :
    Labelled (("type", .str type) :: fields) := by
  constructor
  · simpa [get_cons] using Datum.plain_of_isTextOrNull h.1
  · simpa [get_cons] using Datum.plain_of_isTextOrNull h.2

namespace Sound

theorem cons (hfields : ∀ f ∈ fields, f.1 ≠ "loc" ∧ f.2.Below rs.size)
    (hcallee : type = "FunctionCall" → (get fields "expression").Labelled rs)
    (hdeclared : type = "VariableDeclaration" ∨ type = "Parameter" ∨ type = "EventParameter" →
      (get fields "typeName").Labelled rs)
    (hmapping : type = "Mapping" →
      (get fields "keyType").Labelled rs ∧ (get fields "valueType").Labelled rs)
    (harray : type = "ArrayTypeName" →
      (get fields "baseTypeName").Labelled rs ∧ (get fields "length").Labelled rs) :
    Sound rs (("type", .str type) :: fields) := by
  have htype {other : String} :
      get (("type", .str type) :: fields) "type" = .str other ↔ type = other := by
    simp [get_cons]
  have hget {key : String} (hkey : "type" ≠ key) :
      get (("type", .str type) :: fields) key = get fields key := by
    rw [get_cons, if_neg hkey]
  constructor
  · simp
  · exact List.forall_mem_cons.mpr ⟨by simp, fun f hf ↦ (hfields f hf).1⟩
  · exact List.forall_mem_cons.mpr ⟨Datum.below_str _ _, fun f hf ↦ (hfields f hf).2⟩
  · rw [htype, hget (by decide)]
    exact hcallee
  · rw [htype, htype, htype, hget (by decide)]
    exact hdeclared
  · rw [htype, hget (by decide), hget (by decide)]
    exact hmapping
  · rw [htype, hget (by decide), hget (by decide)]
    exact harray

theorem of_other (htype : type ∉ readTypes)
    (hfields : ∀ f ∈ fields, f.1 ≠ "loc" ∧ f.2.Below rs.size) :
    Sound rs (("type", .str type) :: fields) := by
  simp only [readTypes, List.mem_cons, List.not_mem_nil, or_false, not_or] at htype
  obtain ⟨hcall, hvariable, hparameter, hevent, hmapping, harray⟩ := htype
  refine cons hfields (fun h ↦ absurd h hcall) ?_ (fun h ↦ absurd h hmapping)
    fun h ↦ absurd h harray
  rintro (h | h | h)
  · exact absurd h hvariable
  · exact absurd h hparameter
  · exact absurd h hevent

theorem of_call (hfields : ∀ f ∈ fields, f.1 ≠ "loc" ∧ f.2.Below rs.size)
    (hcallee : (get fields "expression").Labelled rs) :
    Sound rs (("type", .str "FunctionCall") :: fields) :=
  cons hfields (fun _ ↦ hcallee) (by simp) (by simp) (by simp)

theorem of_declaration (hfields : ∀ f ∈ fields, f.1 ≠ "loc" ∧ f.2.Below rs.size)
    (htype : type ≠ "FunctionCall" ∧ type ≠ "Mapping" ∧ type ≠ "ArrayTypeName")
    (htypeName : (get fields "typeName").Labelled rs) :
    Sound rs (("type", .str type) :: fields) :=
  cons hfields (fun h ↦ absurd h htype.1) (fun _ ↦ htypeName) (fun h ↦ absurd h htype.2.1)
    fun h ↦ absurd h htype.2.2

theorem of_mapping (hfields : ∀ f ∈ fields, f.1 ≠ "loc" ∧ f.2.Below rs.size)
    (hkey : (get fields "keyType").Labelled rs) (hvalue : (get fields "valueType").Labelled rs) :
    Sound rs (("type", .str "Mapping") :: fields) :=
  cons hfields (by simp) (by simp) (fun _ ↦ ⟨hkey, hvalue⟩) (by simp)

theorem of_array (hfields : ∀ f ∈ fields, f.1 ≠ "loc" ∧ f.2.Below rs.size)
    (hbase : (get fields "baseTypeName").Labelled rs)
    (hlength : (get fields "length").Labelled rs) :
    Sound rs (("type", .str "ArrayTypeName") :: fields) :=
  cons hfields (by simp) (by simp) (by simp) fun _ ↦ ⟨hbase, hlength⟩

end Sound

end Fields

end Ast

namespace Solidity

open QuantumRisk.Grammar
open QuantumRisk.Ast (Datum Fields Graph)

/-! ## Types and expressions -/

/-- The nonterminals of types and expressions. -/
def Nonterminal.isTerm : Nonterminal → Bool
  | typeName | userDefinedTypeName | mappingKey | mapping | functionTypeName
  | functionTypeParameterList | functionTypeParameter | storageLocation | stateMutability
  | elementaryTypeName | expression | primaryExpression | expressionList | nameValueList | nameValue
  | functionCallArguments | tupleExpression | typeNameExpression | numberLiteral | identifier
  | hexLiteral | stringLiteral | functionCall => true
  | _ => false

/-- Is this a token, or a part of a type or an expression? -/
def isTerm : Tree → Bool
  | .leaf _ => true
  | .node rule _ _ _ => (Nonterminal.ofNumber rule).isTerm

/-- Types and expressions have no other parts. -/
inductive Proper : Tree → Prop
  | leaf (token : Token) : Proper (.leaf token)
  | node {rule : Nat} {start : Token} {stop : Option Token} {children : List Tree}
      (hparts : ∀ c ∈ children, Proper c)
      (hterm : (Nonterminal.ofNumber rule).isTerm → ∀ c ∈ children, isTerm c) :
      Proper (.node rule start stop children)

variable {t c : Tree} {n : Nonterminal}

theorem Proper.child (h : Proper t) (hc : c ∈ t.children) : Proper c := by
  cases h with
  | leaf token => cases hc
  | node hparts hterm => exact hparts c hc

theorem Proper.isTerm_child (h : Proper t) (ht : isTerm t) (hc : c ∈ t.children) : isTerm c := by
  cases h with
  | leaf token => cases hc
  | node hparts hterm => exact hterm ht c hc

namespace Part

theorem mem_of_one? (h : one? t n = some c) : c ∈ t.children := List.mem_of_find?_eq_some h

theorem mem_of_all (h : c ∈ all t n) : c ∈ t.children := (List.mem_filter.mp h).1

theorem isTerm_of_isNode (hn : n.isTerm) (h : c.isNode n.number = true) : isTerm c := by
  cases c with
  | leaf token => rfl
  | node rule start stop children =>
    obtain rfl : rule = n.number := by simpa [Tree.isNode] using h
    rw [isTerm, Nonterminal.ofNumber_number]
    exact hn

theorem isTerm_of_one? (hn : n.isTerm) (h : one? t n = some c) : isTerm c :=
  isTerm_of_isNode hn (List.find?_some h)

end Part

theorem Records.fields_push (s : Records) (r : Record) (spans : Array Span) :
    Records.fields ⟨s.complete.push r, spans⟩ = s.fields.push r.fields := by
  simp [Records.fields]

namespace Build

open QuantumRisk.Solidity.Part

attribute [local simp] Fields.get_nil Fields.get_cons Datum.Labelled.null

variable {α β : Type} {rs : Array Fields} {φ : Prop}

theorem exists_of_run_bind {x : Build α} {f : α → Build β} {s s'' : Records} {b : β}
    (h : (x >>= f).run.run s = (.ok b, s'')) :
    ∃ a s', x.run.run s = (.ok a, s') ∧ (f a).run.run s' = (.ok b, s'') := by
  rw [ExceptT.run_bind, StateT.run_bind] at h
  rcases hx : x.run.run s with ⟨_ | a, s'⟩
  · simp [hx] at h
    cases h
  · simp [hx] at h
    exact ⟨a, s', rfl, h⟩

/-- A build that succeeds adds records. Seen from the records `rs` that the whole comes to in the
end: if `φ` holds, then sound records are added only, and the result has the property `Q`. -/
def Ensures (rs : Array Fields) (φ : Prop) (x : Build α) (Q : α → Prop) : Prop :=
  ∀ s a s', x.run.run s = (.ok a, s') → s.fields.toList <+: s'.fields.toList ∧
    (φ → s'.fields.toList <+: rs.toList → (∀ fs ∈ s.fields, fs.Sound rs) →
      (∀ fs ∈ s'.fields, fs.Sound rs) ∧ Q a)

namespace Ensures

variable {x : Build α} {f : α → Build β} {P Q : α → Prop} {R : β → Prop}

protected theorem pure {a : α} (h : φ → Q a) : Ensures rs φ (pure a) Q := by
  intro s b s' hrun
  cases hrun
  exact ⟨List.prefix_rfl, fun hφ _ hs ↦ ⟨hs, h hφ⟩⟩

protected theorem throw (e : BuildFault) : Ensures rs φ (throw e : Build α) Q := by
  intro s b s' hrun
  cases hrun

protected theorem bind (hx : Ensures rs φ x P) (hf : ∀ a, Ensures rs (φ ∧ P a) (f a) R) :
    Ensures rs φ (x >>= f) R := by
  intro s b s'' hrun
  obtain ⟨a, s', hrun, hrun'⟩ := exists_of_run_bind hrun
  -- The records in between are among those in the end, so `x` can be judged by the latter.
  obtain ⟨hgrow, hholds⟩ := hx s a s' hrun
  obtain ⟨hgrow', hholds'⟩ := hf a s' b s'' hrun'
  refine ⟨hgrow.trans hgrow', fun hφ hrs hs ↦ ?_⟩
  obtain ⟨hs', ha⟩ := hholds hφ (hgrow'.trans hrs) hs
  exact hholds' ⟨hφ, ha⟩ hrs hs'

theorem mono (hx : Ensures rs φ x P) (h : φ → ∀ a, P a → Q a) : Ensures rs φ x Q := by
  intro s a s' hrun
  obtain ⟨hgrow, hholds⟩ := hx s a s' hrun
  refine ⟨hgrow, fun hφ hrs hs ↦ ?_⟩
  obtain ⟨hs', ha⟩ := hholds hφ hrs hs
  exact ⟨hs', h hφ a ha⟩

theorem null : Ensures rs φ (pure .null) (Datum.Below rs.size) := .pure fun _ ↦ Datum.below_null _

protected theorem ite {c : Prop} [Decidable c] {y : Build α} (hx : Ensures rs φ x Q)
    (hy : Ensures rs φ y Q) : Ensures rs φ (if c then x else y) Q := by
  split
  · exact hx
  · exact hy

protected theorem mapM {xs : List α} {P : β → Prop} (h : ∀ a ∈ xs, ∀ φ, Ensures rs φ (f a) P) :
    Ensures rs φ (xs.mapM f) fun bs ↦ ∀ b ∈ bs, P b := by
  induction xs generalizing φ with
  | nil => exact .pure fun _ ↦ by simp
  | cons a xs ih =>
    obtain ⟨ha, hxs⟩ := List.forall_mem_cons.mp h
    rw [List.mapM_cons]
    exact (ha φ).bind fun b ↦ (ih hxs).bind fun bs ↦ .pure fun ⟨⟨_, hb⟩, hbs⟩ ↦
      List.forall_mem_cons.mpr ⟨hb, hbs⟩

/-- A record is added. -/
theorem record_added {type : String} {fields : Fields} {wellFormed}
    (h : φ → Fields.Sound rs (("type", .str type) :: fields)) :
    Ensures rs φ (record t type fields wellFormed) fun d ↦
      ∃ i, d = .record i ∧ rs[i]? = some (("type", .str type) :: fields) := by
  intro s a s' hrun
  cases hrun
  rw [Records.fields_push, Array.toList_push]
  refine ⟨List.prefix_append _ _, fun hφ hrs hs ↦ ⟨fun fs hfs ↦ ?_, _, rfl, ?_⟩⟩
  · rcases Array.mem_push.mp hfs with hfs | rfl
    · exact hs fs hfs
    · exact h hφ
  · obtain ⟨rest, hrest⟩ := hrs
    rw [← Array.getElem?_toList, ← hrest, List.append_assoc, List.singleton_append,
      List.getElem?_append_right (by simp [Records.fields])]
    simp [Records.fields]

theorem recordAt {id : Nat} :
    Ensures rs φ (recordAt id) fun r ↦ ∀ f ∈ r.fields, f.2.Below rs.size := by
  intro s r s' hrun
  cases hrun
  refine ⟨List.prefix_rfl, fun _ _ hs ↦ ⟨hs, ?_⟩⟩
  rw [Array.getD_eq_getD_getElem?]
  cases hr : s.complete[id]? with
  | none => simp
  | some r => exact (hs r.fields (Array.mem_map.mpr ⟨r, Array.mem_of_getElem? hr, rfl⟩)).below

theorem added {type : String} {fields : Fields} {wellFormed}
    (h : φ → Fields.Sound rs (("type", .str type) :: fields)) :
    Ensures rs φ (record t type fields wellFormed) (Datum.Below rs.size) :=
  (record_added h).mono fun _ _ ⟨_, hd, hi⟩ ↦
    hd ▸ Datum.below_record.mpr (Array.getElem?_eq_some_iff.mp hi).1

theorem added_labelled {type : String} {fields : Fields} {wellFormed}
    (h : φ → Fields.Sound rs (("type", .str type) :: fields))
    (hlabel : Fields.Labelled (("type", .str type) :: fields)) :
    Ensures rs φ (record t type fields wellFormed) (Datum.Labelled rs) :=
  (record_added h).mono fun _ _ ⟨_, hd, hi⟩ ↦ hd ▸ .record hi hlabel

/-- A record is added that no other is read through. -/
theorem plain {type : String} {fields : Fields} {wellFormed}
    (h : φ → type ∉ Fields.readTypes ∧ ∀ f ∈ fields, f.1 ≠ "loc" ∧ f.2.Below rs.size) :
    Ensures rs φ (record t type fields wellFormed) (Datum.Below rs.size) :=
  added fun hφ ↦ .of_other (h hφ).1 (h hφ).2

/-- A record with a label is added that no other is read through. -/
theorem labelled {type : String} {fields : Fields} {wellFormed}
    (hlabel : (Fields.get fields "name").isTextOrNull ∧ (Fields.get fields "number").isTextOrNull)
    (h : φ → type ∉ Fields.readTypes ∧ ∀ f ∈ fields, f.1 ≠ "loc" ∧ f.2.Below rs.size) :
    Ensures rs φ (record t type fields wellFormed) (Datum.Labelled rs) :=
  added_labelled (fun hφ ↦ .of_other (h hφ).1 (h hφ).2) (.cons hlabel)

/-- A declaration is added. -/
theorem declared {type : String} {fields : Fields} {wellFormed}
    (h : φ → (type ≠ "FunctionCall" ∧ type ≠ "Mapping" ∧ type ≠ "ArrayTypeName") ∧
      (∀ f ∈ fields, f.1 ≠ "loc" ∧ f.2.Below rs.size) ∧
      (Fields.get fields "typeName").Labelled rs) :
    Ensures rs φ (record t type fields wellFormed) (Datum.Below rs.size) :=
  added fun hφ ↦ .of_declaration (h hφ).2.1 (h hφ).1 (h hφ).2.2

end Ensures

/-! ## Reading a parse tree -/

/-- A computation that looks at the parse tree only. If it comes to a result, this has the property
`P`. -/
def Reads (x : Build α) (P : α → Prop) : Prop :=
  ∀ s a s', x.run.run s = (.ok a, s') → s' = s ∧ P a

namespace Reads

variable {x : Build α} {f : α → Build β} {P : α → Prop} {R : β → Prop}
variable {part : Option Tree} {what : String} {i : Nat}

protected theorem pure {a : α} (h : P a) : Reads (pure a) P := by
  intro s b s' hrun
  cases hrun
  exact ⟨rfl, h⟩

protected theorem throw (e : BuildFault) : Reads (throw e : Build α) P := by
  intro s b s' hrun
  cases hrun

protected theorem bind (hx : Reads x P) (hf : ∀ a, P a → Reads (f a) R) : Reads (x >>= f) R := by
  intro s b s'' hrun
  obtain ⟨a, s', hrun, hrun'⟩ := exists_of_run_bind hrun
  obtain ⟨rfl, ha⟩ := hx s a s' hrun
  exact hf a ha s' b s'' hrun'

/-- Build with what was read. -/
theorem build (hx : Reads x P) (hf : ∀ a, P a → Ensures rs φ (f a) R) :
    Ensures rs φ (x >>= f) R := by
  intro s b s'' hrun
  obtain ⟨a, s', hrun, hrun'⟩ := exists_of_run_bind hrun
  obtain ⟨rfl, ha⟩ := hx s a s' hrun
  exact hf a ha s' b s'' hrun'

theorem need : Reads (Part.need part what) fun c ↦ part = some c := by
  cases part with
  | none => exact .throw _
  | some c => exact .pure rfl

theorem textOf : Reads (Part.textOf part) fun _ ↦ True :=
  need.bind fun _ _ ↦ .pure trivial

theorem count : Reads (Part.count t) fun _ ↦ True := by
  rw [Part.count]
  split
  · exact .throw _
  · exact .pure trivial

theorem index : Reads (Part.index t i) fun part ↦ part = t.children[i]? :=
  count.bind fun _ _ ↦ .pure rfl

theorem textAt : Reads (Part.textAt t i) fun _ ↦ True :=
  index.bind fun _ _ ↦ textOf

theorem betweenCommas_go (parts : List Tree) (gap : Bool) :
    Reads (Part.betweenCommas.go parts gap) fun items ↦ ∀ c, some c ∈ items → c ∈ parts := by
  induction parts generalizing gap with
  | nil => cases gap <;> exact .pure (by simp)
  | cons c parts ih =>
    cases gap with
    | true =>
      rw [Part.betweenCommas.go]
      split
      · exact (ih true).bind fun items hitems ↦ .pure (by grind)
      · exact (ih false).bind fun items hitems ↦ .pure (by grind)
    | false =>
      rw [Part.betweenCommas.go]
      split
      · intro s items s' hrun
        obtain ⟨hs, hitems⟩ := ih true s items s' hrun
        exact ⟨hs, fun c hc ↦ List.mem_cons_of_mem _ (hitems c hc)⟩
      · exact .throw _

theorem betweenCommas {parts : List Tree} :
    Reads (Part.betweenCommas parts) fun items ↦ ∀ c, some c ∈ items → c ∈ parts := by
  rw [Part.betweenCommas]
  split
  · exact .pure (by simp)
  · exact betweenCommas_go parts true

end Reads

@[simp] theorem below_textOf? (n : Nat) (part : Option Tree) : (textOf? part).Below n := by
  cases part
  · exact Datum.below_null n
  · exact Datum.below_str n _

@[simp] theorem below_optText (n : Nat) (text : Option String) : (optText text).Below n := by
  cases text
  · exact Datum.below_null n
  · exact Datum.below_str n _

end Build

end Solidity

end QuantumRisk
