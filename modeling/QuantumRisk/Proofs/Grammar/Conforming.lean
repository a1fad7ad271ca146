import QuantumRisk.Grammar.Parser
import QuantumRisk.Proofs.Grammar.Parts

/-!
# Parse trees conform to the grammar

However much is dropped, made up or skipped, the parts of a node are tokens and nodes of rules that
its own rule calls. What is missing or misplaced does not matter; nothing foreign gets in.

A parse keeps the rules that are being read as a stack of frames with the parts read so far. What
holds of the frames is said by `Kept`: they belong to the rules that were called, and their parts
belong to them. Looking at tokens, reporting and repairing only ever add tokens, so they keep it. A
call puts a frame on the stack, and its end makes the frame a part of the one below.
-/

namespace QuantumRisk.Grammar

/-! ## Trees and frames -/

section Trees

variable (may : Nat → Nat → Bool)

/-- May the tree be a part of a node of rule `r`? -/
def Tree.belongs (r : Nat) : Tree → Bool
  | .leaf _ => true
  | .node q _ _ _ => may r q

/-- All nodes have only parts that they may have. -/
inductive Tree.Conforms : Tree → Prop
  | leaf (token : Token) : Conforms (.leaf token)
  | node {rule : Nat} {start : Token} {stop : Option Token} {children : List Tree}
      (hparts : ∀ c ∈ children, Conforms c) (hmay : ∀ c ∈ children, c.belongs may rule) :
      Conforms (.node rule start stop children)

/-- The frames belong to the rules, innermost first, and their parts belong to them. -/
structure Kept (rules : List Nat) (frames : List Frame) : Prop where
  rules_eq : frames.map (·.rule) = rules
  parts : ∀ f ∈ frames, ∀ c ∈ f.children, c.Conforms may ∧ c.belongs may f.rule

/-- What a parse of rule `q` leaves. -/
def Finished (q : Nat) (frames : List Frame) : Prop :=
  ∀ f ∈ frames, ∀ t ∈ f.children, t.isNode q ∧ t.Conforms may

end Trees

variable {may : Nat → Nat → Bool} {rules : List Nat} {r : Nat}

namespace Kept

variable {f : Frame} {fs : List Frame} {t : Tree}

theorem add (h : Kept may rules (f :: fs)) (ht : t.Conforms may) (hmay : t.belongs may f.rule) :
    Kept may rules ({ f with children := t :: f.children } :: fs) := by
  refine ⟨h.rules_eq, fun f' hf' c hc ↦ ?_⟩
  rcases List.mem_cons.mp hf' with rfl | hf'
  · rcases List.mem_cons.mp hc with rfl | hc
    · exact ⟨ht, hmay⟩
    · exact h.parts f List.mem_cons_self c hc
  · exact h.parts f' (List.mem_cons_of_mem f hf') c hc

theorem replace (h : Kept may rules (f :: fs)) (ht : t.Conforms may)
    (hmay : t.belongs may f.rule) : Kept may rules ({ f with children := [t] } :: fs) := by
  refine ⟨h.rules_eq, fun f' hf' c hc ↦ ?_⟩
  rcases List.mem_cons.mp hf' with rfl | hf'
  · rw [List.mem_singleton.mp hc]
    exact ⟨ht, hmay⟩
  · exact h.parts f' (List.mem_cons_of_mem f hf') c hc

/-- The node of the innermost frame. -/
theorem node (h : Kept may rules (f :: fs)) (stop : Option Token) :
    (Tree.node f.rule f.start stop f.children.reverse).Conforms may :=
  .node (fun c hc ↦ (h.parts f List.mem_cons_self c (List.mem_reverse.mp hc)).1)
    fun c hc ↦ (h.parts f List.mem_cons_self c (List.mem_reverse.mp hc)).2

theorem push (h : Kept may rules fs) (caller : Option Nat) (start : Token) :
    Kept may (r :: rules) ({ rule := r, caller, start } :: fs) := by
  refine ⟨congrArg (r :: ·) h.rules_eq, fun f hf c hc ↦ ?_⟩
  rcases List.mem_cons.mp hf with rfl | hf
  · cases hc
  · exact h.parts f hf c hc

theorem tail (h : Kept may (r :: rules) (f :: fs)) : Kept may rules fs :=
  ⟨(List.cons.inj h.rules_eq).2, fun f' hf' ↦ h.parts f' (List.mem_cons_of_mem f hf')⟩

theorem rule_eq (h : Kept may (r :: rules) (f :: fs)) : f.rule = r := (List.cons.inj h.rules_eq).1

theorem exists_cons {frames : List Frame} (h : Kept may (r :: rules) frames) :
    ∃ f fs, frames = f :: fs :=
  List.exists_cons_of_ne_nil fun hnil ↦ by simpa [hnil] using h.rules_eq

end Kept

/-! ## Computations -/

/-- A computation leads from frames with `P` to frames with `Q`. -/
def Parser.Leads {α : Type} (P Q : List Frame → Prop) (x : Parser α) : Prop :=
  ∀ st, P st.frames → Q (x.run st).2.frames

/-- A computation that may end its rule leads from frames with `P` to frames with `Q`, whether it
ends the rule or not. -/
def Attempt.Leads {α : Type} (P Q : List Frame → Prop) (x : Attempt α) : Prop :=
  Parser.Leads P Q x.run

section Rules

variable {α β : Type} {P Q R : List Frame → Prop}

namespace Parser.Leads

variable {x : Parser α} {f : α → Parser β}

protected theorem pure (a : α) : Leads P P (pure a) := fun _ h ↦ h

protected theorem get : Leads P P get := fun _ h ↦ h

protected theorem modify {f : ParserState → ParserState} (h : ∀ st, (f st).frames = st.frames) :
    Leads P P (modify f) := fun st hP ↦ (congrArg P (h st)).mpr hP

protected theorem bind (hx : Leads P Q x) (hf : ∀ a, Leads Q R (f a)) : Leads P R (x >>= f) :=
  fun st h ↦ hf _ _ (hx st h)

protected theorem ite {c : Prop} [Decidable c] {y : Parser α} (hx : Leads P Q x)
    (hy : Leads P Q y) : Leads P Q (if c then x else y) := by
  split
  · exact hx
  · exact hy

end Parser.Leads

namespace Attempt.Leads

variable {x : Attempt α} {f : α → Attempt β}

protected theorem pure (a : α) : Leads P P (pure a) := fun _ h ↦ h

protected theorem throw (e : Fault) : Leads P P (throw e : Attempt α) := fun _ h ↦ h

protected theorem get : Leads P P (get : Attempt ParserState) := fun _ h ↦ h

protected theorem modify {f : ParserState → ParserState} (h : ∀ st, (f st).frames = st.frames) :
    Leads P P (modify f : Attempt Unit) := fun st hP ↦ (congrArg P (h st)).mpr hP

protected theorem lift {x : Parser α} (hx : Parser.Leads P Q x) :
    Leads P Q (liftM x : Attempt α) := fun st h ↦ hx st h

protected theorem bind (hx : Leads P P x) (hf : ∀ a, Leads P P (f a)) : Leads P P (x >>= f) := by
  rw [Leads, ExceptT.run_bind]
  refine Parser.Leads.bind hx fun result ↦ ?_
  cases result with
  | ok a => exact hf a
  | error e => exact .pure _

protected theorem ite {c : Prop} [Decidable c] {y : Attempt α} (hx : Leads P Q x)
    (hy : Leads P Q y) : Leads P Q (if c then x else y) := by
  split
  · exact hx
  · exact hy

end Attempt.Leads

end Rules

/-! ## Looking, reporting and repairing -/

/-- A computation that leaves the rules as they are and adds only what belongs to them. -/
abbrev Parser.Keeps {α : Type} (may : Nat → Nat → Bool) (rules : List Nat) (x : Parser α) : Prop :=
  Leads (Kept may rules) (Kept may rules) x

namespace Parser.Keeps

theorem run_modify (f : ParserState → ParserState) (st : ParserState) :
    ((modify f : Parser Unit).run st).2 = f st := rfl

theorem discover (i : Nat) : Keeps may rules (discover i) := by
  refine .modify fun st ↦ ?_
  dsimp only
  split <;> rfl

theorem tokenAt (i : Nat) : Keeps may rules (tokenAt i) := .bind .get fun _ ↦ .pure _

theorem current : Keeps may rules current := .bind .get fun _ ↦ tokenAt _

theorem upcoming : Keeps may rules upcoming :=
  .bind .get fun _ ↦ .bind current fun _ ↦
    .ite (.pure _) (.bind (discover _) fun _ ↦ tokenAt _)

theorem previous : Keeps may rules previous := .bind .get fun _ ↦ .ite (.pure _) (.pure _)

theorem lookAt (s : Nat) : Keeps may rules (lookAt s) := .bind .get fun _ ↦ .pure _

theorem expected (tables : Tables) (s : Nat) : Keeps may rules (expected tables s) :=
  .bind .get fun _ ↦ .bind (lookAt s) fun _ ↦ .pure _

theorem reachable (tables : Tables) (s : Nat) : Keeps may rules (reachable tables s) :=
  .bind .get fun _ ↦ .pure _

theorem awaited (tables : Tables) : Keeps may rules (awaited tables) := .bind .get fun _ ↦ .pure _

theorem report (t : Token) (message : String) : Keeps may rules (report t message) :=
  .modify fun _ ↦ rfl

theorem unlessRecovering {act : Parser Unit} (h : Keeps may rules act) :
    Keeps may rules (unlessRecovering act) :=
  .bind .get fun _ ↦ .ite (.bind (.modify fun _ ↦ rfl) fun _ ↦ h) (.pure _)

theorem recovered : Keeps may rules recovered := .modify fun _ ↦ rfl

theorem reportUnwanted (tables : Tables) : Keeps may rules (reportUnwanted tables) :=
  unlessRecovering <| .bind current fun _ ↦ .bind .get fun _ ↦ .bind (expected tables _) fun _ ↦
    report _ _

theorem reportMissing (tables : Tables) : Keeps may rules (reportMissing tables) :=
  unlessRecovering <| .bind current fun _ ↦ .bind .get fun _ ↦ .bind (expected tables _) fun _ ↦
    report _ _

theorem reportFault (tables : Tables) (e : Fault) : Keeps may rules (reportFault tables e) := by
  cases e with
  | mismatch =>
    exact unlessRecovering <| .bind current fun _ ↦ .bind .get fun _ ↦
      .bind (expected tables _) fun _ ↦ report _ _
  | noBranch start offending =>
    exact unlessRecovering <| .ite (.bind (.pure _) fun _ ↦ report _ _)
      (.bind .get fun _ ↦ .bind (discover _) fun _ ↦ .bind (.pure _) fun _ ↦ report _ _)
  | tooLoose level => exact unlessRecovering <| .bind current fun _ ↦ report _ _
  | exhausted => exact .modify fun _ ↦ rfl

/-- A part goes to the innermost frame. -/
theorem attach {t : Tree} (ht : t.Conforms may) (hmay : ∀ r ∈ rules.head?, t.belongs may r) :
    Keeps may rules (attach t) := by
  intro st h
  rw [Parser.attach, run_modify]
  split
  · next f fs hframes =>
    rw [hframes] at h
    refine h.add ht (hmay f.rule ?_)
    rw [← h.rules_eq, List.map_cons, List.head?_cons]
    rfl
  · exact h

theorem attach_leaf (token : Token) : Keeps may rules (Parser.attach (.leaf token)) :=
  attach (.leaf token) fun _ _ ↦ rfl

theorem consume : Keeps may rules consume :=
  .bind current fun _ ↦ .ite
    (.bind .get fun _ ↦ .bind (discover _) fun _ ↦ .bind (.modify fun _ ↦ rfl) fun _ ↦
      attach_leaf _)
    (attach_leaf _)

theorem skipTo (set : KindSet) : Keeps may rules (skipTo set) := by
  refine .bind .get fun st ↦ ?_
  induction st.input.tokens.size - st.cursor with
  | zero => exact .pure _
  | succ n ih => exact .bind current fun _ ↦ .ite (.pure _) (.bind consume fun _ ↦ ih)

theorem dropUnwanted (tables : Tables) : Keeps may rules (dropUnwanted tables) :=
  .bind upcoming fun _ ↦ .bind .get fun _ ↦ .bind (expected tables _) fun _ ↦ .ite
    (.bind (reportUnwanted tables) fun _ ↦ .bind consume fun _ ↦ .bind recovered fun _ ↦ .pure _)
    (.pure _)

theorem fitsBehind (tables : Tables) : Keeps may rules (fitsBehind tables) := by
  refine .bind .get fun st ↦ .bind current fun t ↦ ?_
  split
  · exact .bind (reachable tables _) fun _ ↦ .pure _
  · exact .pure _

theorem abandon (tables : Tables) : Keeps may rules (abandon tables) := by
  have hskip : Keeps may rules (do
      modify fun st ↦ { st with lastError := some st.cursor,
                                lastErrorStates := st.state :: st.lastErrorStates }
      Parser.skipTo (← Parser.awaited tables)) :=
    .bind (.modify fun _ ↦ rfl) fun _ ↦ .bind (awaited tables) fun _ ↦ skipTo _
  exact .bind .get fun _ ↦ .ite (.bind consume fun _ ↦ hskip) hskip

theorem moveTo (s : Nat) : Keeps may rules (moveTo s) := .modify fun _ ↦ rfl

theorem run_previous (st : ParserState) : (Parser.previous.run st).2 = st := by
  simp only [Parser.previous, StateT.run_bind, StateT.run_get, pure_bind]
  split <;> rfl

theorem exists_run_finish (f : Frame) (st : ParserState) : ∃ stop,
    (finish f).run st = (.node f.rule f.start stop f.children.reverse, st) := by
  refine ⟨(Parser.previous.run st).1, ?_⟩
  nth_rewrite 3 [← run_previous st]
  rfl

/-- What was read so far becomes a part of a node of the same rule. -/
theorem extend (hself : may r r) : Keeps may (r :: rules) extend := by
  intro st h
  obtain ⟨f, fs, hframes⟩ := h.exists_cons
  obtain ⟨stop, hfinish⟩ := exists_run_finish f st
  rw [hframes] at h
  have hrun : (Parser.extend.run st).2.frames
      = { f with children := [.node f.rule f.start stop f.children.reverse] } :: fs := by
    simp only [Parser.extend, StateT.run_bind, StateT.run_get, pure_bind, hframes, hfinish]
    rfl
  rw [hrun]
  exact h.replace (h.node stop) (h.rule_eq ▸ hself)

end Parser.Keeps

/-- The same of a computation that may end its rule. -/
abbrev Attempt.Keeps {α : Type} (may : Nat → Nat → Bool) (rules : List Nat) (x : Attempt α) :
    Prop :=
  Leads (Kept may rules) (Kept may rules) x

namespace Attempt.Keeps

theorem repair (tables : Tables) (leaf : Bool) : Keeps may rules (Parser.repair tables leaf) :=
  .bind (.lift (Parser.Keeps.dropUnwanted tables)) fun _ ↦ .ite (.lift Parser.Keeps.consume)
    (.bind (.lift (Parser.Keeps.fitsBehind tables)) fun _ ↦ .ite
      (.bind (.lift (Parser.Keeps.reportMissing tables)) fun _ ↦ .ite
        (.bind .get fun _ ↦ .bind (.lift Parser.Keeps.current) fun _ ↦
          .bind (.lift (Parser.Keeps.expected tables _)) fun _ ↦
            .bind (.lift Parser.Keeps.previous) fun _ ↦ .lift (Parser.Keeps.attach_leaf _))
        (.pure _))
      (.throw _))

theorem sync (tables : Tables) : Keeps may rules (Parser.sync tables) := by
  refine .bind .get fun st ↦ .ite (.pure _) (.bind (.lift (Parser.Keeps.lookAt _)) fun look ↦
    .bind (.lift Parser.Keeps.current) fun t ↦ .ite (.pure _) ?_)
  have hdrop : Keeps may rules (do
      if ← Parser.dropUnwanted tables then return
      throw .mismatch) :=
    .bind (.lift (Parser.Keeps.dropUnwanted tables)) fun _ ↦ .ite (.pure _) (.throw _)
  have hskip : Keeps may rules (do
      Parser.reportUnwanted tables
      let set := look.kinds.union (← Parser.awaited tables)
      modify fun st ↦
        { st with expectations := st.expectations.insert st.state { look with kinds := set } }
      Parser.skipTo set) :=
    .bind (.lift (Parser.Keeps.reportUnwanted tables)) fun _ ↦
      .bind (.lift (Parser.Keeps.awaited tables)) fun _ ↦ .bind (.modify fun _ ↦ rfl) fun _ ↦
        .lift (Parser.Keeps.skipTo _)
  split
  · exact hdrop
  · exact hdrop
  · exact hdrop
  · exact hdrop
  · exact hskip
  · exact hskip
  · exact .pure _

theorem predict (tables : Tables) (s : Nat) : Keeps may rules (Parser.predict tables s) := by
  refine .bind .get fun st ↦ ?_
  dsimp only
  refine .bind (.modify fun _ ↦ rfl) fun _ ↦ .bind (.lift (Parser.Keeps.discover _)) fun _ ↦ ?_
  split
  · exact .pure _
  · exact .bind (.lift Parser.Keeps.current) fun _ ↦
      .bind (.lift (Parser.Keeps.tokenAt _)) fun _ ↦ .throw _

theorem choose (tables : Tables) (s : Nat) : Keeps may rules (Parser.choose tables s) := by
  unfold Parser.choose
  split
  · exact .bind (.lift Parser.Keeps.current) fun _ ↦ .pure _
  · exact predict tables s

end Attempt.Keeps

/-! ## Rules -/

namespace Parser

variable {tables : Tables} {procedure : Procedure} {caller : Option Nat} {q level fuel : Nat}

theorem leads_enter :
    Leads (Kept may rules) (Kept may (q :: rules)) (enter procedure caller q level) :=
  .bind Keeps.current fun start _ h ↦ h.push caller start

/-- The node of a rule becomes a part of the rule that called it. -/
theorem leads_leave (hmay : may r q) :
    Leads (Kept may (q :: r :: rules)) (Kept may (r :: rules)) (leave procedure caller) := by
  intro st h
  obtain ⟨f, fs, hframes⟩ := h.exists_cons
  rw [hframes] at h
  obtain ⟨g, gs, rfl⟩ := h.tail.exists_cons
  obtain ⟨stop, hfinish⟩ := Keeps.exists_run_finish f st
  have hrun : ((leave procedure caller).run st).2.frames =
      { g with children := .node f.rule f.start stop f.children.reverse :: g.children } :: gs := by
    simp only [leave, StateT.run_bind, StateT.run_get, pure_bind, hframes, hfinish]
    rfl
  rw [hrun]
  refine h.tail.add (h.node stop) ?_
  rw [Tree.belongs, h.rule_eq, h.tail.rule_eq]
  exact hmay

/-- The node of the rule that the parse started with is the tree. -/
theorem leads_leave_last : Leads (Kept may [q]) (Finished may q) (leave procedure caller) := by
  intro st h
  obtain ⟨f, fs, hframes⟩ := h.exists_cons
  rw [hframes] at h
  obtain rfl : fs = [] := List.map_eq_nil_iff.mp h.tail.rules_eq
  obtain ⟨stop, hfinish⟩ := Keeps.exists_run_finish f st
  have hrun : ((leave procedure caller).run st).2.frames
      = [{ f with children := [.node f.rule f.start stop f.children.reverse] }] := by
    simp only [leave, StateT.run_bind, StateT.run_get, pure_bind, hframes, hfinish]
    rfl
  rw [hrun]
  intro f' hf' t ht
  rw [List.mem_singleton.mp hf'] at ht
  rw [List.mem_singleton.mp ht]
  exact ⟨by rw [Tree.isNode, h.rule_eq, beq_self_eq_true], h.node stop⟩

theorem leads_runRule {Q : List Frame → Prop}
    (hsteps : Attempt.Keeps may (q :: rules)
      (runSteps tables fuel (tables.net.procedure q).steps))
    (hleave : Leads (Kept may (q :: rules)) Q (leave (tables.net.procedure q) caller)) :
    Leads (Kept may rules) Q (runRule tables (fuel + 1) caller q level) := by
  rw [runRule]
  refine .bind leads_enter fun _ ↦ .bind hsteps fun result ↦ ?_
  cases result with
  | ok _ => exact hleave
  | error e =>
    -- A rule that cannot go on has parts nevertheless, and skipping adds tokens to them.
    exact .bind (Keeps.reportFault tables e) fun _ ↦ .bind (Keeps.abandon tables) fun _ ↦ hleave

/-- What runs with a bound on the number of steps. -/
structure Runs (may : Nat → Nat → Bool) (tables : Tables) (fuel : Nat) : Prop where
  steps : ∀ {r rules ss}, stepsFit may r ss →
    Attempt.Keeps may (r :: rules) (runSteps tables fuel ss)
  step : ∀ {r rules s}, s.fits may r → Attempt.Keeps may (r :: rules) (runStep tables fuel s)
  loop : ∀ {r rules decision back body}, stepsFit may r body →
    Attempt.Keeps may (r :: rules) (runLoop tables fuel decision back body)
  rule : ∀ {r rules caller q level}, may r q →
    Keeps may (r :: rules) (runRule tables fuel caller q level)

theorem stepsFit_getD {bs : List (List Step)} (h : pathsFit may r bs) (i : Nat) :
    stepsFit may r (bs.getD i []) := by
  rw [List.getD_eq_getElem?_getD]
  cases hb : bs[i]? with
  | none => rfl
  | some b => exact pathsFit_iff.mp h b (List.mem_of_getElem? hb)

namespace Runs

theorem zero : Runs may tables 0 where
  steps {_ _ ss} _ := by
    cases ss with
    | nil => exact .pure _
    | cons s ss => exact .throw _
  step _ := .throw _
  loop _ := .throw _
  rule _ := .modify fun _ ↦ rfl

variable {s : Step} {ss body : List Step} {decision back : Nat}

theorem runSteps_succ (h : Runs may tables fuel) (hss : stepsFit may r ss) :
    Attempt.Keeps may (r :: rules) (runSteps tables (fuel + 1) ss) := by
  cases ss with
  | nil => exact .pure _
  | cons s ss =>
    rw [stepsFit, Bool.and_eq_true] at hss
    rw [runSteps]
    exact .bind (h.step hss.1) fun _ ↦ h.steps hss.2

theorem runStep_succ (h : Runs may tables fuel) (hs : s.fits may r) :
    Attempt.Keeps may (r :: rules) (runStep tables (fuel + 1) s) := by
  cases s with
  | token s kind =>
    exact .bind (.lift (Keeps.moveTo s)) fun _ ↦ .bind (.lift Keeps.current) fun _ ↦
      .ite (.bind (.lift Keeps.recovered) fun _ ↦ .lift Keeps.consume)
        (Attempt.Keeps.repair tables true)
  | oneOf s kinds =>
    exact .bind (.lift (Keeps.moveTo s)) fun _ ↦ .bind (.lift Keeps.current) fun _ ↦
      .ite (.bind (.lift Keeps.recovered) fun _ ↦ .lift Keeps.consume)
        (Attempt.Keeps.repair tables false)
  | call s q level =>
    exact .bind (.lift (Keeps.moveTo s)) fun _ ↦ .bind (.lift (h.rule hs)) fun _ ↦
      .bind .get fun _ ↦ .ite (.throw _) (.pure _)
  | extend s level =>
    exact .bind (.lift (Keeps.extend hs)) fun _ ↦ .bind (.lift (Keeps.moveTo s)) fun _ ↦
      .bind .get fun _ ↦ .ite (.throw _) (.pure _)
  | choice s bs =>
    exact .bind (.lift (Keeps.moveTo s)) fun _ ↦ .bind (Attempt.Keeps.sync tables) fun _ ↦
      .bind (Attempt.Keeps.choose tables s) fun _ ↦ .ite
        (.bind (.lift Keeps.current) fun _ ↦ .bind (.throw _) fun _ ↦ h.steps (stepsFit_getD hs _))
        (h.steps (stepsFit_getD hs _))
  | optional s bs =>
    exact .bind (.lift (Keeps.moveTo s)) fun _ ↦ .bind (Attempt.Keeps.sync tables) fun _ ↦
      .bind (Attempt.Keeps.choose tables s) fun _ ↦ .ite (h.steps (stepsFit_getD hs _)) (.pure _)
  | star entry back body =>
    exact .bind (.lift (Keeps.moveTo entry)) fun _ ↦ .bind (Attempt.Keeps.sync tables) fun _ ↦
      h.loop hs
  | plus start back body =>
    exact .bind (.lift (Keeps.moveTo start)) fun _ ↦ .bind (Attempt.Keeps.sync tables) fun _ ↦
      .bind (h.steps hs) fun _ ↦ .bind (.lift (Keeps.moveTo back)) fun _ ↦
        .bind (Attempt.Keeps.sync tables) fun _ ↦ h.loop hs

theorem runLoop_succ (h : Runs may tables fuel) (hbody : stepsFit may r body) :
    Attempt.Keeps may (r :: rules) (runLoop tables (fuel + 1) decision back body) := by
  rw [runLoop]
  exact .bind (Attempt.Keeps.choose tables decision) fun _ ↦ .ite
    (.bind (h.steps hbody) fun _ ↦ .bind (.lift (Keeps.moveTo back)) fun _ ↦
      .bind (Attempt.Keeps.sync tables) fun _ ↦ h.loop hbody)
    (.pure _)

end Runs

/-- Whatever the bound is, a run adds to its rule only what the steps of the rule lead to. -/
theorem runs (h : ∀ r, stepsFit may r (tables.net.procedure r).steps) (fuel : Nat) :
    Runs may tables fuel := by
  induction fuel with
  | zero => exact .zero
  | succ fuel ih =>
    exact ⟨ih.runSteps_succ, ih.runStep_succ, ih.runLoop_succ,
      fun hmay ↦ leads_runRule (ih.steps (h _)) (leads_leave hmay)⟩

variable (tables) in
theorem leads_start (h : ∀ r, stepsFit may r (tables.net.procedure r).steps) (fuel q : Nat) :
    Leads (Kept may []) (Finished may q) (runRule tables fuel none q 0) := by
  cases fuel with
  | zero =>
    -- Nothing was read, so there is no frame.
    intro st hst f hf
    have hframes : st.frames = [] := List.map_eq_nil_iff.mp hst.rules_eq
    rw [runRule, Keeps.run_modify, hframes] at hf
    cases hf
  | succ fuel => exact leads_runRule ((runs h fuel).steps (h q)) leads_leave_last

end Parser

/-- **Parse trees conform**: the tree is a node of the rule that the parse started with, and nodes
have only parts that they may have, if the rules of the grammar keep to that. -/
theorem Tables.conforms_parse {l : Language} {vocabulary : Vocabulary} {rule : Nat} {input : Input}
    {t : Tree} (h : ∀ r, branchesFit may r (l.rules.getD r default).branches)
    (ht : ((ofLanguage l vocabulary).parse rule input).tree = some t) :
    t.isNode rule ∧ t.Conforms may := by
  have hrun := Parser.Leads.bind (Parser.Keeps.discover 0) fun _ ↦
    Parser.leads_start (ofLanguage l vocabulary) (Network.fits_procedure h)
      (400 * (input.tokens.size + 10)) rule
  have hfinished := hrun
    { input, unread := input.faults, expectations := (ofLanguage l vocabulary).expectations }
    ⟨rfl, fun _ hf ↦ by cases hf⟩
  unfold parse at ht
  dsimp only at ht
  split at ht
  · cases ht
  · split at ht
    · next f fs hframes =>
      exact hfinished f (hframes ▸ List.mem_cons_self) t (List.mem_of_head? ht)
    · cases ht

end QuantumRisk.Grammar
