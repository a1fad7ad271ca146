import QuantumRisk.FileSystem.RealPath
import QuantumRisk.Proofs.FileSystem.Walk
import QuantumRisk.Proofs.Store.Faults

/-!
# Canonical places

The canonical place of a path is what is left when every link on the way is replaced by what it
leads to (`Leads`). A path has one, and only one, unless it comes to a link that leads back to
itself (`exists_isCanonical_iff`).

The search for it works with a stack of what is left to do, with a table of links that have been
begun and ended, and with a bound on their number. None of this is seen in the answer: where there
is a canonical place and all links can be seen (`Near`), it is found
(`realPlace_of_isCanonical`). That the table never answers for
a link that has been begun and not ended is a matter of sizes: a link that is met inside another one
leads on in fewer steps.
-/

namespace QuantumRisk.FileSystem

variable {fs : FileSystem} {place q q' goal l : Place} {name target : String}
  {names : List String} {m n n' : Nat}

/-! ## Where names lead -/

/-- The target of the link that a name stands for, if it stands for one. -/
def linkUnder (fs : FileSystem) (place : Place) (name : String) : Option String :=
  if name = "." ∨ name = ".." then none else fs.linkAt (place ++ [name])

/-- Names lead from a place to another one in some number of steps: a link is replaced by what its
target leads to, any other name goes by itself, whether it exists or not. -/
inductive Leads (fs : FileSystem) : Nat → Place → List String → Place → Prop
  | nil (place : Place) : Leads fs 0 place [] place
  | step {n : Nat} {place q : Place} {name : String} {names : List String}
      (h : fs.linkUnder place name = none)
      (hrest : Leads fs n (FileSystem.step place name) names q) :
      Leads fs (n + 1) place (name :: names) q
  | link {m n : Nat} {place goal q : Place} {name target : String} {names : List String}
      (h : fs.linkUnder place name = some target)
      (hlink : Leads fs m (origin (Path.ofString target).isAbsolute place)
        (Path.ofString target).parts goal)
      (hrest : Leads fs n goal names q) : Leads fs (m + n + 1) place (name :: names) q

/-- The canonical place of a path. -/
def IsCanonical (fs : FileSystem) (p : Path) (q : Place) : Prop :=
  ∃ n, fs.Leads n (origin p.isAbsolute fs.current) p.parts q

theorem Leads.unique (h : fs.Leads n place names q) (h' : fs.Leads n' place names q') :
    n = n' ∧ q = q' := by
  induction h generalizing n' q' with
  | nil place =>
    cases h'
    exact ⟨rfl, rfl⟩
  | step hnone _ ih =>
    cases h' with
    | step hnone' hrest' =>
      obtain ⟨rfl, rfl⟩ := ih hrest'
      exact ⟨rfl, rfl⟩
    | link hsome' => simp [hnone] at hsome'
  | link hsome _ _ ihlink ihrest =>
    cases h' with
    | step hnone' => simp [hsome] at hnone'
    | link hsome' hlink' hrest' =>
      obtain rfl := Option.some.inj (hsome.symm.trans hsome')
      obtain ⟨rfl, rfl⟩ := ihlink hlink'
      obtain ⟨rfl, rfl⟩ := ihrest hrest'
      exact ⟨rfl, rfl⟩

theorem IsCanonical.unique {p : Path} (h : fs.IsCanonical p q) (h' : fs.IsCanonical p q') :
    q = q' := (h.choose_spec.unique h'.choose_spec).2

theorem linkAt_of_linkUnder (h : fs.linkUnder place name = some target) :
    fs.linkAt (place ++ [name]) = some target := by
  rw [linkUnder] at h
  split at h
  · cases h
  · exact h

/-- A link leads to a place. -/
def LinkLeads (fs : FileSystem) (n : Nat) (l goal : Place) : Prop :=
  ∃ target, fs.linkAt l = some target ∧
    fs.Leads n (origin (Path.ofString target).isAbsolute l.dropLast) (Path.ofString target).parts
      goal

theorem linkLeads_of_linkUnder (h : fs.linkUnder place name = some target)
    (hlink : fs.Leads n (origin (Path.ofString target).isAbsolute place)
      (Path.ofString target).parts goal) : fs.LinkLeads n (place ++ [name]) goal :=
  ⟨target, linkAt_of_linkUnder h, by rwa [List.dropLast_concat]⟩

theorem LinkLeads.unique {goal' : Place} (h : fs.LinkLeads n l goal)
    (h' : fs.LinkLeads n' l goal') : n = n' ∧ goal = goal' := by
  obtain ⟨target, htarget, hleads⟩ := h
  obtain ⟨target', htarget', hleads'⟩ := h'
  obtain rfl := Option.some.inj (htarget.symm.trans htarget')
  exact hleads.unique hleads'

/-! ## Links that lead back -/

/-- Names that are followed from a place come to a link. -/
inductive Meets (fs : FileSystem) : Place → List String → Place → Prop
  | here {place : Place} {name target : String} (names : List String)
      (h : fs.linkUnder place name = some target) : Meets fs place (name :: names) (place ++ [name])
  | inside {place l : Place} {name target : String} (names : List String)
      (h : fs.linkUnder place name = some target)
      (hinside : Meets fs (origin (Path.ofString target).isAbsolute place)
        (Path.ofString target).parts l) : Meets fs place (name :: names) l
  | behindName {place l : Place} {name : String} {names : List String}
      (h : fs.linkUnder place name = none)
      (hrest : Meets fs (FileSystem.step place name) names l) : Meets fs place (name :: names) l
  | behindLink {place goal l : Place} {name target : String} {names : List String} {n : Nat}
      (h : fs.linkUnder place name = some target)
      (hlink : fs.Leads n (origin (Path.ofString target).isAbsolute place)
        (Path.ofString target).parts goal)
      (hrest : Meets fs goal names l) : Meets fs place (name :: names) l

/-- A link that is followed comes to a link. -/
def LinkMeets (fs : FileSystem) (l l' : Place) : Prop :=
  ∃ target, fs.linkAt l = some target ∧
    fs.Meets (origin (Path.ofString target).isAbsolute l.dropLast) (Path.ofString target).parts l'

/-- A path comes to a link that leads back to itself. -/
def MeetsLoop (fs : FileSystem) (p : Path) : Prop :=
  ∃ l, fs.Meets (origin p.isAbsolute fs.current) p.parts l ∧ fs.LinkMeets l l

/-- A link on the way leads on in fewer steps than the way has. -/
theorem Leads.exists_linkLeads (h : fs.Leads n place names q) (hl : fs.Meets place names l) :
    ∃ k goal, fs.LinkLeads k l goal ∧ k < n := by
  induction hl generalizing n q with
  | here names hsome =>
    cases h with
    | step hnone => simp [hsome] at hnone
    | link hsome' hlink hrest =>
      exact ⟨_, _, linkLeads_of_linkUnder hsome' hlink, by omega⟩
  | inside names hsome _ ih =>
    cases h with
    | step hnone => simp [hsome] at hnone
    | link hsome' hlink hrest =>
      obtain rfl := Option.some.inj (hsome.symm.trans hsome')
      obtain ⟨k, goal, hk, hlt⟩ := ih hlink
      exact ⟨k, goal, hk, by omega⟩
  | behindName hnone _ ih =>
    cases h with
    | step _ hrest =>
      obtain ⟨k, goal, hk, hlt⟩ := ih hrest
      exact ⟨k, goal, hk, by omega⟩
    | link hsome => simp [hnone] at hsome
  | behindLink hsome hlink _ ih =>
    cases h with
    | step hnone => simp [hsome] at hnone
    | link hsome' hlink' hrest =>
      obtain rfl := Option.some.inj (hsome.symm.trans hsome')
      obtain ⟨-, rfl⟩ := hlink.unique hlink'
      obtain ⟨k, goal, hk, hlt⟩ := ih hrest
      exact ⟨k, goal, hk, by omega⟩

theorem Leads.not_loop (h : fs.Leads n place names q) (hl : fs.Meets place names l) :
    ¬ fs.LinkMeets l l := by
  rintro ⟨target, htarget, hmeets⟩
  obtain ⟨k, goal, hk, -⟩ := h.exists_linkLeads hl
  obtain ⟨target', htarget', hleads⟩ := id hk
  obtain rfl := Option.some.inj (htarget.symm.trans htarget')
  obtain ⟨k', goal', hk', hlt⟩ := hleads.exists_linkLeads hmeets
  have := (hk.unique hk').1
  omega

/-! ## The table of links -/

/-- The number of entries that are not in a table of links. -/
def unseen {α : Type} (fs : FileSystem) (ends : List (Place × α)) : Nat :=
  fs.entries.countP fun e ↦ (List.lookup e.1 ends).isNone

theorem lookup_cons_isNone {α : Type} (p l : Place) (a : α) (ends : List (Place × α)) :
    (List.lookup p ((l, a) :: ends)).isNone = (p != l && (List.lookup p ends).isNone) := by
  rw [List.lookup_cons]
  by_cases h : p = l
  · simp [h]
  · simp [h, beq_eq_false_iff_ne.mpr h]

theorem countP_lookup_cons_le {α : Type} (a : α) (ends : List (Place × α))
    (part : List (Place × Entry)) :
    part.countP (fun e ↦ (List.lookup e.1 ((l, a) :: ends)).isNone)
      ≤ part.countP fun e ↦ (List.lookup e.1 ends).isNone :=
  List.countP_mono_left fun e _ he ↦ by
    rw [lookup_cons_isNone, Bool.and_eq_true] at he
    exact he.2

theorem unseen_cons_le {α : Type} (a : α) (ends : List (Place × α)) :
    fs.unseen ((l, a) :: ends) ≤ fs.unseen ends := countP_lookup_cons_le a ends fs.entries

theorem mem_entries_of_linkAt (h : fs.linkAt l = some target) : (l, .link target) ∈ fs.entries := by
  rw [linkAt, entryAt] at h
  split at h
  · next hentry =>
    cases h
    split at hentry
    · cases hentry
    · obtain ⟨before, after, hentries, -⟩ := List.lookup_eq_some_iff.mp hentry
      simp [hentries]
  · cases h

/-- A link that is new to the table makes fewer that are. -/
theorem unseen_cons_lt {α : Type} (h : fs.linkAt l = some target) {ends : List (Place × α)}
    (hnew : List.lookup l ends = none) (a : α) :
    fs.unseen ((l, a) :: ends) < fs.unseen ends := by
  obtain ⟨before, after, hentries⟩ := List.append_of_mem (mem_entries_of_linkAt h)
  have hbefore := countP_lookup_cons_le (l := l) a ends before
  have hafter := countP_lookup_cons_le (l := l) a ends after
  rw [unseen, unseen, hentries, List.countP_append, List.countP_append,
    List.countP_cons_of_neg (by simp), List.countP_cons_of_pos (by simp [hnew])]
  omega

/-- **A path has a canonical place or comes to a loop.** The induction is on the links that have not
been begun; every link that has been begun meets all that is met from here on. -/
theorem exists_leads_or_loop (begun : List (Place × Unit)) (place : Place) (names : List String)
    (h : ∀ l' l, (List.lookup l' begun).isSome → fs.Meets place names l → fs.LinkMeets l' l) :
    (∃ n q, fs.Leads n place names q) ∨ ∃ l, fs.Meets place names l ∧ fs.LinkMeets l l := by
  induction hsize : fs.unseen begun using Nat.strong_induction_on
    generalizing begun place names with
  | _ size ih =>
    induction names generalizing place with
    | nil => exact .inl ⟨0, place, .nil place⟩
    | cons name names ihnames =>
      cases hlink : fs.linkUnder place name with
      | none =>
        rcases ihnames (FileSystem.step place name)
          fun l' l hl' hl ↦ h l' l hl' (.behindName hlink hl) with ⟨n, q, hq⟩ | ⟨l, hl, hloop⟩
        · exact .inl ⟨n + 1, q, .step hlink hq⟩
        · exact .inr ⟨l, .behindName hlink hl, hloop⟩
      | some target =>
        cases hbegun : List.lookup (place ++ [name]) begun with
        | some _ =>
          have hhere := Meets.here names hlink
          exact .inr ⟨place ++ [name], hhere, h _ _ (by simp [hbegun]) hhere⟩
        | none =>
          have htarget := linkAt_of_linkUnder hlink
          have hinside : ∀ l' l, (List.lookup l' ((place ++ [name], ()) :: begun)).isSome →
              fs.Meets (origin (Path.ofString target).isAbsolute place)
                (Path.ofString target).parts l → fs.LinkMeets l' l := by
            intro l' l hl' hl
            by_cases heq : l' = place ++ [name]
            · exact ⟨target, heq ▸ htarget, by rwa [heq, List.dropLast_concat]⟩
            · rw [List.lookup_cons, beq_eq_false_iff_ne.mpr heq] at hl'
              exact h l' l hl' (.inside names hlink hl)
          rcases ih _ (hsize ▸ unseen_cons_lt htarget hbegun ()) _ _ _ hinside rfl
            with ⟨m, goal, hgoal⟩ | ⟨l, hl, hloop⟩
          · rcases ihnames goal fun l' l hl' hl ↦ h l' l hl' (.behindLink hlink hgoal hl)
              with ⟨n, q, hq⟩ | ⟨l, hl, hloop⟩
            · exact .inl ⟨_, q, .link hlink hgoal hq⟩
            · exact .inr ⟨l, .behindLink hlink hgoal hl, hloop⟩
          · exact .inr ⟨l, .inside names hlink hl, hloop⟩

theorem exists_isCanonical_iff {p : Path} : (∃ q, fs.IsCanonical p q) ↔ ¬ fs.MeetsLoop p := by
  constructor
  · rintro ⟨q, n, hq⟩ ⟨l, hl, hloop⟩
    exact hq.not_loop hl hloop
  · intro hloop
    rcases exists_leads_or_loop [] (origin p.isAbsolute fs.current) p.parts (by simp)
      with ⟨n, q, hq⟩ | hmeets
    · exact ⟨q, n, hq⟩
    · exact absurd hmeets hloop

/-! ## The search -/

/-- No link lies so deep that it is not seen, however the way to it is spelled: from the root, or
with double dots up from the current directory. -/
def Near (fs : FileSystem) : Prop :=
  ∀ q target, fs.linkAt q = some target →
    3 * fs.current.length + (pathOf q).text.utf8ByteSize < pathLimit

theorem Near.linkSeen (h : fs.Near) (q : Place) : fs.linkSeen q = fs.linkAt q := by
  rw [FileSystem.linkSeen]
  split
  · rfl
  · next hdeep =>
    cases hlink : fs.linkAt q with
    | none => rfl
    | some target =>
      have := h q target hlink
      omega

section Search

variable {fuel : Nat} {ends : List (Place × Option Place)} {rest : List Leg}

theorem canonical_of_linkUnder_eq_none (hnear : fs.Near) (h : fs.linkUnder place name = none) :
    fs.canonical fuel ends place (.name name :: rest)
      = fs.canonical fuel ends (FileSystem.step place name) rest := by
  rw [canonical]
  rw [linkUnder] at h
  split at h
  · next hdots => rw [if_pos hdots]
  · next hdots =>
    rw [if_neg hdots, hnear.linkSeen, h]
    rw [not_or] at hdots
    rw [FileSystem.step, if_neg hdots.1, if_neg hdots.2]

theorem canonical_of_ended (hnear : fs.Near) (h : fs.linkUnder place name = some target)
    (hends : List.lookup (place ++ [name]) ends = some (some goal)) :
    fs.canonical fuel ends place (.name name :: rest) = fs.canonical fuel ends goal rest := by
  rw [canonical]
  rw [linkUnder] at h
  split at h
  · cases h
  · next hdots =>
    rw [if_neg hdots, hnear.linkSeen, h]
    simp only [hends]

theorem canonical_of_new (hnear : fs.Near) (h : fs.linkUnder place name = some target)
    (hends : List.lookup (place ++ [name]) ends = none) :
    fs.canonical (fuel + 1) ends place (.name name :: rest)
      = fs.canonical fuel ((place ++ [name], none) :: ends)
          (origin (Path.ofString target).isAbsolute place)
          ((Path.ofString target).parts.map Leg.name ++ .ending (place ++ [name]) :: rest) := by
  rw [canonical]
  rw [linkUnder] at h
  split at h
  · cases h
  · next hdots =>
    rw [if_neg hdots, hnear.linkSeen, h]
    simp only [hends]

/-- What the table says of links that have been ended is true, and there is enough fuel. -/
structure Tracks (fs : FileSystem) (fuel : Nat) (ends : List (Place × Option Place)) : Prop where
  ended : ∀ {l goal}, List.lookup l ends = some (some goal) → ∃ k, fs.LinkLeads k l goal
  fuel : fs.unseen ends ≤ fuel

theorem Tracks.begin (h : fs.Tracks (fuel + 1) ends) (hl : fs.linkAt l = some target)
    (hnew : List.lookup l ends = none) : fs.Tracks fuel ((l, none) :: ends) where
  ended {l' goal} hl' := by
    rw [List.lookup_cons] at hl'
    split at hl'
    · cases hl'
    · exact h.ended hl'
  fuel := by
    have := h.fuel
    have := unseen_cons_lt hl hnew none
    omega

theorem Tracks.end (h : fs.Tracks fuel ends) {k : Nat} (hl : fs.LinkLeads k l goal) :
    fs.Tracks fuel ((l, some goal) :: ends) where
  ended {l' goal'} hl' := by
    rw [List.lookup_cons] at hl'
    split at hl'
    · next heq =>
      cases hl'
      exact ⟨k, eq_of_beq heq ▸ hl⟩
    · exact h.ended hl'
  fuel := (unseen_cons_le _ ends).trans h.fuel

/-- **The search goes where the names lead.** No link that has been begun and not ended leads on in
fewer steps than there are left, so none of them is met again. -/
theorem canonical_of_leads (hnear : fs.Near) (h : fs.Leads n place names q)
    (ht : fs.Tracks fuel ends)
    (hopen : ∀ l k goal, List.lookup l ends = some none → fs.LinkLeads k l goal → n ≤ k)
    (rest : List Leg) :
    ∃ fuel' ends', fs.canonical fuel ends place (names.map Leg.name ++ rest)
        = fs.canonical fuel' ends' q rest ∧ fs.Tracks fuel' ends' ∧
      ∀ l, List.lookup l ends' = some none → List.lookup l ends = some none := by
  induction h generalizing fuel ends rest with
  | nil place => exact ⟨fuel, ends, rfl, ht, fun _ ↦ id⟩
  | @step n place q name names hnone _ ih =>
    rw [List.map_cons, List.cons_append, canonical_of_linkUnder_eq_none hnear hnone]
    exact ih ht (fun l k goal hl hk ↦ (Nat.le_succ n).trans (hopen l k goal hl hk)) rest
  | @link m n place goal q name target names hsome hlink _ ihlink ihrest =>
    have hleads := linkLeads_of_linkUnder hsome hlink
    rw [List.map_cons, List.cons_append]
    cases hlookup : List.lookup (place ++ [name]) ends with
    | some ended =>
      cases ended with
      | none =>
        have := hopen _ _ _ hlookup hleads
        omega
      | some goal' =>
        obtain ⟨k, hk⟩ := ht.ended hlookup
        obtain ⟨-, rfl⟩ := hk.unique hleads
        rw [canonical_of_ended hnear hsome hlookup]
        exact ihrest ht (fun l k goal hl hk ↦ by have := hopen l k goal hl hk; omega) rest
    | none =>
      have hat := linkAt_of_linkUnder hsome
      obtain ⟨fuel, rfl⟩ : ∃ f, fuel = f + 1 := by
        have := unseen_cons_lt hat hlookup none
        have := ht.fuel
        exact ⟨fuel - 1, by omega⟩
      rw [canonical_of_new hnear hsome hlookup]
      obtain ⟨fuel', ends', heq, ht', hopen'⟩ := ihlink (ht.begin hat hlookup)
        (fun l k goal' hl hk ↦ by
          by_cases hself : l = place ++ [name]
          · rw [(hk.unique (hself ▸ hleads)).1]
          · rw [List.lookup_cons, beq_eq_false_iff_ne.mpr hself] at hl
            have := hopen l k goal' hl hk
            omega)
        (.ending (place ++ [name]) :: (names.map Leg.name ++ rest))
      -- behind the link its end is entered, and what was open before is still all that is open
      have hopen'' : ∀ l, List.lookup l ((place ++ [name], some goal) :: ends') = some none →
          List.lookup l ends = some none := by
        intro l hl
        rw [List.lookup_cons] at hl
        split at hl
        · cases hl
        · next hne =>
          have hl' := hopen' l hl
          rwa [List.lookup_cons, hne] at hl'
      rw [heq, canonical]
      obtain ⟨fuel'', ends'', heq', ht'', hsub⟩ := ihrest (ht'.end hleads)
        (fun l k goal' hl hk ↦ by have := hopen l k goal' (hopen'' l hl) hk; omega) rest
      exact ⟨fuel'', ends'', heq', ht'', fun l hl ↦ hopen'' l (hsub l hl)⟩

theorem canonical_eq_of_leads (hnear : fs.Near) (h : fs.Leads n place names q) :
    fs.canonical (fs.entries.length + 1) [] place (names.map Leg.name) = q := by
  have ht : fs.Tracks (fs.entries.length + 1) [] :=
    ⟨by simp, (List.countP_le_length).trans (Nat.le_succ _)⟩
  obtain ⟨fuel', ends', heq, -, -⟩ := canonical_of_leads hnear h ht (by simp) []
  rw [List.append_nil] at heq
  rw [heq, canonical]

end Search

/-! ## Trees that a system can be in -/

/-- A text that a system can take as a name on a path, dots included. -/
structure Usable (name : String) : Prop where
  ne_empty : name ≠ ""
  slash_notMem : '/' ∉ name.toList
  null_notMem : '\x00' ∉ name.toList

theorem usable_of_mem_ofString {s name : String} (hs : '\x00' ∉ s.toList)
    (h : name ∈ (Path.ofString s).parts) : Usable name where
  ne_empty := (Path.proper_ofString s name h).1
  slash_notMem := (Path.proper_ofString s name h).2
  null_notMem hnull := hs (Path.null_mem_of_ofString (.inr ⟨name, h, hnull⟩))

/-- A place with names that an entry can have, and without links on the way. -/
structure Firm (fs : FileSystem) (place : Place) : Prop where
  usable : ∀ name ∈ place, Usable name
  dotless : ∀ name ∈ place, name ≠ "." ∧ name ≠ ".."
  real : ∀ q, q <+: place → fs.linkAt q = none

/-- A tree that a system can be in and look over: the current directory is a place in it, not a
link, there are no null characters in the targets of links, and no link lies too deep. -/
structure Grounded (fs : FileSystem) : Prop where
  current : fs.Firm fs.current
  targets : ∀ {q target}, fs.linkAt q = some target → '\x00' ∉ target.toList
  near : fs.Near

theorem firm_nil : fs.Firm [] where
  usable := by simp
  dotless := by simp
  real q hq := by
    rw [List.prefix_nil.mp hq, linkAt, entryAt_nil]

theorem Firm.of_prefix (h : fs.Firm place) (hq : q <+: place) : fs.Firm q where
  usable name hname := h.usable name (hq.subset hname)
  dotless name hname := h.dotless name (hq.subset hname)
  real q' hq' := h.real q' (hq'.trans hq)

theorem Firm.origin (h : fs.Firm place) (absolute : Bool) : fs.Firm (origin absolute place) := by
  rw [FileSystem.origin]
  split
  · exact firm_nil
  · exact h

theorem Firm.step (h : fs.Firm place) (hname : Usable name)
    (hnone : fs.linkUnder place name = none) : fs.Firm (FileSystem.step place name) := by
  rw [FileSystem.step]
  split
  · exact h
  · next hdot =>
    split
    · exact h.of_prefix (List.dropLast_prefix place)
    · next hdots =>
      rw [linkUnder, if_neg (not_or.mpr ⟨hdot, hdots⟩)] at hnone
      refine ⟨fun n hn ↦ ?_, fun n hn ↦ ?_, fun q hq ↦ ?_⟩
      · rcases List.mem_append.mp hn with hn | hn
        · exact h.usable n hn
        · exact List.mem_singleton.mp hn ▸ hname
      · rcases List.mem_append.mp hn with hn | hn
        · exact h.dotless n hn
        · exact List.mem_singleton.mp hn ▸ ⟨hdot, hdots⟩
      · rcases List.prefix_concat_iff.mp hq with rfl | hq
        · exact hnone
        · exact h.real q hq

/-- Names lead from firm places to firm places. -/
theorem Leads.firm (hg : fs.Grounded) (h : fs.Leads n place names q) (hplace : fs.Firm place)
    (hnames : ∀ name ∈ names, Usable name) : fs.Firm q := by
  induction h with
  | nil place => exact hplace
  | step hnone _ ih =>
    rw [List.forall_mem_cons] at hnames
    exact ih (hplace.step hnames.1 hnone) hnames.2
  | link hsome _ _ ihlink ihrest =>
    have htarget := hg.targets (linkAt_of_linkUnder hsome)
    rw [List.forall_mem_cons] at hnames
    exact ihrest (ihlink (hplace.origin _) fun name hname ↦ usable_of_mem_ofString htarget hname)
      hnames.2

/-- The walk to a firm place follows no links. -/
theorem walk_of_firm {links : Nat} (h : fs.Firm (place ++ names)) :
    fs.walk true links place names ≠ .error .tooManyLinks := by
  induction names generalizing place with
  | nil =>
    rw [walk]
    simp
  | cons name names ih =>
    have hmem : name ∈ place ++ name :: names := by simp
    have hreal := h.real (place ++ [name]) ⟨names, by simp⟩
    rw [walk, if_neg (h.dotless name hmem).1, if_neg (h.dotless name hmem).2]
    split
    · simp
    · cases hentry : fs.entryAt (place ++ [name]) with
      | none =>
        dsimp only
        split <;> simp
      | some e =>
        cases e with
        | file bytes =>
          dsimp only
          split <;> simp
        | directory => exact ih (by simpa using h)
        | link target => simp [linkAt, hentry] at hreal

/-- A path that is refused for its links is refused by the walk. -/
theorem walk_of_locate_error {follow : Bool} {p : Path} {path : String}
    (h : fs.locate follow p = .error (.refused .tooManyLinks path)) :
    fs.walk follow linkLimit (FileSystem.origin p.isAbsolute fs.current) p.parts
      = .error .tooManyLinks := by
  rw [locate] at h
  split at h
  · cases h
  · split at h
    · cases h
    · split at h
      · cases h
      · next reason hwalk =>
        cases h
        exact hwalk

/-- **Canonical places are found.** -/
theorem realPlace_of_isCanonical {p : Path} (hg : fs.Grounded)
    (hp : ∀ name ∈ p.parts, Usable name) (hnull : '\x00' ∉ p.text.toList)
    (h : fs.IsCanonical p q) : fs.realPlace p = .ok q ∧ fs.Firm q := by
  obtain ⟨n, hleads⟩ := h
  have hfirm : fs.Firm q := hleads.firm hg (hg.current.origin _) hp
  refine ⟨?_, hfirm⟩
  rw [realPlace, if_neg (by simpa using hnull)]
  simp only [canonical_eq_of_leads hg.near hleads]
  split
  · next path hlocate =>
    exact absurd (walk_of_locate_error hlocate)
      (walk_of_firm (show fs.Firm ([] ++ q) from hfirm))
  · rfl

/-! ## Trees without links -/

/-- No entry is a link. -/
def NoLinks (fs : FileSystem) : Prop := ∀ q, fs.linkAt q = none

theorem NoLinks.near (h : fs.NoLinks) : fs.Near := by
  intro q target hlink
  rw [h q] at hlink
  cases hlink

theorem NoLinks.linkUnder (h : fs.NoLinks) (place : Place) (name : String) :
    fs.linkUnder place name = none := by
  rw [FileSystem.linkUnder]
  split
  · rfl
  · exact h _

theorem NoLinks.leads (h : fs.NoLinks) (place : Place) (names : List String) :
    fs.Leads names.length place names (names.foldl FileSystem.step place) := by
  induction names generalizing place with
  | nil => exact .nil place
  | cons name names ih => exact .step (h.linkUnder place name) (ih _)

/-- Without links, the canonical place goes by the names alone. -/
theorem NoLinks.isCanonical_iff (h : fs.NoLinks) {p : Path} :
    fs.IsCanonical p q ↔ q = fs.lexical p := by
  have hlexical : fs.IsCanonical p (fs.lexical p) := ⟨_, h.leads _ p.parts⟩
  exact ⟨fun hq ↦ hq.unique hlexical, fun hq ↦ hq ▸ hlexical⟩

theorem NoLinks.entryAt_ne (h : fs.NoLinks) (q : Place) (target : String) :
    fs.entryAt q ≠ some (.link target) := by
  intro hq
  have := h q
  simp [linkAt, hq] at this

theorem NoLinks.walk_ne (h : fs.NoLinks) (follow : Bool) (links : Nat) (place : Place)
    (names : List String) : fs.walk follow links place names ≠ .error .tooManyLinks := by
  fun_induction walk fs follow links place names with
  | case1 | case4 | case5 | case6 | case8 | case9 => simp
  | case2 links place rest ih => exact ih
  | case3 links place rest hdot ih => exact ih
  | case7 links place name rest hdot hdots hsize hdir ih => exact ih
  | case10 links place name rest hdot hdots hsize target hlink =>
    exact absurd hlink (h.entryAt_ne _ _)
  | case11 place name rest hdot hdots hsize target hlink =>
    exact absurd hlink (h.entryAt_ne _ _)
  | case12 place name rest hdot hdots hsize target hlink =>
    exact absurd hlink (h.entryAt_ne _ _)

theorem NoLinks.realPlace (h : fs.NoLinks) (p : Path) :
    fs.realPlace p = if p.text.contains '\x00' then .error .nullByte else .ok (fs.lexical p) := by
  rw [FileSystem.realPlace]
  split
  · rfl
  · simp only [canonical_eq_of_leads h.near (h.leads _ p.parts)]
    split
    · next path hlocate => exact absurd (walk_of_locate_error hlocate) (h.walk_ne _ _ _ _)
    · rfl

/-- Without links a walk along plain names ends where the names say. -/
theorem NoLinks.walk_eq (h : fs.NoLinks) {follow : Bool} {links : Nat}
    (hnames : ∀ name ∈ names, name ≠ "." ∧ name ≠ "..")
    (hwalk : fs.walk follow links place names = .ok q) : q = place ++ names := by
  fun_induction walk fs follow links place names with
  | case1 =>
    cases hwalk
    rw [List.append_nil]
  | case2 links place rest => exact absurd rfl (hnames "." List.mem_cons_self).1
  | case3 links place rest => exact absurd rfl (hnames ".." List.mem_cons_self).2
  | case5 | case8 =>
    cases hwalk
    rfl
  | case7 links place name rest hdot hdots hsize hdir ih =>
    rw [ih (fun n hn ↦ hnames n (List.mem_cons_of_mem _ hn)) hwalk, List.append_assoc,
      List.singleton_append]
  | case10 links place name rest hdot hdots hsize target hlink =>
    exact absurd hlink (h.entryAt_ne _ _)
  | case12 place name rest hdot hdots hsize target hlink =>
    exact absurd hlink (h.entryAt_ne _ _)
  | case4 | case6 | case9 | case11 => cases hwalk

theorem NoLinks.locate_pathOf (h : fs.NoLinks) {follow : Bool}
    (hplace : ∀ name ∈ place, Path.Plain name) (hq : fs.locate follow (pathOf place) = .ok q) :
    q = place := by
  obtain ⟨-, -, hwalk⟩ := locate_eq_ok_iff.mp hq
  exact h.walk_eq (fun name hname ↦ ⟨(hplace name hname).ne_dot, (hplace name hname).ne_dots⟩) hwalk

theorem plain_lexical (hcurrent : ∀ name ∈ fs.current, Path.Plain name) {p : Path}
    (hp : p.Proper) : ∀ name ∈ fs.lexical p, Path.Plain name := by
  have hfold (names : List String) (hnames : ∀ name ∈ names, name ≠ "" ∧ '/' ∉ name.toList)
      (place : Place) (hplace : ∀ name ∈ place, Path.Plain name) :
      ∀ name ∈ names.foldl FileSystem.step place, Path.Plain name := by
    induction names generalizing place with
    | nil => exact hplace
    | cons name names ih =>
      rw [List.forall_mem_cons] at hnames
      refine ih hnames.2 _ fun n hn ↦ ?_
      rw [FileSystem.step] at hn
      split at hn
      · exact hplace n hn
      · next hdot =>
        split at hn
        · exact hplace n (List.dropLast_subset _ hn)
        · next hdots =>
          rcases List.mem_append.mp hn with hn | hn
          · exact hplace n hn
          · rw [List.mem_singleton.mp hn]
            exact ⟨hnames.1.1, hdot, hdots, hnames.1.2⟩
  refine hfold p.parts hp _ fun name hname ↦ ?_
  rw [FileSystem.origin] at hname
  split at hname
  · cases hname
  · exact hcurrent name hname

end QuantumRisk.FileSystem
