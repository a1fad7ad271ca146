import QuantumRisk.Proofs.Store.Write

/-!
# The sequence of tokens

A token depends on the clock and on the token before it, so that one number carries the whole
history. Here the history is written out: the `n`-th token is the greatest of what the last token
and every reading so far ask for, each of them having grown by one with every draw since. Put the
other way round, tokens are never greater than they have to be. Among all sequences that grow from
above the last token and are at no point behind the clock (`Timely`) theirs is the least at every
point.

Bounds from above are what both forms have in common, so the closed form is proved through
`tokens_le_iff`, which says when a number is one.
-/

namespace QuantumRisk.Store

variable {last last' m : Int} {readings ts : List Int} {w : Workspace}

/-! ## The closed form -/

/-- What a token is at most, in terms of the whole history. -/
theorem tokens_le_iff {n : Nat} {t : Int} (h : (tokens last readings)[n]? = some t) (bound : Int) :
    t ≤ bound ↔ last + n + 1 ≤ bound ∧
      ∀ i ≤ n, ∀ ns, readings[i]? = some ns → millis ns + (n - i) ≤ bound := by
  induction readings generalizing last n with
  | nil => simp [tokens] at h
  | cons first readings ih =>
    rw [tokens] at h
    cases n with
    | zero =>
      obtain rfl : nextToken last first = t := by simpa using h
      rw [nextToken]
      constructor
      · intro hle
        refine ⟨by omega, fun i hi ns hns ↦ ?_⟩
        obtain rfl : i = 0 := by omega
        obtain rfl : first = ns := by simpa using hns
        omega
      · rintro ⟨hlast, hreadings⟩
        have := hreadings 0 (Nat.le_refl 0) first rfl
        omega
    | succ n =>
      rw [List.getElem?_cons_succ] at h
      rw [ih h, nextToken]
      -- the first token stands for the last one and for the first reading
      constructor
      · rintro ⟨hfirst, hrest⟩
        refine ⟨by omega, fun i hi ns hns ↦ ?_⟩
        cases i with
        | zero =>
          obtain rfl : first = ns := by simpa using hns
          omega
        | succ i =>
          have := hrest i (by omega) ns (by simpa using hns)
          omega
      · rintro ⟨hlast, hall⟩
        have hfirst := hall 0 (Nat.zero_le _) first rfl
        refine ⟨by omega, fun i hi ns hns ↦ ?_⟩
        have := hall (i + 1) (by omega) ns (by simpa using hns)
        omega

theorem length_tokens (last : Int) (readings : List Int) :
    (tokens last readings).length = readings.length := by
  induction readings generalizing last with
  | nil => rfl
  | cons ns readings ih => rw [tokens, List.length_cons, List.length_cons, ih]

theorem getElem?_tokens (last : Int) (readings : List Int) (n : Fin readings.length) :
    (tokens last readings)[n.val]? = some (max (last + n + 1)
      ((Finset.Iic n).sup' Finset.nonempty_Iic fun i ↦ millis (readings.get i) + (n - i))) := by
  have hn : n.val < (tokens last readings).length := by
    rw [length_tokens]
    exact n.isLt
  rw [List.getElem?_eq_getElem hn, Option.some_inj]
  refine eq_of_forall_ge_iff fun bound ↦ ?_
  rw [tokens_le_iff (List.getElem?_eq_getElem hn) bound, max_le_iff, Finset.sup'_le_iff]
  refine and_congr_right fun _ ↦ ?_
  constructor
  · intro h i hi
    have hle : i ≤ n := Finset.mem_Iic.mp hi
    exact h i hle _ (List.getElem?_eq_getElem i.isLt)
  · intro h i hi ns hns
    obtain ⟨hlt, rfl⟩ := List.getElem?_eq_some_iff.mp hns
    exact h ⟨i, hlt⟩ (Finset.mem_Iic.mpr hi)

/-! ## The least sequence -/

/-- A sequence of numbers that grows from above `last` and is at no point behind the clock. -/
structure Timely (last : Int) (readings ts : List Int) : Prop where
  growing : (last :: ts).Pairwise (· < ·)
  abreast : List.Forall₂ (fun ns t ↦ millis ns ≤ t) readings ts

theorem Timely.of_le (h : Timely last readings ts) (hle : last' ≤ last) :
    Timely last' readings ts := by
  obtain ⟨habove, hts⟩ := List.pairwise_cons.mp h.growing
  exact ⟨List.pairwise_cons.mpr ⟨fun t ht ↦ Int.lt_of_le_of_lt hle (habove t ht), hts⟩, h.abreast⟩

theorem timely_cons {ns t : Int} :
    Timely last (ns :: readings) (t :: ts) ↔
      nextToken last ns ≤ t ∧ Timely t readings ts := by
  rw [nextToken]
  constructor
  · rintro ⟨hgrow, habreast⟩
    obtain ⟨habove, hts⟩ := List.pairwise_cons.mp hgrow
    obtain ⟨hclock, hrest⟩ := List.forall₂_cons.mp habreast
    have hlast := habove t List.mem_cons_self
    exact ⟨by omega, hts, hrest⟩
  · rintro ⟨hle, hgrow, habreast⟩
    obtain ⟨habove, -⟩ := List.pairwise_cons.mp hgrow
    refine ⟨List.pairwise_cons.mpr ⟨fun u hu ↦ ?_, hgrow⟩, .cons (by omega) habreast⟩
    rcases List.mem_cons.mp hu with rfl | hu
    · omega
    · have := habove u hu
      omega

theorem timely_tokens (last : Int) (readings : List Int) :
    Timely last readings (tokens last readings) := by
  induction readings generalizing last with
  | nil => exact ⟨List.pairwise_singleton _ _, .nil⟩
  | cons ns readings ih =>
    rw [tokens, timely_cons]
    exact ⟨Int.le_refl _, ih _⟩

theorem Timely.tokens_le (h : Timely last readings ts) :
    List.Forall₂ (· ≤ ·) (tokens last readings) ts := by
  induction readings generalizing last ts with
  | nil =>
    cases h.abreast
    exact .nil
  | cons ns readings ih =>
    cases ts with
    | nil => cases h.abreast
    | cons t ts =>
      obtain ⟨hle, hrest⟩ := timely_cons.mp h
      exact .cons hle (ih (hrest.of_le hle))

/-- A sequence that is timely and least of all is the sequence of tokens. -/
theorem eq_tokens_iff :
    ts = tokens last readings ↔
      Timely last readings ts ∧ ∀ us, Timely last readings us → List.Forall₂ (· ≤ ·) ts us := by
  constructor
  · rintro rfl
    exact ⟨timely_tokens last readings, fun us hus ↦ hus.tokens_le⟩
  · rintro ⟨htimely, hleast⟩
    have hle := hleast _ (timely_tokens last readings)
    have hge := htimely.tokens_le
    exact List.ext_getElem hle.length_eq fun n hn hn' ↦
      Int.le_antisymm (List.Forall₂.get hle hn hn') (List.Forall₂.get hge hn' hn)

/-! ## Drawing -/

/-- The workspace after some draws. -/
def drawn : Nat → Workspace → Workspace
  | 0, w => w
  | n + 1, w => drawn n (draw w).2

/-- The tokens that are drawn one after another are those of the readings of the clock. -/
theorem getElem?_tokens_clock {n : Nat} (hn : n ≤ w.ticks.length) :
    (tokens w.lastToken (w.clock :: w.ticks))[n]? = some (draw (drawn n w)).1 := by
  induction n generalizing w with
  | zero => rfl
  | succ n ih =>
    have hdraw : (draw w).2.clock :: (draw w).2.ticks = w.ticks := by
      obtain ⟨ns, ticks, hticks⟩ := List.exists_cons_of_length_pos (Nat.zero_lt_of_lt hn)
      simp [draw, hticks]
    have hn' : n ≤ (draw w).2.ticks.length := by
      rw [← hdraw, List.length_cons] at hn
      omega
    have h := ih hn'
    rw [hdraw] at h
    exact h

theorem drawn_succ (n : Nat) (w : Workspace) : drawn (n + 1) w = (draw (drawn n w)).2 := by
  induction n generalizing w with
  | zero => rfl
  | succ n ih => exact ih (draw w).2

@[simp] theorem drawn_files (n : Nat) (w : Workspace) : (drawn n w).files = w.files := by
  induction n with
  | zero => rfl
  | succ n ih => rwa [drawn_succ]

/-- Drawing has nothing to do with the tree. -/
theorem drawn_with_files (n : Nat) (w : Workspace) (fs : FileSystem) :
    drawn n { w with files := fs } = { drawn n w with files := fs } := by
  induction n generalizing w with
  | zero => rfl
  | succ n ih => exact ih (draw w).2

/-- After its last tick the clock stands still. -/
theorem clock_drawn (hticks : w.ticks = []) (n : Nat) : (drawn n w).clock = w.clock := by
  induction n generalizing w with
  | zero => rfl
  | succ n ih => simp [drawn, ih, draw, hticks]

/-- The clock stands at `m` milliseconds for the next `n` draws. -/
def Standing (m : Int) (n : Nat) (w : Workspace) : Prop := ∀ j < n, millis (drawn j w).clock = m

theorem Standing.with_files {n : Nat} (h : Standing m n w) (fs : FileSystem) :
    Standing m n { w with files := fs } := fun j hj ↦ by
  rw [drawn_with_files]
  exact h j hj

/-- While the clock stands still, tokens are consecutive. -/
theorem Standing.draw_drawn {n : Nat} (h : Standing m (n + 1) w) :
    (Store.draw (drawn n w)).1 = max m (w.lastToken + 1) + n := by
  induction n with
  | zero =>
    have hclock : millis w.clock = m := h 0 Nat.zero_lt_one
    simp [drawn, Store.draw, nextToken, hclock]
  | succ n ih =>
    have hbefore := ih fun j hj ↦ h j (Nat.lt_succ_of_lt hj)
    have hclock := h (n + 1) (Nat.lt_succ_self _)
    have hlast : (drawn (n + 1) w).lastToken = max m (w.lastToken + 1) + n := by
      rw [drawn_succ, ← hbefore]
      rfl
    rw [Store.draw, nextToken, hclock, hlast]
    push_cast
    omega

/-- **The sequence of tokens**, for every last token and all readings of the clock, in any order:
the `n`-th token is the greatest of what the last token and the readings up to then ask for. This is
the least sequence, at every point, of those that grow from above the last token and are at no point
behind the clock. The tokens that a workspace draws are such a sequence. -/
theorem tokens_history (last : Int) (readings : List Int) :
    (∀ n : Fin readings.length, (tokens last readings)[n.val]? = some (max (last + n + 1)
      ((Finset.Iic n).sup' Finset.nonempty_Iic fun i ↦ millis (readings.get i) + (n - i)))) ∧
    (∀ ts, ts = tokens last readings ↔
      Timely last readings ts ∧ ∀ us, Timely last readings us → List.Forall₂ (· ≤ ·) ts us) ∧
    ∀ (w : Workspace) (n : Fin (w.clock :: w.ticks).length),
      (tokens w.lastToken (w.clock :: w.ticks))[n.val]? = some (draw (drawn n w)).1 :=
  ⟨getElem?_tokens last readings, fun _ ↦ eq_tokens_iff,
    fun _ n ↦ getElem?_tokens_clock (Nat.le_of_lt_succ n.isLt)⟩

end QuantumRisk.Store
