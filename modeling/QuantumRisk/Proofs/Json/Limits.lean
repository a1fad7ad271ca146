import Mathlib
import QuantumRisk.Json.Limits

/-!
# Values within the limits

What a writer refuses can be said without following it: it refuses a value if a number in it has too
many digits, or if there is too much of it one inside the other (`overrun_eq_none_iff`).
-/

namespace QuantumRisk.Json

mutual

/-- How many lists and records stand one inside the other. -/
def nesting : Json → Nat
  | .arr items => nestingItems items + 1
  | .obj members => nestingMembers members + 1
  | _ => 0

def nestingItems : List Json → Nat
  | [] => 0
  | v :: vs => max (nesting v) (nestingItems vs)

def nestingMembers : List (String × Json) → Nat
  | [] => 0
  | (_, v) :: ms => max (nesting v) (nestingMembers ms)

end

mutual

/-- The whole numbers in a value. -/
def integers : Json → List Int
  | .int n => [n]
  | .arr items => integersOfItems items
  | .obj members => integersOfMembers members
  | _ => []

def integersOfItems : List Json → List Int
  | [] => []
  | v :: vs => integers v ++ integersOfItems vs

def integersOfMembers : List (String × Json) → List Int
  | [] => []
  | (_, v) :: ms => integers v ++ integersOfMembers ms

end

/-- A value within the limits. -/
structure Fits (limits : Limits) (v : Json) : Prop where
  nesting : v.nesting ≤ limits.nesting
  digits : ∀ n ∈ v.integers, n.natAbs < 10 ^ limits.digits

variable {limits : Limits}

theorem fits_str (s : String) : Fits limits (.str s) :=
  ⟨Nat.zero_le _, fun _ h ↦ absurd h List.not_mem_nil⟩

theorem fits_null : Fits limits .null := ⟨Nat.zero_le _, fun _ h ↦ absurd h List.not_mem_nil⟩

theorem fits_int {n : Int} (h : n.natAbs < 10 ^ limits.digits) : Fits limits (.int n) :=
  ⟨Nat.zero_le _, fun _ hm ↦ List.mem_singleton.mp hm ▸ h⟩

/-- A number with few digits. -/
theorem short_of_lt {n : Int} {k : Nat} (h : n.natAbs < 10 ^ k) (hk : k ≤ limits.digits) :
    n.natAbs < 10 ^ limits.digits :=
  Nat.lt_of_lt_of_le h (Nat.pow_le_pow_right (by decide) hk)

mutual

theorem overrun_eq_none (digits : Nat) : ∀ (v : Json) (room : Nat),
    overrun digits room v = none ↔ v.nesting ≤ room ∧ ∀ n ∈ v.integers, n.natAbs < 10 ^ digits
  | .int n, room => by simp [overrun, nesting, integers]
  | .arr items, 0 => by simp [overrun, nesting]
  | .obj members, 0 => by simp [overrun, nesting]
  | .arr items, room + 1 => by
    rw [overrun, overrunItems_eq_none digits items room, nesting, integers,
      Nat.add_le_add_iff_right]
  | .obj members, room + 1 => by
    rw [overrun, overrunMembers_eq_none digits members room, nesting, integers,
      Nat.add_le_add_iff_right]
  | .null, room | .bool _, room | .float _, room | .str _, room => by
    simp [overrun, nesting, integers]

theorem overrunItems_eq_none (digits : Nat) : ∀ (vs : List Json) (room : Nat),
    overrunItems digits room vs = none ↔
      nestingItems vs ≤ room ∧ ∀ n ∈ integersOfItems vs, n.natAbs < 10 ^ digits
  | [], room => by simp [overrunItems, nestingItems, integersOfItems]
  | v :: vs, room => by
    rw [overrunItems, Option.or_eq_none_iff, overrun_eq_none digits v room,
      overrunItems_eq_none digits vs room, nestingItems, integersOfItems, Nat.max_le,
      List.forall_mem_append, and_and_and_comm]

theorem overrunMembers_eq_none (digits : Nat) : ∀ (ms : List (String × Json)) (room : Nat),
    overrunMembers digits room ms = none ↔
      nestingMembers ms ≤ room ∧ ∀ n ∈ integersOfMembers ms, n.natAbs < 10 ^ digits
  | [], room => by simp [overrunMembers, nestingMembers, integersOfMembers]
  | (_, v) :: ms, room => by
    rw [overrunMembers, Option.or_eq_none_iff, overrun_eq_none digits v room,
      overrunMembers_eq_none digits ms room, nestingMembers, integersOfMembers, Nat.max_le,
      List.forall_mem_append, and_and_and_comm]

end

theorem overrun_eq_none_iff {v : Json} :
    overrun limits.digits limits.nesting v = none ↔ v.Fits limits := by
  rw [overrun_eq_none]
  exact ⟨fun h ↦ ⟨h.1, h.2⟩, fun h ↦ ⟨h.nesting, h.digits⟩⟩

/-- **A record is written** if everything in it is within the limits. -/
theorem overrunMembers_eq_none_iff {members : List (String × Json)} :
    overrunMembers limits.digits limits.nesting members = none ↔
      ∀ m ∈ members, m.2.Fits limits := by
  induction members with
  | nil => simp [overrunMembers]
  | cons m members ih =>
    obtain ⟨k, v⟩ := m
    rw [overrunMembers, Option.or_eq_none_iff, overrun_eq_none_iff, ih, List.forall_mem_cons]

end QuantumRisk.Json
