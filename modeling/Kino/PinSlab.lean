import Kino.Ownership

/-!
The slab of pinned values (ext/kino/src/pin.rs): a fixed row of slots, each empty or
rooting one value, and a cursor from which a free slot is searched for. An insert or a
release is one atomic step.
-/
namespace KinoPinSlab
open Ownership

variable {V : Type}

/-- The cursor is a `usize` that wraps at 2^64. A slab starts with it at 0, and each insert adds
    one, so no run comes to the wrap that has fewer than 2^64 inserts. -/
structure PinSlab (V : Type) where
  slots : List (Option V)
  cursor : Nat
  deriving DecidableEq, Repr

def withCapacity (capacity : Nat) : PinSlab V := ⟨List.replicate capacity none, 0⟩

def vacant (s : PinSlab V) (i : Nat) : Bool :=
  match s.slots[i]? with
  | some none => true
  | _ => false

def Roots (s : PinSlab V) (i : Nat) (v : V) : Prop := s.slots[i]? = some (some v)

/-- `PinSlab::insert`: the first empty slot from the cursor on, round the row. -/
def PinSlab.insert (s : PinSlab V) (v : V) : Option Nat × PinSlab V :=
  let n := s.slots.length
  match ((List.range n).map fun offset => (s.cursor + offset) % n).find? (vacant s) with
  | some i => (some i, ⟨s.slots.set i (some v), s.cursor + 1⟩)
  | none => (none, ⟨s.slots, s.cursor + 1⟩)

def PinSlab.release (s : PinSlab V) (i : Nat) : PinSlab V := { s with slots := s.slots.set i none }

def occupied (s : PinSlab V) : Nat := s.slots.countP Option.isSome

theorem insert_cases (s : PinSlab V) (v : V) :
    (∃ i, vacant s i = true ∧ s.insert v = (some i, ⟨s.slots.set i (some v), s.cursor + 1⟩)) ∨
    ((∀ i, vacant s i = false) ∧ s.insert v = (none, ⟨s.slots, s.cursor + 1⟩)) := by
  unfold PinSlab.insert
  dsimp only
  split
  · next i found => exact .inl ⟨i, List.find?_some found, rfl⟩
  · next none_found =>
    refine .inr ⟨?_, rfl⟩
    intro i
    rw [List.find?_eq_none] at none_found
    by_cases inside : i < s.slots.length
    · obtain ⟨k, less, here⟩ := round_covers s.cursor inside
      simpa using none_found i (List.mem_map.mpr ⟨k, List.mem_range.mpr less, here⟩)
    · simp [vacant, List.getElem?_eq_none (Nat.le_of_not_lt inside)]

theorem vacant_iff (s : PinSlab V) (i : Nat) : vacant s i = true ↔ s.slots[i]? = some none := by
  unfold vacant
  split <;> simp_all

theorem occupied_set {row : List (Option V)} {i : Nat} {old : Option V} (was : row[i]? = some old)
    (new : Option V) :
    (row.set i new).countP Option.isSome + (if old.isSome then 1 else 0) =
      row.countP Option.isSome + (if new.isSome then 1 else 0) := by
  induction row generalizing i with
  | nil => simp at was
  | cons head row ih =>
    cases i with
    | zero =>
      simp only [List.getElem?_cons_zero, Option.some.injEq] at was
      subst head
      simp only [List.set_cons_zero, List.countP_cons]
      omega
    | succ i =>
      simp only [List.getElem?_cons_succ] at was
      have rest := ih was
      simp only [List.set_cons_succ, List.countP_cons]
      omega

theorem occupied_insert {s : PinSlab V} {i : Nat} (v : V) (empty : vacant s i = true) :
    occupied ⟨s.slots.set i (some v), s.cursor + 1⟩ = occupied s + 1 := by
  have counted := occupied_set ((vacant_iff s i).mp empty) (some v)
  simpa [occupied] using counted

theorem occupied_release {s : PinSlab V} {i : Nat} {v : V} (rooted : Roots s i v) :
    occupied (s.release i) + 1 = occupied s := by
  have counted := occupied_set rooted none
  simpa [occupied, PinSlab.release] using counted

theorem insert_room {s : PinSlab V} (v : V) (room : occupied s < s.slots.length) :
    (s.insert v).1 ≠ none := by
  intro full
  rcases insert_cases s v with ⟨i, _, eq⟩ | ⟨all, _⟩
  · simp [eq] at full
  · have every : s.slots.countP Option.isSome = s.slots.length := by
      rw [List.countP_eq_length]
      intro slot here
      obtain ⟨i, inside, same⟩ := List.mem_iff_getElem.mp here
      have filled := all i
      by_contra hollow
      have empty : slot = none := by simpa using hollow
      rw [Bool.eq_false_iff] at filled
      exact filled ((vacant_iff s i).mpr (by rw [List.getElem?_eq_getElem inside, same, empty]))
    unfold occupied at room
    omega

theorem roots_set {s : PinSlab V} {i j c : Nat} {v : V} {new : Option V} (other : j ≠ i) :
    Roots ⟨s.slots.set i new, c⟩ j v ↔ Roots s j v := by
  unfold Roots
  simp [Ne.symm other]

theorem roots_insert {s : PinSlab V} {i c : Nat} (v : V) (empty : vacant s i = true) :
    Roots ⟨s.slots.set i (some v), c⟩ i v := by
  have was := (vacant_iff s i).mp empty
  have inside : i < s.slots.length := by
    by_contra outside
    rw [List.getElem?_eq_none (Nat.le_of_not_lt outside)] at was
    cases was
  unfold Roots
  simp [inside]

end KinoPinSlab
