import Mathlib

/- Counts of values by ascending upper bounds. A value is counted under the first bound
   that is not below it, and the running sums of the counts give back how many values
   are at most each bound. -/
namespace Histograms

def place (bounds : List Nat) (value : Nat) : Option Nat := bounds.findIdx? fun b => value ≤ b

def tally (bounds values : List Nat) : List Nat :=
  (List.range bounds.length).map fun i => values.countP fun v => place bounds v = some i

def above (bounds values : List Nat) : Nat := values.countP fun v => place bounds v = none

def sums : Nat → List Nat → List Nat
  | _, [] => []
  | total, c :: cs => (total + c) :: sums (total + c) cs

@[simp] theorem tally_length (bounds values : List Nat) :
    (tally bounds values).length = bounds.length := by
  simp [tally]

@[simp] theorem sums_length (total : Nat) (cs : List Nat) : (sums total cs).length = cs.length := by
  induction cs generalizing total with
  | nil => simp [sums]
  | cons c cs ih => simp [sums, ih]

theorem place_cons (b : Nat) (bounds : List Nat) (v : Nat) :
    place (b :: bounds) v = if v ≤ b then some 0 else (place bounds v).map (· + 1) := by
  simp [place, List.findIdx?_cons]

theorem tally_cons (b : Nat) (bounds values : List Nat) :
    tally (b :: bounds) values =
      values.countP (· ≤ b) :: tally bounds (values.filter fun v => ¬v ≤ b) := by
  unfold tally
  rw [List.length_cons, List.range_succ_eq_map, List.map_cons, List.map_map]
  congr 1
  · apply List.countP_congr
    intro v _
    rw [place_cons]
    by_cases small : v ≤ b
    · simp [small]
    · simp [small]
  · apply List.map_congr_left
    intro i _
    rw [Function.comp_apply, List.countP_filter]
    apply List.countP_congr
    intro v _
    rw [place_cons]
    by_cases small : v ≤ b
    · simp [small]
    · simp [small]

theorem sums_add (a b : Nat) (cs : List Nat) : sums (a + b) cs = (sums b cs).map (a + ·) := by
  induction cs generalizing b with
  | nil => simp [sums]
  | cons c cs ih => simp [sums, Nat.add_assoc, ih]

theorem sums_tally {bounds : List Nat} (ascending : bounds.Pairwise (· ≤ ·)) (values : List Nat) :
    sums 0 (tally bounds values) = bounds.map fun b => values.countP (· ≤ b) := by
  induction bounds generalizing values with
  | nil => simp [tally, sums]
  | cons b bounds ih =>
    obtain ⟨least, rest⟩ := List.pairwise_cons.mp ascending
    rw [tally_cons, sums, List.map_cons, Nat.zero_add]
    congr 1
    rw [← Nat.add_zero (values.countP _), sums_add, ih rest, List.map_map]
    apply List.map_congr_left
    intro bound here
    have order := least bound here
    rw [Function.comp_apply, List.countP_filter]
    -- a value at most the bound is at most the least one or between the two
    induction values with
    | nil => simp
    | cons v values each =>
      simp only [List.countP_cons, decide_eq_true_eq, Bool.and_eq_true, not_le] at each ⊢
      by_cases small : v ≤ b
      · have within : v ≤ bound := by omega
        simp only [small, within, not_lt.mpr small, and_false, if_true, if_false]
        omega
      · have beyond : b < v := by omega
        simp only [small, beyond, and_true, if_false]
        omega

theorem tally_sum (bounds values : List Nat) :
    (tally bounds values).sum + above bounds values = values.length := by
  induction bounds generalizing values with
  | nil => simp [tally, above, place]
  | cons b bounds ih =>
    have later := ih (values.filter fun v => ¬v ≤ b)
    have rest : above (b :: bounds) values = above bounds (values.filter fun v => ¬v ≤ b) := by
      unfold above
      rw [List.countP_filter]
      apply List.countP_congr
      intro v _
      rw [place_cons]
      by_cases small : v ≤ b
      · simp [small]
      · simp [small]
    have parts := List.length_eq_countP_add_countP (fun v => decide (v ≤ b)) (l := values)
    rw [tally_cons, List.sum_cons, rest]
    rw [← List.countP_eq_length_filter] at later
    simp only [decide_eq_true_eq, not_le] at later parts ⊢
    omega

/-- One more value under a bound, or over them all. -/
theorem tally_snoc {bounds : List Nat} {v i : Nat} (values : List Nat)
    (at_i : place bounds v = some i) :
    tally bounds (values ++ [v]) = (tally bounds values).modify i (· + 1) := by
  apply List.ext_getElem
  · simp
  · intro j left right
    have inside : j < bounds.length := by simpa using left
    rw [List.getElem_modify]
    simp only [tally, List.getElem_map, List.getElem_range, List.countP_append, List.countP_singleton,
      at_i, Option.some.injEq, decide_eq_true_eq]
    split
    · rfl
    · rfl

theorem tally_snoc_none {bounds : List Nat} {v : Nat} (values : List Nat)
    (none_at : place bounds v = none) : tally bounds (values ++ [v]) = tally bounds values := by
  simp [tally, none_at]

theorem above_snoc (bounds values : List Nat) (v : Nat) :
    above bounds (values ++ [v]) =
      above bounds values + if place bounds v = none then 1 else 0 := by
  simp [above, List.countP_append, List.countP_singleton]

theorem tally_perm (bounds : List Nat) {values values' : List Nat} (same : values.Perm values') :
    tally bounds values = tally bounds values' ∧ above bounds values = above bounds values' := by
  constructor
  · apply List.map_congr_left
    intro i _
    exact same.countP_eq _
  · exact same.countP_eq _

theorem each_le_trans {xs ys zs : List Nat} (low : List.Forall₂ (· ≤ ·) xs ys)
    (high : List.Forall₂ (· ≤ ·) ys zs) : List.Forall₂ (· ≤ ·) xs zs := by
  induction low generalizing zs with
  | nil => exact high
  | cons first _ ih =>
    cases high with
    | cons second rest => exact .cons (first.trans second) (ih rest)

theorem tally_mono (bounds : List Nat) {values more : List Nat} (grown : values.Subperm more) :
    List.Forall₂ (· ≤ ·) (tally bounds values) (tally bounds more) ∧
      above bounds values ≤ above bounds more := by
  constructor
  · unfold tally
    rw [List.forall₂_map_left_iff, List.forall₂_map_right_iff, List.forall₂_same]
    intro i _
    exact grown.countP_le _
  · exact grown.countP_le _

theorem sums_ascending (total : Nat) (cs : List Nat) :
    (total :: sums total cs).Pairwise (· ≤ ·) := by
  induction cs generalizing total with
  | nil => simp [sums]
  | cons c cs ih =>
    have rest := ih (total + c)
    rw [sums, List.pairwise_cons]
    constructor
    · intro x here
      have least := (List.pairwise_cons.mp rest).1
      rcases List.mem_cons.mp here with rfl | later
      · omega
      · have := least x later
        omega
    · exact rest

theorem sums_le_total (total : Nat) (cs : List Nat) : ∀ x ∈ sums total cs, x ≤ total + cs.sum := by
  induction cs generalizing total with
  | nil => simp [sums]
  | cons c cs ih =>
    intro x here
    rw [List.sum_cons]
    rcases List.mem_cons.mp here with rfl | later
    · omega
    · have := ih (total + c) x later
      omega

theorem sums_mono {a b : Nat} {cs ds : List Nat} (start : a ≤ b)
    (each : List.Forall₂ (· ≤ ·) cs ds) : List.Forall₂ (· ≤ ·) (sums a cs) (sums b ds) := by
  induction each generalizing a b with
  | nil => simp [sums]
  | cons first _ ih =>
    rw [sums, sums]
    exact .cons (Nat.add_le_add start first) (ih (Nat.add_le_add start first))

end Histograms
