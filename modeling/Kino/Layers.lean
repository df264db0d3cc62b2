import Kino.OrderedHash

/- Values for keys, laid one over another: the upper one decides where it has a value. A hash
   that is filled entry by entry is such a pile, the last entry on top. -/
namespace Layers
open OrderedHash
variable {K V : Type}

def Layer (K V : Type) : Type := K → Option V

def bare : Layer K V := fun _ => none

def one [DecidableEq K] (k : K) (v : V) : Layer K V := fun j => if j = k then some v else none

def above (top bottom : Layer K V) : Layer K V := fun k => (top k).or (bottom k)

theorem above_bare (a : Layer K V) : above a bare = a := by
  funext k
  exact Option.or_none

theorem above_assoc (a b c : Layer K V) : above (above a b) c = above a (above b c) := by
  funext k
  exact Option.or_assoc

section Entries
variable [DecidableEq K]

def entries : List (K × V) → Layer K V
  | [] => bare
  | (k, v) :: rest => above (entries rest) (one k v)

theorem entries_mem {xs : List (K × V)} {k : K} {v : V} (found : entries xs k = some v) :
    (k, v) ∈ xs := by
  induction xs with
  | nil => cases found
  | cons x xs ih =>
    obtain ⟨j, u⟩ := x
    simp only [entries, above, Option.or_eq_some_iff] at found
    rcases found with later | ⟨_, here⟩
    · exact List.mem_cons_of_mem _ (ih later)
    · unfold one at here
      split at here
      · next same =>
        cases here
        subst same
        exact List.mem_cons_self
      · cases here

theorem entries_none {xs : List (K × V)} {k : K} (absent : k ∉ xs.map Prod.fst) :
    entries xs k = none := by
  cases found : entries xs k with
  | none => rfl
  | some v => exact absurd (List.mem_map.mpr ⟨(k, v), entries_mem found, rfl⟩) absent

theorem entries_absent {xs : List (K × V)} {k : K} (none_here : entries xs k = none) :
    k ∉ xs.map Prod.fst := by
  induction xs with
  | nil => simp
  | cons x xs ih =>
    obtain ⟨j, v⟩ := x
    simp only [entries, above, Option.or_eq_none_iff] at none_here
    have other : k ≠ j := by
      intro same
      simp [one, same] at none_here
    simp only [List.map_cons, List.mem_cons, not_or]
    exact ⟨other, ih none_here.1⟩

theorem entries_table (keys : List K) (value : K → V) {k : K} (here : k ∈ keys) :
    entries (keys.map fun j => (j, value j)) k = some (value k) := by
  induction keys with
  | nil => simp at here
  | cons j keys ih =>
    simp only [List.map_cons, entries, above]
    by_cases later : k ∈ keys
    · rw [ih later]
      rfl
    · have same : k = j := by simpa [later] using here
      rw [entries_none (by simpa using later)]
      simp [one, same]

def ofHash (h : Hash K V) : Layer K V := h.find

theorem ofHash_put (h : Hash K V) (k : K) (v : V) : ofHash (h.put k v) = above (one k v) (ofHash h) := by
  funext j
  unfold ofHash above one
  rw [Hash.find_put]
  split <;> rfl

theorem ofHash_putNew (h : Hash K V) (k : K) (v : V) :
    ofHash (h.putNew k v) = above (ofHash h) (one k v) := by
  funext j
  unfold ofHash above one
  rw [Hash.find_putNew]
  by_cases same : j = k
  · subst same
    cases h.find j <;> simp
  · simp [same]

def fill (h : Hash K V) (xs : List (K × V)) : Hash K V :=
  xs.foldl (fun h e => h.put e.1 e.2) h

theorem ofHash_fill (h : Hash K V) (xs : List (K × V)) :
    ofHash (fill h xs) = above (entries xs) (ofHash h) := by
  induction xs generalizing h with
  | nil => rfl
  | cons x xs ih =>
    obtain ⟨k, v⟩ := x
    change ofHash (fill (h.put k v) xs) = above (above (entries xs) (one k v)) (ofHash h)
    rw [ih, ofHash_put, above_assoc]

theorem ofHash_empty : ofHash (Hash.empty : Hash K V) = bare := rfl

end Entries

end Layers
