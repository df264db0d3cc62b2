import Mathlib

/- A cache with a capacity that drops the entry used longest ago. The entries stand in
   the order of their last use, one for each key, so a cache that is over its capacity or
   holds a key twice cannot be built. -/
namespace LruCache

variable {K V : Type} [DecidableEq K]

structure Lru (K V : Type) where
  cap : Nat
  entries : List (K × V)
  room : 0 < cap
  once : (entries.map Prod.fst).Nodup
  bounded : entries.length ≤ cap

namespace Lru

def create (cap : Nat) (room : 0 < cap) : Lru K V := ⟨cap, [], room, by simp, by simp⟩

def without (es : List (K × V)) (k : K) : List (K × V) := es.filter fun e => e.1 ≠ k

def find (c : Lru K V) (k : K) : Option V := (c.entries.find? fun e => e.1 = k).map Prod.snd

theorem without_once {es : List (K × V)} (once : (es.map Prod.fst).Nodup) (k : K) :
    ((without es k).map Prod.fst).Nodup :=
  once.sublist (List.filter_sublist.map _)

theorem not_mem_without (es : List (K × V)) (k : K) : k ∉ (without es k).map Prod.fst := by
  simp [without]

theorem cons_once {es : List (K × V)} (once : (es.map Prod.fst).Nodup) (k : K) (v : V) :
    (((k, v) :: without es k).map Prod.fst).Nodup := by
  rw [List.map_cons, List.nodup_cons]
  exact ⟨not_mem_without es k, without_once once k⟩

/-- The entry comes first; when there is no room for it the last one goes, and is
    returned. An entry that is there is replaced. -/
def put (c : Lru K V) (k : K) (v : V) : Option (K × V) × Lru K V :=
  let rest := without c.entries k
  if fits : rest.length < c.cap then
    (none, ⟨c.cap, (k, v) :: rest, c.room, cons_once c.once k v, by simp only [List.length_cons]; omega⟩)
  else
    (rest.getLast?,
      ⟨c.cap, (k, v) :: rest.dropLast, c.room,
        (cons_once c.once k v).sublist (((List.dropLast_sublist rest).cons_cons (k, v)).map _), by
        have short : rest.length ≤ c.cap := (List.length_filter_le _ _).trans c.bounded
        have room := c.room
        simp only [List.length_cons, List.length_dropLast]
        omega⟩)

def touch (c : Lru K V) (k : K) : Lru K V :=
  match c.find k with
  | some v => (c.put k v).2
  | none => c

def total (f : V → Nat) (es : List (K × V)) : Nat := (es.map fun e => f e.2).sum

@[simp] theorem put_cap (c : Lru K V) (k : K) (v : V) : (c.put k v).2.cap = c.cap := by
  unfold put
  dsimp only
  split <;> rfl

@[simp] theorem touch_cap (c : Lru K V) (k : K) : (c.touch k).cap = c.cap := by
  unfold touch
  split
  · exact put_cap c k _
  · rfl

/-- What `find` sees of a list of entries. -/
def look (es : List (K × V)) (k : K) : Option V := (es.find? fun e => e.1 = k).map Prod.snd

theorem look_cons (es : List (K × V)) (k : K) (v : V) (j : K) :
    look ((k, v) :: es) j = if j = k then some v else look es j := by
  by_cases same : j = k
  · simp [look, same]
  · simp [look, same, Ne.symm same]

theorem without_cons (es : List (K × V)) (k k' : K) (v : V) :
    without ((k', v) :: es) k = if k' = k then without es k else (k', v) :: without es k := by
  by_cases mine : k' = k <;> simp [without, mine]

theorem look_without (es : List (K × V)) (k j : K) :
    look (without es k) j = if j = k then none else look es j := by
  induction es with
  | nil => simp [look, without]
  | cons e es ih =>
    obtain ⟨k', v⟩ := e
    rw [without_cons]
    by_cases mine : k' = k
    · rw [if_pos mine, ih, look_cons]
      by_cases same : j = k
      · simp [same]
      · simp [same, mine]
    · rw [if_neg mine, look_cons, look_cons, ih]
      by_cases same : j = k
      · simp [same, Ne.symm mine]
      · simp [same]

theorem look_none {es : List (K × V)} {k : K} (absent : k ∉ es.map Prod.fst) : look es k = none := by
  unfold look
  rw [Option.map_eq_none_iff, List.find?_eq_none]
  intro e here
  simp only [decide_eq_true_eq]
  intro same
  exact absent (List.mem_map.mpr ⟨e, here, same⟩)

theorem look_mem {es : List (K × V)} {k : K} {v : V} (found : look es k = some v) :
    (k, v) ∈ es := by
  unfold look at found
  obtain ⟨e, first, rfl⟩ := Option.map_eq_some_iff.mp found
  have key : e.1 = k := by simpa using List.find?_some first
  have here := List.mem_of_find?_eq_some first
  rwa [← key]

theorem look_of_mem {es : List (K × V)} (once : (es.map Prod.fst).Nodup) {k : K} {v : V}
    (here : (k, v) ∈ es) : look es k = some v := by
  induction es with
  | nil => cases here
  | cons e es ih =>
    obtain ⟨k', v'⟩ := e
    rw [List.map_cons, List.nodup_cons] at once
    rw [look_cons]
    rcases List.mem_cons.mp here with first | later
    · cases first
      simp
    · have other : k ≠ k' := by
        intro same
        subst k'
        exact once.1 (List.mem_map.mpr ⟨(k, v), later, rfl⟩)
      rw [if_neg other]
      exact ih once.2 later

theorem look_append_last {es : List (K × V)} {j : K} {u : V} (once : (es.map Prod.fst).Nodup)
    (last : es.getLast? = some (j, u)) (k : K) :
    look es.dropLast k = if k = j then none else look es k := by
  have whole := List.dropLast_append_getLast? (j, u) last
  have split : (es.dropLast.map Prod.fst ++ [j]).Nodup := by
    have := congrArg (List.map Prod.fst) whole
    rw [List.map_append] at this
    simp only [List.map_cons, List.map_nil] at this
    rwa [this]
  rw [List.nodup_append] at split
  have absent : j ∉ es.dropLast.map Prod.fst := fun here => split.2.2 j here j (by simp) rfl
  by_cases same : k = j
  · rw [if_pos same, same, look_none absent]
  · rw [if_neg same]
    conv_rhs => rw [← whole]
    unfold look
    rw [List.find?_append]
    simp [Ne.symm same]

/-- The one rule for a `put`: the key is bound, an evicted key is gone, the rest stays. -/
theorem find_put (c : Lru K V) (k : K) (v : V) (j : K) :
    (c.put k v).2.find j =
      if j = k then some v
      else if (c.put k v).1.map Prod.fst = some j then none else c.find j := by
  change look (c.put k v).2.entries j = if j = k then some v
    else if (c.put k v).1.map Prod.fst = some j then none else look c.entries j
  unfold put
  dsimp only
  split
  · rw [look_cons, look_without]
    by_cases same : j = k <;> simp [same]
  · rw [look_cons]
    by_cases same : j = k
    · simp [same]
    · rw [if_neg same, if_neg same]
      cases last : (without c.entries k).getLast? with
      | none =>
        have empty := List.getLast?_eq_none_iff.mp last
        have before := look_without c.entries k j
        rw [if_neg same, empty] at before
        simp [empty, ← before]
      | some e =>
        obtain ⟨i, u⟩ := e
        rw [look_append_last (without_once c.once k) last j, look_without, if_neg same]
        by_cases gone : j = i <;> simp [gone, eq_comm]

theorem put_evicts {c : Lru K V} {k j : K} {v u : V} (evicted : (c.put k v).1 = some (j, u)) :
    j ≠ k ∧ c.find j = some u := by
  unfold put at evicted
  dsimp only at evicted
  split at evicted
  · cases evicted
  · have here : (j, u) ∈ without c.entries k := List.mem_of_getLast? evicted
    simp only [without, List.mem_filter, decide_eq_true_eq] at here
    exact ⟨here.2, look_of_mem c.once here.1⟩

theorem without_absent {es : List (K × V)} {k : K} (absent : k ∉ es.map Prod.fst) :
    without es k = es := by
  unfold without
  rw [List.filter_eq_self]
  intro e here
  simp only [decide_eq_true_eq]
  intro same
  exact absent (List.mem_map.mpr ⟨e, here, same⟩)

theorem length_without {es : List (K × V)} (once : (es.map Prod.fst).Nodup) {k : K} {v : V}
    (found : look es k = some v) : (without es k).length + 1 = es.length := by
  induction es with
  | nil => simp [look] at found
  | cons e es ih =>
    obtain ⟨k', v'⟩ := e
    rw [List.map_cons, List.nodup_cons] at once
    rw [look_cons] at found
    by_cases mine : k' = k
    · subst k'
      rw [without_cons, if_pos rfl, without_absent once.1, List.length_cons]
    · rw [if_neg (Ne.symm mine)] at found
      rw [without_cons, if_neg mine, List.length_cons, List.length_cons, ih once.2 found]

theorem put_present {c : Lru K V} {k : K} {u v : V} (found : c.find k = some u) :
    (c.put k v).1 = none := by
  have shorter := length_without c.once found
  have bounded := c.bounded
  unfold put
  dsimp only
  rw [dif_pos (by omega)]

@[simp] theorem find_touch (c : Lru K V) (k j : K) : (c.touch k).find j = c.find j := by
  unfold touch
  split
  · next v found =>
    rw [find_put, put_present found]
    by_cases same : j = k
    · simp [same, found]
    · simp [same]
  · rfl

theorem total_without (f : V → Nat) {es : List (K × V)} (once : (es.map Prod.fst).Nodup) {k : K}
    {v : V} (found : look es k = some v) : total f es = f v + total f (without es k) := by
  induction es with
  | nil => simp [look] at found
  | cons e es ih =>
    obtain ⟨k', v'⟩ := e
    rw [List.map_cons, List.nodup_cons] at once
    rw [look_cons] at found
    by_cases mine : k' = k
    · subst k'
      rw [if_pos rfl] at found
      cases found
      rw [without_cons, if_pos rfl, without_absent once.1]
      simp [total]
    · rw [if_neg (Ne.symm mine)] at found
      rw [without_cons, if_neg mine]
      have rest := ih once.2 found
      simp only [total, List.map_cons, List.sum_cons] at rest ⊢
      omega

theorem total_touch (f : V → Nat) (c : Lru K V) (k : K) :
    total f (c.touch k).entries = total f c.entries := by
  unfold touch
  split
  · next v found =>
    have shorter := length_without c.once found
    have bounded := c.bounded
    have weighed := total_without f c.once found
    unfold put
    dsimp only
    rw [dif_pos (by omega), weighed]
    simp [total]
  · rfl

/-- The weight of a cache changes by the new value, the one replaced and the one evicted. -/
theorem total_put (f : V → Nat) (c : Lru K V) (k : K) (v : V) :
    total f (c.put k v).2.entries + (c.find k).elim 0 f + (c.put k v).1.elim 0 (fun e => f e.2) =
      total f c.entries + f v := by
  have rest : total f c.entries = (c.find k).elim 0 f + total f (without c.entries k) := by
    cases found : c.find k with
    | some u => exact total_without f c.once found
    | none =>
      have absent : k ∉ c.entries.map Prod.fst := by
        intro here
        obtain ⟨⟨j, u⟩, inside, same⟩ := List.mem_map.mp here
        subst same
        have there : c.find j = some u := look_of_mem c.once inside
        simp [there] at found
      rw [without_absent absent]
      simp
  unfold put
  dsimp only
  split
  · simp only [total, List.map_cons, List.sum_cons, Option.elim] at rest ⊢
    omega
  · cases last : (without c.entries k).getLast? with
    | none =>
      have empty := List.getLast?_eq_none_iff.mp last
      simp only [empty, total, List.dropLast_nil, List.map_cons, List.map_nil, List.sum_cons, List.sum_nil,
        Option.elim] at rest ⊢
      omega
    | some e =>
      have whole := List.dropLast_append_getLast? e last
      have parts : total f (without c.entries k) =
          total f (without c.entries k).dropLast + f e.2 := by
        conv_lhs => rw [← whole]
        simp [total]
      simp only [total, List.map_cons, List.sum_cons, Option.elim] at rest parts ⊢
      omega

omit [DecidableEq K] in
theorem total_le {f : V → Nat} {m : Nat} {es : List (K × V)} (each : ∀ e, e ∈ es → f e.2 ≤ m) :
    total f es ≤ m * es.length := by
  induction es with
  | nil => simp [total]
  | cons e es ih =>
    have first := each e (by simp)
    have later := ih fun e here => each e (by simp [here])
    simp only [total, List.map_cons, List.sum_cons, List.length_cons, Nat.mul_succ] at later ⊢
    omega

theorem total_bound {f : V → Nat} {m : Nat} (c : Lru K V)
    (each : ∀ k v, c.find k = some v → f v ≤ m) : total f c.entries ≤ m * c.cap := by
  have sized : total f c.entries ≤ m * c.entries.length :=
    total_le fun e here => each e.1 e.2 (look_of_mem c.once here)
  exact sized.trans (Nat.mul_le_mul_left m c.bounded)

end Lru

end LruCache
