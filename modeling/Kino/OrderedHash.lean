import Kino.LruCache

/- A hash that lists its entries in the order in which their keys came in: a new value
   for a key keeps the key's place, a key taken out and put back comes last. -/
namespace OrderedHash
open LruCache.Lru
variable {K V : Type} [DecidableEq K]

structure Hash (K V : Type) where
  entries : List (K × V)
  once : (entries.map Prod.fst).Nodup

namespace Hash

def empty : Hash K V := ⟨[], List.nodup_nil⟩

def keys (h : Hash K V) : List K := h.entries.map Prod.fst

def find (h : Hash K V) (k : K) : Option V := look h.entries k

def delete (h : Hash K V) (k : K) : Hash K V := ⟨without h.entries k, without_once h.once k⟩

def overwrite (k : K) (v : V) (e : K × V) : K × V := if e.1 = k then (k, v) else e

theorem overwrite_keys (es : List (K × V)) (k : K) (v : V) :
    (es.map (overwrite k v)).map Prod.fst = es.map Prod.fst := by
  rw [List.map_map]
  apply List.map_congr_left
  intro e _
  by_cases same : e.1 = k <;> simp [overwrite, same]

def put (h : Hash K V) (k : K) (v : V) : Hash K V :=
  if here : k ∈ h.keys then ⟨h.entries.map (overwrite k v), by rw [overwrite_keys]; exact h.once⟩
  else ⟨h.entries ++ [(k, v)], by
    rw [List.map_append, List.nodup_append]
    refine ⟨h.once, List.nodup_singleton k, ?_⟩
    rintro a old b new rfl
    simp only [List.map_cons, List.map_nil, List.mem_singleton] at new
    exact here (new ▸ old)⟩

def putNew (h : Hash K V) (k : K) (v : V) : Hash K V := if (h.find k).isSome then h else h.put k v

theorem find_eq_some {h : Hash K V} {k : K} {v : V} : h.find k = some v ↔ (k, v) ∈ h.entries :=
  ⟨look_mem, look_of_mem h.once⟩

theorem find_isSome {h : Hash K V} {k : K} : (h.find k).isSome = true ↔ k ∈ h.keys := by
  rw [Option.isSome_iff_exists]
  constructor
  · rintro ⟨v, found⟩
    exact List.mem_map.mpr ⟨(k, v), find_eq_some.mp found, rfl⟩
  · intro here
    obtain ⟨⟨j, v⟩, member, rfl⟩ := List.mem_map.mp here
    exact ⟨v, find_eq_some.mpr member⟩

theorem find_none {h : Hash K V} {k : K} : h.find k = none ↔ k ∉ h.keys := by
  rw [← find_isSome]
  cases h.find k <;> simp

theorem find_delete (h : Hash K V) (k j : K) :
    (h.delete k).find j = if j = k then none else h.find j :=
  look_without h.entries k j

theorem look_overwrite (es : List (K × V)) (k : K) (v : V) (j : K) :
    look (es.map (overwrite k v)) j = if j = k then (look es k).map fun _ => v else look es j := by
  induction es with
  | nil => simp [look]
  | cons e es ih =>
    obtain ⟨i, u⟩ := e
    rw [List.map_cons]
    by_cases mine : i = k
    · simp only [overwrite, mine, if_true, look_cons, ih]
      by_cases same : j = k <;> simp [same]
    · simp only [overwrite, mine, if_false, look_cons, ih]
      by_cases same : j = k
      · simp [same, Ne.symm mine]
      · simp [same]

theorem find_put (h : Hash K V) (k : K) (v : V) (j : K) :
    (h.put k v).find j = if j = k then some v else h.find j := by
  unfold put
  split
  · next here =>
    obtain ⟨u, found⟩ := Option.isSome_iff_exists.mp (find_isSome.mpr here)
    change look (h.entries.map (overwrite k v)) j = _
    rw [look_overwrite]
    change (if j = k then (h.find k).map fun _ => v else h.find j) = _
    rw [found, Option.map_some]
  · next absent =>
    change look (h.entries ++ [(k, v)]) j = if j = k then some v else look h.entries j
    unfold look
    rw [List.find?_append]
    by_cases same : j = k
    · have none_here := find_none.mpr absent
      change look h.entries k = none at none_here
      unfold look at none_here
      rw [Option.map_eq_none_iff] at none_here
      simp [same, none_here]
    · simp [same, Ne.symm same]

theorem find_putNew (h : Hash K V) (k : K) (v : V) (j : K) :
    (h.putNew k v).find j = if j = k then some ((h.find k).getD v) else h.find j := by
  unfold putNew
  by_cases same : j = k
  · subst same
    cases found : h.find j <;> simp [find_put, found]
  · split <;> simp [find_put, same]

theorem mem_keys_delete {h : Hash K V} {k j : K} : j ∈ (h.delete k).keys ↔ j ∈ h.keys ∧ j ≠ k := by
  rw [← find_isSome, find_delete, ← find_isSome]
  by_cases same : j = k <;> simp [same]

theorem mem_keys_put {h : Hash K V} {k j : K} {v : V} : j ∈ (h.put k v).keys ↔ j = k ∨ j ∈ h.keys := by
  rw [← find_isSome, find_put, ← find_isSome]
  by_cases same : j = k <;> simp [same]

theorem delete_length {h : Hash K V} {k : K} (here : k ∈ h.keys) :
    (h.delete k).entries.length + 1 = h.entries.length := by
  obtain ⟨v, found⟩ := Option.isSome_iff_exists.mp (find_isSome.mpr here)
  exact length_without h.once found

theorem put_length {h : Hash K V} {k : K} {v : V} (absent : k ∉ h.keys) :
    (h.put k v).entries.length = h.entries.length + 1 := by
  simp [put, absent]

theorem putNew_entries (h : Hash K V) (k : K) (v : V) :
    (h.putNew k v).entries = if k ∈ h.keys then h.entries else h.entries ++ [(k, v)] := by
  unfold putNew
  by_cases here : k ∈ h.keys
  · simp [find_isSome.mpr here, here]
  · simp [find_none.mpr here, put, here]

end Hash

theorem argmin_first {A T : Type} [DecidableEq A] [LinearOrder T] {f : A → T} {entries : List A}
    {before : A → A → Prop} (order : entries.Pairwise before) {a b : A}
    (chosen : a ∈ entries.argmin f) (here : b ∈ entries) (least : f b ≤ f a) : b = a ∨ before a b := by
  have member := List.argmin_mem chosen
  rcases Nat.eq_or_lt_of_le (List.index_of_argmin chosen here least) with same | earlier
  · exact .inl ((List.idxOf_inj member).mp same).symm
  · have placed := List.pairwise_iff_getElem.mp order _ _ (List.idxOf_lt_length_of_mem member)
      (List.idxOf_lt_length_of_mem here) earlier
    simp only [List.getElem_idxOf] at placed
    exact .inr placed

end OrderedHash
