import Mathlib

/- Searches of a graph that note what they have seen. The graph may be infinite and have
   cycles; what a search is owed is that it leaves nothing half done. -/
namespace Exploration

variable {V : Type} {next : V → V → Prop}

/-- Between two moments of a search: what it has seen stays seen, and what it saw in between
    it saw with all that follows. -/
structure Explores (next : V → V → Prop) (before after : List V) : Prop where
  grows : before ⊆ after
  closed : ∀ v ∈ after, v ∉ before → ∀ w, next v w → w ∈ after

theorem Explores.refl (seen : List V) : Explores next seen seen :=
  ⟨List.Subset.refl seen, fun _ here fresh => absurd here fresh⟩

theorem Explores.trans {before between after : List V} (first : Explores next before between)
    (second : Explores next between after) : Explores next before after := by
  constructor
  · exact List.Subset.trans first.grows second.grows
  · intro v here fresh w edge
    by_cases early : v ∈ between
    · exact second.grows (first.closed v early fresh w edge)
    · exact second.closed v here early w edge

/-- A visit notes its object first and is done once all that follows from it is seen. -/
theorem Explores.visit {v : V} {before after : List V} (rest : Explores next (v :: before) after)
    (all : ∀ w, next v w → w ∈ after) : Explores next before after := by
  constructor
  · exact fun u old => rest.grows (List.mem_cons_of_mem v old)
  · intro u here fresh w edge
    by_cases same : u = v
    · rw [same] at edge
      exact all w edge
    · have elsewhere : u ∉ v :: before := by
        intro mem
        rcases List.mem_cons.mp mem with eq | old
        · exact same eq
        · exact fresh old
      exact rest.closed u here elsewhere w edge

/-- A search that began with nothing has seen all that its root leads to. -/
theorem Explores.complete {seen : List V} (whole : Explores next [] seen) {root w : V}
    (start : root ∈ seen) (path : Relation.ReflTransGen next root w) : w ∈ seen := by
  induction path with
  | refl => exact start
  | tail _ edge ih => exact whole.closed _ ih (List.not_mem_nil) _ edge

end Exploration
