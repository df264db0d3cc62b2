import Mathlib

/- Agents kept in a row, each in a state of its own, and a counter that is meant to say
   how many of them are of a kind. A step changes one agent, or adds one at the end; the
   rules say what the counter must do for the two to agree again. -/
namespace Tallies
variable {α : Type} {kind : α → Bool} {agents : List α} {n i : Nat} {a b : α}

def Tallied (n : Nat) (kind : α → Bool) (agents : List α) : Prop := n = agents.countP kind

theorem countP_set (kind : α → Bool) (b : α) (there : agents[i]? = some a) :
    (agents.set i b).countP kind + (if kind a then 1 else 0) =
      agents.countP kind + (if kind b then 1 else 0) := by
  induction agents generalizing i with
  | nil => simp at there
  | cons first rest ih =>
    cases i with
    | zero =>
      simp only [List.getElem?_cons_zero, Option.some.injEq] at there
      subst there
      simp only [List.set_cons_zero, List.countP_cons]
      omega
    | succ i =>
      have later := ih (by simpa using there)
      simp only [List.set_cons_succ, List.countP_cons]
      omega

theorem tallied_same (tallied : Tallied n kind agents) (there : agents[i]? = some a)
    (same : kind b = kind a) : Tallied n kind (agents.set i b) := by
  have change := countP_set kind b there
  rw [same] at change
  unfold Tallied at tallied ⊢
  omega

theorem tallied_enter (tallied : Tallied n kind agents) (there : agents[i]? = some a)
    (before : kind a = false) (after : kind b = true) :
    Tallied (n + 1) kind (agents.set i b) := by
  have change := countP_set kind b there
  simp only [before, after, if_true] at change
  unfold Tallied at tallied ⊢
  simp only [Bool.false_eq_true, if_false] at change
  omega

theorem tallied_leave (tallied : Tallied n kind agents) (there : agents[i]? = some a)
    (before : kind a = true) (after : kind b = false) :
    Tallied (n - 1) kind (agents.set i b) := by
  have change := countP_set kind b there
  simp only [before, after, if_true] at change
  unfold Tallied at tallied ⊢
  simp only [Bool.false_eq_true, if_false] at change
  omega

theorem tallied_join (tallied : Tallied n kind agents) (outside : kind b = false) :
    Tallied n kind (agents ++ [b]) := by
  unfold Tallied at tallied ⊢
  rw [List.countP_append, List.countP_singleton, outside]
  simpa using tallied

theorem set_cases {j : Nat} {x : α} (there : (agents.set i b)[j]? = some x) :
    (j = i ∧ x = b) ∨ (j ≠ i ∧ agents[j]? = some x) := by
  rw [List.getElem?_set] at there
  split at there
  · next same =>
    subst same
    split at there
    · cases there
      exact .inl ⟨rfl, rfl⟩
    · cases there
  · next other => exact .inr ⟨Ne.symm other, there⟩

theorem forall_set {holds : Nat → α → Prop} (each : ∀ j x, agents[j]? = some x → holds j x)
    (changed : holds i b) : ∀ j x, (agents.set i b)[j]? = some x → holds j x := by
  intro j x there
  rcases set_cases there with ⟨rfl, rfl⟩ | ⟨_, there⟩
  · exact changed
  · exact each j x there

theorem forall_join {holds : Nat → α → Prop} (each : ∀ j x, agents[j]? = some x → holds j x)
    (joined : holds agents.length b) : ∀ j x, (agents ++ [b])[j]? = some x → holds j x := by
  intro j x there
  rcases Nat.lt_trichotomy j agents.length with before | at_end | after
  · rw [List.getElem?_append_left before] at there
    exact each j x there
  · subst at_end
    simp only [List.getElem?_concat_length, Option.some.injEq] at there
    exact there ▸ joined
  · rw [List.getElem?_eq_none (by simp; omega)] at there
    cases there

theorem tallied_zero (tallied : Tallied 0 kind agents) (there : agents[i]? = some a) :
    kind a = false := by
  have none_here := List.countP_eq_zero.mp tallied.symm a (List.mem_of_getElem? there)
  simpa using none_here

end Tallies
