import Mathlib

/- Labelled transition systems given by a partial step function. A label names
   the agent that moves and whatever choice the environment makes for it, so a
   run is a list of labels and an interleaving is any such list. -/
namespace Transitions

structure System (State Label : Type) where
  start : State → Prop
  step : State → Label → Option State

variable {State Label : Type}

def run (m : System State Label) : State → List Label → Option State
  | s, [] => some s
  | s, l :: ls => (m.step s l).bind fun t => run m t ls

/-- Reachable by steps that all meet a condition on the state they leave. -/
inductive ReachableBy (m : System State Label) (allowed : State → Label → Prop) :
    State → Prop where
  | start {s : State} (initial : m.start s) : ReachableBy m allowed s
  | next {s t : State} {l : Label} (before : ReachableBy m allowed s)
      (permitted : allowed s l) (moved : m.step s l = some t) : ReachableBy m allowed t

def Reachable (m : System State Label) (s : State) : Prop :=
  ReachableBy m (fun _ _ => True) s

theorem run_cons {m : System State Label} {s u : State} {l : Label} {ls : List Label} :
    run m s (l :: ls) = some u ↔ ∃ t, m.step s l = some t ∧ run m t ls = some u := by
  simp [run, Option.bind_eq_some_iff]

theorem run_append {m : System State Label} {s t : State} {ls ks : List Label}
    (first : run m s ls = some t) : run m s (ls ++ ks) = run m t ks := by
  induction ls generalizing s with
  | nil => cases first; rfl
  | cons l ls ih =>
    obtain ⟨u, moved, rest⟩ := run_cons.mp first
    simp only [List.cons_append, run, moved, Option.bind_some]
    exact ih rest

theorem run_split {m : System State Label} {s u : State} {ls ks : List Label}
    (ran : run m s (ls ++ ks) = some u) : ∃ t, run m s ls = some t ∧ run m t ks = some u := by
  induction ls generalizing s with
  | nil => exact ⟨s, rfl, ran⟩
  | cons l ls ih =>
    obtain ⟨t, moved, rest⟩ := run_cons.mp ran
    obtain ⟨v, first, later⟩ := ih rest
    exact ⟨v, run_cons.mpr ⟨t, moved, first⟩, later⟩

/-- The induction every safety result here goes through: what the start states
    satisfy and permitted steps keep holds of every reachable state. -/
theorem invariant {m : System State Label} {allowed : State → Label → Prop}
    (keep : State → Prop) (initial : ∀ s, m.start s → keep s)
    (kept : ∀ s t l, keep s → allowed s l → m.step s l = some t → keep t)
    {s : State} (reached : ReachableBy m allowed s) : keep s := by
  induction reached with
  | start start => exact initial _ start
  | next _ permitted moved ih => exact kept _ _ _ ih permitted moved

theorem reachable_invariant {m : System State Label} (keep : State → Prop)
    (initial : ∀ s, m.start s → keep s)
    (kept : ∀ s t l, keep s → m.step s l = some t → keep t)
    {s : State} (reached : Reachable m s) : keep s :=
  invariant keep initial (fun s t l h _ moved => kept s t l h moved) reached

theorem ReachableBy.weaken {m : System State Label} {allowed allowed' : State → Label → Prop}
    {s : State} (reached : ReachableBy m allowed s) (more : ∀ s l, allowed s l → allowed' s l) :
    ReachableBy m allowed' s := by
  induction reached with
  | start initial => exact .start initial
  | next _ permitted moved ih => exact .next ih (more _ _ permitted) moved

theorem ReachableBy.forget {m : System State Label} {allowed : State → Label → Prop} {s : State}
    (reached : ReachableBy m allowed s) : Reachable m s :=
  reached.weaken fun _ _ _ => trivial

theorem reachable_step {m : System State Label} {s t : State} {l : Label}
    (reached : Reachable m s) (moved : m.step s l = some t) : Reachable m t :=
  ReachableBy.next reached trivial moved

theorem reachable_run {m : System State Label} {s t : State} {ls : List Label}
    (reached : Reachable m s) (ran : run m s ls = some t) : Reachable m t := by
  induction ls generalizing s with
  | nil => cases ran; exact reached
  | cons l ls ih =>
    obtain ⟨u, moved, rest⟩ := run_cons.mp ran
    exact ih (reachable_step reached moved) rest

/-- A run whose every step passes a check on the state it leaves. -/
def runBy (m : System State Label) (check : State → Label → Bool) :
    State → List Label → Option State
  | s, [] => some s
  | s, l :: ls => if check s l then (m.step s l).bind fun t => runBy m check t ls else none

theorem runBy_cons {m : System State Label} {check : State → Label → Bool} {s u : State}
    {l : Label} {ls : List Label} : runBy m check s (l :: ls) = some u ↔
      check s l = true ∧ ∃ t, m.step s l = some t ∧ runBy m check t ls = some u := by
  simp [runBy, Option.bind_eq_some_iff]

theorem reachable_runBy {m : System State Label} {allowed : State → Label → Prop}
    {check : State → Label → Bool} (sound : ∀ s l, check s l = true → allowed s l) {s t : State}
    {ls : List Label} (reached : ReachableBy m allowed s) (ran : runBy m check s ls = some t) :
    ReachableBy m allowed t := by
  induction ls generalizing s with
  | nil => cases ran; exact reached
  | cons l ls ih =>
    obtain ⟨passed, u, moved, rest⟩ := runBy_cons.mp ran
    exact ih (reached.next (sound s l passed) moved) rest

/-- What every step with a label of one kind keeps, a run of such labels keeps. -/
theorem run_keeps {m : System State Label} (keep : State → Prop) (kind : Label → Prop)
    (kept : ∀ s t l, keep s → kind l → m.step s l = some t → keep t)
    {s t : State} {ls : List Label} (start : keep s) (labels : ∀ l ∈ ls, kind l)
    (ran : run m s ls = some t) : keep t := by
  induction ls generalizing s with
  | nil => cases ran; exact start
  | cons l ls ih =>
    obtain ⟨u, moved, rest⟩ := run_cons.mp ran
    exact ih (kept _ _ _ start (labels l (by simp)) moved)
      (fun k hk => labels k (by simp [hk])) rest

/-- Steps of one kind that each lower a measure bound the length of a run of them. -/
theorem run_length_le {m : System State Label} (size : State → Nat) (kind : Label → Prop)
    (lower : ∀ s t l, kind l → m.step s l = some t → size t < size s)
    {s t : State} {ls : List Label} (labels : ∀ l ∈ ls, kind l) (ran : run m s ls = some t) :
    size t + ls.length ≤ size s := by
  induction ls generalizing s with
  | nil => cases ran; simp
  | cons l ls ih =>
    obtain ⟨u, moved, rest⟩ := run_cons.mp ran
    have first := lower _ _ _ (labels l (by simp)) moved
    have later := ih (fun k hk => labels k (by simp [hk])) rest
    simp only [List.length_cons]
    omega

end Transitions
