import Mathlib

/- Programs with state and exceptions, as an interpreter with `rescue` and `ensure`
   runs them. A program may also get stuck, waiting for something that never comes,
   and then nothing after it runs. -/
namespace Programs

inductive Outcome (ε α : Type) where
  | ok (a : α)
  | raised (e : ε)
  | stuck
  deriving DecidableEq, Repr

def Prog (ε σ α : Type) : Type := σ → Outcome ε α × σ

variable {ε σ τ α β : Type}

instance : Monad (Prog ε σ) where
  pure a := fun s => (.ok a, s)
  bind p f := fun s =>
    match p s with
    | (.ok a, t) => f a t
    | (.raised e, t) => (.raised e, t)
    | (.stuck, t) => (.stuck, t)

def raise (e : ε) : Prog ε σ α := fun s => (.raised e, s)
def update (f : σ → σ) : Prog ε σ Unit := fun s => (.ok (), f s)

def fromExcept : Except ε α → Prog ε σ α
  | .ok a => pure a
  | .error e => raise e

def rescue (p : Prog ε σ α) (handler : ε → Prog ε σ α) : Prog ε σ α := fun s =>
  match p s with
  | (.raised e, t) => handler e t
  | (.ok a, t) => (.ok a, t)
  | (.stuck, t) => (.stuck, t)

def ensure (p : Prog ε σ α) (last : Prog ε σ Unit) : Prog ε σ α := fun s =>
  match p s with
  | (.stuck, t) => (.stuck, t)
  | (o, t) =>
    match last t with
    | (.ok _, u) => (o, u)
    | (.raised e, u) => (.raised e, u)
    | (.stuck, u) => (.stuck, u)

def lift (p : Prog ε σ α) : Prog ε (τ × σ) α := fun s =>
  ((p s.2).1, s.1, (p s.2).2)

def withObject (init : τ) (p : Prog ε (τ × σ) α) : Prog ε σ α := fun s =>
  ((p (init, s)).1, (p (init, s)).2.2)

/-- What a piece of foreign code does: it performs actions, sees what each returned or
    raised, and in the end returns or raises. -/
inductive Script (ε A V : Type) where
  | done
  | raises (e : ε)
  | act (a : A) (next : Except ε V → Script ε A V)

variable {A V : Type}

def Script.run (perform : A → Prog ε σ V) : Script ε A V → Prog ε σ Unit
  | .done => pure ()
  | .raises e => raise e
  | .act a next => fun s =>
    match perform a s with
    | (.ok v, t) => (next (.ok v)).run perform t
    | (.raised e, t) => (next (.error e)).run perform t
    | (.stuck, t) => (.stuck, t)

@[simp] theorem pure_run (a : α) (s : σ) : (pure a : Prog ε σ α) s = (.ok a, s) := rfl

@[simp] theorem raise_run (e : ε) (s : σ) : (raise e : Prog ε σ α) s = (.raised e, s) := rfl

@[simp] theorem update_run (f : σ → σ) (s : σ) : (update f : Prog ε σ Unit) s = (.ok (), f s) := rfl

theorem bind_ok {p : Prog ε σ α} {f : α → Prog ε σ β} {s t : σ} {a : α} (first : p s = (.ok a, t)) :
    (p >>= f) s = f a t := by
  simp only [bind, first]

theorem bind_raised {p : Prog ε σ α} {f : α → Prog ε σ β} {s t : σ} {e : ε}
    (first : p s = (.raised e, t)) : (p >>= f) s = (.raised e, t) := by
  simp only [bind, first]

theorem bind_stuck {p : Prog ε σ α} {f : α → Prog ε σ β} {s t : σ} (first : p s = (.stuck, t)) :
    (p >>= f) s = (.stuck, t) := by
  simp only [bind, first]

theorem bind_same {p q : Prog ε σ α} {s t : σ} (same : p s = q t) (f : α → Prog ε σ β) :
    (p >>= f) s = (q >>= f) t := by
  simp only [bind, same]

theorem fromExcept_ok_bind (a : α) (f : α → Prog ε σ β) (s : σ) :
    (fromExcept (.ok a) >>= f) s = f a s :=
  bind_ok rfl

theorem fromExcept_error_bind (e : ε) (f : α → Prog ε σ β) (s : σ) :
    (fromExcept (.error e) >>= f) s = (.raised e, s) :=
  bind_raised rfl

theorem rescue_raised {p : Prog ε σ α} {handler : ε → Prog ε σ α} {s t : σ} {e : ε}
    (first : p s = (.raised e, t)) : rescue p handler s = handler e t := by
  simp only [rescue, first]

theorem rescue_ok {p : Prog ε σ α} {handler : ε → Prog ε σ α} {s t : σ} {a : α}
    (first : p s = (.ok a, t)) : rescue p handler s = (.ok a, t) := by
  simp only [rescue, first]

theorem rescue_stuck {p : Prog ε σ α} {handler : ε → Prog ε σ α} {s t : σ}
    (first : p s = (.stuck, t)) : rescue p handler s = (.stuck, t) := by
  simp only [rescue, first]

/-- The loop `while x; x = body(x); end`. Out of fuel it counts as stuck. -/
def loop (body : α → Prog ε σ (Option α)) : Nat → Option α → Prog ε σ Unit
  | _, none => pure ()
  | 0, some _ => fun s => (.stuck, s)
  | fuel + 1, some a => body a >>= loop body fuel

theorem loop_none (body : α → Prog ε σ (Option α)) (fuel : Nat) (s : σ) :
    loop body fuel none s = (.ok (), s) := by
  cases fuel <;> rfl

def Keeps (keep : σ → Prop) (p : Prog ε σ α) : Prop := ∀ s, keep s → keep (p s).2

theorem keeps_pure (keep : σ → Prop) (a : α) : Keeps keep (pure a : Prog ε σ α) :=
  fun _ kept => kept

theorem keeps_raise (keep : σ → Prop) (e : ε) : Keeps keep (raise e : Prog ε σ α) :=
  fun _ kept => kept

theorem keeps_fromExcept (keep : σ → Prop) (x : Except ε α) :
    Keeps keep (fromExcept x : Prog ε σ α) := by
  cases x with
  | ok a => exact keeps_pure keep a
  | error e => exact keeps_raise keep e

theorem keeps_bind {keep : σ → Prop} {p : Prog ε σ α} {f : α → Prog ε σ β} (first : Keeps keep p)
    (second : ∀ a, Keeps keep (f a)) : Keeps keep (p >>= f) := by
  intro s kept
  have after := first s kept
  cases eq : p s with
  | mk o t =>
    rw [eq] at after
    cases o with
    | ok a =>
      rw [bind_ok eq]
      exact second a t after
    | raised e =>
      rw [bind_raised eq]
      exact after
    | stuck =>
      simp only [bind, eq]
      exact after

theorem keeps_ensure {keep : σ → Prop} {p : Prog ε σ α} {last : Prog ε σ Unit}
    (first : Keeps keep p) (second : Keeps keep last) : Keeps keep (ensure p last) := by
  intro s kept
  have after := first s kept
  unfold ensure
  cases eq : p s with
  | mk o t =>
    rw [eq] at after
    have final := second t after
    cases o <;> cases eq' : last t with
    | mk o' u =>
      rw [eq'] at final
      cases o' <;> simpa [eq'] using by assumption

theorem keeps_script {keep : σ → Prop} {perform : A → Prog ε σ V} (each : ∀ a, Keeps keep (perform a))
    (script : Script ε A V) : Keeps keep (script.run perform) := by
  induction script with
  | done => exact keeps_pure keep ()
  | raises e => exact keeps_raise keep e
  | act a next ih =>
    intro s kept
    have after := each a s kept
    unfold Script.run
    cases eq : perform a s with
    | mk o t =>
      rw [eq] at after
      cases o with
      | ok v => exact ih (.ok v) t after
      | raised e => exact ih (.error e) t after
      | stuck => exact after

theorem keeps_object {keep : σ → Prop} {p : Prog ε (τ × σ) α} {init : τ}
    (inside : Keeps (fun s => keep s.2) p) : Keeps keep (withObject init p) :=
  fun s kept => inside (init, s) kept

theorem keeps_lift {keep : σ → Prop} {p : Prog ε σ α} (first : Keeps keep p) :
    Keeps (fun s : τ × σ => keep s.2) (lift p) :=
  fun s kept => first s.2 kept

def Ends (p : Prog ε σ α) : Prop := ∀ s, (p s).1 ≠ .stuck

theorem ends_pure (a : α) : Ends (pure a : Prog ε σ α) := by
  intro s
  simp

theorem ends_raise (e : ε) : Ends (raise e : Prog ε σ α) := by
  intro s
  simp

theorem ends_update (f : σ → σ) : Ends (update f : Prog ε σ Unit) := by
  intro s
  simp

theorem ends_fromExcept (x : Except ε α) : Ends (fromExcept x : Prog ε σ α) := by
  cases x with
  | ok a => exact ends_pure a
  | error e => exact ends_raise e

theorem ends_bind {p : Prog ε σ α} {f : α → Prog ε σ β} (first : Ends p)
    (second : ∀ a, Ends (f a)) : Ends (p >>= f) := by
  intro s
  have not_first := first s
  cases eq : p s with
  | mk o t =>
    rw [eq] at not_first
    cases o with
    | ok a =>
      rw [bind_ok eq]
      exact second a t
    | raised e => simp [bind_raised eq]
    | stuck => exact absurd rfl not_first

theorem ends_ensure {p : Prog ε σ α} {last : Prog ε σ Unit} (first : Ends p)
    (second : Ends last) : Ends (ensure p last) := by
  intro s
  have not_first := first s
  unfold ensure
  cases eq : p s with
  | mk o t =>
    rw [eq] at not_first
    have not_second := second t
    cases eq' : last t with
    | mk o' u =>
      rw [eq'] at not_second
      cases o <;> cases o' <;> simp_all

theorem ends_script {perform : A → Prog ε σ V} (each : ∀ a, Ends (perform a))
    (script : Script ε A V) : Ends (script.run perform) := by
  induction script with
  | done => exact ends_pure ()
  | raises e => exact ends_raise e
  | act a next ih =>
    intro s
    have not_first := each a s
    unfold Script.run
    cases eq : perform a s with
    | mk o t =>
      rw [eq] at not_first
      cases o with
      | ok v => exact ih (.ok v) t
      | raised e => exact ih (.error e) t
      | stuck => exact absurd rfl not_first

theorem ends_object {p : Prog ε (τ × σ) α} {init : τ} (inside : Ends p) :
    Ends (withObject init p) :=
  fun s => inside (init, s)

theorem ends_lift {p : Prog ε σ α} (first : Ends p) : Ends (lift p : Prog ε (τ × σ) α) :=
  fun s => first s.2

def Erases (view : τ → σ) (q : Prog ε τ α) (p : Prog ε σ α) : Prop :=
  ∀ s, ((q s).1, view (q s).2) = p (view s)

variable {view : τ → σ}

theorem erases_pure (a : α) : Erases view (pure a : Prog ε τ α) (pure a) := fun _ => rfl

theorem erases_raise (e : ε) : Erases view (raise e : Prog ε τ α) (raise e) := fun _ => rfl

theorem erases_fromExcept (x : Except ε α) :
    Erases view (fromExcept x : Prog ε τ α) (fromExcept x) := by
  cases x with
  | ok a => exact erases_pure a
  | error e => exact erases_raise e

theorem erases_update {f : τ → τ} {g : σ → σ} (commutes : ∀ s, view (f s) = g (view s)) :
    Erases view (update f : Prog ε τ Unit) (update g) := by
  intro s
  simp [commutes s]

theorem erases_bind {q : Prog ε τ α} {p : Prog ε σ α} {g : α → Prog ε τ β} {f : α → Prog ε σ β}
    (first : Erases view q p) (second : ∀ a, Erases view (g a) (f a)) :
    Erases view (q >>= g) (p >>= f) := by
  intro s
  have same := first s
  cases eq : q s with
  | mk o t =>
    rw [eq] at same
    cases o with
    | ok a =>
      rw [bind_ok eq, bind_ok same.symm]
      exact second a t
    | raised e => rw [bind_raised eq, bind_raised same.symm]
    | stuck => simp only [bind, eq, ← same]

theorem erases_rescue {q : Prog ε τ α} {p : Prog ε σ α} {g : ε → Prog ε τ α} {f : ε → Prog ε σ α}
    (first : Erases view q p) (handler : ∀ e, Erases view (g e) (f e)) :
    Erases view (rescue q g) (rescue p f) := by
  intro s
  have same := first s
  cases eq : q s with
  | mk o t =>
    rw [eq] at same
    cases o with
    | raised e =>
      rw [rescue_raised eq, rescue_raised same.symm]
      exact handler e t
    | ok a => simp only [rescue, eq, ← same]
    | stuck => simp only [rescue, eq, ← same]

theorem erases_ensure {q : Prog ε τ α} {p : Prog ε σ α} {q' : Prog ε τ Unit} {p' : Prog ε σ Unit}
    (first : Erases view q p) (last : Erases view q' p') :
    Erases view (ensure q q') (ensure p p') := by
  intro s
  have same := first s
  cases eq : q s with
  | mk o t =>
    rw [eq] at same
    have after := last t
    cases eq' : q' t with
    | mk o' u =>
      rw [eq'] at after
      cases o with
      | stuck => simp only [ensure, eq, ← same]
      | ok | raised =>
        cases o' with
        | ok | raised | stuck => simp only [ensure, eq, ← same, eq', ← after]

theorem erases_script {perform' : A → Prog ε τ V} {perform : A → Prog ε σ V}
    (each : ∀ a, Erases view (perform' a) (perform a)) (script : Script ε A V) :
    Erases view (script.run perform') (script.run perform) := by
  induction script with
  | done => exact erases_pure ()
  | raises e => exact erases_raise e
  | act a next ih =>
    intro s
    have same := each a s
    cases eq : perform' a s with
    | mk o t =>
      rw [eq] at same
      cases o with
      | ok v =>
        have rest := ih (.ok v) t
        simp only [Script.run, eq, ← same, ← rest]
      | raised e =>
        have rest := ih (.error e) t
        simp only [Script.run, eq, ← same, ← rest]
      | stuck => simp only [Script.run, eq, ← same]

theorem erases_lift (p : Prog ε σ α) : Erases Prod.snd (lift p : Prog ε (τ × σ) α) p :=
  fun _ => rfl

theorem erases_beside {κ : Type} {q : Prog ε τ α} {p : Prog ε σ α} (first : Erases view q p) :
    Erases (fun s : κ × τ => (s.1, view s.2)) (lift q) (lift p) := by
  intro s
  have same := first s.2
  simp only [lift, ← same]

theorem erases_object {κ : Type} {q : Prog ε (κ × τ) α} {p : Prog ε (κ × σ) α} {init : κ}
    (inside : Erases (fun s : κ × τ => (s.1, view s.2)) q p) :
    Erases view (withObject init q) (withObject init p) := by
  intro s
  have same := inside (init, s)
  simp only [withObject, ← same]

def dropping (p : Prog ε σ α) (drop : σ → σ) : Prog ε σ α :=
  rescue p fun e => do
    update drop
    raise e

def onlyIf (c : Bool) (p : Prog ε σ Unit) : Prog ε σ Unit := if c then p else pure ()

/-- From `s` a program comes to `t` if all is fine, and else raises in a state as described. -/
structure Commits (p : Prog ε σ Unit) (fine : Prop) (s t : σ) (bad : σ → Prop) : Prop where
  done : fine → p s = (.ok (), t)
  failed : ¬fine → ∃ e u, p s = (.raised e, u) ∧ bad u

section Commits
variable {p q : Prog ε σ Unit} {fine more : Prop} {s t u : σ} {bad bad' : σ → Prop}

theorem commits_pure : Commits (pure () : Prog ε σ Unit) True s s bad :=
  ⟨fun _ => rfl, fun not_fine => absurd trivial not_fine⟩

theorem commits_update (f : σ → σ) : Commits (update f : Prog ε σ Unit) True s (f s) bad :=
  ⟨fun _ => rfl, fun not_fine => absurd trivial not_fine⟩

theorem commits_raised {e : ε} (raised : p s = (.raised e, u)) (so : bad u) :
    Commits p False s t bad :=
  ⟨fun none => none.elim, fun _ => ⟨e, u, raised, so⟩⟩

theorem commits_raise {e : ε} (so : bad s) : Commits (raise e : Prog ε σ Unit) False s s bad :=
  commits_raised rfl so

theorem commits_then (first : Commits p fine s t bad) (second : fine → Commits q more t u bad) :
    Commits (do p; q) (fine ∧ more) s u bad := by
  constructor
  · intro both
    exact (bind_ok (first.done both.1)).trans ((second both.1).done both.2)
  · intro not_both
    by_cases fine_first : fine
    · have not_more : ¬more := fun also => not_both ⟨fine_first, also⟩
      obtain ⟨e, v, raised, so⟩ := (second fine_first).failed not_more
      exact ⟨e, v, (bind_ok (first.done fine_first)).trans raised, so⟩
    · obtain ⟨e, v, raised, so⟩ := first.failed fine_first
      exact ⟨e, v, bind_raised raised, so⟩

theorem commits_bind (first : Commits p fine s t bad) (second : Commits q more t u bad) :
    Commits (do p; q) (fine ∧ more) s u bad :=
  commits_then first fun _ => second

theorem commits_weaken (first : Commits p fine s t bad)
    (so : ∀ u, ¬fine → bad u → bad' u) : Commits p fine s t bad' := by
  constructor
  · exact first.done
  · intro not_fine
    obtain ⟨e, u, raised, here⟩ := first.failed not_fine
    exact ⟨e, u, raised, so u not_fine here⟩

theorem commits_dropping {drop : σ → σ} (first : Commits p fine s t fun u => bad (drop u)) :
    Commits (dropping p drop) fine s t bad := by
  constructor
  · intro all_fine
    have ran := first.done all_fine
    simp only [dropping, rescue, ran]
  · intro not_fine
    obtain ⟨e, u, raised, so⟩ := first.failed not_fine
    refine ⟨e, drop u, ?_, so⟩
    rw [dropping, rescue_raised raised]
    rfl

theorem commits_rescue {e : ε} {handler : ε → Prog ε σ Unit} (first : p s = (.raised e, t))
    (handled : Commits (handler e) fine t u bad) : Commits (rescue p handler) fine s u bad := by
  have same : rescue p handler s = handler e t := rescue_raised first
  constructor
  · intro holds
    exact same.trans (handled.done holds)
  · intro fails
    rw [same]
    exact handled.failed fails

theorem commits_iff (first : Commits p fine s t bad) (same : more ↔ fine) :
    Commits p more s t bad :=
  ⟨fun holds => first.done (same.mp holds), fun fails => first.failed fun holds => fails (same.mpr holds)⟩

theorem commits_onlyIf {c : Bool} (on : c = true → Commits p fine s t bad)
    (off : c = false → s = t) : Commits (onlyIf c p) (c = true → fine) s t bad := by
  cases c with
  | true => exact commits_iff (on rfl) (by simp)
  | false =>
    rw [← off rfl]
    exact commits_iff commits_pure (by simp)

theorem commits_to (first : Commits p fine s t bad) (same : t = u) : Commits p fine s u bad :=
  same ▸ first

theorem commits_forM {each : α → Prog ε σ Unit} {good : α → Prop} {f : σ → σ} {reached : σ → Prop}
    (step : ∀ a s, reached s → Commits (each a) (good a) s (f s) bad ∧ reached (f s))
    (l : List α) (here : reached s) :
    Commits (l.forM each) (∀ a ∈ l, good a) s (f^[l.length] s) bad := by
  induction l generalizing s with
  | nil => exact commits_iff commits_pure (by simp)
  | cons a l ih =>
    obtain ⟨once, next⟩ := step a s here
    exact commits_iff (commits_bind once (ih next)) (by simp)

end Commits

theorem keeps_update {keep : σ → Prop} {f : σ → σ} (kept : ∀ s, keep s → keep (f s)) :
    Keeps keep (update f : Prog ε σ Unit) := kept

theorem keeps_onlyIf {keep : σ → Prop} {p : Prog ε σ Unit} (c : Bool) (kept : Keeps keep p) :
    Keeps keep (onlyIf c p) := by
  cases c with
  | true => exact kept
  | false => exact keeps_pure keep ()

theorem forM_cons (each : α → Prog ε σ Unit) (a : α) (l : List α) (s : σ) :
    (a :: l).forM each s = (each a >>= fun _ => l.forM each) s := rfl

theorem forM_stops {each : α → Prog ε σ Unit} {a : α} {s t : σ} {o : Outcome ε Unit}
    (did : each a s = (o, t)) (failed : o ≠ .ok ()) (l : List α) :
    (a :: l).forM each s = (o, t) := by
  rw [forM_cons]
  cases o with
  | ok u => exact absurd rfl failed
  | raised e => exact bind_raised did
  | stuck => simp only [bind, did]

theorem keeps_forM {keep : σ → Prop} {each : α → Prog ε σ Unit} (kept : ∀ a, Keeps keep (each a))
    (l : List α) : Keeps keep (l.forM each) := by
  induction l with
  | nil => exact keeps_pure keep ()
  | cons a l ih => exact keeps_bind (kept a) fun _ => ih

theorem keeps_rescue {keep : σ → Prop} {p : Prog ε σ α} {handler : ε → Prog ε σ α}
    (first : Keeps keep p) (handled : ∀ e, Keeps keep (handler e)) :
    Keeps keep (rescue p handler) := by
  intro s kept
  have after := first s kept
  unfold rescue
  cases eq : p s with
  | mk o t =>
    rw [eq] at after
    cases o with
    | raised e => exact handled e t after
    | ok a => exact after
    | stuck => exact after

/-- From a state with `keep` the program comes, along `grew`, to one with `keep` where the facts
    hold, or raises an error as described; it does not get stuck. -/
def Meets (keep : σ → Prop) (err : ε → Prop) (grew : σ → σ → Prop) (facts : σ → Prop)
    (p : Prog ε σ α) : Prop :=
  ∀ s, keep s →
    (∃ a t, p s = (.ok a, t) ∧ keep t ∧ grew s t ∧ facts t) ∨
    (∃ e t, p s = (.raised e, t) ∧ err e)

def Lasting (grew : σ → σ → Prop) (facts : σ → Prop) : Prop :=
  ∀ s t, grew s t → facts s → facts t

section Meets
variable {keep : σ → Prop} {err : ε → Prop} {grew : σ → σ → Prop} {facts more : σ → Prop}

theorem meets_pure (reflexive : ∀ s, grew s s) (a : α) :
    Meets keep err grew (fun _ => True) (pure a : Prog ε σ α) := by
  intro s kept
  left
  exact ⟨a, s, rfl, kept, reflexive s, trivial⟩

theorem meets_update {f : σ → σ} (kept : ∀ s, keep s → keep (f s)) (grows : ∀ s, grew s (f s))
    (so : ∀ s, facts (f s)) : Meets keep err grew facts (update f : Prog ε σ Unit) := by
  intro s here
  left
  exact ⟨(), f s, rfl, kept s here, grows s, so s⟩

theorem meets_weaken {p : Prog ε σ α} (meets : Meets keep err grew facts p)
    (so : ∀ s, facts s → more s) : Meets keep err grew more p := by
  intro s kept
  rcases meets s kept with ⟨a, t, ran, after, grown, holds⟩ | failed
  · left
    exact ⟨a, t, ran, after, grown, so t holds⟩
  · right
    exact failed

variable (transitive : ∀ s t u, grew s t → grew t u → grew s u)
include transitive

theorem meets_bind {p : Prog ε σ α} {f : α → Prog ε σ β} (last : Lasting grew facts)
    (first : Meets keep err grew facts p) (second : ∀ a, Meets keep err grew more (f a)) :
    Meets keep err grew (fun t => facts t ∧ more t) (p >>= f) := by
  intro s kept
  rcases first s kept with ⟨a, t, ran, after, grown, holds⟩ | ⟨e, t, ran, described⟩
  · rw [bind_ok ran]
    rcases second a t after with ⟨b, u, ran', kept', grown', holds'⟩ | failed
    · left
      exact ⟨b, u, ran', kept', transitive s t u grown grown', last t u grown' holds, holds'⟩
    · right
      exact failed
  · rw [bind_raised ran]
    right
    exact ⟨e, t, rfl, described⟩

theorem meets_forM (reflexive : ∀ s, grew s s) {each : α → Prog ε σ Unit}
    {fact : α → σ → Prop} (last : ∀ a, Lasting grew (fact a)) (l : List α)
    (meets : ∀ a ∈ l, Meets keep err grew (fact a) (each a)) :
    Meets keep err grew (fun t => ∀ a ∈ l, fact a t) (l.forM each) := by
  induction l with
  | nil => exact meets_weaken (meets_pure reflexive ()) (by simp)
  | cons a l ih =>
    have head := meets a (List.mem_cons_self)
    have tail := ih fun b here => meets b (List.mem_cons_of_mem a here)
    have both := meets_bind transitive (last a) head fun _ => tail
    exact meets_weaken both (by simp)

end Meets

def Safe (p : Prog ε σ α) : Prop := ∀ s e, (p s).1 ≠ .raised e

theorem safe_pure (a : α) : Safe (pure a : Prog ε σ α) := by
  intro s e
  simp

theorem safe_update (f : σ → σ) : Safe (update f : Prog ε σ Unit) := by
  intro s e
  simp

theorem safe_bind {p : Prog ε σ α} {f : α → Prog ε σ β} (first : Safe p)
    (second : ∀ a, Safe (f a)) : Safe (p >>= f) := by
  intro s e
  have not_first := first s e
  cases eq : p s with
  | mk o t =>
    rw [eq] at not_first
    cases o with
    | ok a =>
      rw [bind_ok eq]
      exact second a t e
    | raised e' =>
      rw [bind_raised eq]
      simpa using not_first
    | stuck => simp [bind, eq]

theorem safe_rescue {p : Prog ε σ α} {handler : ε → Prog ε σ α}
    (handled : ∀ e, Safe (handler e)) : Safe (rescue p handler) := by
  intro s e
  cases eq : p s with
  | mk o t =>
    cases o with
    | raised e' =>
      rw [rescue_raised eq]
      exact handled e' t e
    | ok a => simp [rescue, eq]
    | stuck => simp [rescue, eq]

theorem safe_ensure {p : Prog ε σ α} {last : Prog ε σ Unit} (first : Safe p) (second : Safe last) :
    Safe (ensure p last) := by
  intro s e
  have not_first := first s e
  unfold ensure
  cases eq : p s with
  | mk o t =>
    rw [eq] at not_first
    have not_second := second t e
    cases eq' : last t with
    | mk o' u =>
      rw [eq'] at not_second
      cases o <;> cases o' <;> simp_all

theorem safe_forM {each : α → Prog ε σ Unit} (safe : ∀ a, Safe (each a)) (l : List α) :
    Safe (l.forM each) := by
  induction l with
  | nil => exact safe_pure ()
  | cons a l ih => exact safe_bind (safe a) fun _ => ih

theorem safe_loop {body : α → Prog ε σ (Option α)} (safe : ∀ a, Safe (body a)) (fuel : Nat)
    (start : Option α) : Safe (loop body fuel start) := by
  induction fuel generalizing start with
  | zero =>
    cases start with
    | none => exact safe_pure ()
    | some a => exact fun s e => nofun
  | succ fuel ih =>
    cases start with
    | none => exact safe_pure ()
    | some a => exact safe_bind (safe a) ih

theorem bind_then (p : Prog ε σ α) (f : α → Prog ε σ β) {γ : Type} (g : β → Prog ε σ γ) :
    (p >>= f) >>= g = p >>= fun a => f a >>= g := by
  funext s
  cases eq : p s with
  | mk o t => cases o <;> simp only [bind, eq]

theorem pure_then (a : α) (f : α → Prog ε σ β) : (pure a : Prog ε σ α) >>= f = f a := rfl

theorem lift_bind (p : Prog ε σ α) (f : α → Prog ε σ β) :
    (lift (p >>= f) : Prog ε (τ × σ) β) = lift p >>= fun a => lift (f a) := by
  funext s
  cases eq : p s.2 with
  | mk o t => cases o <;> simp only [lift, bind, eq]

theorem lift_pure (a : α) : (lift (pure a : Prog ε σ α) : Prog ε (τ × σ) α) = pure a := rfl

theorem ok_then (a : α) (f : α → Prog ε σ β) : fromExcept (.ok a) >>= f = f a := rfl

theorem error_then (e : ε) (f : α → Prog ε σ β) : fromExcept (.error e) >>= f = raise e := rfl

theorem raise_then (e : ε) (f : α → Prog ε σ β) : raise e >>= f = raise e := rfl

theorem lift_raise (e : ε) : (lift (raise e : Prog ε σ α) : Prog ε (τ × σ) α) = raise e := rfl

theorem lift_of {q : Prog ε (τ × σ) α} {p : Prog ε σ α} (erases : Erases Prod.snd q p)
    (kept : ∀ a, Keeps (fun s => s.1 = a) q) : q = lift p := by
  funext s
  have same := erases s
  have beside := kept s.1 s rfl
  cases ran : q s with
  | mk o t =>
    rw [ran] at same beside
    simp only [lift, ← same, ← beside]

theorem erases_loop {body' : α → Prog ε τ (Option α)} {body : α → Prog ε σ (Option α)}
    (each : ∀ a, Erases view (body' a) (body a)) (fuel : Nat) (start : Option α) :
    Erases view (loop body' fuel start) (loop body fuel start) := by
  induction fuel generalizing start with
  | zero =>
    cases start with
    | none => exact erases_pure ()
    | some a => exact fun s => rfl
  | succ fuel ih =>
    cases start with
    | none => exact erases_pure ()
    | some a => exact erases_bind (each a) fun next => ih next

theorem keeps_loop {keep : σ → Prop} {body : α → Prog ε σ (Option α)}
    (each : ∀ a, Keeps keep (body a)) (fuel : Nat) (start : Option α) :
    Keeps keep (loop body fuel start) := by
  induction fuel generalizing start with
  | zero =>
    cases start with
    | none => exact keeps_pure keep ()
    | some a => exact fun s kept => kept
  | succ fuel ih =>
    cases start with
    | none => exact keeps_pure keep ()
    | some a => exact keeps_bind (each a) fun next => ih next

def Comes (pre : σ → Prop) (p : Prog ε σ α) (post : σ → Prop) : Prop :=
  ∀ s a t, pre s → p s = (.ok a, t) → post t

theorem comes_keeps {keep : σ → Prop} {p : Prog ε σ α} (kept : Keeps keep p) : Comes keep p keep := by
  intro s a t here ran
  have after := kept s here
  rwa [ran] at after

theorem comes_bind {pre mid post : σ → Prop} {p : Prog ε σ α} {f : α → Prog ε σ β}
    (first : Comes pre p mid) (second : ∀ a, Comes mid (f a) post) : Comes pre (p >>= f) post := by
  intro s b u here ran
  cases eq : p s with
  | mk o t =>
    cases o with
    | ok a =>
      rw [bind_ok eq] at ran
      exact second a t b u (first s a t here eq) ran
    | raised e =>
      rw [bind_raised eq] at ran
      cases ran
    | stuck =>
      simp only [bind, eq] at ran
      cases ran

theorem comes_ensure {pre mid post : σ → Prop} {p : Prog ε σ α} {last : Prog ε σ Unit}
    (first : Comes pre p mid) (second : Comes mid last post) : Comes pre (ensure p last) post := by
  intro s a v here ran
  unfold ensure at ran
  cases eq : p s with
  | mk o t =>
    rw [eq] at ran
    cases o with
    | stuck => cases ran
    | ok b =>
      cases eq' : last t with
      | mk o' u =>
        simp only [eq'] at ran
        cases o' with
        | ok _ =>
          cases ran
          exact second t () _ (first s _ t here eq) eq'
        | raised e => cases ran
        | stuck => cases ran
    | raised e =>
      cases eq' : last t with
      | mk o' u =>
        simp only [eq'] at ran
        cases o' <;> cases ran

theorem comes_object {pre post : σ → Prop} {p : Prog ε (τ × σ) α} {init : τ}
    (inside : Comes (fun s => s.1 = init ∧ pre s.2) p fun s => post s.2) :
    Comes pre (withObject init p) post := by
  intro s a t here ran
  cases eq : p (init, s) with
  | mk o u =>
    simp only [withObject, eq] at ran
    cases ran
    exact inside (init, s) a u ⟨rfl, here⟩ eq

theorem comes_weaken {pre pre' post post' : σ → Prop} {p : Prog ε σ α} (comes : Comes pre' p post')
    (before : ∀ s, pre s → pre' s) (after : ∀ s, post' s → post s) : Comes pre p post :=
  fun s a t here ran => after t (comes s a t (before s here) ran)

end Programs
