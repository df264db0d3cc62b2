import Mathlib

/- Who has what. Tokens are kept in lists at places: a location map gives each token
   at most one place, and the contents agree with it when every list holds a token
   once if that is its place and not at all otherwise. Locks are held by agents, each
   of which holds at most one: lock and holder agree on one another. -/
namespace Ownership

variable {Tok Place : Type} [DecidableEq Tok] [DecidableEq Place]

def Located (contents : Place → List Tok) (loc : Tok → Option Place) : Prop :=
  ∀ p t, (contents p).count t = if loc t = some p then 1 else 0

/-- One occurrence at one place, none elsewhere. -/
def ExactlyAt (contents : Place → List Tok) (t : Tok) (p : Place) : Prop :=
  (contents p).count t = 1 ∧ ∀ q, q ≠ p → t ∉ contents q

theorem located_empty : Located (fun _ : Place => ([] : List Tok)) (fun _ => none) := by
  intro p t
  simp

theorem located_exactly {contents : Place → List Tok} {loc : Tok → Option Place}
    (located : Located contents loc) {t : Tok} {p : Place} (here : loc t = some p) :
    ExactlyAt contents t p := by
  constructor
  · rw [located p t, if_pos here]
  · intro q other
    have none_here := located q t
    rw [here, if_neg (fun same => other (Option.some.inj same).symm)] at none_here
    exact List.count_eq_zero.mp none_here

theorem located_mem {contents : Place → List Tok} {loc : Tok → Option Place}
    (located : Located contents loc) {t : Tok} {p : Place} (here : t ∈ contents p) :
    loc t = some p := by
  by_contra away
  have none_here := located p t
  rw [if_neg away] at none_here
  exact List.count_eq_zero.mp none_here here

theorem located_enter {contents : Place → List Tok} {loc : Tok → Option Place}
    (located : Located contents loc) {t : Tok} {p : Place} (outside : loc t = none) :
    Located (Function.update contents p (contents p ++ [t])) (Function.update loc t (some p)) := by
  intro q u
  have before := located q u
  by_cases at_p : q = p
  · subst q
    by_cases same : u = t
    · subst u
      rw [outside] at before
      simp_all
    · simp_all [Function.update_of_ne, Ne.symm same]
  · by_cases same : u = t
    · subst u
      rw [outside] at before
      simp_all [Function.update_of_ne, Ne.symm at_p]
    · simp_all [Function.update_of_ne]

theorem located_move {contents : Place → List Tok} {loc : Tok → Option Place}
    (located : Located contents loc) {t : Tok} {rest : List Tok} {p q : Place} (apart : p ≠ q)
    (front : contents p = t :: rest) :
    Located (Function.update (Function.update contents p rest) q (contents q ++ [t]))
      (Function.update loc t (some q)) := by
  have was : loc t = some p := located_mem located (by simp [front])
  intro o u
  have before := located o u
  by_cases same : u = t
  · subst u
    rw [was] at before
    by_cases at_q : o = q
    · subst o
      simp_all
    · by_cases at_p : o = p
      · subst o
        simp_all [Function.update_of_ne, Ne.symm at_q]
      · simp_all [Function.update_of_ne, Ne.symm at_q, Ne.symm at_p]
  · by_cases at_q : o = q
    · subst o
      simp_all [Function.update_of_ne, Ne.symm same]
    · by_cases at_p : o = p
      · subst o
        simp_all [Function.update_of_ne, Ne.symm same]
      · simp_all [Function.update_of_ne]

theorem located_erase {contents : Place → List Tok} {loc : Tok → Option Place}
    (located : Located contents loc) {t : Tok} {p : Place} (here : t ∈ contents p) :
    Located (Function.update contents p ((contents p).erase t)) (Function.update loc t none) := by
  have was : loc t = some p := located_mem located here
  intro q u
  have before := located q u
  by_cases same : u = t
  · subst u
    rw [was] at before
    by_cases at_p : q = p
    · subst q
      simp_all
    · simp_all [Function.update_of_ne, Ne.symm at_p]
  · by_cases at_p : q = p
    · subst q
      simp_all [Function.update_of_ne, List.count_erase_of_ne]
    · simp_all [Function.update_of_ne]

theorem located_shift {contents : Place → List Tok} {loc : Tok → Option Place}
    (located : Located contents loc) {t : Tok} {p q : Place} (apart : p ≠ q)
    (here : t ∈ contents p) :
    Located (Function.update (Function.update contents p ((contents p).erase t)) q
      (contents q ++ [t])) (Function.update loc t (some q)) := by
  have outside : Function.update loc t none t = none := Function.update_self ..
  have entered := located_enter (p := q) (located_erase located here) outside
  rwa [Function.update_of_ne (Ne.symm apart), Function.update_idem] at entered

theorem located_here {contents : Place → List Tok} {loc : Tok → Option Place}
    (located : Located contents loc) {t : Tok} {p : Place} (here : loc t = some p) :
    t ∈ contents p := by
  have one := located p t
  rw [if_pos here] at one
  exact List.count_pos_iff.mp (by omega)

theorem located_clear {contents : Place → List Tok} {loc : Tok → Option Place}
    (located : Located contents loc) (p : Place) :
    Located (Function.update contents p []) (fun t => if t ∈ contents p then none else loc t) := by
  intro q u
  have before := located q u
  by_cases here : u ∈ contents p
  · have was : loc u = some p := located_mem located here
    by_cases at_p : q = p
    · simp [at_p, here]
    · rw [was, if_neg (fun same => at_p (Option.some.inj same).symm)] at before
      simp [Function.update_of_ne at_p, here, before]
  · by_cases at_p : q = p
    · subst q
      have away : loc u ≠ some p := by
        intro was
        rw [if_pos was] at before
        exact here (List.count_pos_iff.mp (by omega))
      simp [here, away]
    · simp [Function.update_of_ne at_p, here, before]

theorem located_swap {contents : Place → List Tok} {loc : Tok → Option Place}
    (located : Located contents loc) (p q : Place) :
    Located (fun o => contents (Equiv.swap p q o)) (fun t => (loc t).map (Equiv.swap p q)) := by
  intro o t
  rw [located]
  have turned : (loc t = some (Equiv.swap p q o)) ↔ ((loc t).map (Equiv.swap p q) = some o) := by
    cases loc t with
    | none => simp
    | some r =>
      simp only [Option.some.injEq, Option.map_some]
      constructor
      · intro here
        rw [here, Equiv.swap_apply_self]
      · intro here
        rw [← here, Equiv.swap_apply_self]
  by_cases here : loc t = some (Equiv.swap p q o)
  · rw [if_pos here, if_pos (turned.mp here)]
  · rw [if_neg here, if_neg fun there => here (turned.mpr there)]

def Housed (contents : Place → List Nat) (count : Nat) : Prop :=
  ∃ loc, Located contents loc ∧ ∀ i, (∃ p, loc i = some p) ↔ i < count

theorem housed_empty : Housed (fun _ : Place => []) 0 :=
  ⟨fun _ => none, located_empty, fun i => by simp⟩

theorem housed_same {contents contents' : Place → List Nat} {count : Nat}
    (housed : Housed contents count) (same : ∀ q i, (contents' q).count i = (contents q).count i) :
    Housed contents' count := by
  obtain ⟨loc, located, inside⟩ := housed
  exact ⟨loc, fun q i => (same q i).trans (located q i), inside⟩

theorem housed_exactly {contents : Place → List Nat} {count i : Nat}
    (housed : Housed contents count) (inside : i < count) : ∃ p, ExactlyAt contents i p := by
  obtain ⟨loc, located, inside_iff⟩ := housed
  obtain ⟨p, here⟩ := (inside_iff i).mpr inside
  exact ⟨p, located_exactly located here⟩

theorem housed_lt {contents : Place → List Nat} {count i : Nat} {p : Place}
    (housed : Housed contents count) (here : i ∈ contents p) : i < count := by
  obtain ⟨loc, located, inside⟩ := housed
  exact (inside i).mp ⟨p, located_mem located here⟩

theorem housed_apart {contents : Place → List Nat} {count i : Nat} {p q : Place}
    (housed : Housed contents count) (here : i ∈ contents p) (there : i ∈ contents q) : p = q := by
  obtain ⟨loc, located, _⟩ := housed
  have first := located_mem located here
  rw [located_mem located there] at first
  exact (Option.some.inj first).symm

theorem housed_once {contents : Place → List Nat} {count : Nat} (housed : Housed contents count)
    (p : Place) (i : Nat) : (contents p).count i ≤ 1 := by
  obtain ⟨loc, located, _⟩ := housed
  rw [located p i]
  split <;> omega

theorem housed_shift {contents contents' : Place → List Nat} {count : Nat} {p q : Place}
    (part : List Nat) (housed : Housed contents count) (apart : p ≠ q)
    (taken : ∀ i, (contents p).count i = (contents' p).count i + part.count i)
    (given : ∀ i, (contents' q).count i = (contents q).count i + part.count i)
    (others : ∀ o, o ≠ p → o ≠ q → ∀ i, (contents' o).count i = (contents o).count i) :
    Housed contents' count := by
  obtain ⟨loc, located, inside⟩ := housed
  have moved : ∀ i, i ∈ part → loc i = some p ∧ (contents' p).count i = 0 ∧ part.count i = 1 := by
    intro i here
    have some_there := List.count_pos_iff.mpr here
    have total := taken i
    have at_p : loc i = some p :=
      located_mem located (List.count_pos_iff.mp (by omega))
    rw [located p i, if_pos at_p] at total
    exact ⟨at_p, by omega, by omega⟩
  refine ⟨fun i => if i ∈ part then some q else loc i, ?_, ?_⟩
  · intro o i
    beta_reduce
    by_cases here : i ∈ part
    · obtain ⟨at_p, none_left, one⟩ := moved i here
      rw [if_pos here]
      by_cases at_q : o = q
      · subst o
        rw [given i, located q i, at_p, if_neg (by simpa using apart), one]
        simp
      · rw [if_neg (by simpa using Ne.symm at_q)]
        by_cases from_p : o = p
        · subst o
          exact none_left
        · rw [others o from_p at_q i, located o i, at_p, if_neg (by simpa using Ne.symm from_p)]
    · have none_moved := List.count_eq_zero.mpr here
      rw [if_neg here, ← located o i]
      by_cases at_q : o = q
      · subst o
        rw [given i, none_moved, Nat.add_zero]
      · by_cases from_p : o = p
        · subst o
          have total := taken i
          omega
        · exact others o from_p at_q i
  · intro i
    by_cases here : i ∈ part
    · simp only [if_pos here, Option.some.injEq, exists_eq', true_iff]
      exact (inside i).mp ⟨p, (moved i here).1⟩
    · simp only [if_neg here]
      exact inside i

theorem housed_gather {contents contents' : Place → List Nat} {count : Nat} {q : Place}
    (given_up : Place → Prop) (housed : Housed contents count) (kept : ¬given_up q)
    (taken : ∀ p, given_up p → contents' p = [])
    (moved : ∀ i, (∃ p, given_up p ∧ i ∈ contents p) →
      (contents' q).count i = (contents q).count i + 1)
    (stayed : ∀ i, (¬∃ p, given_up p ∧ i ∈ contents p) →
      (contents' q).count i = (contents q).count i)
    (others : ∀ o, ¬given_up o → o ≠ q → ∀ i, (contents' o).count i = (contents o).count i) :
    Housed contents' count := by
  classical
  obtain ⟨loc, located, inside⟩ := housed
  refine ⟨fun i => if ∃ p, given_up p ∧ i ∈ contents p then some q else loc i, ?_, ?_⟩
  · intro o i
    beta_reduce
    by_cases went : ∃ p, given_up p ∧ i ∈ contents p
    · obtain ⟨p, up, here⟩ := went
      have at_p := located_mem located here
      have went : ∃ p, given_up p ∧ i ∈ contents p := ⟨p, up, here⟩
      rw [if_pos went]
      by_cases at_q : o = q
      · subst o
        have apart : p ≠ q := fun same => kept (same ▸ up)
        rw [moved i went, located q i, at_p, if_neg (by simpa using apart)]
        simp
      · rw [if_neg (by simpa using Ne.symm at_q)]
        by_cases from_ : given_up o
        · rw [taken o from_]
          rfl
        · have apart : p ≠ o := fun same => from_ (same ▸ up)
          rw [others o from_ at_q i, located o i, at_p, if_neg (by simpa using apart)]
    · rw [if_neg went, ← located o i]
      by_cases at_q : o = q
      · subst o
        exact stayed i went
      · by_cases from_ : given_up o
        · have away_ : i ∉ contents o := fun here => went ⟨o, from_, here⟩
          rw [taken o from_, List.count_eq_zero.mpr away_]
          rfl
        · exact others o from_ at_q i
  · intro i
    by_cases went : ∃ p, given_up p ∧ i ∈ contents p
    · simp only [if_pos went, Option.some.injEq, exists_eq', true_iff]
      obtain ⟨p, _, here⟩ := went
      exact (inside i).mp ⟨p, located_mem located here⟩
    · simp only [if_neg went]
      exact inside i

/-- A token in one of several lists that share none is in their concatenation once. -/
theorem count_flatMap_one {Key : Type} {keys : List Key} {lists : Key → List Nat} {i : Nat}
    (distinct : keys.Nodup) (once : ∀ k ∈ keys, (lists k).count i ≤ 1)
    (apart : ∀ k ∈ keys, ∀ m ∈ keys, i ∈ lists k → i ∈ lists m → k = m)
    (here : ∃ k ∈ keys, i ∈ lists k) : (keys.flatMap lists).count i = 1 := by
  induction keys with
  | nil => simp at here
  | cons k keys ih =>
    rw [List.nodup_cons] at distinct
    rw [List.flatMap_cons, List.count_append]
    by_cases first : i ∈ lists k
    · have one := once k (by simp)
      have some_there := List.count_pos_iff.mpr first
      have none_later : (keys.flatMap lists).count i = 0 := by
        rw [List.count_eq_zero, List.mem_flatMap]
        rintro ⟨m, later, there⟩
        have same := apart k (by simp) m (by simp [later]) first there
        exact distinct.1 (same ▸ later)
      omega
    · rw [List.count_eq_zero.mpr first, Nat.zero_add]
      apply ih distinct.2
      · intro m later
        exact once m (by simp [later])
      · intro m later m' later'
        exact apart m (by simp [later]) m' (by simp [later'])
      · obtain ⟨m, there, inside⟩ := here
        rcases List.mem_cons.mp there with rfl | later
        · exact absurd inside first
        · exact ⟨m, later, inside⟩

theorem housed_enter {contents contents' : Place → List Nat} {count : Nat} {p : Place}
    (housed : Housed contents count)
    (given : ∀ i, (contents' p).count i = (contents p).count i + if i = count then 1 else 0)
    (others : ∀ o, o ≠ p → ∀ i, (contents' o).count i = (contents o).count i) :
    Housed contents' (count + 1) := by
  obtain ⟨loc, located, inside⟩ := housed
  have outside : loc count = none := by
    cases at_count : loc count with
    | none => rfl
    | some q =>
      have less := (inside count).mp ⟨q, at_count⟩
      omega
  refine ⟨Function.update loc count (some p), ?_, ?_⟩
  · intro o i
    have before := located o i
    by_cases same : i = count
    · subst same
      rw [outside] at before
      by_cases at_p : o = p
      · subst o
        rw [given i, before]
        simp
      · rw [others o at_p i, before]
        simp [Ne.symm at_p]
    · rw [Function.update_of_ne same, ← before]
      by_cases at_p : o = p
      · subst o
        rw [given i, if_neg same, Nat.add_zero]
      · exact others o at_p i
  · intro i
    by_cases same : i = count
    · subst same
      simp
    · rw [Function.update_of_ne same, inside i]
      omega

theorem round_covers {n : Nat} (start : Nat) {i : Nat} (inside : i < n) :
    ∃ k, k < n ∧ (start + k) % n = i := by
  have pos : 0 < n := by omega
  have below := Nat.mod_lt start pos
  rcases Nat.lt_or_ge i (start % n) with before | after
  · refine ⟨i + n - start % n, by omega, ?_⟩
    rw [Nat.add_mod, Nat.mod_eq_of_lt (a := i + n - start % n) (by omega)]
    have total : start % n + (i + n - start % n) = i + n := by omega
    rw [total, Nat.add_mod_right, Nat.mod_eq_of_lt inside]
  · refine ⟨i - start % n, by omega, ?_⟩
    rw [Nat.add_mod, Nat.mod_eq_of_lt (a := i - start % n) (by omega)]
    have total : start % n + (i - start % n) = i := by omega
    rw [total, Nat.mod_eq_of_lt inside]

variable {Agent Lock : Type} [DecidableEq Agent] [DecidableEq Lock]

/-- A lock names its holder exactly when the holder is at a point where it holds it. -/
def Exclusive (locks : Lock → Option Agent) (holding : Agent → Option Lock) : Prop :=
  ∀ i a, locks i = some a ↔ holding a = some i

theorem exclusive_acquire {locks : Lock → Option Agent} {holding : Agent → Option Lock}
    (exclusive : Exclusive locks holding) {i : Lock} {a : Agent} (free : locks i = none)
    (without : holding a = none) :
    Exclusive (Function.update locks i (some a)) (Function.update holding a (some i)) := by
  intro j b
  have before := exclusive j b
  have at_i := exclusive i b
  have of_a := exclusive j a
  rw [free] at at_i
  rw [without] at of_a
  by_cases same : j = i
  · by_cases mine : b = a
    · simp [same, mine]
    · simp_all [Function.update_of_ne, Ne.symm mine]
  · by_cases mine : b = a
    · simp_all [Function.update_of_ne, Ne.symm same]
    · simp_all [Function.update_of_ne]

theorem exclusive_release {locks : Lock → Option Agent} {holding : Agent → Option Lock}
    (exclusive : Exclusive locks holding) {i : Lock} {a : Agent} (held : holding a = some i) :
    Exclusive (Function.update locks i none) (Function.update holding a none) := by
  intro j b
  have before := exclusive j b
  have owner := (exclusive i a).mpr held
  by_cases same : j = i
  · by_cases mine : b = a
    · simp [same, mine]
    · have not_b : holding b ≠ some i := by
        intro other
        have := (exclusive i b).mpr other
        simp_all
      simp_all [Function.update_of_ne]
  · by_cases mine : b = a
    · simp_all [Function.update_of_ne, Ne.symm same]
    · simp_all [Function.update_of_ne]

end Ownership
