import Kino.Transitions
import Kino.PinSlab

/-!
The slab of pinned values under concurrency (ext/kino/src/pin.rs): an insert moves the cursor
and then tries one slot after another by compare-exchange, a release stores zero, and any
number of both interleave. An insert that meets nobody is the atomic insert of the slab.
-/
namespace KinoPinRace
open Transitions Ownership KinoPinSlab

/-- The values of `usize`. -/
def wordSize : Nat := 2 ^ 64

inductive Pc where
  | idle
  | entered (value : Nat)
  | scanning (value start offset : Nat)
  | held (value index : Nat)
  | refused (value : Nat)
  | panicked
  | released
  deriving DecidableEq, Repr

/-- A slot is empty when it is 0. `owner` is history: the insert that filled the slot. -/
structure State where
  slots : List Nat
  cursor : Nat
  pcs : Nat → Pc
  owner : Nat → Option Nat

def State.goto (s : State) (t : Nat) (p : Pc) : State := { s with pcs := Function.update s.pcs t p }

inductive Label where
  | insert (t value : Nat)
  | step (t : Nat)
  | release (t : Nat)
  deriving DecidableEq, Repr

/-- `checks` says whether an addition that overflows panics, as in a debug build, or wraps. -/
def advance (checks : Bool) (s : State) (t : Nat) : Option State :=
  match s.pcs t with
  | .entered value =>
    some ({ s with cursor := (s.cursor + 1) % wordSize }.goto t (.scanning value s.cursor 0))
  | .scanning value start offset =>
    if offset < s.slots.length then
      if checks = true ∧ wordSize ≤ start + offset then some (s.goto t .panicked)
      else
        let index := (start + offset) % wordSize % s.slots.length
        if s.slots[index]? = some 0 then
          some ({ s with
            slots := s.slots.set index value
            owner := Function.update s.owner index (some t) }.goto t (.held value index))
        else some (s.goto t (.scanning value start (offset + 1)))
    else some (s.goto t (.refused value))
  | _ => none

def step (checks : Bool) (s : State) : Label → Option State
  | .insert t value =>
    if s.pcs t = .idle ∧ value ≠ 0 then some (s.goto t (.entered value)) else none
  | .step t => advance checks s t
  | .release t =>
    match s.pcs t with
    | .held _ index =>
      some ({ s with
        slots := s.slots.set index 0
        owner := Function.update s.owner index none }.goto t .released)
    | _ => none

def initial (capacity cursor : Nat) : State :=
  ⟨List.replicate capacity 0, cursor, fun _ => .idle, fun _ => none⟩

def system (checks : Bool) : System State Label where
  start s := ∃ capacity cursor, cursor < wordSize ∧ s = initial capacity cursor
  step := step checks

@[simp] theorem goto_slots (s : State) (t : Nat) (p : Pc) : (s.goto t p).slots = s.slots := rfl
@[simp] theorem goto_cursor (s : State) (t : Nat) (p : Pc) : (s.goto t p).cursor = s.cursor := rfl
@[simp] theorem goto_owner (s : State) (t : Nat) (p : Pc) : (s.goto t p).owner = s.owner := rfl
@[simp] theorem goto_pcs (s : State) (t u : Nat) (p : Pc) :
    (s.goto t p).pcs u = if u = t then p else s.pcs u := by
  simp [State.goto, Function.update_apply]

def holding : Pc → Option Nat
  | .held _ index => some index
  | _ => none

def carried : Pc → Option Nat
  | .entered value | .scanning value _ _ | .held value _ => some value
  | _ => none

structure Inv (s : State) : Prop where
  exclusive : Exclusive s.owner fun t => holding (s.pcs t)
  rooted : ∀ t value index, s.pcs t = .held value index → s.slots[index]? = some value
  vacant : ∀ index, s.owner index = none → s.slots.getD index 0 = 0
  nonzero : ∀ t value, carried (s.pcs t) = some value → value ≠ 0

theorem holding_goto (s : State) (t : Nat) (p : Pc) :
    (fun u => holding ((s.goto t p).pcs u)) =
      Function.update (fun u => holding (s.pcs u)) t (holding p) := by
  funext u
  rw [goto_pcs, Function.update_apply]
  split
  · rfl
  · rfl

theorem aside_inv {s : State} {t : Nat} {p : Pc} (inv : Inv s) (c : Nat)
    (before : holding (s.pcs t) = none) (after : holding p = none)
    (nonzero : ∀ value, carried p = some value → value ≠ 0) :
    Inv ({ s with cursor := c }.goto t p) := by
  constructor
  · have same : (fun u => holding (({ s with cursor := c }.goto t p).pcs u)) =
        fun u => holding (s.pcs u) := by
      rw [holding_goto, after, ← before]
      exact Function.update_eq_self t _
    rw [same]
    exact inv.exclusive
  · intro u value index at_u
    by_cases mine : u = t
    · rw [mine, goto_pcs, if_pos rfl] at at_u
      rw [at_u] at after
      cases after
    · rw [goto_pcs, if_neg mine] at at_u
      exact inv.rooted u value index at_u
  · exact inv.vacant
  · intro u value at_u
    by_cases mine : u = t
    · rw [mine, goto_pcs, if_pos rfl] at at_u
      exact nonzero value at_u
    · rw [goto_pcs, if_neg mine] at at_u
      exact inv.nonzero u value at_u

theorem held_owned {s : State} (inv : Inv s) {t value index : Nat}
    (at_t : s.pcs t = .held value index) : s.owner index = some t := by
  apply (inv.exclusive index t).mpr
  change holding (s.pcs t) = some index
  rw [at_t]
  rfl

theorem empty_unowned {s : State} (inv : Inv s) {index : Nat} (empty : s.slots[index]? = some 0) :
    s.owner index = none := by
  cases owned : s.owner index with
  | none => rfl
  | some u =>
    have at_u := (inv.exclusive index u).mp owned
    cases pc : s.pcs u with
    | held value i =>
      simp only [pc, holding, Option.some.injEq] at at_u
      subst i
      have here := inv.rooted u value index pc
      rw [empty] at here
      have zero : value = 0 := by simpa using here.symm
      exact absurd zero (inv.nonzero u value (by simp [pc, carried]))
    | _ => simp [pc, holding] at at_u

theorem claim_inv {s : State} {t value index : Nat} (inv : Inv s) (before : holding (s.pcs t) = none)
    (nonzero : value ≠ 0) (empty : s.slots[index]? = some 0) :
    Inv ({ s with
      slots := s.slots.set index value
      owner := Function.update s.owner index (some t) }.goto t (.held value index)) := by
  have free := empty_unowned inv empty
  have inside : index < s.slots.length := (List.getElem?_eq_some_iff.mp empty).1
  constructor
  · rw [holding_goto]
    exact exclusive_acquire inv.exclusive free before
  · intro u v i at_u
    by_cases mine : u = t
    · rw [mine, goto_pcs, if_pos rfl] at at_u
      cases at_u
      exact List.getElem?_set_self inside
    · rw [goto_pcs, if_neg mine] at at_u
      change s.pcs u = .held v i at at_u
      have other : index ≠ i := by
        rintro rfl
        have owned := held_owned inv at_u
        rw [free] at owned
        cases owned
      rw [goto_slots, List.getElem?_set_ne other]
      exact inv.rooted u v i at_u
  · intro i unowned
    change Function.update s.owner index (some t) i = none at unowned
    by_cases here : i = index
    · rw [here, Function.update_self] at unowned
      cases unowned
    · rw [Function.update_of_ne here] at unowned
      have was := inv.vacant i unowned
      rw [List.getD_eq_getElem?_getD] at was
      rw [goto_slots, List.getD_eq_getElem?_getD, List.getElem?_set_ne (Ne.symm here)]
      exact was
  · intro u v at_u
    by_cases mine : u = t
    · rw [mine, goto_pcs, if_pos rfl] at at_u
      cases at_u
      exact nonzero
    · rw [goto_pcs, if_neg mine] at at_u
      exact inv.nonzero u v at_u

theorem release_inv {s : State} {t value index : Nat} (inv : Inv s)
    (at_t : s.pcs t = .held value index) :
    Inv ({ s with
      slots := s.slots.set index 0
      owner := Function.update s.owner index none }.goto t .released) := by
  have held : holding (s.pcs t) = some index := by rw [at_t]; rfl
  constructor
  · rw [holding_goto]
    exact exclusive_release inv.exclusive held
  · intro u v i at_u
    by_cases mine : u = t
    · rw [mine, goto_pcs, if_pos rfl] at at_u
      cases at_u
    · rw [goto_pcs, if_neg mine] at at_u
      change s.pcs u = .held v i at at_u
      have other : index ≠ i := by
        rintro rfl
        have owned := held_owned inv at_u
        rw [held_owned inv at_t] at owned
        exact mine (Option.some.inj owned).symm
      rw [goto_slots, List.getElem?_set_ne other]
      exact inv.rooted u v i at_u
  · intro i unowned
    change Function.update s.owner index none i = none at unowned
    rw [goto_slots, List.getD_eq_getElem?_getD, List.getElem?_set]
    by_cases here : index = i
    · rw [if_pos here]
      split
      · rfl
      · rfl
    · rw [Function.update_of_ne (Ne.symm here)] at unowned
      have was := inv.vacant i unowned
      rw [List.getD_eq_getElem?_getD] at was
      rw [if_neg here]
      exact was
  · intro u v at_u
    by_cases mine : u = t
    · rw [mine, goto_pcs, if_pos rfl] at at_u
      cases at_u
    · rw [goto_pcs, if_neg mine] at at_u
      exact inv.nonzero u v at_u

theorem advance_inv {checks : Bool} {s s' : State} {t : Nat} (inv : Inv s)
    (moved : advance checks s t = some s') : Inv s' := by
  unfold advance at moved
  cases at_t : s.pcs t with
  | entered value =>
    rw [at_t] at moved
    cases moved
    have nonzero := inv.nonzero t value (by rw [at_t]; rfl)
    apply aside_inv inv
    · rw [at_t]
      rfl
    · rfl
    · rintro v ⟨⟩
      exact nonzero
  | scanning value start offset =>
    have before : holding (s.pcs t) = none := by rw [at_t]; rfl
    have nonzero := inv.nonzero t value (by rw [at_t]; rfl)
    rw [at_t] at moved
    dsimp only at moved
    split at moved
    · split at moved
      · cases moved
        exact aside_inv inv s.cursor before rfl (by simp [carried])
      · split at moved
        · next empty =>
          cases moved
          exact claim_inv inv before nonzero empty
        · cases moved
          apply aside_inv inv s.cursor before rfl
          rintro v ⟨⟩
          exact nonzero
    · cases moved
      exact aside_inv inv s.cursor before rfl (by simp [carried])
  | _ => simp [at_t] at moved

theorem step_inv {checks : Bool} {s s' : State} {l : Label} (inv : Inv s)
    (moved : step checks s l = some s') : Inv s' := by
  cases l with
  | insert t value =>
    simp only [step] at moved
    split at moved
    · next guard =>
      cases moved
      apply aside_inv inv s.cursor
      · rw [guard.1]
        rfl
      · rfl
      · rintro v ⟨⟩
        exact guard.2
    · cases moved
  | step t => exact advance_inv inv moved
  | release t =>
    simp only [step] at moved
    split at moved
    · next at_t =>
      cases moved
      exact release_inv inv at_t
    · cases moved

theorem initial_inv (capacity cursor : Nat) : Inv (initial capacity cursor) := by
  constructor
  · intro i t
    simp [initial, holding]
  · intro t value index at_t
    cases at_t
  · intro index _
    rw [List.getD_eq_getElem?_getD]
    by_cases inside : index < capacity
    · simp [initial, inside]
    · simp [initial, Nat.le_of_not_lt inside]
  · intro t value at_t
    cases at_t

theorem reachable_inv {checks : Bool} {s : State} (reached : Reachable (system checks) s) : Inv s := by
  apply reachable_invariant Inv ?_ (fun _ _ _ => step_inv) reached
  rintro s ⟨capacity, cursor, _, rfl⟩
  exact initial_inv capacity cursor

theorem nonzero_held {s : State} (inv : Inv s) {index value : Nat}
    (here : s.slots[index]? = some value) (filled : value ≠ 0) : ∃ t, s.pcs t = .held value index := by
  cases owned : s.owner index with
  | none =>
    have zero := inv.vacant index owned
    rw [List.getD_eq_getElem?_getD, here] at zero
    exact absurd zero filled
  | some t =>
    have at_t := (inv.exclusive index t).mp owned
    cases pc : s.pcs t with
    | held v i =>
      simp only [pc, holding, Option.some.injEq] at at_t
      subst i
      have same := inv.rooted t v index pc
      rw [here] at same
      cases same
      exact ⟨t, pc⟩
    | _ => simp [pc, holding] at at_t

def markAll (s : State) : List Nat := s.slots.filter (· ≠ 0)

theorem marked_iff_held {checks : Bool} {s : State} (reached : Reachable (system checks) s)
    (value : Nat) : value ∈ markAll s ↔ ∃ t index, s.pcs t = .held value index := by
  have inv := reachable_inv reached
  simp only [markAll, List.mem_filter, decide_eq_true_eq]
  constructor
  · rintro ⟨here, filled⟩
    obtain ⟨index, at_index⟩ := List.mem_iff_getElem?.mp here
    obtain ⟨t, at_t⟩ := nonzero_held inv at_index filled
    exact ⟨t, index, at_t⟩
  · rintro ⟨t, index, at_t⟩
    constructor
    · exact List.mem_of_getElem? (inv.rooted t value index at_t)
    · exact inv.nonzero t value (by rw [at_t]; rfl)

/-! An insert on its own. -/

def Searching (slots : List Nat) (start t value : Nat) (s : State) : Prop :=
  s.slots = slots ∧
    ((s.pcs t = .entered value ∧ s.cursor = start) ∨
      (∃ offset, offset ≤ slots.length ∧ s.pcs t = .scanning value start offset ∧
        ∀ k, k < offset → slots[(start + k) % slots.length]? ≠ some 0) ∨
      (s.pcs t = .refused value ∧
        ∀ k, k < slots.length → slots[(start + k) % slots.length]? ≠ some 0)) ∨
  (∃ index, s.pcs t = .held value index)

theorem searching_step {checks : Bool} {slots : List Nat} {start t value : Nat} {s s' : State}
    (fits : start + slots.length ≤ wordSize) (keep : Searching slots start t value s)
    (moved : advance checks s t = some s') : Searching slots start t value s' := by
  unfold advance at moved
  rcases keep with ⟨same, ⟨at_t, from_here⟩ | ⟨offset, small, at_t, passed⟩ | ⟨at_t, _⟩⟩ | ⟨index, at_t⟩
  · rw [at_t] at moved
    cases moved
    left
    constructor
    · exact same
    · right
      left
      exact ⟨0, by omega, by simp [from_here], by omega⟩
  · rw [at_t] at moved
    simp only [same] at moved
    split at moved
    · next inside =>
      have below : start + offset < wordSize := by omega
      rw [if_neg (by omega), Nat.mod_eq_of_lt below] at moved
      split at moved
      · cases moved
        right
        exact ⟨(start + offset) % slots.length, by simp⟩
      · next filled =>
        cases moved
        left
        constructor
        · exact same
        · right
          left
          refine ⟨offset + 1, by omega, by simp, ?_⟩
          intro k before
          rcases Nat.lt_or_ge k offset with earlier | here
          · exact passed k earlier
          · have now : k = offset := by omega
            rw [now]
            exact filled
    · next outside =>
      cases moved
      left
      constructor
      · exact same
      · right
        right
        constructor
        · simp
        · intro k inside
          exact passed k (by omega)
  · simp [at_t] at moved
  · simp [at_t] at moved

def slab (s : State) : PinSlab Nat := ⟨s.slots.map fun v => if v = 0 then none else some v, s.cursor⟩

theorem slab_vacant (s : State) (i : Nat) : vacant (slab s) i = true ↔ s.slots[i]? = some 0 := by
  rw [vacant_iff, slab, List.getElem?_map, Option.map_eq_some_iff]
  constructor
  · rintro ⟨v, here, empty⟩
    have zero : v = 0 := by
      by_contra filled
      rw [if_neg filled] at empty
      cases empty
    rw [here, zero]
  · intro here
    exact ⟨0, here, rfl⟩

/-- The rest of an undisturbed scan: the first empty slot among those still to come. -/
theorem scan_solo {t value start : Nat} (checks : Bool) (m : Nat) {offset : Nat} {s : State}
    (at_t : s.pcs t = .scanning value start offset) (rest : offset + m = s.slots.length)
    (fits : start + s.slots.length ≤ wordSize) :
    ∃ k s', run (system checks) s (List.replicate k (.step t)) = some s' ∧
      match ((List.range' offset m).map fun o => (start + o) % s.slots.length).find? (vacant (slab s)) with
      | some i => s'.pcs t = .held value i ∧ s'.slots = s.slots.set i value
      | none => s'.pcs t = .refused value ∧ s'.slots = s.slots := by
  induction m generalizing offset s with
  | zero =>
    have moved : advance checks s t = some (s.goto t (.refused value)) := by
      unfold advance
      rw [at_t]
      exact if_neg (by omega)
    refine ⟨1, _, run_cons.mpr ⟨_, moved, rfl⟩, ?_⟩
    simp
  | succ m ih =>
    have inside : offset < s.slots.length := by omega
    have below : start + offset < wordSize := by omega
    rw [List.range'_succ, List.map_cons, List.find?_cons]
    by_cases empty : s.slots[(start + offset) % s.slots.length]? = some 0
    · rw [(slab_vacant s _).mpr empty]
      have moved : advance checks s t = some ({ s with
          slots := s.slots.set ((start + offset) % s.slots.length) value
          owner := Function.update s.owner ((start + offset) % s.slots.length) (some t) }.goto t
            (.held value ((start + offset) % s.slots.length))) := by
        unfold advance
        rw [at_t]
        dsimp only
        rw [if_pos inside, if_neg (by omega), Nat.mod_eq_of_lt below, if_pos empty]
      refine ⟨1, _, run_cons.mpr ⟨_, moved, rfl⟩, ?_⟩
      simp
    · have filled : vacant (slab s) ((start + offset) % s.slots.length) = false := by
        rw [Bool.eq_false_iff]
        intro hollow
        exact empty ((slab_vacant s _).mp hollow)
      have moved : advance checks s t = some (s.goto t (.scanning value start (offset + 1))) := by
        unfold advance
        rw [at_t]
        dsimp only
        rw [if_pos inside, if_neg (by omega), Nat.mod_eq_of_lt below, if_neg empty]
      have at_next : (s.goto t (.scanning value start (offset + 1))).pcs t =
          .scanning value start (offset + 1) := by simp
      obtain ⟨k, s', ran, found⟩ := ih at_next (by rw [goto_slots]; omega) fits
      rw [filled]
      exact ⟨k + 1, s', run_cons.mpr ⟨_, moved, ran⟩, found⟩

theorem insert_found (p : PinSlab Nat) (value : Nat) :
    let found := ((List.range' 0 p.slots.length).map fun o => (p.cursor + o) % p.slots.length).find?
      (vacant p)
    (p.insert value).1 = found ∧
      (p.insert value).2.slots = found.elim p.slots fun i => p.slots.set i (some value) := by
  unfold PinSlab.insert
  rw [← List.range_eq_range']
  dsimp only
  split
  · next i found => simp [found]
  · next found => simp [found]

theorem solo_insert {checks : Bool} {s : State} {t value : Nat} (at_t : s.pcs t = .entered value)
    (filled : value ≠ 0) (fits : s.cursor + s.slots.length ≤ wordSize) :
    ∃ k s', run (system checks) s (List.replicate k (.step t)) = some s' ∧
      (slab s').slots = ((slab s).insert value).2.slots ∧
      s'.pcs t = ((slab s).insert value).1.elim (.refused value) (.held value) := by
  let next := { s with cursor := (s.cursor + 1) % wordSize }.goto t (.scanning value s.cursor 0)
  have moved : advance checks s t = some next := by
    unfold advance
    rw [at_t]
  have at_next : next.pcs t = .scanning value s.cursor 0 := by simp [next]
  obtain ⟨k, s', ran, found⟩ :=
    scan_solo checks s.slots.length at_next (Nat.zero_add _) fits
  have sized : (slab s).slots.length = s.slots.length := by simp [slab]
  obtain ⟨result, slots⟩ := insert_found (slab s) value
  rw [sized] at result slots
  refine ⟨k + 1, s', run_cons.mpr ⟨_, moved, ran⟩, ?_⟩
  rw [result, slots]
  change match ((List.range' 0 s.slots.length).map fun o => ((slab s).cursor + o) % s.slots.length).find?
      (vacant (slab s)) with
    | some i => s'.pcs t = .held value i ∧ s'.slots = s.slots.set i value
    | none => s'.pcs t = .refused value ∧ s'.slots = s.slots at found
  generalize ((List.range' 0 s.slots.length).map fun o => ((slab s).cursor + o) % s.slots.length).find?
    (vacant (slab s)) = spot at found ⊢
  cases spot with
  | some i =>
    obtain ⟨held, slots⟩ := found
    rw [held]
    simp [slab, slots, List.map_set, filled]
  | none =>
    obtain ⟨refused, slots⟩ := found
    rw [refused]
    simp [slab, slots]

/-- The owner of a slot has it to itself, with its own value in it, and an insert that
    nobody disturbs finds an empty slot if there is one. -/
theorem pin_slab_law (checks : Bool) :
    (∀ s, Reachable (system checks) s →
      (∀ t value index, s.pcs t = .held value index → s.slots[index]? = some value) ∧
      (∀ t u value value' index, s.pcs t = .held value index → s.pcs u = .held value' index → t = u) ∧
      ∀ index value, s.slots[index]? = some value → value ≠ 0 →
        ∃ t, s.pcs t = .held value index) ∧
    ∀ (s s' : State) (t value : Nat) (ls : List Label), s.pcs t = .entered value →
      s.cursor + s.slots.length ≤ wordSize → (∀ l ∈ ls, l = .step t) →
      run (system checks) s ls = some s' → s'.pcs t = .refused value → ∀ v ∈ s.slots, v ≠ 0 := by
  constructor
  · intro s reached
    have inv := reachable_inv reached
    refine ⟨inv.rooted, ?_, fun index value => nonzero_held inv⟩
    intro t u value value' index at_t at_u
    have owned := held_owned inv at_t
    rw [held_owned inv at_u] at owned
    exact (Option.some.inj owned).symm
  · intro s s' t value ls at_t fits alone ran refused v here
    have searched : Searching s.slots s.cursor t value s' := by
      apply run_keeps (Searching s.slots s.cursor t value) (· = .step t) ?_ ?_ alone ran
      · rintro x y l keep rfl moved
        exact searching_step fits keep moved
      · exact .inl ⟨rfl, .inl ⟨at_t, rfl⟩⟩
    rcases searched with ⟨_, ⟨entered, _⟩ | ⟨_, _, scanning, _⟩ | ⟨_, filled⟩⟩ | ⟨_, held⟩
    · rw [refused] at entered
      cases entered
    · rw [refused] at scanning
      cases scanning
    · obtain ⟨i, inside, same⟩ := List.mem_iff_getElem.mp here
      obtain ⟨k, less, at_i⟩ := round_covers s.cursor inside
      have full := filled k less
      rw [at_i, List.getElem?_eq_getElem inside, same] at full
      rintro rfl
      exact full rfl
    · rw [refused] at held
      cases held

def filling : List Label :=
  [.insert 0 4096, .step 0, .step 0, .insert 1 8192, .step 1, .step 1, .insert 2 512]

def filled : State := (run (system true) (initial 2 5) filling).getD (initial 2 5)

theorem third_insert_refused :
    filled.slots[1]? = some 4096 ∧
      ∃ s, run (system true) filled (List.replicate 4 (.step 2)) = some s ∧ s.pcs 2 = .refused 512 ∧
        ∀ v ∈ filled.slots, v ≠ 0 := by
  have entered : run (system true) (initial 2 5) filling = some filled := rfl
  have reached : Reachable (system true) filled :=
    reachable_run (.start ⟨2, 5, by decide, rfl⟩) entered
  have ran : run (system true) filled (List.replicate 4 (.step 2)) = some _ := rfl
  constructor
  · exact ((pin_slab_law true).1 filled reached).1 0 4096 1 rfl
  · exact ⟨_, ran, rfl, (pin_slab_law true).2 filled _ 2 512 _ rfl (by decide) (by decide) ran rfl⟩

end KinoPinRace
