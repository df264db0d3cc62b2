import Kino.Transitions
import Kino.OrderedHash

/-!
The pool scaler's policy (lib/kino/pool_scaler.rb), against a pool that only the scaler
changes. What the policy may do is said over the trace of its observations; what it
remembers between them is `Memory`.
-/
namespace KinoPoolScaler
open Transitions OrderedHash
variable {T : Type}

def PRESSURE_TICKS : Nat := 2

structure Config (T : Type) where
  floor : Nat
  ceiling : Nat
  scaleDownAfter : T

/-- The columns of a `worker_stats` row that the policy reads. -/
structure Row where
  slot : Nat
  served : Nat
  inFlight : Nat
  deriving DecidableEq, Repr

inductive PoolCall where
  | grow (index : Nat)
  | retire (index : Nat)
  deriving DecidableEq, Repr

/-- `groups` lists the workers that may be retired, with their slots. A worker that
    `grow` added counts at once, and is listed once it has its slots. Indices are never
    given twice. `calls` records what the scaler asked for. -/
structure Pool where
  groups : Hash Nat (List Nat)
  starting : List Nat
  nextIndex : Nat
  calls : List PoolCall
  listed_below : ∀ i ∈ groups.keys, i < nextIndex
  starting_below : ∀ i ∈ starting, i < nextIndex
  starting_once : starting.Nodup
  unlisted : ∀ i ∈ starting, i ∉ groups.keys

namespace Pool

def activeCount (p : Pool) : Nat := p.groups.entries.length + p.starting.length

theorem next_fresh (p : Pool) : p.nextIndex ∉ p.groups.keys ∧ p.nextIndex ∉ p.starting :=
  ⟨fun listed => absurd (p.listed_below _ listed) (Nat.lt_irrefl _),
    fun member => absurd (p.starting_below _ member) (Nat.lt_irrefl _)⟩

theorem grown_cases {p : Pool} {i : Nat} (here : i ∈ p.starting ++ [p.nextIndex]) :
    i ∈ p.starting ∨ i = p.nextIndex :=
  (List.mem_append.mp here).imp_right List.mem_singleton.mp

theorem grown_below {p : Pool} {i : Nat} (here : i ∈ p.starting ++ [p.nextIndex]) :
    i < p.nextIndex + 1 := by
  rcases grown_cases here with old | new
  · exact (p.starting_below i old).trans (Nat.lt_succ_self _)
  · omega

theorem grown_once (p : Pool) : (p.starting ++ [p.nextIndex]).Nodup := by
  rw [List.nodup_append]
  refine ⟨p.starting_once, List.nodup_singleton _, ?_⟩
  rintro a old b new rfl
  exact p.next_fresh.2 (List.mem_singleton.mp new ▸ old)

theorem grown_unlisted {p : Pool} {i : Nat} (here : i ∈ p.starting ++ [p.nextIndex]) :
    i ∉ p.groups.keys := by
  rcases grown_cases here with old | rfl
  · exact p.unlisted i old
  · exact p.next_fresh.1

def grow (p : Pool) : Option Nat × Pool :=
  (some p.nextIndex,
    { p with
      starting := p.starting ++ [p.nextIndex]
      nextIndex := p.nextIndex + 1
      calls := p.calls ++ [.grow p.nextIndex]
      listed_below := fun i here => (p.listed_below i here).trans (Nat.lt_succ_self _)
      starting_below := fun _ => grown_below
      starting_once := p.grown_once
      unlisted := fun _ => grown_unlisted })

def retire (p : Pool) (index : Nat) : Bool × Pool :=
  if index ∈ p.groups.keys then
    (true,
      { p with
        groups := p.groups.delete index
        calls := p.calls ++ [.retire index]
        listed_below := fun i here => p.listed_below i (Hash.mem_keys_delete.mp here).1
        unlisted := fun i here listed => p.unlisted i here (Hash.mem_keys_delete.mp listed).1 })
  else (false, { p with calls := p.calls ++ [.retire index] })

def list (p : Pool) (index : Nat) (slots : List Nat) : Option Pool :=
  if here : index ∈ p.starting then
    some { p with
      groups := p.groups.put index slots
      starting := p.starting.erase index
      listed_below := by
        intro i listed
        rcases Hash.mem_keys_put.mp listed with rfl | old
        · exact p.starting_below i here
        · exact p.listed_below i old
      starting_below := fun i member => p.starting_below i (List.mem_of_mem_erase member)
      starting_once := p.starting_once.erase index
      unlisted := by
        intro i member listed
        obtain ⟨other, old⟩ := (p.starting_once.mem_erase_iff).mp member
        rcases Hash.mem_keys_put.mp listed with same | before
        · exact other same
        · exact p.unlisted i old before }
  else none

@[simp] theorem grow_activeCount (p : Pool) : p.grow.2.activeCount = p.activeCount + 1 := by
  simp [activeCount, grow, Nat.add_assoc]

theorem retire_activeCount {p p' : Pool} {index : Nat} (left : p.retire index = (true, p')) :
    p'.activeCount + 1 = p.activeCount := by
  unfold retire at left
  split at left
  · next here =>
    cases left
    have fewer := Hash.delete_length here
    simp only [activeCount]
    omega
  · cases left

theorem retire_calls {p p' : Pool} {index : Nat} (left : p.retire index = (true, p')) :
    p'.calls = p.calls ++ [.retire index] := by
  unfold retire at left
  split at left <;> cases left
  rfl

theorem list_activeCount {p p' : Pool} {index : Nat} {slots : List Nat}
    (listing : p.list index slots = some p') : p'.activeCount = p.activeCount := by
  unfold list at listing
  split at listing
  · next here =>
    cases listing
    have more := Hash.put_length (v := slots) (p.unlisted index here)
    have fewer := List.length_erase_of_mem here
    have some_left := List.length_pos_of_mem here
    simp only [activeCount]
    omega
  · cases listing

end Pool

structure Memory (T : Type) where
  lastServed : Hash Nat Nat
  idleSince : Hash Nat T

structure Scaler (T : Type) where
  pressure : Nat
  memory : Memory T
  pool : Pool

def bySlot (rows : List Row) (id : Nat) : Option Row := rows.reverse.find? fun row => row.slot = id

def served (rows : List Row) (slotIds : List Nat) : Nat :=
  (slotIds.map fun id => ((bySlot rows id).map Row.served).getD 0).sum

def busy (rows : List Row) (slotIds : List Nat) : Bool :=
  slotIds.any fun id => 0 < ((bySlot rows id).map Row.inFlight).getD 0

def forget (m : Memory T) (index : Nat) : Memory T :=
  ⟨m.lastServed.delete index, m.idleSince.delete index⟩

def observe (now : T) (rows : List Row) (m : Memory T) : Nat × List Nat → Memory T
  | (index, slotIds) =>
    let idle := !busy rows slotIds && m.lastServed.find index == some (served rows slotIds)
    ⟨m.lastServed.put index (served rows slotIds),
      if idle then m.idleSince.putNew index now else m.idleSince.delete index⟩

def observeIdle (now : T) (rows : List Row) (groups : Hash Nat (List Nat)) (m : Memory T) : Memory T :=
  let gone := m.idleSince.keys.filter fun index => index ∉ groups.keys
  groups.entries.foldl (observe now rows) (gone.foldl forget m)

def grow (s : Scaler T) : Scaler T := { s with pool := s.pool.grow.2 }

def retire (s : Scaler T) (index : Nat) : Scaler T :=
  match s.pool.retire index with
  | (false, pool) => { s with pool := pool }
  | (true, pool) => { s with pool := pool, memory := forget s.memory index }

def pressureAfter (s : Scaler T) (queued : Nat) : Nat := if 0 < queued then s.pressure + 1 else 0

def step [LinearOrder T] [Sub T] (config : Config T) (now : T) (queued : Nat) (rows : List Row) (s : Scaler T) : Scaler T :=
  let s := { s with pressure := pressureAfter s queued }
  if PRESSURE_TICKS ≤ s.pressure then
    if s.pool.activeCount < config.ceiling then grow s else s
  else
    let s := { s with memory := observeIdle now rows s.pool.groups s.memory }
    if config.floor < s.pool.activeCount then
      match s.memory.idleSince.entries.argmin Prod.snd with
      | none => s
      | some (index, since) => if config.scaleDownAfter ≤ now - since then retire s index else s
    else s

structure Tick (T : Type) where
  now : T
  queued : Nat
  groups : Hash Nat (List Nat)
  rows : List Row

/-- The steps made so far are history, newest first. -/
structure State (T : Type) where
  scaler : Scaler T
  trace : List (Tick T)

def State.sees (s : State T) (now : T) (queued : Nat) (rows : List Row) : Tick T :=
  ⟨now, queued, s.scaler.pool.groups, rows⟩

inductive Label (T : Type) where
  | step (now : T) (queued : Nat) (rows : List Row)
  | list (index : Nat) (slots : List Nat)

def create (pool : Pool) : State T := ⟨⟨0, ⟨.empty, .empty⟩, pool⟩, []⟩

def system [LinearOrder T] [Sub T] (config : Config T) : System (State T) (Label T) where
  start s := ∃ pool, config.floor ≤ pool.activeCount ∧ pool.activeCount ≤ config.ceiling ∧ s = create pool
  step s
    | .step now queued rows =>
      some ⟨step config now queued rows s.scaler, s.sees now queued rows :: s.trace⟩
    | .list index slots =>
      (s.scaler.pool.list index slots).map fun pool => { s with scaler.pool := pool }

def orderly [LinearOrder T] (s : State T) : Label T → Prop
  | .step now _ _ => ∀ tick ∈ s.trace.head?, tick.now ≤ now
  | .list _ _ => True

instance [LinearOrder T] (s : State T) : (l : Label T) → Decidable (orderly s l)
  | .step now _ _ => inferInstanceAs (Decidable (∀ tick ∈ s.trace.head?, tick.now ≤ now))
  | .list _ _ => .isTrue trivial

/-! What the policy promises, over the trace alone. -/

def pressured (tick : Tick T) (before : List (Tick T)) : Bool :=
  0 < tick.queued && before.head?.any fun last => 0 < last.queued

def samples : List (Tick T) → List (Tick T)
  | [] => []
  | tick :: before => if pressured tick before then samples before else tick :: samples before

def lastTotal (w : Nat) : List (Tick T) → Option Nat
  | [] => none
  | tick :: before => ((tick.groups.find w).map (served tick.rows)).or (lastTotal w before)

def idle (w : Nat) : List (Tick T) → Bool
  | [] => false
  | tick :: before =>
    (tick.groups.find w).any fun slotIds =>
      !busy tick.rows slotIds && lastTotal w before == some (served tick.rows slotIds)

/-- Idle at every step since the `n`-th newest, that one included. -/
def IdleSince (w : Nat) (ticks : List (Tick T)) (n : Nat) : Prop :=
  ∀ k ≤ n, idle w (ticks.drop k) = true

def idleRun (w : Nat) : List (Tick T) → Nat
  | [] => 0
  | tick :: before => if idle w (tick :: before) then idleRun w before + 1 else 0

def began (w : Nat) : List (Tick T) → Option T
  | [] => none
  | tick :: before => if idle w (tick :: before) then some ((began w before).getD tick.now) else none

theorem idleSince_iff {w n : Nat} {ticks : List (Tick T)} : IdleSince w ticks n ↔ n < idleRun w ticks := by
  induction ticks generalizing n with
  | nil => simpa [IdleSince, idleRun, idle] using ⟨0, Nat.zero_le n⟩
  | cons tick before ih =>
    cases now : idle w (tick :: before) with
    | false =>
      simp only [idleRun, now, Bool.false_eq_true, if_false, Nat.not_lt_zero, iff_false]
      intro since
      simpa [now] using since 0 (Nat.zero_le n)
    | true =>
      simp only [idleRun, now, if_true]
      cases n with
      | zero => simpa [IdleSince] using now
      | succ n =>
        rw [Nat.succ_lt_succ_iff, ← ih]
        constructor
        · intro since k le
          exact since (k + 1) (by omega)
        · intro since k le
          cases k with
          | zero => exact now
          | succ k => exact since k (by omega)

theorem began_none {w : Nat} {ticks : List (Tick T)} : began w ticks = none ↔ idleRun w ticks = 0 := by
  cases ticks with
  | nil => simp [began, idleRun]
  | cons tick before => cases now : idle w (tick :: before) <;> simp [began, idleRun, now]

theorem began_some {w : Nat} {ticks : List (Tick T)} {t : T} (since : began w ticks = some t) :
    ∃ n tick, idleRun w ticks = n + 1 ∧ ticks[n]? = some tick ∧ tick.now = t := by
  induction ticks with
  | nil => cases since
  | cons tick before ih =>
    cases now : idle w (tick :: before) with
    | false => simp [began, now] at since
    | true =>
      simp only [began, now, if_true, Option.some.injEq] at since
      cases earlier : began w before with
      | none =>
        have first := began_none.mp earlier
        exact ⟨0, tick, by simp [idleRun, now, first], rfl, by simpa [earlier] using since⟩
      | some t' =>
        have same : t' = t := by simpa [earlier] using since
        obtain ⟨n, start, length, there, time⟩ := ih (earlier.trans (congrArg some same))
        exact ⟨n + 1, start, by simp [idleRun, now, length], there, time⟩

/-! What the scaler remembers is what the trace says. -/

theorem observe_other (now : T) (rows : List Row) (m : Memory T) (slotIds : List Nat) {index w : Nat}
    (other : w ≠ index) :
    (observe now rows m (index, slotIds)).lastServed.find w = m.lastServed.find w ∧
    (observe now rows m (index, slotIds)).idleSince.find w = m.idleSince.find w := by
  refine ⟨by simp [observe, Hash.find_put, other], ?_⟩
  simp only [observe]
  split
  · simp [Hash.find_putNew, other]
  · simp [Hash.find_delete, other]

def sighted (now : T) (rows : List Row) (slotIds : List Nat) (last : Option Nat) (since : Option T) :
    Option T :=
  if !busy rows slotIds && last == some (served rows slotIds) then some (since.getD now) else none

theorem observe_same (now : T) (rows : List Row) (m : Memory T) (w : Nat) (slotIds : List Nat) :
    (observe now rows m (w, slotIds)).lastServed.find w = some (served rows slotIds) ∧
    (observe now rows m (w, slotIds)).idleSince.find w =
      sighted now rows slotIds (m.lastServed.find w) (m.idleSince.find w) := by
  refine ⟨by simp [observe, Hash.find_put], ?_⟩
  simp only [observe, sighted]
  split
  · simp [Hash.find_putNew]
  · simp [Hash.find_delete]

theorem foldl_other {now : T} {rows : List Row} {groups : List (Nat × List Nat)} {w : Nat}
    (absent : w ∉ groups.map Prod.fst) (m : Memory T) :
    (groups.foldl (observe now rows) m).lastServed.find w = m.lastServed.find w ∧
    (groups.foldl (observe now rows) m).idleSince.find w = m.idleSince.find w := by
  induction groups generalizing m with
  | nil => exact ⟨rfl, rfl⟩
  | cons entry groups ih =>
    obtain ⟨index, slotIds⟩ := entry
    simp only [List.map_cons, List.mem_cons, not_or] at absent
    obtain ⟨first, second⟩ := observe_other now rows m slotIds absent.1
    obtain ⟨last, since⟩ := ih absent.2 (observe now rows m (index, slotIds))
    exact ⟨last.trans first, since.trans second⟩

theorem foldl_listed {now : T} {rows : List Row} {groups : List (Nat × List Nat)} {w : Nat}
    {slotIds : List Nat} (once : (groups.map Prod.fst).Nodup) (here : (w, slotIds) ∈ groups)
    (m : Memory T) :
    (groups.foldl (observe now rows) m).lastServed.find w = some (served rows slotIds) ∧
    (groups.foldl (observe now rows) m).idleSince.find w =
      sighted now rows slotIds (m.lastServed.find w) (m.idleSince.find w) := by
  induction groups generalizing m with
  | nil => cases here
  | cons entry groups ih =>
    rw [List.map_cons, List.nodup_cons] at once
    rcases List.mem_cons.mp here with first | later
    · subst first
      obtain ⟨last, since⟩ := foldl_other once.1 (observe now rows m (w, slotIds))
      obtain ⟨total, sight⟩ := observe_same now rows m w slotIds
      exact ⟨last.trans total, since.trans sight⟩
    · obtain ⟨index, others⟩ := entry
      have apart : w ≠ index := by
        rintro rfl
        exact once.1 (List.mem_map.mpr ⟨(w, slotIds), later, rfl⟩)
      obtain ⟨last, since⟩ := observe_other now rows m others apart
      rw [← last, ← since]
      exact ih once.2 later _

theorem foldl_order (now : T) (rows : List Row) {groups : List (Nat × List Nat)}
    (once : (groups.map Prod.fst).Nodup) (m : Memory T) :
    ∃ kept new, (groups.foldl (observe now rows) m).idleSince.entries = kept ++ new ∧
      kept.Sublist m.idleSince.entries ∧
      ∀ e ∈ new, e.1 ∈ groups.map Prod.fst ∧ m.idleSince.find e.1 = none := by
  induction groups generalizing m with
  | nil => exact ⟨_, [], by simp, .refl _, by simp⟩
  | cons entry groups ih =>
    obtain ⟨index, slotIds⟩ := entry
    rw [List.map_cons, List.nodup_cons] at once
    obtain ⟨kept, new, entries, sub, fresh⟩ := ih once.2 (observe now rows m (index, slotIds))
    have later : ∀ e ∈ new, e.1 ∈ (index :: groups.map Prod.fst) ∧ m.idleSince.find e.1 = none := by
      intro e member
      obtain ⟨listed, absent⟩ := fresh e member
      have apart : e.1 ≠ index := fun same => once.1 (same ▸ listed)
      rw [(observe_other now rows m slotIds apart).2] at absent
      exact ⟨List.mem_cons_of_mem _ listed, absent⟩
    by_cases resting : (!busy rows slotIds && m.lastServed.find index == some (served rows slotIds)) = true
    · simp only [observe, resting, if_true, Hash.putNew_entries] at sub
      by_cases known : index ∈ m.idleSince.keys
      · rw [if_pos known] at sub
        exact ⟨kept, new, entries, sub, later⟩
      · rw [if_neg known] at sub
        obtain ⟨older, start, rfl, sub, one⟩ := List.sublist_append_iff.mp sub
        refine ⟨older, start ++ new, by rw [List.foldl_cons, entries, List.append_assoc], sub, ?_⟩
        intro e member
        rcases List.mem_append.mp member with here | there
        · have same : e = (index, now) := by simpa using one.subset here
          exact ⟨by simp [same], by rw [same]; exact Hash.find_none.mpr known⟩
        · exact later e there
    · simp only [observe, resting] at sub
      exact ⟨kept, new, entries, sub.trans List.filter_sublist, later⟩

def Pool.Stays (p : Pool) (w : Nat) : Prop := w ∈ p.groups.keys ∨ w ∈ p.starting ∨ p.nextIndex ≤ w

structure Recalls (pool : Pool) (m : Memory T) (ticks : List (Tick T)) : Prop where
  last : ∀ w, pool.Stays w → m.lastServed.find w = lastTotal w ticks
  since : ∀ w, pool.Stays w → m.idleSince.find w = began w ticks
  listed : ∀ w ∈ m.idleSince.keys, w ∈ pool.groups.keys
  order : m.idleSince.entries.Pairwise fun a b => idleRun b.1 ticks ≤ idleRun a.1 ticks

theorem Recalls.keeps_all {pool : Pool} {m : Memory T} {ticks : List (Tick T)}
    (recalls : Recalls pool m ticks) (now : T) (rows : List Row) :
    observeIdle now rows pool.groups m = pool.groups.entries.foldl (observe now rows) m := by
  have gone : (m.idleSince.keys.filter fun index => index ∉ pool.groups.keys) = [] := by
    rw [List.filter_eq_nil_iff]
    intro w here
    simpa using recalls.listed w here
  simp only [observeIdle, gone, List.foldl_nil]

theorem idle_run_grows {w : Nat} {tick : Tick T} {before : List (Tick T)} {t : T}
    (since : began w (tick :: before) = some t) :
    idleRun w (tick :: before) = idleRun w before + 1 := by
  cases now : idle w (tick :: before) <;> simp_all [began, idleRun]

theorem observe_since {pool : Pool} {m : Memory T} {ticks : List (Tick T)}
    (recalls : Recalls pool m ticks) (now : T) (queued : Nat) (rows : List Row) {w : Nat}
    (stays : pool.Stays w) :
    (pool.groups.entries.foldl (observe now rows) m).idleSince.find w =
      began w (⟨now, queued, pool.groups, rows⟩ :: ticks) := by
  cases found : pool.groups.find w with
  | none =>
    have absent := Hash.find_none.mp found
    have unknown : m.idleSince.find w = none := Hash.find_none.mpr fun here => absent (recalls.listed w here)
    rw [(foldl_other absent m).2, unknown]
    simp [began, idle, found]
  | some slotIds =>
    rw [(foldl_listed pool.groups.once (Hash.find_eq_some.mp found) m).2, recalls.last w stays,
      recalls.since w stays]
    simp [began, idle, found, sighted]

theorem observe_listed {pool : Pool} {m : Memory T} {ticks : List (Tick T)}
    (recalls : Recalls pool m ticks) {now : T} {rows : List Row} {w : Nat}
    (here : w ∈ (pool.groups.entries.foldl (observe now rows) m).idleSince.keys) :
    w ∈ pool.groups.keys := by
  by_contra absent
  rw [← Hash.find_isSome, (foldl_other absent m).2, Hash.find_isSome] at here
  exact absent (recalls.listed w here)

theorem observe_order {pool : Pool} {m : Memory T} {ticks : List (Tick T)}
    (recalls : Recalls pool m ticks) (now : T) (queued : Nat) (rows : List Row) :
    (pool.groups.entries.foldl (observe now rows) m).idleSince.entries.Pairwise fun a b =>
      idleRun b.1 (⟨now, queued, pool.groups, rows⟩ :: ticks) ≤
        idleRun a.1 (⟨now, queued, pool.groups, rows⟩ :: ticks) := by
  obtain ⟨kept, new, entries, sub, fresh⟩ := foldl_order now rows pool.groups.once m
  -- every worker in the hash was idle at this step too, so each run is one step longer
  have longer : ∀ e ∈ kept ++ new, idleRun e.1 (⟨now, queued, pool.groups, rows⟩ :: ticks) =
      idleRun e.1 ticks + 1 := by
    intro e member
    rw [← entries] at member
    have listed := observe_listed recalls (List.mem_map.mpr ⟨e, member, rfl⟩)
    have since := observe_since recalls now queued rows (.inl listed)
    exact idle_run_grows (since.symm.trans (Hash.find_eq_some.mpr member))
  have begins : ∀ e ∈ new, idleRun e.1 ticks = 0 := by
    intro e member
    obtain ⟨here, absent⟩ := fresh e member
    exact began_none.mp ((recalls.since e.1 (.inl here)).symm.trans absent)
  rw [entries, List.pairwise_append]
  refine ⟨(recalls.order.sublist sub).imp_of_mem ?_, List.pairwise_of_forall_mem_list ?_, ?_⟩
  · intro a b first second le
    rw [longer a (by simp [first]), longer b (by simp [second])]
    omega
  · intro a first b second
    rw [longer a (by simp [first]), longer b (by simp [second]), begins a first, begins b second]
  · intro a first b second
    rw [longer a (by simp [first]), longer b (by simp [second]), begins b second]
    omega

theorem observe_recalls {pool : Pool} {m : Memory T} {ticks : List (Tick T)}
    (recalls : Recalls pool m ticks) (now : T) (queued : Nat) (rows : List Row) :
    Recalls pool (observeIdle now rows pool.groups m)
      (⟨now, queued, pool.groups, rows⟩ :: ticks) := by
  rw [recalls.keeps_all]
  refine ⟨?_, fun _ => observe_since recalls now queued rows, fun _ => observe_listed recalls,
    observe_order recalls now queued rows⟩
  intro w stays
  cases found : pool.groups.find w with
  | none =>
    rw [(foldl_other (Hash.find_none.mp found) m).1, recalls.last w stays]
    simp [lastTotal, found]
  | some slotIds =>
    rw [(foldl_listed pool.groups.once (Hash.find_eq_some.mp found) m).1]
    simp [lastTotal, found]

theorem recalls_of_stays {pool pool' : Pool} {m : Memory T} {ticks : List (Tick T)}
    (recalls : Recalls pool m ticks) (stays : ∀ w, pool'.Stays w → pool.Stays w)
    (listed : ∀ w ∈ pool.groups.keys, w ∈ pool'.groups.keys) : Recalls pool' m ticks :=
  ⟨fun w there => recalls.last w (stays w there), fun w there => recalls.since w (stays w there),
    fun w here => listed w (recalls.listed w here), recalls.order⟩

theorem grow_recalls {pool : Pool} {m : Memory T} {ticks : List (Tick T)}
    (recalls : Recalls pool m ticks) : Recalls pool.grow.2 m ticks := by
  apply recalls_of_stays recalls
  · rintro w (here | starting | fresh)
    · exact .inl here
    · rcases Pool.grown_cases starting with old | new
      · exact .inr (.inl old)
      · exact .inr (.inr new.ge)
    · exact .inr (.inr (Nat.le_of_succ_le fresh))
  · exact fun w here => here

theorem list_recalls {pool pool' : Pool} {m : Memory T} {ticks : List (Tick T)} {index : Nat}
    {slots : List Nat} (recalls : Recalls pool m ticks) (listing : pool.list index slots = some pool') :
    Recalls pool' m ticks := by
  unfold Pool.list at listing
  split at listing
  · next waiting =>
    cases listing
    apply recalls_of_stays recalls
    · rintro w (here | starting | fresh)
      · rcases Hash.mem_keys_put.mp here with rfl | old
        · exact .inr (.inl waiting)
        · exact .inl old
      · exact .inr (.inl (List.mem_of_mem_erase starting))
      · exact .inr (.inr fresh)
    · exact fun w here => Hash.mem_keys_put.mpr (.inr here)
  · cases listing

theorem retire_recalls {pool pool' : Pool} {m : Memory T} {ticks : List (Tick T)} {index : Nat}
    (recalls : Recalls pool m ticks) (left : pool.retire index = (true, pool')) :
    Recalls pool' (forget m index) ticks := by
  unfold Pool.retire at left
  split at left
  · next here =>
    cases left
    have stays : ∀ w, (w ∈ (pool.groups.delete index).keys ∨ w ∈ pool.starting ∨ pool.nextIndex ≤ w) →
        pool.Stays w ∧ w ≠ index := by
      rintro w (listed | starting | fresh)
      · obtain ⟨old, other⟩ := Hash.mem_keys_delete.mp listed
        exact ⟨.inl old, other⟩
      · exact ⟨.inr (.inl starting), fun same => pool.unlisted w starting (same ▸ here)⟩
      · have below := pool.listed_below index here
        exact ⟨.inr (.inr fresh), by omega⟩
    refine ⟨?_, ?_, ?_, recalls.order.sublist List.filter_sublist⟩
    · intro w there
      obtain ⟨before, other⟩ := stays w there
      rw [forget, Hash.find_delete, if_neg other, recalls.last w before]
    · intro w there
      obtain ⟨before, other⟩ := stays w there
      rw [forget, Hash.find_delete, if_neg other, recalls.since w before]
    · intro w there
      obtain ⟨known, other⟩ := Hash.mem_keys_delete.mp there
      exact Hash.mem_keys_delete.mpr ⟨recalls.listed w known, other⟩
  · cases left

theorem samples_sublist (ticks : List (Tick T)) : (samples ticks).Sublist ticks := by
  induction ticks with
  | nil => exact .slnil
  | cons tick before ih =>
    unfold samples
    split
    · exact ih.cons tick
    · exact ih.cons_cons tick

theorem pressure_after (s : State T) (now : T) (queued : Nat) (rows : List Row) :
    0 < pressureAfter s.scaler queued ↔
      ∃ last, (s.sees now queued rows :: s.trace).head? = some last ∧ 0 < last.queued := by
  unfold pressureAfter State.sees
  simp only [List.head?_cons, Option.some.injEq, exists_eq_left']
  split
  · next waiting => simp [waiting]
  · next empty => simp [empty]

section
variable [LinearOrder T]

/-- The first worker with the least time in the hash has been idle as long as any other. -/
theorem longest_idle {pool : Pool} {m : Memory T} {ticks : List (Tick T)}
    (recalls : Recalls pool m ticks) (sorted : ticks.Pairwise fun x y => y.now ≤ x.now) {w : Nat}
    {since : T} (chosen : m.idleSince.entries.argmin Prod.snd = some (w, since)) :
    ∃ n tick, ticks[n]? = some tick ∧ tick.now = since ∧ IdleSince w ticks n ∧
      ∀ v ∈ pool.groups.keys, ∀ k, IdleSince v ticks k → IdleSince w ticks k := by
  have first : (w, since) ∈ m.idleSince.entries.argmin Prod.snd := chosen
  have member := List.argmin_mem first
  have known := recalls.listed w (List.mem_map.mpr ⟨(w, since), member, rfl⟩)
  have start := (recalls.since w (.inl known)).symm.trans (Hash.find_eq_some.mpr member)
  obtain ⟨n, tick, run, there, time⟩ := began_some start
  refine ⟨n, tick, there, time, idleSince_iff.mpr (by omega), fun v listed k idle => ?_⟩
  rw [idleSince_iff] at idle ⊢
  by_contra shorter
  cases began_v : began v ticks with
  | none =>
    rw [began_none] at began_v
    omega
  | some since_v =>
    obtain ⟨n_v, tick_v, run_v, there_v, time_v⟩ := began_some began_v
    have member_v := Hash.find_eq_some.mp ((recalls.since v (.inl listed)).trans began_v)
    have older : since_v ≤ since := by
      obtain ⟨bound, at_n⟩ := List.getElem?_eq_some_iff.mp there
      obtain ⟨bound_v, at_v⟩ := List.getElem?_eq_some_iff.mp there_v
      have := List.pairwise_iff_getElem.mp sorted n n_v bound bound_v (by omega)
      rwa [at_n, at_v, time, time_v] at this
    rcases argmin_first recalls.order first member_v older with same | longer
    · cases same
      omega
    · change idleRun v ticks ≤ idleRun w ticks at longer
      omega

structure ScalerInv (config : Config T) (s : State T) : Prop where
  bounds : config.floor ≤ s.scaler.pool.activeCount ∧ s.scaler.pool.activeCount ≤ config.ceiling
  pressure : 0 < s.scaler.pressure ↔ ∃ last, s.trace.head? = some last ∧ 0 < last.queued
  sorted : s.trace.Pairwise fun x y => y.now ≤ x.now
  recalls : Recalls s.scaler.pool s.scaler.memory (samples s.trace)

theorem pressed_iff {config : Config T} {s : State T} (inv : ScalerInv config s) (now : T) (queued : Nat)
    (rows : List Row) : PRESSURE_TICKS ≤ pressureAfter s.scaler queued ↔
      pressured (s.sees now queued rows) s.trace = true := by
  have before : s.scaler.pressure = 0 ↔ ¬ ∃ last, s.trace.head? = some last ∧ 0 < last.queued := by
    rw [← inv.pressure]
    omega
  unfold pressured pressureAfter PRESSURE_TICKS State.sees
  by_cases waiting : 0 < queued
  · cases head : s.trace.head? with
    | none => simp_all
    | some last =>
      simp only [head, Option.some.injEq, exists_eq_left'] at before
      simp only [waiting, if_true, Option.any_some, decide_true, Bool.true_and, decide_eq_true_eq]
      omega
  · simp [waiting]

theorem sorted_sees {s : State T} (sorted : s.trace.Pairwise fun x y => y.now ≤ x.now) {now : T}
    (later : ∀ last ∈ s.trace.head?, last.now ≤ now) (queued : Nat) (rows : List Row) :
    (s.sees now queued rows :: s.trace).Pairwise fun x y => y.now ≤ x.now := by
  rw [List.pairwise_cons]
  refine ⟨?_, sorted⟩
  intro old member
  cases trace : s.trace with
  | nil => simp [trace] at member
  | cons last before =>
    rw [trace] at member sorted
    have newest := later last (by simp [trace])
    rcases List.mem_cons.mp member with rfl | earlier
    · exact newest
    · exact ((List.pairwise_cons.mp sorted).1 old earlier).trans newest

theorem samples_pressed {config : Config T} {s : State T} (inv : ScalerInv config s) {now : T}
    {queued : Nat} {rows : List Row} (pressed : PRESSURE_TICKS ≤ pressureAfter s.scaler queued) :
    samples (s.sees now queued rows :: s.trace) = samples s.trace := by
  simp [samples, (pressed_iff inv now queued rows).mp pressed]

theorem samples_calm {config : Config T} {s : State T} (inv : ScalerInv config s) {now : T}
    {queued : Nat} {rows : List Row} (calm : pressureAfter s.scaler queued < PRESSURE_TICKS) :
    samples (s.sees now queued rows :: s.trace) = s.sees now queued rows :: samples s.trace := by
  have quiet := (pressed_iff inv now queued rows).not.mp (Nat.not_le_of_lt calm)
  simp [samples, quiet]

theorem list_scaler_inv {config : Config T} {s : State T} {index : Nat} {slots : List Nat} {pool : Pool}
    (inv : ScalerInv config s) (listing : s.scaler.pool.list index slots = some pool) :
    ScalerInv config { s with scaler.pool := pool } := by
  have count := Pool.list_activeCount listing
  obtain ⟨floor, ceiling⟩ := inv.bounds
  exact ⟨⟨count ▸ floor, count ▸ ceiling⟩, inv.pressure, inv.sorted, list_recalls inv.recalls listing⟩

variable [Sub T]

/-- What one step of the scaler may do, by what it saw. -/
structure StepLaw (config : Config T) (s s' : State T) (now : T) (queued : Nat) : Prop where
  one_call : s'.scaler.pool.calls = s.scaler.pool.calls ∨
    ∃ call, s'.scaler.pool.calls = s.scaler.pool.calls ++ [call]
  grows : ∀ index, s'.scaler.pool.calls = s.scaler.pool.calls ++ [.grow index] →
    0 < queued ∧ ∃ last, s.trace.head? = some last ∧ 0 < last.queued
  retires : ∀ w, s'.scaler.pool.calls = s.scaler.pool.calls ++ [.retire w] →
    (∃ n tick, (samples s'.trace)[n]? = some tick ∧ config.scaleDownAfter ≤ now - tick.now ∧
      IdleSince w (samples s'.trace) n) ∧
    ∀ v ∈ s.scaler.pool.groups.keys, ∀ k,
      IdleSince v (samples s'.trace) k → IdleSince w (samples s'.trace) k

inductive Outcome (config : Config T) (now : T) (queued : Nat) (rows : List Row) (s : Scaler T) :
    Scaler T → Prop where
  | full (pressed : PRESSURE_TICKS ≤ pressureAfter s queued) :
      Outcome config now queued rows s { s with pressure := pressureAfter s queued }
  | grow (pressed : PRESSURE_TICKS ≤ pressureAfter s queued)
      (room : s.pool.activeCount < config.ceiling) :
      Outcome config now queued rows s
        { s with pressure := pressureAfter s queued, pool := s.pool.grow.2 }
  | keep (calm : pressureAfter s queued < PRESSURE_TICKS) :
      Outcome config now queued rows s { s with
        pressure := pressureAfter s queued
        memory := observeIdle now rows s.pool.groups s.memory }
  | retire (calm : pressureAfter s queued < PRESSURE_TICKS) (w : Nat) (since : T) (pool : Pool)
      (above : config.floor < s.pool.activeCount)
      (chosen : (observeIdle now rows s.pool.groups s.memory).idleSince.entries.argmin Prod.snd =
        some (w, since))
      (long : config.scaleDownAfter ≤ now - since) (left : s.pool.retire w = (true, pool)) :
      Outcome config now queued rows s
        ⟨pressureAfter s queued, forget (observeIdle now rows s.pool.groups s.memory) w, pool⟩

theorem step_cases {s : Scaler T} {ticks : List (Tick T)} (recalls : Recalls s.pool s.memory ticks)
    (config : Config T) (now : T) (queued : Nat) (rows : List Row) :
    Outcome config now queued rows s (step config now queued rows s) := by
  have after := observe_recalls recalls now queued rows
  unfold step
  dsimp only
  split
  · next pressed =>
    split
    · next room => exact .grow pressed room
    · exact .full pressed
  · next calm =>
    replace calm := Nat.lt_of_not_le calm
    split
    · next above =>
      split
      · exact .keep calm
      · next w since chosen =>
        split
        · next long =>
          have member := List.argmin_mem (show (w, since) ∈ _ from chosen)
          have here := after.listed w (List.mem_map.mpr ⟨_, member, rfl⟩)
          have left : s.pool.retire w = (true, _) := if_pos here
          simp only [retire, left]
          exact .retire calm w since _ above chosen long left
        · exact .keep calm
    · exact .keep calm

theorem step_scaler_inv {config : Config T} {s : State T} (inv : ScalerInv config s) {now : T}
    {queued : Nat} {rows : List Row} (later : ∀ last ∈ s.trace.head?, last.now ≤ now) :
    ScalerInv config ⟨step config now queued rows s.scaler, s.sees now queued rows :: s.trace⟩ := by
  have pressure := pressure_after s now queued rows
  have sorted := sorted_sees inv.sorted later queued rows
  have seen := observe_recalls inv.recalls now queued rows
  obtain ⟨floor, ceiling⟩ := inv.bounds
  have outcome := step_cases inv.recalls config now queued rows
  generalize step config now queued rows s.scaler = after at outcome ⊢
  cases outcome with
  | full pressed =>
    exact ⟨⟨floor, ceiling⟩, pressure, sorted, samples_pressed inv pressed ▸ inv.recalls⟩
  | grow pressed room =>
    have recalls := grow_recalls inv.recalls
    refine ⟨⟨?_, ?_⟩, pressure, sorted, samples_pressed inv pressed ▸ recalls⟩
    · simp only [Pool.grow_activeCount]
      omega
    · simp only [Pool.grow_activeCount]
      omega
  | keep calm => exact ⟨⟨floor, ceiling⟩, pressure, sorted, samples_calm inv calm ▸ seen⟩
  | retire calm w since pool above chosen long left =>
    have recalls := retire_recalls seen left
    have count := Pool.retire_activeCount left
    refine ⟨⟨?_, ?_⟩, pressure, sorted, samples_calm inv calm ▸ recalls⟩
    · change config.floor ≤ pool.activeCount
      omega
    · change pool.activeCount ≤ config.ceiling
      omega

theorem step_law {config : Config T} {s : State T} (inv : ScalerInv config s) {now : T}
    {queued : Nat} {rows : List Row} (later : ∀ last ∈ s.trace.head?, last.now ≤ now) :
    StepLaw config s ⟨step config now queued rows s.scaler, s.sees now queued rows :: s.trace⟩
      now queued := by
  have seen := observe_recalls inv.recalls now queued rows
  have outcome := step_cases inv.recalls config now queued rows
  generalize step config now queued rows s.scaler = after at outcome ⊢
  cases outcome with
  | full => constructor <;> simp
  | keep => constructor <;> simp
  | grow pressed room =>
    refine ⟨.inr ⟨_, rfl⟩, fun _ _ => ?_, by simp [Pool.grow]⟩
    have waiting : 0 < queued := by
      by_contra empty
      simp [pressureAfter, empty, PRESSURE_TICKS] at pressed
    have before : 0 < s.scaler.pressure := by
      simp only [pressureAfter, waiting, if_true, PRESSURE_TICKS] at pressed
      omega
    exact ⟨waiting, inv.pressure.mp before⟩
  | retire calm w since pool above chosen long left =>
    have calls := Pool.retire_calls left
    have sorted := (sorted_sees inv.sorted later queued rows).sublist (samples_sublist _)
    rw [samples_calm inv calm] at sorted
    obtain ⟨n, tick, there, time, idle, longest⟩ := longest_idle seen sorted chosen
    refine ⟨.inr ⟨_, calls⟩, by simp [calls], fun v called => ?_⟩
    have same : v = w := by simpa [calls] using called.symm
    rw [samples_calm inv calm, same]
    exact ⟨⟨n, tick, there, time ▸ long, idle⟩, longest⟩

theorem start_scaler_inv {config : Config T} {s : State T} (start : (system config).start s) :
    ScalerInv config s := by
  obtain ⟨pool, floor, ceiling, rfl⟩ := start
  refine ⟨⟨floor, ceiling⟩, by simp [create], by simp [create], ?_⟩
  refine ⟨fun w _ => rfl, fun w _ => rfl, ?_, ?_⟩ <;> simp [create, Hash.keys, Hash.empty]

theorem reachable_scaler_inv {config : Config T} {s : State T}
    (reached : ReachableBy (system config) orderly s) : ScalerInv config s := by
  apply invariant (ScalerInv config) (fun _ => start_scaler_inv) _ reached
  intro s s' l inv later moved
  cases l with
  | step now queued rows =>
    cases moved
    exact step_scaler_inv inv later
  | list index slots =>
    obtain ⟨pool, listing, rfl⟩ := Option.map_eq_some_iff.mp moved
    exact list_scaler_inv inv listing

theorem scaler_policy {config : Config T} {s : State T}
    (reached : ReachableBy (system config) orderly s) :
    (config.floor ≤ s.scaler.pool.activeCount ∧ s.scaler.pool.activeCount ≤ config.ceiling) ∧
    ∀ now queued rows s', orderly s (.step now queued rows) →
      (system config).step s (.step now queued rows) = some s' → StepLaw config s s' now queued := by
  have inv := reachable_scaler_inv reached
  refine ⟨inv.bounds, ?_⟩
  intro now queued rows s' later moved
  cases moved
  exact step_law inv later

end

def upToThree : Config Int := ⟨1, 3, 10⟩

def twoWorkers : Pool where
  groups := ⟨[(0, [0]), (1, [1])], by decide⟩
  starting := []
  nextIndex := 2
  calls := []
  listed_below := by decide
  starting_below := by decide
  starting_once := by decide
  unlisted := by decide

def rowsAt (served : Nat) : List Row := [⟨0, served, 0⟩, ⟨1, 5, 0⟩, ⟨2, 0, 0⟩]

def burstThenQuiet : List (Label Int) :=
  [.step 0 3 (rowsAt 1), .step 1 3 (rowsAt 2), .list 2 [2], .step 2 0 (rowsAt 3), .step 3 0 (rowsAt 4)]

theorem burst_then_retire :
    ∃ s s', run (system upToThree) (create twoWorkers) burstThenQuiet = some s ∧
      (system upToThree).step s (.step 13 0 (rowsAt 5)) = some s' ∧
      s'.scaler.pool.calls = [.grow 2, .retire 1] ∧ s.scaler.pool.activeCount ≤ upToThree.ceiling ∧
      StepLaw upToThree s s' 13 0 := by
  have ran : ∃ s s', runBy (system upToThree) (fun s l => decide (orderly s l))
        (create twoWorkers) burstThenQuiet = some s ∧
      run (system upToThree) (create twoWorkers) burstThenQuiet = some s ∧
      orderly s (.step 13 0 (rowsAt 5)) ∧
      (system upToThree).step s (.step 13 0 (rowsAt 5)) = some s' ∧
      s'.scaler.pool.calls = [.grow 2, .retire 1] :=
    ⟨_, _, rfl, rfl, of_decide_eq_true rfl, rfl, rfl⟩
  obtain ⟨s, s', checked, ran, later, moved, calls⟩ := ran
  have start : (system upToThree).start (create twoWorkers) :=
    ⟨twoWorkers, by decide, by decide, rfl⟩
  have policy := scaler_policy
    (reachable_runBy (fun _ _ passed => of_decide_eq_true passed) (.start start) checked)
  exact ⟨s, s', ran, moved, calls, policy.1.2, policy.2 13 0 (rowsAt 5) s' later moved⟩

end KinoPoolScaler
