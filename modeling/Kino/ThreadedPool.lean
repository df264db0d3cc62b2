import Kino.Transitions
import Kino.SlotBank

/-!
`ThreadedPool` (lib/kino/threaded_pool.rb): groups of threads, each thread on its own slot,
and any number of threads that call `grow`, `groups`, `retire` and `replace` or decide to
grow as `PoolScaler#step` does. Every section under the pool's lock, every bank operation,
every thread start and every native call is a step. `start` has returned before the first
call, as in `Server#start`. `@next_index` is one less than `nextIndex`.
-/
namespace KinoThreadedPool
open Transitions Ownership KinoSlotBank

structure Group where
  slots : List Nat
  threads : List Nat
  deriving DecidableEq, Repr

inductive Thread where
  | running
  | left (retired : Bool)
  | died
  deriving DecidableEq, Repr

/-- What the caller of `spawn_group` does after it. -/
inductive After where
  | done
  | start (more : Nat)
  | mark (id : Nat)
  deriving DecidableEq, Repr

inductive Call where
  | grow
  | groups
  | scaleUp
  | retire (g : Nat)
  | replace (id : Nat)
  deriving DecidableEq, Repr

/-- A thread in a call; `n` counts the slots that `spawn_group` has yet to start. -/
inductive Caller where
  | idle
  | checking
  | reaping (grow : Bool)
  | releasing (freed : List Nat) (grow : Bool)
  | spawning (n : Nat) (replacement : Bool) (after : After)
  | claiming (g n : Nat) (pc : ClaimPc) (after : After)
  | adding (g n i : Nat) (after : After)
  | threading (g n i : Nat) (after : After)
  | listing (g n t : Nat) (after : After)
  | retiring (g : Nat)
  | retireMarks (g k : Nat)
  | marking (id : Nat)
  | wedging (id : Nat)
  deriving DecidableEq, Repr

/-- `members` are the keys of `@groups`; a group's record outlives its key, as the object
    does for a caller that still has it. -/
structure Pool where
  bank : Bank
  members : Finset Nat
  group : Nat → Group
  retiring : List Nat
  replacements : Finset Nat
  wedged : Finset Nat
  slotToGroup : Nat → Option Nat
  nextIndex : Nat
  threads : Nat → Thread
  slotOf : Nat → Nat
  spawned : Nat
  callers : Nat → Caller

def After.resume (threads : Nat) : After → Caller
  | .done | .start 0 => .idle
  | .start (more + 1) => .spawning threads false (.start more)
  | .mark id => .marking id

/-- The first thread is in `start`. -/
def initial (conf : Config) : Pool where
  bank := ⟨fun _ => .new conf.lanes, 0, []⟩
  members := ∅
  group := fun _ => ⟨[], []⟩
  retiring := []
  replacements := ∅
  wedged := ∅
  slotToGroup := fun _ => none
  nextIndex := 0
  threads := fun _ => .died
  slotOf := fun _ => 0
  spawned := 0
  callers := Function.update (fun _ => .idle) 0 ((After.start conf.workers).resume conf.threads)

def After.starts : After → Bool
  | .start _ => true
  | _ => false

def starting : Caller → Bool
  | .spawning _ _ after | .claiming _ _ _ after | .adding _ _ _ after | .threading _ _ _ after
  | .listing _ _ _ after => after.starts
  | _ => false

def Pool.goto (s : Pool) (c : Nat) (pc : Caller) : Pool :=
  { s with callers := Function.update s.callers c pc }

def Pool.active (s : Pool) : Finset Nat :=
  s.members.filter fun g => g ∉ s.replacements ∧ g ∉ s.retiring

def Pool.activeCount (s : Pool) : Nat := s.active.card

/-- `groups`, after its `reap`: the slots of every group the scaler may retire. -/
def Pool.groups (s : Pool) (g : Nat) : Option (List Nat) :=
  if g ∈ s.active ∧ g ∉ s.wedged then some (s.group g).slots else none

/-- No call is under way, `start` included. -/
def Pool.Quiet (s : Pool) : Prop := ∀ c, s.callers c = .idle

def Pool.reaped (s : Pool) : List Nat :=
  s.retiring.filter fun g => (s.group g).threads.all fun t => s.threads t ≠ .running

def Pool.freed (s : Pool) : List Nat := s.reaped.flatMap fun g => (s.group g).slots

/-- The locked section of `reap`. -/
def Pool.reap (s : Pool) : Pool :=
  { s with
    members := s.members.filter fun g => g ∉ s.reaped
    retiring := s.retiring.filter fun g => g ∉ s.reaped
    slotToGroup := fun i => if i ∈ s.freed then none else s.slotToGroup i }

/-- After `reap`: the group of `grow`, or nothing more. -/
def reapedThen (threads : Nat) (grow : Bool) : Caller :=
  if grow then .spawning threads false .done else .idle

/-- The next turn of `slots.times`. -/
def nextSlot (threads g n : Nat) (after : After) : Caller :=
  if n = 0 then after.resume threads else .claiming g n .popping after

def Pool.openGroup (s : Pool) (replacement : Bool) : Pool :=
  { s with
    nextIndex := s.nextIndex + 1
    members := insert s.nextIndex s.members
    group := Function.update s.group s.nextIndex ⟨[], []⟩
    replacements := if replacement then insert s.nextIndex s.replacements else s.replacements }

def Pool.addSlot (s : Pool) (g i : Nat) : Pool :=
  { s with
    group := Function.update s.group g { s.group g with slots := (s.group g).slots ++ [i] }
    slotToGroup := Function.update s.slotToGroup i (some g) }

def Pool.spawnThread (s : Pool) (i : Nat) : Pool :=
  { s with
    threads := Function.update s.threads s.spawned .running
    slotOf := Function.update s.slotOf s.spawned i
    spawned := s.spawned + 1 }

def Pool.listThread (s : Pool) (g t : Nat) : Pool :=
  { s with group := Function.update s.group g { s.group g with threads := (s.group g).threads ++ [t] } }

def Call.entry : Call → Caller
  | .grow => .reaping true
  | .groups => .reaping false
  | .scaleUp => .checking
  | .retire g => .retiring g
  | .replace id => .spawning 1 true (.mark id)

def callerStep (conf : Config) (s : Pool) (c : Nat) : Option Pool :=
  match s.callers c with
  | .idle => none
  | .checking =>
    if s.activeCount < conf.ceiling then some (s.goto c (.reaping true)) else some (s.goto c .idle)
  | .reaping grow =>
    if s.freed = [] then some (s.reap.goto c (reapedThen conf.threads grow))
    else some (s.reap.goto c (.releasing s.freed grow))
  | .releasing freed grow =>
    some ({ s with bank := s.bank.release freed }.goto c (reapedThen conf.threads grow))
  | .spawning n replacement after =>
    some ((s.openGroup replacement).goto c (nextSlot conf.threads s.nextIndex n after))
  | .claiming g n pc after =>
    match claim conf.lanes s.bank pc with
    | (b, .going pc) => some ({ s with bank := b }.goto c (.claiming g n pc after))
    | (b, .handed i) => some ({ s with bank := b }.goto c (.adding g n i after))
  | .adding g n i after => some ((s.addSlot g i).goto c (.threading g n i after))
  | .threading g n i after => some ((s.spawnThread i).goto c (.listing g n s.spawned after))
  | .listing g n t after => some ((s.listThread g t).goto c (nextSlot conf.threads g (n - 1) after))
  | .retiring g =>
    if g ∈ s.members ∧ g ∉ s.retiring then
      some ({ s with retiring := s.retiring ++ [g] }.goto c (.retireMarks g 0))
    else some (s.goto c .idle)
  | .retireMarks g k =>
    match (s.group g).slots[k]? with
    | some i => some ({ s with bank := s.bank.retireSlot i }.goto c (.retireMarks g (k + 1)))
    | none => some (s.goto c .idle)
  | .marking id => some ({ s with bank := s.bank.quarantineSlot id }.goto c (.wedging id))
  | .wedging id =>
    some ({ s with wedged := (s.slotToGroup id).elim s.wedged fun g => insert g s.wedged }.goto c .idle)

inductive Event where
  | finish (t : Nat)
  | die (t : Nat)
  | handle (t r : Nat)
  | checkout (t : Nat)
  | call (c : Nat) (op : Call)
  | caller (c : Nat)
  deriving DecidableEq, Repr

def Pool.thread (s : Pool) (t : Nat) (thread : Thread) : Pool :=
  { s with threads := Function.update s.threads t thread }

def step (conf : Config) (s : Pool) : Event → Option Pool
  | .finish t =>
    if s.threads t = .running then
      some (s.thread t (.left (s.bank.slots (s.slotOf t)).retired))
    else none
  | .die t => if s.threads t = .running then some (s.thread t .died) else none
  | .handle t r =>
    if s.threads t = .running then some { s with bank := s.bank.admitTo (s.slotOf t) r } else none
  | .checkout t =>
    if s.threads t = .running then some { s with bank := s.bank.checkout (s.slotOf t) } else none
  | .call c op =>
    if starting (s.callers 0) = false ∧ s.callers c = .idle then some (s.goto c op.entry) else none
  | .caller c => callerStep conf s c

def system (conf : Config) : System Pool Event := ⟨fun s => s = initial conf, step conf⟩

inductive Turn (conf : Config) (s : Pool) (c : Nat) : Event → Caller → Prop where
  | call (op : Call) (started : starting (s.callers 0) = false) (at_pc : s.callers c = .idle) :
      Turn conf s c (.call c op) op.entry
  | grow (at_pc : s.callers c = .checking) (room : s.activeCount < conf.ceiling) :
      Turn conf s c (.caller c) (.reaping true)
  | full (at_pc : s.callers c = .checking) : Turn conf s c (.caller c) .idle
  | refused (g : Nat) (at_pc : s.callers c = .retiring g) : Turn conf s c (.caller c) .idle
  | marked (g k : Nat) (at_pc : s.callers c = .retireMarks g k) : Turn conf s c (.caller c) .idle

inductive Move (conf : Config) (s : Pool) : Event → Pool → Prop where
  | finish (t : Nat) (alive : s.threads t = .running) :
      Move conf s (.finish t) (s.thread t (.left (s.bank.slots (s.slotOf t)).retired))
  | die (t : Nat) (alive : s.threads t = .running) : Move conf s (.die t) (s.thread t .died)
  | handle (t r : Nat) : Move conf s (.handle t r) { s with bank := s.bank.admitTo (s.slotOf t) r }
  | checkout (t : Nat) : Move conf s (.checkout t) { s with bank := s.bank.checkout (s.slotOf t) }
  | turn (c : Nat) (e : Event) (pc : Caller) (turn : Turn conf s c e pc) : Move conf s e (s.goto c pc)
  | reapNone (c : Nat) (grow : Bool) (at_pc : s.callers c = .reaping grow) (none_freed : s.freed = []) :
      Move conf s (.caller c) (s.reap.goto c (reapedThen conf.threads grow))
  | reap (c : Nat) (grow : Bool) (at_pc : s.callers c = .reaping grow) :
      Move conf s (.caller c) (s.reap.goto c (.releasing s.freed grow))
  | release (c : Nat) (freed : List Nat) (grow : Bool) (at_pc : s.callers c = .releasing freed grow) :
      Move conf s (.caller c) ({ s with bank := s.bank.release freed }.goto c (reapedThen conf.threads grow))
  | openGroup (c n : Nat) (replacement : Bool) (after : After)
      (at_pc : s.callers c = .spawning n replacement after) :
      Move conf s (.caller c) ((s.openGroup replacement).goto c (nextSlot conf.threads s.nextIndex n after))
  | claimOn (c g n : Nat) (pc pc' : ClaimPc) (b : Bank) (after : After)
      (at_pc : s.callers c = .claiming g n pc after)
      (claimed : ClaimMove conf.lanes s.bank pc b (.going pc')) :
      Move conf s (.caller c) ({ s with bank := b }.goto c (.claiming g n pc' after))
  | claimed (c g n i : Nat) (pc : ClaimPc) (b : Bank) (after : After)
      (at_pc : s.callers c = .claiming g n pc after)
      (claimed : ClaimMove conf.lanes s.bank pc b (.handed i)) :
      Move conf s (.caller c) ({ s with bank := b }.goto c (.adding g n i after))
  | addSlot (c g n i : Nat) (after : After) (at_pc : s.callers c = .adding g n i after) :
      Move conf s (.caller c) ((s.addSlot g i).goto c (.threading g n i after))
  | spawn (c g n i : Nat) (after : After) (at_pc : s.callers c = .threading g n i after) :
      Move conf s (.caller c) ((s.spawnThread i).goto c (.listing g n s.spawned after))
  | list (c g n t : Nat) (after : After) (at_pc : s.callers c = .listing g n t after) :
      Move conf s (.caller c) ((s.listThread g t).goto c (nextSlot conf.threads g (n - 1) after))
  | retire (c g : Nat) (at_pc : s.callers c = .retiring g) (known : g ∈ s.members)
      (staying : g ∉ s.retiring) :
      Move conf s (.caller c) ({ s with retiring := s.retiring ++ [g] }.goto c (.retireMarks g 0))
  | markRetired (c g k i : Nat) (at_pc : s.callers c = .retireMarks g k) :
      Move conf s (.caller c) ({ s with bank := s.bank.retireSlot i }.goto c (.retireMarks g (k + 1)))
  | markQuarantined (c id : Nat) (at_pc : s.callers c = .marking id) :
      Move conf s (.caller c) ({ s with bank := s.bank.quarantineSlot id }.goto c (.wedging id))
  | wedge (c id : Nat) (wedged : Finset Nat) (at_pc : s.callers c = .wedging id) :
      Move conf s (.caller c) ({ s with wedged := wedged }.goto c .idle)

theorem callerStep_move {conf : Config} {s s' : Pool} {c : Nat}
    (moved : callerStep conf s c = some s') : Move conf s (.caller c) s' := by
  unfold callerStep at moved
  cases at_pc : s.callers c with
  | idle => simp [at_pc] at moved
  | checking =>
    simp only [at_pc] at moved
    split at moved <;> cases moved
    · exact .turn c _ _ (.grow at_pc ‹_›)
    · exact .turn c _ _ (.full at_pc)
  | reaping grow =>
    simp only [at_pc] at moved
    split at moved <;> cases moved
    · exact .reapNone c grow at_pc ‹_›
    · exact .reap c grow at_pc
  | releasing freed grow =>
    simp only [at_pc] at moved
    cases moved
    exact .release c freed grow at_pc
  | spawning n replacement after =>
    simp only [at_pc] at moved
    cases moved
    exact .openGroup c n replacement after at_pc
  | claiming g n pc after =>
    have claimed := claim_move conf.lanes s.bank pc
    cases result : claim conf.lanes s.bank pc with
    | mk b next =>
      rw [result] at claimed
      simp only [at_pc, result] at moved
      cases next with
      | going pc' =>
        cases moved
        exact .claimOn c g n pc pc' b after at_pc claimed
      | handed i =>
        cases moved
        exact .claimed c g n i pc b after at_pc claimed
  | adding g n i after =>
    simp only [at_pc] at moved
    cases moved
    exact .addSlot c g n i after at_pc
  | threading g n i after =>
    simp only [at_pc] at moved
    cases moved
    exact .spawn c g n i after at_pc
  | listing g n t after =>
    simp only [at_pc] at moved
    cases moved
    exact .list c g n t after at_pc
  | retiring g =>
    simp only [at_pc] at moved
    split at moved <;> cases moved
    · next able => exact .retire c g at_pc able.1 able.2
    · exact .turn c _ _ (.refused g at_pc)
  | retireMarks g k =>
    simp only [at_pc] at moved
    split at moved <;> cases moved
    · exact .markRetired c g k _ at_pc
    · exact .turn c _ _ (.marked g k at_pc)
  | marking id =>
    simp only [at_pc] at moved
    cases moved
    exact .markQuarantined c id at_pc
  | wedging id =>
    simp only [at_pc] at moved
    cases moved
    exact .wedge c id _ at_pc

theorem step_move {conf : Config} {s s' : Pool} {e : Event} (moved : step conf s e = some s') :
    Move conf s e s' := by
  cases e with
  | finish t =>
    simp only [step] at moved
    split at moved <;> cases moved
    exact .finish t ‹_›
  | die t =>
    simp only [step] at moved
    split at moved <;> cases moved
    exact .die t ‹_›
  | handle t r =>
    simp only [step] at moved
    split at moved <;> cases moved
    exact .handle t r
  | checkout t =>
    simp only [step] at moved
    split at moved <;> cases moved
    exact .checkout t
  | call c op =>
    simp only [step] at moved
    split at moved <;> cases moved
    next able => exact .turn c _ _ (.call op able.1 able.2)
  | caller c => exact callerStep_move moved

end KinoThreadedPool
