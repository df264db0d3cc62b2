import Kino.Transitions
import Kino.SlotBank

/-!
`RactorSupervisor` (lib/kino/ractor_supervisor.rb) as a pool: its tables, one supervisor
thread for each worker, and any number of threads that call `grow`, `retire` and `replace`
or decide to grow as `PoolScaler#step` does. Every section under the pool's lock, every bank
operation and every native call is a step. `start` has returned before the first call, as
in `Server#start`; the server is not draining. `@next_worker_index` is one less than
`nextIndex`. Starting the ractor is part of the step that assigns its slots. The on_worker_exit
hooks and the log line after a crash are left out.
-/
namespace KinoRactorPool
open Transitions Ownership KinoSlotBank

inductive Loop where
  | absent
  | running
  | finished
  | died
  deriving DecidableEq, Repr

/-- A supervisor thread: in `spawn_worker`, in `ractor.value`, in the `abort_inflight`
    calls after a crash, or in `exited` before and after its locked section. -/
inductive Sup where
  | absent
  | claiming (got : List Nat) (pc : ClaimPc)
  | running (ids : List Nat)
  | aborting (left : List Nat)
  | leaving (ids : List Nat)
  | releasing (ids : List Nat)
  | ended
  deriving DecidableEq, Repr

inductive Call where
  | grow
  | scaleUp
  | retire (w : Nat)
  | replace (id : Nat)
  deriving DecidableEq, Repr

/-- A thread in a call. `numbering` and `supervising` are those of `grow`, or of a
    `replace` that has claimed a worker. -/
inductive Caller where
  | idle
  | checking
  | numbering (old : Option Nat)
  | supervising (new : Nat) (old : Option Nat)
  | retiring (w : Nat)
  | retireMarks (left : List Nat)
  | looking (id : Nat)
  | replacing (w : Nat)
  | reading (w : Nat)
  | quarantineMarks (left : List Nat)
  deriving DecidableEq, Repr

/-- `abandoned` is history: the slots of crashed workers, and of workers that left without
    having been retired. -/
structure Pool where
  bank : Bank
  loops : Nat → Loop
  live : Finset Nat
  retiring : Finset Nat
  replaced : Finset Nat
  workerSlots : Nat → Option (List Nat)
  slotToWorker : Nat → Option Nat
  nextIndex : Nat
  booted : Nat
  sups : Nat → Sup
  callers : Nat → Caller
  abandoned : List Nat

def initial (conf : Config) : Pool where
  bank := ⟨fun _ => .new conf.lanes, 0, []⟩
  loops := fun _ => .absent
  live := ∅
  retiring := ∅
  replaced := ∅
  workerSlots := fun _ => none
  slotToWorker := fun _ => none
  nextIndex := conf.workers
  booted := 0
  sups := fun _ => .absent
  callers := fun _ => .idle
  abandoned := []

def Pool.sup (s : Pool) (w : Nat) (pc : Sup) : Pool := { s with sups := Function.update s.sups w pc }

def Pool.goto (s : Pool) (c : Nat) (pc : Caller) : Pool :=
  { s with callers := Function.update s.callers c pc }

def Pool.active (s : Pool) : Finset Nat := s.live \ (s.retiring ∪ s.replaced)

def Pool.activeCount (s : Pool) : Nat := s.active.card

/-- `groups`: the slots of every worker that may be retired. -/
def Pool.groups (s : Pool) (w : Nat) : Option (List Nat) :=
  if w ∈ s.active then s.workerSlots w else none

def Pool.Quiet (conf : Config) (s : Pool) : Prop :=
  s.booted = conf.workers ∧ (∀ c, s.callers c = .idle) ∧
    ∀ w, s.sups w = .absent ∨ s.sups w = .ended ∨ ∃ ids, s.sups w = .running ids

/-- `supervise`: the worker is live from here on, and its thread begins to spawn. -/
def Pool.supervise (s : Pool) (w : Nat) : Pool :=
  { s with live := insert w s.live }.sup w (.claiming [] .popping)

def Pool.assign (s : Pool) (w : Nat) (ids : List Nat) : Pool :=
  { s with
    workerSlots := Function.update s.workerSlots w (some ids)
    slotToWorker := fun i => if i ∈ ids then some w else s.slotToWorker i
    loops := fun i => if i ∈ ids then .running else s.loops i }.sup w (.running ids)

def Pool.crash (s : Pool) (w : Nat) (ids : List Nat) : Pool :=
  { s with
    loops := fun i => if i ∈ ids ∧ s.loops i ≠ Loop.finished then .died else s.loops i
    abandoned := s.abandoned ++ ids }.sup w (.aborting ids)

def supStep (conf : Config) (s : Pool) (w : Nat) : Option Pool :=
  match s.sups w with
  | .claiming got pc =>
    if pc = .popping ∧ got.length = conf.threads then some (s.assign w got)
    else
      match claim conf.lanes s.bank pc with
      | (b, .going pc) => some ({ s with bank := b }.sup w (.claiming got pc))
      | (b, .handed i) => some ({ s with bank := b }.sup w (.claiming (got ++ [i]) .popping))
  | .running ids =>
    -- `.each(&:join)` waits for the first thread that has not finished
    match ids.find? fun i => s.loops i ≠ Loop.finished with
    | none => some (s.sup w (.leaving ids))
    | some i => if s.loops i = .died then some (s.crash w ids) else none
  | .aborting (i :: left) => some ({ s with bank := s.bank.abortInflight i }.sup w (.aborting left))
  | .aborting [] => some ({ s with retiring := s.retiring.erase w }.sup w (.claiming [] .popping))
  | .leaving ids =>
    let s' := { s with live := s.live.erase w, retiring := s.retiring.erase w }
    if w ∈ s.retiring then some (s'.sup w (.releasing ids))
    else some ({ s' with abandoned := s.abandoned ++ ids }.sup w .ended)
  | .releasing ids => some ({ s with bank := s.bank.release ids }.sup w .ended)
  | .absent | .ended => none

def Call.entry : Call → Caller
  | .grow => .numbering none
  | .scaleUp => .checking
  | .retire w => .retiring w
  | .replace id => .looking id

def callerStep (conf : Config) (s : Pool) (c : Nat) : Option Pool :=
  match s.callers c with
  | .idle => none
  | .checking =>
    if s.activeCount < conf.ceiling then some (s.goto c (.numbering none)) else some (s.goto c .idle)
  | .numbering old =>
    some ({ s with nextIndex := s.nextIndex + 1 }.goto c (.supervising s.nextIndex old))
  | .supervising new old => some ((s.supervise new).goto c (old.elim .idle .reading))
  | .retiring w =>
    if w ∈ s.live ∧ w ∉ s.retiring then
      some ({ s with retiring := insert w s.retiring }.goto c
        ((s.workerSlots w).elim .idle .retireMarks))
    else some (s.goto c .idle)
  | .retireMarks (i :: left) =>
    some ({ s with bank := s.bank.retireSlot i }.goto c (.retireMarks left))
  | .looking id => some (s.goto c ((s.slotToWorker id).elim .idle .replacing))
  | .replacing w =>
    if w ∈ s.replaced then some (s.goto c .idle)
    else some ({ s with replaced := insert w s.replaced }.goto c (.numbering (some w)))
  | .reading w => some (s.goto c (.quarantineMarks ((s.workerSlots w).getD [])))
  | .quarantineMarks (i :: left) =>
    some ({ s with bank := s.bank.quarantineSlot i }.goto c (.quarantineMarks left))
  | .retireMarks [] | .quarantineMarks [] => some (s.goto c .idle)

inductive Event where
  | boot
  | sup (w : Nat)
  | finish (i : Nat)
  | die (i : Nat)
  | handle (i r : Nat)
  | checkout (i : Nat)
  | call (c : Nat) (op : Call)
  | caller (c : Nat)
  deriving DecidableEq, Repr

def Pool.loop (s : Pool) (i : Nat) (loop : Loop) : Pool :=
  { s with loops := Function.update s.loops i loop }

def step (conf : Config) (s : Pool) : Event → Option Pool
  | .boot =>
    if s.booted < conf.workers then some { s.supervise s.booted with booted := s.booted + 1 } else none
  | .sup w => supStep conf s w
  | .finish i => if s.loops i = .running then some (s.loop i .finished) else none
  | .die i => if s.loops i = .running then some (s.loop i .died) else none
  | .handle i r => if s.loops i = .running then some { s with bank := s.bank.admitTo i r } else none
  | .checkout i => if s.loops i = .running then some { s with bank := s.bank.checkout i } else none
  | .call c op =>
    if s.booted = conf.workers ∧ s.callers c = .idle then some (s.goto c op.entry) else none
  | .caller c => callerStep conf s c

def system (conf : Config) : System Pool Event := ⟨fun s => s = initial conf, step conf⟩

inductive Turn (conf : Config) (s : Pool) (c : Nat) : Event → Caller → Prop where
  | call (op : Call) (booted : s.booted = conf.workers) (at_pc : s.callers c = .idle) :
      Turn conf s c (.call c op) op.entry
  | grow (at_pc : s.callers c = .checking) (room : s.activeCount < conf.ceiling) :
      Turn conf s c (.caller c) (.numbering none)
  | full (at_pc : s.callers c = .checking) : Turn conf s c (.caller c) .idle
  | refused (w : Nat) (at_pc : s.callers c = .retiring w) : Turn conf s c (.caller c) .idle
  | marked (at_pc : s.callers c = .retireMarks [] ∨ s.callers c = .quarantineMarks []) :
      Turn conf s c (.caller c) .idle
  | looked (id : Nat) (at_pc : s.callers c = .looking id) :
      Turn conf s c (.caller c) ((s.slotToWorker id).elim .idle .replacing)
  | again (w : Nat) (at_pc : s.callers c = .replacing w) : Turn conf s c (.caller c) .idle
  | read (w : Nat) (at_pc : s.callers c = .reading w) :
      Turn conf s c (.caller c) (.quarantineMarks ((s.workerSlots w).getD []))

inductive Move (conf : Config) (s : Pool) : Event → Pool → Prop where
  | boot (more : s.booted < conf.workers) :
      Move conf s .boot { s.supervise s.booted with booted := s.booted + 1 }
  | claimOn (w : Nat) (got : List Nat) (pc pc' : ClaimPc) (b : Bank)
      (at_pc : s.sups w = .claiming got pc)
      (claimed : ClaimMove conf.lanes s.bank pc b (.going pc')) :
      Move conf s (.sup w) ({ s with bank := b }.sup w (.claiming got pc'))
  | claimed (w : Nat) (got : List Nat) (pc : ClaimPc) (b : Bank) (i : Nat)
      (at_pc : s.sups w = .claiming got pc)
      (claimed : ClaimMove conf.lanes s.bank pc b (.handed i)) :
      Move conf s (.sup w) ({ s with bank := b }.sup w (.claiming (got ++ [i]) .popping))
  | assign (w : Nat) (got : List Nat) (at_pc : s.sups w = .claiming got .popping)
      (whole : got.length = conf.threads) : Move conf s (.sup w) (s.assign w got)
  | joined (w : Nat) (ids : List Nat) (at_pc : s.sups w = .running ids)
      (all : ∀ i ∈ ids, s.loops i = .finished) : Move conf s (.sup w) (s.sup w (.leaving ids))
  | crash (w : Nat) (ids : List Nat) (at_pc : s.sups w = .running ids) : Move conf s (.sup w) (s.crash w ids)
  | abort (w i : Nat) (left : List Nat) (at_pc : s.sups w = .aborting (i :: left)) :
      Move conf s (.sup w) ({ s with bank := s.bank.abortInflight i }.sup w (.aborting left))
  | respawn (w : Nat) (at_pc : s.sups w = .aborting []) :
      Move conf s (.sup w) ({ s with retiring := s.retiring.erase w }.sup w (.claiming [] .popping))
  | leave (w : Nat) (ids : List Nat) (at_pc : s.sups w = .leaving ids) (told : w ∈ s.retiring) :
      Move conf s (.sup w) ({ s with live := s.live.erase w, retiring := s.retiring.erase w }.sup w
        (.releasing ids))
  | quit (w : Nat) (ids : List Nat) (at_pc : s.sups w = .leaving ids) (untold : w ∉ s.retiring) :
      Move conf s (.sup w) ({ s with
        live := s.live.erase w
        retiring := s.retiring.erase w
        abandoned := s.abandoned ++ ids }.sup w .ended)
  | release (w : Nat) (ids : List Nat) (at_pc : s.sups w = .releasing ids) :
      Move conf s (.sup w) ({ s with bank := s.bank.release ids }.sup w .ended)
  | endLoop (i : Nat) (loop : Loop) (e : Event) (alive : s.loops i = .running)
      (ended : loop ≠ .running) : Move conf s e (s.loop i loop)
  | handle (i r : Nat) (alive : s.loops i = .running) :
      Move conf s (.handle i r) { s with bank := s.bank.admitTo i r }
  | checkout (i : Nat) (alive : s.loops i = .running) :
      Move conf s (.checkout i) { s with bank := s.bank.checkout i }
  | turn (c : Nat) (e : Event) (pc : Caller) (turn : Turn conf s c e pc) : Move conf s e (s.goto c pc)
  | number (c : Nat) (old : Option Nat) (at_pc : s.callers c = .numbering old) :
      Move conf s (.caller c) ({ s with nextIndex := s.nextIndex + 1 }.goto c (.supervising s.nextIndex old))
  | supervise (c new : Nat) (old : Option Nat) (at_pc : s.callers c = .supervising new old) :
      Move conf s (.caller c) ((s.supervise new).goto c (old.elim .idle .reading))
  | retire (c w : Nat) (at_pc : s.callers c = .retiring w) (alive : w ∈ s.live)
      (staying : w ∉ s.retiring) :
      Move conf s (.caller c) ({ s with retiring := insert w s.retiring }.goto c
        ((s.workerSlots w).elim .idle .retireMarks))
  | markRetired (c i : Nat) (left : List Nat) (at_pc : s.callers c = .retireMarks (i :: left)) :
      Move conf s (.caller c) ({ s with bank := s.bank.retireSlot i }.goto c (.retireMarks left))
  | replace (c w : Nat) (at_pc : s.callers c = .replacing w) (first : w ∉ s.replaced) :
      Move conf s (.caller c) ({ s with replaced := insert w s.replaced }.goto c (.numbering (some w)))
  | markQuarantined (c i : Nat) (left : List Nat)
      (at_pc : s.callers c = .quarantineMarks (i :: left)) :
      Move conf s (.caller c) ({ s with bank := s.bank.quarantineSlot i }.goto c (.quarantineMarks left))

theorem supStep_move {conf : Config} {s s' : Pool} {w : Nat} (moved : supStep conf s w = some s') :
    Move conf s (.sup w) s' := by
  unfold supStep at moved
  cases at_pc : s.sups w with
  | claiming got pc =>
    simp only [at_pc] at moved
    split at moved
    · next whole =>
      obtain ⟨rfl, whole⟩ := whole
      cases moved
      exact .assign w got at_pc whole
    · have claimed := claim_move conf.lanes s.bank pc
      cases result : claim conf.lanes s.bank pc with
      | mk b next =>
        rw [result] at claimed
        simp only [result] at moved
        cases next with
        | going pc' =>
          cases moved
          exact .claimOn w got pc pc' b at_pc claimed
        | handed i =>
          cases moved
          exact .claimed w got pc b i at_pc claimed
  | running ids =>
    simp only [at_pc] at moved
    split at moved
    · next none_found =>
      cases moved
      refine .joined w ids at_pc ?_
      intro i here
      simpa using List.find?_eq_none.mp none_found i here
    · split at moved <;> cases moved
      exact .crash w ids at_pc
  | aborting left =>
    cases left with
    | cons i left =>
      simp only [at_pc] at moved
      cases moved
      exact .abort w i left at_pc
    | nil =>
      simp only [at_pc] at moved
      cases moved
      exact .respawn w at_pc
  | leaving ids =>
    simp only [at_pc] at moved
    split at moved <;> cases moved
    · exact .leave w ids at_pc ‹_›
    · exact .quit w ids at_pc ‹_›
  | releasing ids =>
    simp only [at_pc] at moved
    cases moved
    exact .release w ids at_pc
  | absent | ended =>
    simp only [at_pc] at moved
    cases moved

theorem callerStep_move {conf : Config} {s s' : Pool} {c : Nat}
    (moved : callerStep conf s c = some s') : Move conf s (.caller c) s' := by
  unfold callerStep at moved
  cases at_pc : s.callers c with
  | idle => simp [at_pc] at moved
  | checking =>
    simp only [at_pc] at moved
    split at moved <;> cases moved
    · exact .turn c _ _ (.grow at_pc ‹_›)
    · exact .turn c _ _ (.full at_pc)
  | numbering old =>
    simp only [at_pc] at moved
    cases moved
    exact .number c old at_pc
  | supervising new old =>
    simp only [at_pc] at moved
    cases moved
    exact .supervise c new old at_pc
  | retiring w =>
    simp only [at_pc] at moved
    split at moved <;> cases moved
    · next able => exact .retire c w at_pc able.1 able.2
    · exact .turn c _ _ (.refused w at_pc)
  | retireMarks left =>
    cases left <;> simp only [at_pc] at moved <;> cases moved
    · exact .turn c _ _ (.marked (.inl at_pc))
    · exact .markRetired c _ _ at_pc
  | looking id =>
    simp only [at_pc] at moved
    cases moved
    exact .turn c _ _ (.looked id at_pc)
  | replacing w =>
    simp only [at_pc] at moved
    split at moved <;> cases moved
    · exact .turn c _ _ (.again w at_pc)
    · exact .replace c w at_pc ‹_›
  | reading w =>
    simp only [at_pc] at moved
    cases moved
    exact .turn c _ _ (.read w at_pc)
  | quarantineMarks left =>
    cases left <;> simp only [at_pc] at moved <;> cases moved
    · exact .turn c _ _ (.marked (.inr at_pc))
    · exact .markQuarantined c _ _ at_pc

theorem step_move {conf : Config} {s s' : Pool} {e : Event} (moved : step conf s e = some s') :
    Move conf s e s' := by
  cases e with
  | boot =>
    simp only [step] at moved
    split at moved <;> cases moved
    exact .boot ‹_›
  | sup w => exact supStep_move moved
  | finish i =>
    simp only [step] at moved
    split at moved <;> cases moved
    exact .endLoop i .finished _ ‹_› (by simp)
  | die i =>
    simp only [step] at moved
    split at moved <;> cases moved
    exact .endLoop i .died _ ‹_› (by simp)
  | handle i r =>
    simp only [step] at moved
    split at moved <;> cases moved
    exact .handle i r ‹_›
  | checkout i =>
    simp only [step] at moved
    split at moved <;> cases moved
    exact .checkout i ‹_›
  | call c op =>
    simp only [step] at moved
    split at moved <;> cases moved
    next able => exact .turn c _ _ (.call op able.1 able.2)
  | caller c => exact callerStep_move moved

end KinoRactorPool
