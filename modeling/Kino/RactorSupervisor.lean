import Kino.Transitions
import Kino.Worker

/-!
A worker ractor and the supervisor thread that waits for it
(lib/kino/ractor_supervisor.rb). The ractor's block starts one thread for each slot and
joins them in the order of the slots; joining a thread that died raises its error, and
joining one that runs waits. The supervisor wakes when the block has ended. That a ractor or
a thread cannot be started is left out.
-/
namespace KinoRactorSupervisor
open Transitions
open KinoWorker (Exn)

inductive ThreadState where
  | running
  | finished
  | died (error : Exn)
  deriving DecidableEq, Repr

inductive Block where
  | joining (k : Nat)
  | returned
  | raised (error : Exn)
  deriving DecidableEq, Repr

/-- The supervisor: in `ractor.value`, or answering the slots of a crashed ractor, or done with
    supervision. `failed` is the end of its thread by an error that it raised itself. -/
inductive Supervisor where
  | waiting
  | aborting (left : List Nat) (cause : Exn)
  | exited (cause : Option Exn)
  | failed
  deriving DecidableEq, Repr

/-- What the supervisor depends on besides: whether `abort_inflight` of a slot returns, which a
    stream with a full channel and a client that takes nothing keeps from it, whether firing
    on_worker_exit returns (the hook does, or its error goes into the log), and whether the
    line of a crash goes into the log. -/
structure World where
  answers : Nat → Bool
  fires : Option Exn → Bool
  logs : Exn → Bool

/-- `aborted` and `exits` are history: the calls of abort_inflight and the causes given
    to on_worker_exit. `nextSlot` is the next slot id the bank registers. -/
structure State where
  threads : List ThreadState
  workerIds : List Nat
  block : Block
  supervisor : Supervisor
  draining : Bool
  crashes : Nat
  nextSlot : Nat
  aborted : List Nat
  exits : List (Option Exn)
  deriving DecidableEq, Repr

/-- `spawn_worker`: fresh slots, one running thread on each. -/
def spawnWorker (threads : Nat) (s : State) : State :=
  { s with
    threads := List.replicate threads .running
    workerIds := List.range' s.nextSlot threads
    nextSlot := s.nextSlot + threads
    block := .joining 0
    supervisor := .waiting }

def initial (threads : Nat) : State :=
  spawnWorker threads ⟨[], [], .joining 0, .waiting, false, 0, 0, [], []⟩

inductive Label where
  | exit (i : Nat) (how : Option Exn)
  | block
  | supervisor
  | drain
  deriving DecidableEq, Repr

def exitThread (s : State) (i : Nat) (how : Option Exn) : Option State :=
  match s.block, s.threads[i]? with
  | .joining _, some .running =>
    let ended := match how with
      | none => .finished
      | some error => .died error
    some { s with threads := s.threads.set i ended }
  | _, _ => none

/-- The next step of `.each(&:join)`; `none` while the thread it joins runs. -/
def joinNext (s : State) : Option State :=
  match s.block with
  | .joining k =>
    match s.threads[k]? with
    | none => some { s with block := .returned }
    | some .running => none
    | some .finished => some { s with block := .joining (k + 1) }
    | some (.died error) => some { s with block := .raised error }
  | _ => none

def supervise (world : World) (threads : Nat) (s : State) : Option State :=
  match s.supervisor with
  | .waiting =>
    match s.block with
    | .joining _ => none
    | .returned =>
      let s := { s with exits := s.exits ++ [none] }
      if world.fires none then some { s with supervisor := .exited none }
      else some { s with supervisor := .failed }
    | .raised error => some { s with supervisor := .aborting s.workerIds error }
  | .aborting (id :: left) cause =>
    if world.answers id then
      some { s with supervisor := .aborting left cause, aborted := s.aborted ++ [id] }
    else none
  | .aborting [] cause =>
    let s := { s with exits := s.exits ++ [some cause] }
    if ¬world.fires (some cause) then some { s with supervisor := .failed }
    else if s.draining then some { s with supervisor := .exited (some cause) }
    else
      let s := { s with crashes := s.crashes + 1 }
      if world.logs cause then some (spawnWorker threads s)
      else some { s with supervisor := .failed }
  | .exited _ | .failed => none

def step (world : World) (threads : Nat) (s : State) : Label → Option State
  | .exit i how => exitThread s i how
  | .block => joinNext s
  | .supervisor => supervise world threads s
  | .drain => some { s with draining := true }

def system (world : World) (threads : Nat) : System State Label :=
  ⟨fun s => s = initial threads, step world threads⟩

def Unaided (l : Label) : Prop := l = .block ∨ l = .supervisor

def unfinished (t : ThreadState) : Bool := t ≠ .finished

/-- A crash is dealt with: every slot was answered, the exit has a dead thread's error
    as its cause, and a new ractor runs unless the server is draining. -/
structure Recovered (s t : State) : Prop where
  answered : t.aborted = s.aborted ++ s.workerIds
  cause : ∃ error, .died error ∈ s.threads ∧ t.exits = s.exits ++ [some error] ∧
    (s.draining = true → t.supervisor = .exited (some error))
  respawned : s.draining = false → t.crashes = s.crashes + 1 ∧ t.block = .joining 0 ∧
    t.threads = List.replicate s.threads.length .running

def Recovers (world : World) (threads : Nat) (s : State) : Prop :=
  ∃ ls t, (∀ l ∈ ls, Unaided l) ∧ run (system world threads) s ls = some t ∧ Recovered s t

/-- Nothing keeps the supervisor from its round after a crash. -/
structure Unhindered (world : World) (s : State) (error : Exn) : Prop where
  answers : ∀ id ∈ s.workerIds, world.answers id = true
  fires : world.fires (some error) = true
  logs : s.draining = false → world.logs error = true

variable {world : World}

structure JoinInv (threads : Nat) (s : State) : Prop where
  sized : s.threads.length = threads
  slots : s.workerIds.length = threads
  past : ∀ k, s.block = .joining k →
    s.supervisor = .waiting ∧ ∀ i, i < k → s.threads[i]? = some .finished

theorem spawn_join_inv (threads : Nat) (s : State) : JoinInv threads (spawnWorker threads s) := by
  constructor
  · simp [spawnWorker]
  · simp [spawnWorker]
  · intro k joining
    simp only [spawnWorker, Block.joining.injEq] at joining
    subst k
    exact ⟨rfl, by simp⟩

theorem step_join_inv {threads : Nat} {s s' : State} {l : Label} (inv : JoinInv threads s)
    (moved : step world threads s l = some s') : JoinInv threads s' := by
  obtain ⟨sized, slots, past⟩ := inv
  cases l with
  | exit i how =>
    simp only [step, exitThread] at moved
    split at moved <;> cases moved
    rename_i k joining running
    refine ⟨by simpa using sized, slots, fun k' joining' => ?_⟩
    have before := past k' joining'
    refine ⟨before.1, fun j less => ?_⟩
    have done := before.2 j less
    have other : i ≠ j := by
      intro same
      subst j
      simp [running] at done
    simpa [List.getElem?_set, other] using done
  | block =>
    simp only [step, joinNext] at moved
    split at moved
    · rename_i k joining
      have before := past k joining
      split at moved <;> cases moved
      · exact ⟨sized, slots, fun k' joining' => by simp at joining'⟩
      · rename_i done
        refine ⟨sized, slots, fun k' joining' => ⟨before.1, fun j less => ?_⟩⟩
        simp only [Block.joining.injEq] at joining'
        rcases Nat.lt_or_ge j k with earlier | here
        · exact before.2 j earlier
        · have same : j = k := by omega
          rw [same]
          exact done
      · exact ⟨sized, slots, fun k' joining' => by simp at joining'⟩
    · cases moved
  | supervisor =>
    have idle : ∀ k, s.block = .joining k → s.supervisor = .waiting := fun k joining =>
      (past k joining).1
    have busy : s.supervisor ≠ .waiting → ∀ t : State, t.threads = s.threads →
        t.workerIds = s.workerIds → t.block = s.block → JoinInv threads t := by
      intro not_waiting t same_threads same_ids same_block
      refine ⟨by rw [same_threads, sized], by rw [same_ids, slots], fun k joining => ?_⟩
      rw [same_block] at joining
      exact absurd (idle k joining) not_waiting
    simp only [step, supervise] at moved
    split at moved
    · split at moved
      · cases moved
      · next ended =>
        split at moved <;> cases moved <;>
          exact ⟨sized, slots, fun k joining => by simp [ended] at joining⟩
      · next ended =>
        cases moved
        exact ⟨sized, slots, fun k joining => by simp [ended] at joining⟩
    · next aborting =>
      split at moved <;> cases moved
      exact busy (by simp [aborting]) _ rfl rfl rfl
    · next aborting =>
      split at moved
      · cases moved
        exact busy (by simp [aborting]) _ rfl rfl rfl
      · split at moved
        · cases moved
          exact busy (by simp [aborting]) _ rfl rfl rfl
        · split at moved <;> cases moved
          · exact spawn_join_inv threads _
          · exact busy (by simp [aborting]) _ rfl rfl rfl
    · cases moved
    · cases moved
  | drain =>
    cases moved
    exact ⟨sized, slots, past⟩

theorem reachable_join_inv {threads : Nat} {s : State} (reached : Reachable (system world threads) s) :
    JoinInv threads s := by
  refine reachable_invariant (JoinInv threads) ?_ ?_ reached
  · intro s start
    subst start
    exact spawn_join_inv threads _
  · intro s t l inv moved
    exact step_join_inv inv moved

theorem find_past_finished {threads : List ThreadState} {k : Nat}
    (past : ∀ i, i < k → threads[i]? = some .finished) :
    threads.find? unfinished = (threads.drop k).find? unfinished := by
  have none_before : (threads.take k).find? unfinished = none := by
    rw [List.find?_eq_none]
    intro t here
    obtain ⟨i, inside⟩ := List.mem_iff_getElem?.mp here
    have less : i < k := by
      by_contra beyond
      simp [beyond] at inside
    rw [List.getElem?_take_of_lt less, past i less] at inside
    cases inside
    simp [unfinished]
  have split : (threads.take k ++ threads.drop k).find? unfinished = _ := List.find?_append
  rw [List.take_append_drop, none_before] at split
  simpa using split

theorem block_reaches_crash (threads : Nat) (rest : List ThreadState) (s : State) (k : Nat)
    (error : Exn) (joining : s.block = .joining k) (ahead : s.threads.drop k = rest)
    (first : rest.find? unfinished = some (.died error)) :
    ∃ ls, (∀ l ∈ ls, Unaided l) ∧
      run (system world threads) s ls = some { s with block := .raised error } := by
  induction rest generalizing s k with
  | nil => simp at first
  | cons t rest ih =>
    have here : s.threads[k]? = some t := by
      have head := congrArg List.head? ahead
      simpa [List.head?_drop] using head
    cases t with
    | running => simp [unfinished] at first
    | died e =>
      simp [unfinished] at first
      subst e
      refine ⟨[.block], by simp [Unaided], ?_⟩
      simp [run, system, step, joinNext, joining, here]
    | finished =>
      have next : s.threads.drop (k + 1) = rest := by
        rw [← List.tail_drop, ahead]
        rfl
      have later : rest.find? unfinished = some (.died error) := by
        simpa [List.find?_cons, unfinished] using first
      obtain ⟨ls, unaided, ran⟩ := ih { s with block := .joining (k + 1) } (k + 1) rfl next later
      refine ⟨.block :: ls, ?_, ?_⟩
      · intro l member
        rcases List.mem_cons.mp member with same | other
        · exact .inl same
        · exact unaided l other
      · refine run_cons.mpr ⟨_, ?_, ran⟩
        simp [system, step, joinNext, joining, here]

theorem supervisor_answers (threads : Nat) (left : List Nat) (s : State) (cause : Exn)
    (busy : s.supervisor = .aborting left cause) (answers : ∀ id ∈ left, world.answers id = true) :
    run (system world threads) s (List.replicate left.length .supervisor) =
      some { s with supervisor := .aborting [] cause, aborted := s.aborted ++ left } := by
  induction left generalizing s with
  | nil => simp [run, ← busy]
  | cons id left ih =>
    have first : step world threads s .supervisor =
        some { s with supervisor := .aborting left cause, aborted := s.aborted ++ [id] } := by
      simp [step, supervise, busy, answers id]
    simp only [List.length_cons, List.replicate_succ]
    refine run_cons.mpr ⟨_, first, ?_⟩
    rw [ih _ rfl fun other member => answers other (List.mem_cons_of_mem id member)]
    simp

theorem crash_recovers (threads : Nat) {s : State} {error : Exn}
    (sized : s.threads.length = threads) (raised : s.block = .raised error)
    (waiting : s.supervisor = .waiting) (dead : .died error ∈ s.threads)
    (unhindered : Unhindered world s error) : Recovers world threads s := by
  have woken : step world threads s .supervisor =
      some { s with supervisor := .aborting s.workerIds error } := by
    simp [step, supervise, waiting, raised]
  have answered := supervisor_answers threads s.workerIds
    { s with supervisor := .aborting s.workerIds error } error rfl unhindered.answers
  have labels : ∀ l ∈ Label.supervisor :: (List.replicate s.workerIds.length .supervisor ++
      [.supervisor]), Unaided l := by
    intro l member
    simp only [List.mem_cons, List.mem_append, List.mem_replicate, List.not_mem_nil,
      or_false] at member
    right
    rcases member with same | ⟨-, same⟩ | same <;> exact same
  cases draining : s.draining with
  | true =>
    have last : run (system world threads) { s with
        supervisor := .aborting [] error, aborted := s.aborted ++ s.workerIds } [.supervisor] =
        some { s with
          supervisor := .exited (some error), aborted := s.aborted ++ s.workerIds,
          exits := s.exits ++ [some error] } := by
      simp [run, system, step, supervise, draining, unhindered.fires]
    refine ⟨_, _, labels, run_cons.mpr ⟨_, woken, (run_append answered).trans last⟩, ?_⟩
    exact ⟨rfl, ⟨error, dead, rfl, fun _ => rfl⟩, by simp [draining]⟩
  | false =>
    have last : run (system world threads) { s with
        supervisor := .aborting [] error, aborted := s.aborted ++ s.workerIds } [.supervisor] =
        some (spawnWorker threads { s with
          supervisor := .aborting [] error, aborted := s.aborted ++ s.workerIds,
          exits := s.exits ++ [some error], crashes := s.crashes + 1 }) := by
      simp [run, system, step, supervise, draining, unhindered.fires, unhindered.logs draining,
        spawnWorker]
    refine ⟨_, _, labels, run_cons.mpr ⟨_, woken, (run_append answered).trans last⟩, ?_⟩
    refine ⟨rfl, ⟨error, dead, rfl, by simp [draining]⟩, fun _ => ⟨rfl, rfl, ?_⟩⟩
    simp [spawnWorker, sized]

/-- A block that waits for a running thread: nothing the ractor or its supervisor can do
    changes anything but how far the joins have come. -/
def Blocked (s t : State) : Prop :=
  t = { s with block := t.block } ∧ ∃ k, t.block = .joining k ∧ t.supervisor = .waiting ∧
    ∀ i, i < k → s.threads[i]? = some .finished

theorem blocked_step {threads : Nat} {s t u : State} {l : Label} (unaided : Unaided l)
    (waits : s.threads.find? unfinished = some .running) (blocked : Blocked s t)
    (moved : step world threads t l = some u) : Blocked s u := by
  obtain ⟨same, k, joining, waiting, past⟩ := blocked
  have same_threads : t.threads = s.threads := by rw [same]
  rcases unaided with rfl | rfl
  · simp only [step, joinNext, joining, same_threads] at moved
    have ahead := (find_past_finished past).symm.trans waits
    have head := List.head?_drop (l := s.threads) (i := k)
    split at moved
    · rename_i none_here
      rw [none_here, List.head?_eq_none_iff] at head
      simp [head] at ahead
    · cases moved
    · rename_i done
      cases moved
      refine ⟨by rw [same], k + 1, rfl, waiting, fun i less => ?_⟩
      rcases Nat.lt_or_ge i k with earlier | here
      · exact past i earlier
      · have at_k : i = k := by omega
        rw [at_k]
        exact done
    · rename_i error died
      rw [died] at head
      obtain ⟨rest, split⟩ := List.head?_eq_some_iff.mp head
      simp [split, unfinished] at ahead
  · simp [step, supervise, waiting, joining] at moved

inductive Phase (world : World) (s : State) (error : Exn) : State → Prop where
  | joins (k : Nat) (past : ∀ i, i < k → s.threads[i]? = some .finished) :
      Phase world s error { s with block := .joining k }
  | raised : Phase world s error { s with block := .raised error }
  | answers (done left : List Nat) (split : s.workerIds = done ++ left)
      (answered : ∀ id ∈ done, world.answers id = true) :
      Phase world s error { s with
        block := .raised error, supervisor := .aborting left error, aborted := s.aborted ++ done }
  | failed {t : State} (block : t.block = .raised error) (supervisor : t.supervisor = .failed) :
      Phase world s error t
  | through (unhindered : Unhindered world s error) (t : State) : Phase world s error t

theorem phase_step {threads : Nat} {s t u : State} {error : Exn} {l : Label} (unaided : Unaided l)
    (waiting : s.supervisor = .waiting) (first : s.threads.find? unfinished = some (.died error))
    (phase : Phase world s error t) (moved : step world threads t l = some u) :
    Phase world s error u := by
  cases phase with
  | through unhindered => exact .through unhindered u
  | failed block supervisor =>
    rcases unaided with rfl | rfl
    · simp [step, joinNext, block] at moved
    · simp [step, supervise, supervisor] at moved
  | joins k past =>
    rcases unaided with rfl | rfl
    · simp only [step, joinNext] at moved
      have ahead := (find_past_finished past).symm.trans first
      have head := List.head?_drop (l := s.threads) (i := k)
      split at moved
      · next none_here =>
        rw [none_here, List.head?_eq_none_iff] at head
        simp [head] at ahead
      · cases moved
      · next done =>
        cases moved
        refine .joins (k + 1) fun i less => ?_
        rcases Nat.lt_or_ge i k with earlier | here
        · exact past i earlier
        · have at_k : i = k := by omega
          rw [at_k]
          exact done
      · next e died =>
        cases moved
        rw [died] at head
        obtain ⟨rest, split⟩ := List.head?_eq_some_iff.mp head
        have same : e = error := by simpa [split, unfinished] using ahead
        rw [same]
        exact .raised
    · simp [step, supervise, waiting] at moved
  | raised =>
    rcases unaided with rfl | rfl
    · simp [step, joinNext] at moved
    · simp only [step, supervise, waiting, Option.some.injEq] at moved
      subst moved
      have begun : Phase world s error _ := .answers [] s.workerIds rfl (by simp)
      simpa using begun
  | answers done left split answered =>
    rcases unaided with rfl | rfl
    · simp [step, joinNext] at moved
    · cases left with
      | cons id left =>
        simp only [step, supervise] at moved
        split at moved
        · next answers =>
          cases moved
          have split' : s.workerIds = (done ++ [id]) ++ left := by simp [split]
          have answered' : ∀ other ∈ done ++ [id], world.answers other = true := by
            intro other member
            rcases List.mem_append.mp member with before | now
            · exact answered other before
            · rw [List.mem_singleton.mp now]
              exact answers
          have further : Phase world s error _ := .answers (done ++ [id]) left split' answered'
          simpa using further
        · cases moved
      | nil =>
        have all : ∀ id ∈ s.workerIds, world.answers id = true := by
          rw [split, List.append_nil]
          exact answered
        simp only [step, supervise] at moved
        split at moved
        · cases moved
          exact .failed rfl rfl
        · next fires =>
          have fired : world.fires (some error) = true := by simpa using fires
          split at moved
          · next draining =>
            exact .through ⟨all, fired, fun not_draining => by simp [not_draining] at draining⟩ u
          · split at moved
            · next logs => exact .through ⟨all, fired, fun _ => logs⟩ u
            · cases moved
              exact .failed rfl rfl

theorem phase_recovered {s t : State} {error : Exn}
    (phase : Phase world s error t) (recovered : Recovered s t) : Unhindered world s error := by
  obtain ⟨answered, ⟨e, -, exits, drained⟩, respawned⟩ := recovered
  cases phase with
  | through unhindered => exact unhindered
  | joins k past => simp at exits
  | raised => simp at exits
  | answers done left split answers => simp at exits
  | failed block supervisor =>
    cases draining : s.draining with
    | true =>
      have ended := drained draining
      rw [supervisor] at ended
      cases ended
    | false =>
      have running := (respawned draining).2.1
      rw [block] at running
      cases running

/-- While a worker's threads are as they are, its ractor ends and its supervisor deals with it
    exactly when the first thread in the order of the joins that has not finished is a dead one
    and nothing keeps the supervisor from its round. -/
theorem recovers_iff_first_unfinished_died {threads : Nat} {s : State} {k : Nat}
    (reached : Reachable (system world threads) s) (alive : s.block = .joining k)
    (crashed : ∃ error, .died error ∈ s.threads) :
    Recovers world threads s ↔ ∃ error, s.threads.find? unfinished = some (.died error) ∧
      Unhindered world s error := by
  obtain ⟨sized, slots, past⟩ := reachable_join_inv reached
  obtain ⟨waiting, before⟩ := past k alive
  have some_slot : s.workerIds ≠ [] := by
    intro no_slots
    obtain ⟨error, dead⟩ := crashed
    have no_threads : s.threads = [] := by
      apply List.eq_nil_of_length_eq_zero
      rw [sized, ← slots, no_slots]
      rfl
    simp [no_threads] at dead
  constructor
  · rintro ⟨ls, t, unaided, ran, recovered⟩
    cases first : s.threads.find? unfinished with
    | none =>
      obtain ⟨error, dead⟩ := crashed
      have := List.find?_eq_none.mp first _ dead
      simp [unfinished] at this
    | some found =>
      cases found with
      | died error =>
        have begun : Phase world s error s := by
          have here : Phase world s error _ := .joins k before
          rwa [← alive] at here
        have phase := run_keeps (Phase world s error) Unaided
          (fun a b l kept inner moved => phase_step inner waiting first kept moved) begun unaided ran
        exact ⟨error, rfl, phase_recovered phase recovered⟩
      | finished =>
        have := List.find?_some first
        simp [unfinished] at this
      | running =>
        have blocked : Blocked s t := run_keeps (Blocked s) Unaided
          (fun a b l kept inner moved => blocked_step inner first kept moved)
          ⟨rfl, k, alive, waiting, before⟩ unaided ran
        have none_new : t.aborted = s.aborted := by rw [blocked.1]
        have answered := recovered.answered
        rw [none_new] at answered
        exact absurd (by simpa using answered) some_slot
  · rintro ⟨error, first, unhindered⟩
    have ahead := (find_past_finished before).symm.trans first
    obtain ⟨ls, unaided, ran⟩ := block_reaches_crash threads _ s k error alive rfl ahead
    have dead := List.mem_of_find?_eq_some first
    obtain ⟨ks, t, labels, rest, recovered⟩ := crash_recovers threads
      (s := { s with block := .raised error }) sized rfl waiting dead
      ⟨unhindered.answers, unhindered.fires, unhindered.logs⟩
    refine ⟨ls ++ ks, t, ?_, (run_append ran).trans rest, ?_⟩
    · intro l member
      rcases List.mem_append.mp member with early | late
      · exact unaided l early
      · exact labels l late
    · obtain ⟨answered, cause, respawned⟩ := recovered
      exact ⟨answered, cause, respawned⟩

/-- Every slot can be answered, no hook is set, and the log takes every text. -/
def calm : World where
  answers _ := true
  fires _ := true
  logs
    | .text _ => true
    | .bytes _ => false

theorem last_thread_crash_recovers : ∃ s,
    run (system calm 2) (initial 2) [.exit 0 none, .exit 1 (some "boom")] = some s ∧
      Recovers calm 2 s := by
  have ran : ∃ s, run (system calm 2) (initial 2) [.exit 0 none, .exit 1 (some "boom")] = some s ∧
      s.block = .joining 0 ∧ s.threads = [.finished, .died "boom"] := ⟨_, rfl, rfl, rfl⟩
  obtain ⟨s, ran, alive, threads⟩ := ran
  refine ⟨s, ran, (recovers_iff_first_unfinished_died (reachable_run (.start rfl) ran) alive
    ⟨"boom", by simp [threads]⟩).mpr ⟨"boom", ?_, fun _ _ => rfl, rfl, fun _ => rfl⟩⟩
  rw [threads]
  rfl

/-- The second of two threads dies while the first one runs: the ractor does not end. -/
theorem second_thread_crash_unseen : ∃ s,
    run (system calm 2) (initial 2) [.exit 1 (some "boom")] = some s ∧ .died "boom" ∈ s.threads ∧
    step calm 2 s .block = none ∧ step calm 2 s .supervisor = none ∧ s.aborted = [] ∧
    ¬ Recovers calm 2 s := by
  refine ⟨_, rfl, by decide, rfl, rfl, rfl, ?_⟩
  rintro ⟨ls, t, unaided, ran, recovered⟩
  cases ls with
  | nil =>
    cases ran
    have := recovered.answered
    simp [initial, spawnWorker] at this
  | cons l ls =>
    obtain ⟨u, moved, -⟩ := run_cons.mp ran
    rcases unaided l (by simp) with rfl | rfl <;> cases moved

end KinoRactorSupervisor
