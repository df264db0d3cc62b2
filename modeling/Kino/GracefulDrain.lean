import Kino.WorkerHandles

/-!
`Server#shutdown` (lib/kino/server.rb) on top of the whole life of requests: it stops accepting,
polls the two counters, closes the queue, joins the workers, escalates if they are not done and
tears the runtime down, while calls, workers and clients go on by themselves. A worker does with
each of its requests what `serve` does (lib/kino/worker.rb).
-/
namespace KinoGracefulDrain
open Transitions Ownership Tallies KinoRequestLifecycle KinoRequestCounts KinoWorkerHandles
open KinoResponder (Responder Response respond500IfUnsent)
open KinoShutdown (Fresh Use useResponder respond500_answers claim_claims sendStream_responded)
variable {B : Type}

/-- Where `Server#shutdown` stands. It is `looked` when `queue_stats` has read its first number.
    A join is with thread `i`, since a time; the second is the one after the escalation. In
    between it is before slot `i`, with `abort_slot` at its list, or at its lane. -/
inductive Pc where
  | serving
  | draining (deadline : Nat)
  | looked (deadline queued : Nat)
  | sleeping (deadline wake : Nat)
  | closeQueue (deadline : Nat)
  | closeLanes (deadline i : Nat)
  | joining (second : Bool) (deadline i since : Nat)
  | aborting (i : Nat)
  | answering (i : Nat) (rs : List Nat)
  | emptying (i : Nat)
  | interrupting
  | tearing (since : Nat)
  | down
  deriving DecidableEq, Repr

def Pc.torn : Pc → Bool
  | .tearing _ | .down => true
  | _ => false

/-- Where `serve` is with a request. `raised` is in its rescue clause, `answered` past the
    response, when the body is closed and the hooks are called. -/
inductive Stage where
  | calling
  | streaming
  | raised
  | answered
  deriving DecidableEq, Repr

inductive Act (B : Type) where
  | respond (status : Nat)
  | sendHeaders (builder : Option Nat)
  | writeChunk (chunk : B)
  | finish
  | raise
  | abort

/-- The native call that `serve` makes, if any, and where it is after it. -/
def Stage.act : Stage → Act B → Option (Option (Use Nat B) × Stage)
  | .calling, .respond status => some (some (.respondSimple status), .answered)
  | .calling, .sendHeaders (some status) => some (some (.sendHeaders (some status)), .streaming)
  | .calling, .sendHeaders none => some (some (.sendHeaders none), .raised)
  | .streaming, .writeChunk chunk => some (some (.writeChunk chunk), .streaming)
  | .streaming, .finish => some (some .finish, .answered)
  -- the app, its body, its body's close or a hook's log line
  | .calling, .raise | .streaming, .raise | .answered, .raise => some (none, .raised)
  | .raised, .abort => some (some .abort, .answered)
  | _, _ => none

/-- `left` are the slots whose worker thread has ended, `crashed` those whose worker died in the
    middle of its requests; `current` are the slots' lists. `look` is history: the calls that
    `in_flight` had counted by the time the polling loop read zero, if it did. -/
structure Server (B : Type) where
  front : State B
  left : List Nat
  crashed : List Nat
  current : Nat → List Nat
  stage : Nat → Stage
  pc : Pc
  escalated : Bool
  look : Option (List Nat)

def initialServer (B : Type) : Server B where
  front := KinoRequestLifecycle.initial B
  left := []
  crashed := []
  current := fun _ => []
  stage := fun _ => .calling
  pc := .serving
  escalated := false
  look := none

/-- `in_flight` has counted the call, or counts it now. -/
def counted : Phase → Bool
  | .arrived | .logged | .created => false
  | _ => true

/-- `ServerInner::queued`. -/
def queued (conf : Config) (s : State B) : Nat :=
  (s.contents .queue).length +
    if conf.lanes then ((List.range s.slots.length).map fun i => (s.contents (.lane i)).length).sum
    else 0

def countedCalls (s : State B) : List Nat :=
  (List.range s.calls.length).filter fun r => s.calls[r]?.any fun c => counted c.phase

/-- `workers_done?`, with a thread for each slot. -/
def workersDone (s : Server B) : Bool :=
  (List.range s.front.slots.length).all fun i => decide (i ∈ s.left)

def setFront (s : Server B) (front : State B) : Server B := { s with front := front }

/-- The sleep between two looks, and the least that a thread is joined for. -/
def nap : Nat := millis 10

/-- `shutdown_runtime` waits at most that long. -/
def runtimeTimeout : Nat := millis 1000

def joinEnds (deadline since : Nat) : Nat := max deadline (since + nap)

/-- What follows on the joins: the teardown, or `abort_all_inflight` in between. -/
def joined (s : Server B) (second : Bool) : Server B :=
  if workersDone s || second then { s with pc := .tearing s.front.now }
  else { s with pc := .aborting 0, escalated := true }

/-- `none` is a shutdown that waits: for a thread, for the clock, or for a client to take a frame
    of the stream that `abort_slot` ends. -/
def shutdown (conf : Config) (s : Server B) : Option (Server B) :=
  match s.pc with
  | .serving | .down => none
  | .draining deadline =>
    if deadline ≤ s.front.now then some { s with pc := .closeQueue deadline }
    else some { s with pc := .looked deadline (queued conf s.front) }
  | .looked deadline queued =>
    -- in_flight is read after the queue
    if queued = 0 ∧ s.front.inFlight = 0 then
      some { s with pc := .closeQueue deadline, look := some (countedCalls s.front) }
    else some { s with pc := .sleeping deadline (s.front.now + nap) }
  | .sleeping deadline wake =>
    if wake ≤ s.front.now then some { s with pc := .draining deadline } else none
  | .closeQueue deadline =>
    some { s with front := { s.front with reqTx := false }, pc := .closeLanes deadline 0 }
  | .closeLanes deadline i =>
    match s.front.setSlot i fun slot => { slot with laneTx := false } with
    | some front => some { s with front := front, pc := .closeLanes deadline (i + 1) }
    | none => some { s with pc := .joining false deadline 0 s.front.now }
  | .joining second deadline i since =>
    if s.front.slots.length ≤ i then some (joined s second)
    else if i ∈ s.left ∨ joinEnds deadline since ≤ s.front.now then
      some { s with pc := .joining second deadline (i + 1) s.front.now }
    else none
  | .aborting i =>
    if i < s.front.slots.length then
      some { s with pc := .answering i (s.current i), current := Function.update s.current i [] }
    else some { s with pc := .interrupting }
  | .answering i (r :: rs) =>
    if (s.front.loc r).isSome then
      (step conf s.front (.abort r)).map fun front =>
        { s with front := front, pc := .answering i rs }
    else some { s with pc := .answering i rs }
  | .answering i [] =>
    (step conf s.front (.closeLane i)).map fun front => { s with front := front, pc := .emptying i }
  | .emptying i =>
    match s.front.contents (.lane i) with
    | [] => some { s with pc := .aborting (i + 1) }
    | _ :: _ => (step conf s.front (.drainLane i)).map (setFront s)
  | .interrupting =>
    some { s with pc := .joining true (s.front.now + millis 200) 0 s.front.now }
  | .tearing _ => some { s with pc := .down }

/-- Worker `i` is there to act. -/
def present (s : Server B) (i : Nat) : Bool :=
  decide (i < s.front.slots.length) && decide (i ∉ s.left)

def free (s : Server B) (l : Label B) : Bool :=
  match l with
  | .take i _ => present s i
  | l => !handles l

/-- `abort_slot` has the lock of the list. -/
def locked (s : Server B) (i : Nat) : Bool :=
  match s.pc with
  | .answering j _ => i = j
  | _ => false

inductive Event (B : Type) where
  | tick (d : Nat)
  | front (l : Label B)
  | startWorker (i : Nat)
  | checkout (i : Nat)
  | admitRequest (i : Nat)
  | serve (r i : Nat) (act : Act B)
  | leave (i : Nat)
  | crash (i : Nat)
  | stopAccepting (timeout : Nat)
  | shutdown

def admitRequest (conf : Config) (s : Server B) (i : Nat) : Option (Server B) :=
  match s.front.contents (.hand i) with
  | [] => none
  | r :: _ =>
    (step conf s.front (.admitCtx i)).map fun front =>
      { s with
        front := front
        current := Function.update s.current i (s.current i ++ [r])
        stage := Function.update s.stage r .calling }

def serve (conf : Config) (s : Server B) (r i : Nat) (act : Act B) : Option (Server B) :=
  match (s.stage r).act act with
  | none => none
  | some (none, stage) => some { s with stage := Function.update s.stage r stage }
  | some (some op, stage) =>
    (step conf s.front (.use r i op)).map fun front =>
      { s with front := front, stage := Function.update s.stage r stage }

def drainStep (conf : Config) (s : Server B) : Event B → Option (Server B)
  | .tick d => some (setFront s { s.front with now := s.front.now + d })
  | .front l =>
    if s.pc.torn = false ∧ free s l = true then (step conf s.front l).map (setFront s) else none
  | .startWorker i =>
    if s.pc.torn = false then some { s with left := s.left.filter (· ≠ i) } else none
  | .checkout i =>
    if present s i = true ∧ locked s i = false then
      some { s with current := Function.update s.current i [] }
    else none
  | .admitRequest i =>
    if s.pc.torn = false ∧ present s i = true ∧ locked s i = false then admitRequest conf s i else none
  | .serve r i act =>
    if s.pc.torn = false ∧ present s i = true ∧ r ∈ s.front.contents (.worker i) then
      serve conf s r i act
    else none
  | .leave i =>
    -- the loop returns between requests; what a dead worker held is left as it was
    if s.front.contents (.hand i) = [] ∧
        (i ∈ s.crashed ∨ ∀ r ∈ s.front.contents (.worker i), s.stage r = .answered) then
      some { s with left := i :: s.left }
    else none
  | .crash i => some { s with left := i :: s.left, crashed := i :: s.crashed }
  | .stopAccepting timeout =>
    if s.pc = .serving then some { s with pc := .draining (s.front.now + timeout) } else none
  | .shutdown => shutdown conf s

def drainSystem (B : Type) (conf : Config) : System (Server B) (Event B) :=
  ⟨fun s => s = initialServer B, drainStep conf⟩

/-! What `serve` has done so far says what has become of the response. -/

structure IsSettled (x : Responder AppHead B) : Prop where
  claimed : x.responded = true
  closed : x.bodyTx = false

def Served (x : Responder AppHead B) : Stage → Prop
  | .calling => x.bodyTx = false
  | .streaming => x.responded = true
  | .raised => True
  | .answered => IsSettled x

theorem served_kept {x y : Responder AppHead B} {stage : Stage} (kept : Kept x y)
    (served : Served x stage) : Served y stage := by
  cases stage with
  | calling => exact kept.closed served
  | streaming => exact kept.claimed served
  | raised => trivial
  | answered => exact ⟨kept.claimed served.claimed, kept.closed served.closed⟩

theorem respond_settled {x : Responder AppHead B} {head : AppHead} (closed : x.bodyTx = false) :
    IsSettled (KinoResponder.sendResponse x head).2 := by
  have claimed := claim_claims x
  have same : (KinoResponder.claim x).2.bodyTx = x.bodyTx := by
    unfold KinoResponder.claim
    split <;> rfl
  unfold KinoResponder.sendResponse
  split
  · next y result =>
    rw [result] at claimed same
    exact ⟨claimed, same.trans closed⟩
  · next y result =>
    rw [result] at claimed same
    exact ⟨claimed, same.trans closed⟩

theorem streamHead_claimed (x : Responder AppHead B) (builder : Option AppHead) :
    (KinoResponder.sendStreamHead x builder).2.responded = true := by
  have claimed := claim_claims x
  unfold KinoResponder.sendStreamHead
  split
  · next y result =>
    rw [result] at claimed
    exact claimed
  · next y result =>
    rw [result] at claimed
    cases builder with
    | none => exact claimed
    | some head => exact (sendStream_responded _ head).trans claimed

theorem answered_settled {x y : Responder AppHead B} (fresh : Fresh x)
    (answered : respond500IfUnsent x = some y) : IsSettled y := by
  have settled := respond500_answers fresh answered
  simp only [KinoShutdown.Unanswered, not_or, Bool.not_eq_false, Bool.not_eq_true] at settled
  exact ⟨settled.1, settled.2⟩

theorem act_served {x y : Responder AppHead B} {stage stage' : Stage} {act : Act B}
    {op : Use Nat B} {head : Nat → AppHead} (fresh : Fresh x) (served : Served x stage)
    (acts : stage.act act = some (some op, stage'))
    (used : useResponder x (stamp head op) = some y) : Served y stage' := by
  unfold Stage.act at acts
  split at acts <;> cases acts
  · cases used
    exact respond_settled served
  · cases used
    exact streamHead_claimed x _
  · trivial
  · simp only [stamp, useResponder] at used
    split at used
    · split at used <;> cases used
      exact served
    · cases used
      exact served
  · cases used
    unfold KinoResponder.finishStream
    split
    · exact ⟨served, rfl⟩
    · next closed => exact ⟨served, by simpa using closed⟩
  · exact answered_settled fresh used

def Pc.escalates : Pc → Bool
  | .joining second .. => second
  | .aborting _ | .answering .. | .emptying _ | .interrupting => true
  | _ => false

structure DrainInv (conf : Config) (s : Server B) : Prop where
  front : Reachable (system B conf) s.front
  staffed : ∀ i r, r ∈ s.front.contents (.worker i) → i < s.front.slots.length
  stages : ∀ i, ∀ r ∈ s.front.contents (.worker i), ∀ c, s.front.calls[r]? = some c →
    Served c.responder (s.stage r)
  done : ∀ i ∈ s.left, i ∈ s.crashed ∨
    ∀ r ∈ s.front.contents (.worker i), s.stage r = .answered
  look : ∀ calls, s.look = some calls → ∀ r ∈ calls,
    ∃ c, s.front.calls[r]? = some c ∧ finished c.phase = true
  past : s.pc.escalates = true → s.escalated = true
  torn : s.pc.torn = true → s.escalated = false → ∀ i, i < s.front.slots.length → i ∈ s.left

section Drain
variable {conf : Config} {s s' : Server B}

theorem initial_drain : DrainInv conf (initialServer B) :=
  ⟨.start rfl, fun _ _ here => (nomatch here), fun _ _ here => (nomatch here),
    fun _ here => (nomatch here), fun _ seen => (nomatch seen), fun past => (nomatch past),
    fun torn => (nomatch torn)⟩

/-- When `in_flight` is zero, every call that it has counted is over. -/
theorem zero_finished {f : State B} (reached : Reachable (system B conf) f) (zero : f.inFlight = 0)
    {r : Nat} (seen : r ∈ countedCalls f) :
    ∃ c, f.calls[r]? = some c ∧ finished c.phase = true := by
  have tallied := (reachable_counted reached).inFlight
  rw [zero] at tallied
  obtain ⟨_, is_counted⟩ := List.mem_filter.mp seen
  cases there : f.calls[r]? with
  | none =>
    rw [there] at is_counted
    cases is_counted
  | some c =>
    rw [there] at is_counted
    have counts : counted c.phase = true := is_counted
    have free : guarded c = false := tallied_zero tallied there
    unfold guarded at free
    apply Exists.intro c
    constructor
    · rfl
    · cases at_pc : c.phase <;> simp_all [counted, underGuard, finished]

theorem present_spec {i : Nat} (at_work : present s i = true) :
    i < s.front.slots.length ∧ i ∉ s.left := by
  simpa [present] using at_work

theorem workersDone_spec (all : workersDone s = true) :
    ∀ i, i < s.front.slots.length → i ∈ s.left := by
  intro i inside
  have one := List.all_eq_true.mp all i (List.mem_range.mpr inside)
  simpa using one

/-- Where the shutdown stands, and what it remembers of its own, is no one else's. -/
theorem pc_drain (inv : DrainInv conf s) {pc : Pc} {current : Nat → List Nat}
    (past : pc.escalates = true → s.escalated = true) (up : pc.torn = false) :
    DrainInv conf { s with pc := pc, current := current } :=
  ⟨inv.front, inv.staffed, inv.stages, inv.done, inv.look, past,
    fun torn => absurd torn (by simp [up])⟩

theorem quiet_drain {l : Label B} {f : State B} (inv : DrainInv conf s) (up : s.pc.torn = false)
    (other : handles l = false) (moved : step conf s.front l = some f) :
    DrainInv conf (setFront s f) := by
  have quiet := step_quiet (reachable_tended inv.front) other moved
  have place := reachable_place inv.front
  have before : ∀ i r c', r ∈ f.contents (.worker i) → f.calls[r]? = some c' →
      ∃ c, s.front.calls[r]? = some c := by
    intro i r c' here there
    have known := place.known r _ (located_mem place.located (quiet.given i r here))
    exact ⟨_, List.getElem?_eq_getElem known⟩
  constructor
  · exact reachable_step inv.front moved
  · intro i r here
    exact Nat.lt_of_lt_of_le (inv.staffed i r (quiet.given i r here)) (step_grows moved).slots
  · intro i r here c' there
    obtain ⟨c, at_r⟩ := before i r c' here there
    exact served_kept (quiet.kept r c c' at_r there) (inv.stages i r (quiet.given i r here) c at_r)
  · intro i gone
    rcases inv.done i gone with crashed | answered
    · exact .inl crashed
    · exact .inr fun r here => answered r (quiet.given i r here)
  · intro calls looked r seen
    obtain ⟨c, there, done⟩ := inv.look calls looked r seen
    exact step_finished moved there done
  · exact inv.past
  · intro torn
    exact absurd torn (by simp [setFront, up])

theorem admit_drain {i : Nat} (inv : DrainInv conf s) (up : s.pc.torn = false)
    (at_work : present s i = true) (moved : admitRequest conf s i = some s') : DrainInv conf s' := by
  have tended := reachable_tended inv.front
  unfold admitRequest at moved
  split at moved
  · cases moved
  · next r rest front =>
    obtain ⟨f, stepped, rfl⟩ := Option.map_eq_some_iff.mp moved
    have given := admitCtx_given (reachable_place inv.front) front stepped
    have others : ∀ j, ∀ q ∈ s.front.contents (.worker j), q ≠ r := by
      intro j q here same
      have at_worker := located_mem (reachable_place inv.front).located here
      rw [same, given.received] at at_worker
      cases at_worker
    have reached : Reachable (system B conf) f :=
      reachable_step (l := .admitCtx i) inv.front stepped
    constructor
    · exact reached
    · intro j q here
      rcases given.given j q here with before | ⟨-, rfl⟩
      · exact Nat.lt_of_lt_of_le (inv.staffed j q before) (step_grows stepped).slots
      · exact Nat.lt_of_lt_of_le (present_spec at_work).1 (step_grows stepped).slots
    · intro j q here c' there'
      obtain ⟨c, there, same⟩ := given.kept q c' there'
      rw [same]
      rcases given.given j q here with before | ⟨rfl, -⟩
      · simpa [Function.update_of_ne (others j q before)] using inv.stages j q before c there
      · simp only [Function.update_self, Served]
        by_contra open_
        obtain ⟨k, at_worker⟩ := (tended q c there).held (by simpa using open_)
        rw [given.received] at at_worker
        cases at_worker
    · intro j gone
      rcases inv.done j gone with crashed | answered
      · exact .inl crashed
      · right
        intro q here
        rcases given.given j q here with before | ⟨-, rfl⟩
        · simpa [Function.update_of_ne (others j q before)] using answered q before
        · exact absurd gone (present_spec at_work).2
    · intro calls looked q seen
      obtain ⟨c, there, done⟩ := inv.look calls looked q seen
      exact step_finished stepped there done
    · exact inv.past
    · intro torn
      exact absurd torn (by simp [up])

theorem serve_drain {r i : Nat} {act : Act B} (inv : DrainInv conf s) (up : s.pc.torn = false)
    (at_work : present s i = true) (here : r ∈ s.front.contents (.worker i))
    (moved : serve conf s r i act = some s') : DrainInv conf s' := by
  have place := reachable_place inv.front
  have done : ∀ stage, ∀ j ∈ s.left, j ∈ s.crashed ∨
      ∀ q ∈ s.front.contents (.worker j), Function.update s.stage r stage q = .answered := by
    intro stage j gone
    rcases inv.done j gone with crashed | answered
    · exact .inl crashed
    · right
      intro q there
      have other : q ≠ r := by
        intro same
        have elsewhere := located_mem place.located there
        rw [same, located_mem place.located here] at elsewhere
        simp only [Option.some.injEq, Place.worker.injEq] at elsewhere
        exact (present_spec at_work).2 (elsewhere ▸ gone)
      simpa [Function.update_of_ne other] using answered q there
  unfold serve at moved
  split at moved
  · cases moved
  · next stage acts =>
    cases moved
    refine ⟨inv.front, inv.staffed, fun j q there c at_q => ?_, done stage, inv.look, inv.past,
      fun torn => absurd torn (by simp [up])⟩
    by_cases same : q = r
    · subst same
      have raised : stage = .raised := by
        unfold Stage.act at acts
        split at acts <;> simp_all
      simp [raised, Served]
    · simpa [Function.update_of_ne same] using inv.stages j q there c at_q
  · next op stage acts =>
    obtain ⟨f, stepped, rfl⟩ := Option.map_eq_some_iff.mp moved
    obtain ⟨contents, slots, c, x, there, used, calls⟩ := use_changes stepped
    have reached : Reachable (system B conf) f :=
      reachable_step (l := .use r i op) inv.front stepped
    constructor
    · exact reached
    · intro j q at_j
      simp only [contents, slots] at at_j ⊢
      exact inv.staffed j q at_j
    · intro j q at_j c' there'
      simp only [contents, calls] at at_j there'
      rcases set_cases there' with ⟨rfl, rfl⟩ | ⟨other, same⟩
      · have fresh := (reachable_tended inv.front q c there).fresh
        simpa using act_served fresh (inv.stages j q at_j c there) acts used
      · simpa [Function.update_of_ne other] using inv.stages j q at_j c' same
    · simpa only [contents] using done stage
    · intro seen looked q at_q
      obtain ⟨c, there, finished⟩ := inv.look seen looked q at_q
      exact step_finished stepped there finished
    · exact inv.past
    · intro torn
      exact absurd torn (by simp [up])

theorem joined_drain {second : Bool} (inv : DrainInv conf s)
    (past : second = true → s.escalated = true) : DrainInv conf (joined s second) := by
  unfold joined
  split
  · next ready =>
    refine ⟨inv.front, inv.staffed, inv.stages, inv.done, inv.look, fun past => (nomatch past),
      fun _ graceful => ?_⟩
    simp only [Bool.or_eq_true] at ready
    rcases ready with all | again
    · exact workersDone_spec all
    · simp [past again] at graceful
  · exact ⟨inv.front, inv.staffed, inv.stages, inv.done, inv.look, fun _ => rfl,
      fun torn => (nomatch torn)⟩

theorem shutdown_drain (inv : DrainInv conf s) (moved : shutdown conf s = some s') :
    DrainInv conf s' := by
  unfold shutdown at moved
  cases at_pc : s.pc with
  | serving | down => simp [at_pc] at moved
  | draining deadline =>
    simp only [at_pc] at moved
    split at moved <;> cases moved <;> exact pc_drain inv (fun past => (nomatch past)) rfl
  | looked deadline queued =>
    simp only [at_pc] at moved
    split at moved
    · next empty =>
      cases moved
      refine ⟨inv.front, inv.staffed, inv.stages, inv.done, ?_, fun past => (nomatch past),
        fun torn => (nomatch torn)⟩
      intro calls looked r seen
      cases looked
      exact zero_finished inv.front empty.2 seen
    · cases moved
      exact pc_drain inv (fun past => (nomatch past)) rfl
  | sleeping deadline wake =>
    simp only [at_pc] at moved
    split at moved <;> cases moved
    exact pc_drain inv (fun past => (nomatch past)) rfl
  | closeQueue deadline =>
    simp only [at_pc] at moved
    cases moved
    have closed := quiet_drain (l := .closeReqTx) inv (by rw [at_pc]; rfl) rfl rfl
    exact pc_drain closed (fun past => (nomatch past)) rfl
  | closeLanes deadline i =>
    simp only [at_pc] at moved
    split at moved
    · next front closing =>
      cases moved
      have closed := quiet_drain (l := .closeLane i) inv (by rw [at_pc]; rfl) rfl closing
      exact pc_drain closed (fun past => (nomatch past)) rfl
    · cases moved
      exact pc_drain inv (fun past => (nomatch past)) rfl
  | joining second deadline i since =>
    have past : second = true → s.escalated = true := fun again =>
      inv.past (by rw [at_pc]; exact again)
    simp only [at_pc] at moved
    split at moved
    · cases moved
      exact joined_drain inv past
    · split at moved <;> cases moved
      exact pc_drain inv past rfl
  | aborting i =>
    have past := inv.past (by rw [at_pc]; rfl)
    simp only [at_pc] at moved
    split at moved <;> cases moved <;> exact pc_drain inv (fun _ => past) rfl
  | answering i rs =>
    have past := inv.past (by rw [at_pc]; rfl)
    cases rs with
    | nil =>
      simp only [at_pc] at moved
      obtain ⟨f, stepped, rfl⟩ := Option.map_eq_some_iff.mp moved
      exact pc_drain (quiet_drain inv (by rw [at_pc]; rfl) rfl stepped) (fun _ => past) rfl
    | cons r rs =>
      simp only [at_pc] at moved
      split at moved
      · obtain ⟨f, stepped, rfl⟩ := Option.map_eq_some_iff.mp moved
        exact pc_drain (quiet_drain inv (by rw [at_pc]; rfl) rfl stepped) (fun _ => past) rfl
      · cases moved
        exact pc_drain inv (fun _ => past) rfl
  | emptying i =>
    have past := inv.past (by rw [at_pc]; rfl)
    simp only [at_pc] at moved
    split at moved
    · cases moved
      exact pc_drain inv (fun _ => past) rfl
    · obtain ⟨f, stepped, rfl⟩ := Option.map_eq_some_iff.mp moved
      exact quiet_drain inv (by rw [at_pc]; rfl) rfl stepped
  | interrupting =>
    simp only [at_pc] at moved
    cases moved
    exact pc_drain inv (fun _ => inv.past (by rw [at_pc]; rfl)) rfl
  | tearing since =>
    simp only [at_pc] at moved
    cases moved
    exact ⟨inv.front, inv.staffed, inv.stages, inv.done, inv.look, fun past => (nomatch past),
      fun _ => inv.torn (by rw [at_pc]; rfl)⟩

theorem drain_step {e : Event B} (inv : DrainInv conf s) (moved : drainStep conf s e = some s') :
    DrainInv conf s' := by
  cases e with
  | tick d =>
    cases moved
    have reached : Reachable (system B conf) { s.front with now := s.front.now + d } :=
      reachable_step (l := .tick d) inv.front rfl
    exact ⟨reached, inv.staffed, inv.stages, inv.done, inv.look, inv.past, inv.torn⟩
  | front l =>
    simp only [drainStep, Option.ite_none_right_eq_some] at moved
    obtain ⟨⟨up, able⟩, moved⟩ := moved
    obtain ⟨f, stepped, rfl⟩ := Option.map_eq_some_iff.mp moved
    exact quiet_drain inv up (by cases l <;> simp_all [free, handles]) stepped
  | startWorker i =>
    simp only [drainStep, Option.ite_none_right_eq_some, Option.some.injEq] at moved
    obtain ⟨up, rfl⟩ := moved
    exact ⟨inv.front, inv.staffed, inv.stages, fun j gone => inv.done j (List.mem_filter.mp gone).1,
      inv.look, inv.past, fun torn => absurd torn (by simp [up])⟩
  | checkout i =>
    simp only [drainStep, Option.ite_none_right_eq_some, Option.some.injEq] at moved
    obtain ⟨-, rfl⟩ := moved
    exact ⟨inv.front, inv.staffed, inv.stages, inv.done, inv.look, inv.past, inv.torn⟩
  | admitRequest i =>
    simp only [drainStep, Option.ite_none_right_eq_some] at moved
    exact admit_drain inv moved.1.1 moved.1.2.1 moved.2
  | serve r i act =>
    simp only [drainStep, Option.ite_none_right_eq_some] at moved
    exact serve_drain inv moved.1.1 moved.1.2.1 moved.1.2.2 moved.2
  | leave i =>
    simp only [drainStep, Option.ite_none_right_eq_some, Option.some.injEq] at moved
    obtain ⟨⟨-, served⟩, rfl⟩ := moved
    refine ⟨inv.front, inv.staffed, inv.stages, ?_, inv.look, inv.past,
      fun torn graceful j inside => List.mem_cons_of_mem i (inv.torn torn graceful j inside)⟩
    intro j gone
    rcases List.mem_cons.mp gone with rfl | before
    · exact served
    · exact inv.done j before
  | crash i =>
    cases moved
    refine ⟨inv.front, inv.staffed, inv.stages, ?_, inv.look, inv.past,
      fun torn graceful j inside => List.mem_cons_of_mem i (inv.torn torn graceful j inside)⟩
    intro j gone
    rcases List.mem_cons.mp gone with rfl | before
    · exact .inl List.mem_cons_self
    · rcases inv.done j before with crashed | answered
      · exact .inl (List.mem_cons_of_mem i crashed)
      · exact .inr answered
  | stopAccepting timeout =>
    simp only [drainStep, Option.ite_none_right_eq_some, Option.some.injEq] at moved
    obtain ⟨-, rfl⟩ := moved
    exact pc_drain inv (fun past => (nomatch past)) rfl
  | shutdown => exact shutdown_drain inv moved

theorem reachable_drain (reached : Reachable (drainSystem B conf) s) : DrainInv conf s := by
  apply reachable_invariant (DrainInv conf) _ _ reached
  · intro s start
    cases start
    exact initial_drain
  · intro s s' e inv moved
    exact drain_step inv moved

end Drain

def streamedDrain : List (Event Unit) :=
  [[.front .registerWorker, .front (.arrive none)], List.replicate 6 (.front (.advance 0)),
    [.checkout 0, .front (.take 0 none), .admitRequest 0, .serve 0 0 (.sendHeaders (some 200)),
      .serve 0 0 (.writeChunk ())], List.replicate 3 (.front (.advance 0)),
    [.stopAccepting 100], List.replicate 5 .shutdown,
    [.front (.takeFrame 0), .serve 0 0 .finish, .leave 0, .shutdown, .shutdown]].flatten

def drainedServer : Server Unit :=
  (run (drainSystem Unit smallServer) (initialServer Unit) streamedDrain).getD (initialServer Unit)

end KinoGracefulDrain
