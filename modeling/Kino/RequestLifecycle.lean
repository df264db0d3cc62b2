import Kino.Transitions
import Kino.Ownership
import Kino.Shutdown

/-!
The whole life of a request on the server side: `handle_request` with `dispatch_to_lane`
(ext/kino/src/server.rs), over the queues its context goes through, the workers that take
it (`admit` in queue.rs) and the counters and access-log records that are kept on the way.
Any number of calls are under way at once, each step of a call is one atomic access, and
the client may go away wherever the call awaits.
-/
namespace KinoRequestLifecycle
open Transitions Ownership KinoResponder

/-- `access_log::Timing`, without the measurements of the garbage collector. -/
structure Timing where
  wait : Nat
  ruby : Nat
  deriving DecidableEq, Repr

structure AppHead where
  status : Nat
  timing : Option Timing
  deriving DecidableEq, Repr

def status : Response AppHead → Nat
  | .full head | .stream head => head.status
  | .plain status _ => status

def timing : Response AppHead → Option Timing
  | .full head | .stream head => head.timing
  | .plain _ _ => none

def response413 : Response AppHead := plainResponse 413 "Payload Too Large\n"
def response503 : Response AppHead := plainResponse 503 "Service Unavailable\n"

/-- Times are in nanoseconds, the two timeouts in milliseconds; 0 for `maxBodySize` and for
    `requestTimeout` is no limit. `queueDepth` is 1 or more: flume makes of 0 a rendezvous,
    where a context goes from hand to hand, and that is not modelled. -/
structure Config where
  lanes : Bool
  queueDepth : Nat
  queueTimeout : Nat
  requestTimeout : Nat
  maxBodySize : Nat
  accessLog : Bool

def millis (ms : Nat) : Nat := ms * 1000000

/-- Where a call of `handle_request` stands. It awaits in `pending` (`send_async` on a full
    queue), `sleeping` (between two tries of a dispatch) and `waiting` (for the head), and is
    not polled yet in `arrived`. -/
inductive Phase where
  | arrived
  | logged
  | created
  | guarded
  | offering
  | polling (since : Nat)
  | pending (since : Nat)
  | dispatching (deadline : Nat)
  | sleeping (deadline : Nat)
  | enqueued
  | waiting (since : Nat)
  | answered (response : Response AppHead)
  | closing (response : Response AppHead)
  | returned (response : Response AppHead)
  | dropped
  deriving DecidableEq

/-- `length` is the request's Content-Length. `start` is the clock when the arrival was
    logged; the fields from `enqueuedAt` to `admitted` are the context's, the last saying
    whether a worker has admitted it. -/
structure Call (B : Type) where
  length : Option Nat
  phase : Phase
  start : Nat
  enqueuedAt : Nat
  wait : Nat
  admittedAt : Nat
  admitted : Bool
  responder : Responder AppHead B

/-- Where a context is: with the call, among the senders that wait for room in the queue, in
    the queue, in a lane, received by a worker, or in the handle the worker gave to Ruby. -/
inductive Place where
  | future
  | pending
  | queue
  | lane (i : Nat)
  | hand (i : Nat)
  | worker (i : Nat)
  deriving DecidableEq, Repr

structure Slot where
  laneTx : Bool
  retired : Bool
  deriving DecidableEq, Repr

/-- The two records of a request, as they are offered to the sink. -/
inductive Record where
  | arrival (r : Nat)
  | completion (r status total : Nat) (timing : Option Timing)
  deriving DecidableEq, Repr

/-- A request is named by its place in `calls`. `senders` are the live clones of `req_tx`.
    The last two fields are history: the contexts in the order they were sent to the shared
    queue, and in the order workers received them from it. -/
structure State (B : Type) where
  now : Nat
  reqTx : Bool
  senders : Nat
  slots : List Slot
  contents : Place → List Nat
  loc : Nat → Option Place
  calls : List (Call B)
  inFlight : Nat
  served : Nat
  rejected : Nat
  timeouts : Nat
  records : List Record
  sent : List Nat
  received : List Nat

def initial (B : Type) : State B where
  now := 0
  reqTx := true
  senders := 0
  slots := []
  contents := fun _ => []
  loc := fun _ => none
  calls := []
  inFlight := 0
  served := 0
  rejected := 0
  timeouts := 0
  records := []
  sent := []
  received := []

variable {B : Type}

def State.put (s : State B) (r : Nat) (c : Call B) : State B := { s with calls := s.calls.set r c }

def State.shift (s : State B) (r : Nat) (p q : Place) : State B :=
  { s with
    contents := Function.update (Function.update s.contents p ((s.contents p).erase r)) q
      (s.contents q ++ [r])
    loc := Function.update s.loc r (some q) }

def State.forget (s : State B) (r : Nat) (p : Place) : State B :=
  { s with
    contents := Function.update s.contents p ((s.contents p).erase r)
    loc := Function.update s.loc r none }

def State.log (s : State B) (conf : Config) (record : Record) : State B :=
  if conf.accessLog then { s with records := s.records ++ [record] } else s

section Log
variable (s : State B) (conf : Config) (record : Record)

@[simp] theorem log_calls : (s.log conf record).calls = s.calls := by unfold State.log; split <;> rfl
@[simp] theorem log_loc : (s.log conf record).loc = s.loc := by unfold State.log; split <;> rfl
@[simp] theorem log_contents : (s.log conf record).contents = s.contents := by
  unfold State.log; split <;> rfl
@[simp] theorem log_now : (s.log conf record).now = s.now := by unfold State.log; split <;> rfl

theorem log_put_calls (r : Nat) (c : Call B) :
    ((s.log conf record).put r c).calls = s.calls.set r c := by simp [State.put]

end Log

def newCall (length : Option Nat) : Call B :=
  ⟨length, .arrived, 0, 0, 0, 0, false, KinoResponder.new⟩

def oversize (conf : Config) (c : Call B) : Bool :=
  decide (0 < conf.maxBodySize) && c.length.any fun n => decide (conf.maxBodySize < n)

/-- `head_rx` is dropped, with whatever it holds. -/
def hangUp (c : Call B) : Call B := { c with responder := KinoShutdown.hangUp c.responder }

/-- `head_rx` has given its value. -/
def consume (c : Call B) : Call B :=
  { c with responder := { c.responder with head := c.responder.head.dropReceiver } }

def dropCtx (s : State B) (r : Nat) (c : Call B) (p : Place) : Option (State B) :=
  (respond500IfUnsent c.responder).map fun x => (s.forget r p).put r { c with responder := x }

def unavailable (s : State B) : State B := { s with rejected := s.rejected + 1 }

def dropInFlight (s : State B) : State B := { s with inFlight := s.inFlight - 1 }

def dropSender (s : State B) : State B := { s with senders := s.senders - 1 }

def State.send (s : State B) (r : Nat) : State B :=
  dropSender { s.shift r .future .queue with sent := s.sent ++ [r] }

def advance (conf : Config) (s : State B) (r : Nat) (c : Call B) : Option (State B) :=
  match c.phase with
  | .arrived =>
    some ((s.log conf (.arrival r)).put r { c with phase := .logged, start := s.now })
  | .logged =>
    some ({ s with
      contents := Function.update s.contents .future (s.contents .future ++ [r])
      loc := Function.update s.loc r (some .future) }.put r
        { c with phase := .created, enqueuedAt := s.now, admittedAt := s.now })
  | .created => some ({ s with inFlight := s.inFlight + 1 }.put r { c with phase := .guarded })
  | .guarded =>
    if oversize conf c then some (s.put r { c with phase := .answered response413 })
    else if conf.lanes then
      some (s.put r { c with phase := .dispatching (s.now + millis conf.queueTimeout) })
    else if s.reqTx then
      some ({ s with senders := s.senders + 1 }.put r { c with phase := .offering })
    else some ((unavailable s).put r { c with phase := .answered response503 })
  | .offering =>
    if (s.contents .queue).length < conf.queueDepth then
      some ((s.send r).put r { c with phase := .enqueued })
    else some (s.put r { c with phase := .polling s.now })
  | .polling since =>
    -- the first poll of send_async: the queue may have room by now
    if (s.contents .queue).length < conf.queueDepth then
      some ((s.send r).put r { c with phase := .enqueued })
    else
      some ({ s.shift r .future .pending with sent := s.sent ++ [r] }.put r
        { c with phase := .pending since })
  | .pending _ =>
    if r ∈ s.contents .pending then none
    else some ((dropSender s).put r { c with phase := .enqueued })
  | .sleeping deadline => some (s.put r { c with phase := .dispatching deadline })
  | .enqueued => some (s.put r { c with phase := .waiting s.now })
  | .waiting _ =>
    match c.responder.head.value with
    | some response => some (s.put r { consume c with phase := .answered response })
    | none =>
      if c.responder.head.sender then none
      else some (s.put r { consume c with phase := .answered response500 })
  | .answered response =>
    some ((s.log conf (.completion r (status response) (s.now - c.start) (timing response))).put r
      { c with phase := .closing response })
  | .closing response =>
    -- the guard goes first; a refused call has its context still
    let c := { c with phase := .returned response }
    if r ∈ s.contents .future then dropCtx (dropInFlight s) r c .future
    else some ((dropInFlight s).put r c)
  | .dispatching _ | .returned _ | .dropped => none

/-- `send_async` has not been done in time. -/
def expire (conf : Config) (s : State B) (r : Nat) (c : Call B) : Option (State B) :=
  match c.phase with
  | .pending since =>
    if r ∈ s.contents .pending ∧ since + millis conf.queueTimeout ≤ s.now then
      dropCtx (unavailable (dropSender s)) r { c with phase := .answered response503 } .pending
    else none
  | _ => none

def laneDepth : Nat := KinoLaneDispatch.laneDepth

/-- A try of `try_dispatch` puts the context into lane `i`. -/
def laneSend (s : State B) (r i : Nat) (c : Call B) : Option (State B) :=
  match c.phase, s.slots[i]? with
  | .dispatching _, some slot =>
    if slot.laneTx = true ∧ slot.retired = false ∧ (s.contents (.lane i)).length < laneDepth then
      some ((s.shift r .future (.lane i)).put r { c with phase := .enqueued })
    else none
  | _, _ => none

/-- `Dispatch::Full`: sleep and try again, or give up past the deadline. The lanes are tried
    one after another while others fill and empty them, so that one may have room by now. -/
def laneFull (s : State B) (r : Nat) (c : Call B) : Option (State B) :=
  match c.phase with
  | .dispatching deadline =>
    if deadline ≤ s.now then
      dropCtx (unavailable s) r { c with phase := .answered response503 } .future
    else some (s.put r { c with phase := .sleeping deadline })
  | _ => none

/-- `Dispatch::Closed`: there are slots, and no lane is open any more. -/
def laneClosed (s : State B) (r : Nat) (c : Call B) : Option (State B) :=
  match c.phase with
  | .dispatching _ =>
    if s.slots ≠ [] ∧ ∀ slot ∈ s.slots, slot.laneTx = false then
      dropCtx (unavailable s) r { c with phase := .answered response503 } .future
    else none
  | _ => none

/-- The head is not there in time. `timeout` polls the head before the timer. -/
def timeOut (conf : Config) (s : State B) (r : Nat) (c : Call B) : Option (State B) :=
  match c.phase with
  | .waiting since =>
    if 0 < conf.requestTimeout ∧ since + millis conf.requestTimeout ≤ s.now ∧
        c.responder.head.value = none ∧ c.responder.head.sender = true then
      some ({ s with timeouts := s.timeouts + 1 }.put r
        { hangUp c with phase := .answered response504 })
    else none
  | _ => none

/-- hyper drops the future: the locals are dropped where it awaits. -/
def cancel (s : State B) (r : Nat) (c : Call B) : Option (State B) :=
  let gone := { hangUp c with phase := .dropped }
  match c.phase with
  | .arrived => some (s.put r { c with phase := .dropped })
  | .pending _ =>
    if r ∈ s.contents .pending then dropCtx (dropInFlight (dropSender s)) r gone .pending
    else some ((dropInFlight (dropSender s)).put r gone)
  | .sleeping _ => dropCtx (dropInFlight s) r gone .future
  | .waiting _ => some ((dropInFlight s).put r gone)
  | _ => none

def pull (s : State B) : State B :=
  match s.contents .pending with
  | [] => s
  | p :: _ => s.shift p .pending .queue

def take (s : State B) (i : Nat) : Option Nat → Option (State B)
  | none =>
    match s.contents .queue with
    | [] => none
    | r :: _ => some (pull { s.shift r .queue (.hand i) with received := s.received ++ [r] })
  | some k =>
    match s.contents (.lane k) with
    | [] => none
    | r :: _ => some (s.shift r (.lane k) (.hand i))

def admitCtx (s : State B) (i : Nat) : Option (State B) :=
  match s.contents (.hand i) with
  | [] => none
  | r :: _ =>
    s.calls[r]?.map fun c =>
      ({ s with served := s.served + 1 }.shift r (.hand i) (.worker i)).put r
        { c with wait := s.now - c.enqueuedAt, admittedAt := s.now, admitted := true }

/-- `timed`: the head gets the request's timing when the access log wants it. -/
def timed (conf : Config) (s : State B) (c : Call B) (status : Nat) : AppHead :=
  ⟨status, if conf.accessLog then some ⟨c.wait, s.now - c.admittedAt⟩ else none⟩

open KinoShutdown (Use useResponder)

def stamp (head : Nat → AppHead) : Use Nat B → Use AppHead B
  | .respondSimple status => .respondSimple (head status)
  | .sendHeaders builder => .sendHeaders (builder.map head)
  | .writeChunk chunk => .writeChunk chunk
  | .finish => .finish
  | .abort => .abort

inductive Label (B : Type) where
  | tick (d : Nat)
  | arrive (length : Option Nat)
  | advance (r : Nat)
  | expire (r : Nat)
  | laneSend (r i : Nat)
  | laneFull (r : Nat)
  | laneClosed (r : Nat)
  | timeOut (r : Nat)
  | cancel (r : Nat)
  | registerWorker
  | retire (i : Nat)
  | reset (i : Nat)
  | closeReqTx
  | closeLane (i : Nat)
  | drainLane (i : Nat)
  | take (i : Nat) (source : Option Nat)
  | admitCtx (i : Nat)
  | use (r i : Nat) (op : Use Nat B)
  | takeFrame (r : Nat)
  | abort (r : Nat)
  | release (r i : Nat)

def State.setSlot (s : State B) (i : Nat) (change : Slot → Slot) : Option (State B) :=
  s.slots[i]?.map fun slot => { s with slots := s.slots.set i (change slot) }

def State.respond (s : State B) (r : Nat) (c : Call B) (x : Responder AppHead B) : State B :=
  s.put r { c with responder := x }

def step (conf : Config) (s : State B) : Label B → Option (State B)
  | .tick d => some { s with now := s.now + d }
  | .arrive length => some { s with calls := s.calls ++ [newCall length] }
  | .advance r => s.calls[r]?.bind (advance conf s r)
  | .expire r => s.calls[r]?.bind (expire conf s r)
  | .laneSend r i => s.calls[r]?.bind (laneSend s r i)
  | .laneFull r => s.calls[r]?.bind (laneFull s r)
  | .laneClosed r => s.calls[r]?.bind (laneClosed s r)
  | .timeOut r => s.calls[r]?.bind (timeOut conf s r)
  | .cancel r => s.calls[r]?.bind (cancel s r)
  | .registerWorker => some { s with slots := s.slots ++ [⟨conf.lanes, false⟩] }
  | .retire i => s.setSlot i fun slot => { slot with retired := true }
  | .reset i => s.setSlot i fun slot => { slot with retired := false }
  | .closeReqTx => some { s with reqTx := false }
  | .closeLane i => s.setSlot i fun slot => { slot with laneTx := false }
  | .drainLane i =>
    -- abort_slot's drain drops one context at a time
    match s.contents (.lane i) with
    | [] => none
    | r :: _ => s.calls[r]?.bind fun c => dropCtx s r c (.lane i)
  | .take i source => take s i source
  | .admitCtx i => admitCtx s i
  | .use r i op =>
    if r ∈ s.contents (.worker i) then
      s.calls[r]?.bind fun c =>
        (useResponder c.responder (stamp (timed conf s c) op)).map (s.respond r c)
    else none
  | .takeFrame r => s.calls[r]?.map fun c => s.respond r c (KinoShutdown.takeFrame c.responder)
  | .abort r =>
    -- through a slot's weak reference, which upgrades while the context is alive
    if (s.loc r).isSome then
      s.calls[r]?.bind fun c => (respond500IfUnsent c.responder).map (s.respond r c)
    else none
  | .release r i =>
    if r ∈ s.contents (.worker i) then s.calls[r]?.bind fun c => dropCtx s r c (.worker i)
    else none

def system (B : Type) (conf : Config) : System (State B) (Label B) :=
  ⟨fun s => s = initial B, step conf⟩

/-- Everything a call of `handle_request` can do, with the guard it passed. -/
inductive Turn (conf : Config) (s : State B) (r : Nat) (c : Call B) : State B → Prop where
  | arrival (at_pc : c.phase = .arrived) :
      Turn conf s r c
        ((s.log conf (.arrival r)).put r { c with phase := .logged, start := s.now })
  | create (at_pc : c.phase = .logged) :
      Turn conf s r c ({ s with
        contents := Function.update s.contents .future (s.contents .future ++ [r])
        loc := Function.update s.loc r (some .future) }.put r
          { c with phase := .created, enqueuedAt := s.now, admittedAt := s.now })
  | guard (at_pc : c.phase = .created) :
      Turn conf s r c ({ s with inFlight := s.inFlight + 1 }.put r { c with phase := .guarded })
  | tooLarge (at_pc : c.phase = .guarded) (large : oversize conf c = true) :
      Turn conf s r c (s.put r { c with phase := .answered response413 })
  | toLanes (at_pc : c.phase = .guarded) (lanes : conf.lanes = true) :
      Turn conf s r c
        (s.put r { c with phase := .dispatching (s.now + millis conf.queueTimeout) })
  | cloneSender (at_pc : c.phase = .guarded) (queue : conf.lanes = false)
      (open_ : s.reqTx = true) :
      Turn conf s r c ({ s with senders := s.senders + 1 }.put r { c with phase := .offering })
  | closed (at_pc : c.phase = .guarded) (queue : conf.lanes = false) (shut : s.reqTx = false) :
      Turn conf s r c ((unavailable s).put r { c with phase := .answered response503 })
  | send (at_pc : c.phase = .offering ∨ ∃ since, c.phase = .polling since)
      (room : (s.contents .queue).length < conf.queueDepth) :
      Turn conf s r c ((s.send r).put r { c with phase := .enqueued })
  | full (at_pc : c.phase = .offering) :
      Turn conf s r c (s.put r { c with phase := .polling s.now })
  | queueUp (since : Nat) (at_pc : c.phase = .polling since)
      (full : conf.queueDepth ≤ (s.contents .queue).length) :
      Turn conf s r c ({ s.shift r .future .pending with sent := s.sent ++ [r] }.put r
        { c with phase := .pending since })
  | pulled (since : Nat) (at_pc : c.phase = .pending since) (gone : r ∉ s.contents .pending) :
      Turn conf s r c ((dropSender s).put r { c with phase := .enqueued })
  | expire (since : Nat) (x : Responder AppHead B) (at_pc : c.phase = .pending since)
      (here : r ∈ s.contents .pending) (late : since + millis conf.queueTimeout ≤ s.now)
      (moved : respond500IfUnsent c.responder = some x) :
      Turn conf s r c (((unavailable (dropSender s)).forget r .pending).put r
        { c with phase := .answered response503, responder := x })
  | laneSend (deadline i : Nat) (at_pc : c.phase = .dispatching deadline) :
      Turn conf s r c ((s.shift r .future (.lane i)).put r { c with phase := .enqueued })
  | sleep (deadline : Nat) (at_pc : c.phase = .dispatching deadline) :
      Turn conf s r c (s.put r { c with phase := .sleeping deadline })
  | wake (deadline : Nat) (at_pc : c.phase = .sleeping deadline) :
      Turn conf s r c (s.put r { c with phase := .dispatching deadline })
  | laneRefused (deadline : Nat) (x : Responder AppHead B)
      (at_pc : c.phase = .dispatching deadline)
      (why : deadline ≤ s.now ∨ (s.slots ≠ [] ∧ ∀ slot ∈ s.slots, slot.laneTx = false))
      (moved : respond500IfUnsent c.responder = some x) :
      Turn conf s r c (((unavailable s).forget r .future).put r
        { c with phase := .answered response503, responder := x })
  | await (at_pc : c.phase = .enqueued) :
      Turn conf s r c (s.put r { c with phase := .waiting s.now })
  | head (since : Nat) (response : Response AppHead) (at_pc : c.phase = .waiting since)
      (sent : c.responder.head.value = some response ∨
        (c.responder.head.value = none ∧ c.responder.head.sender = false ∧
          response = response500)) :
      Turn conf s r c (s.put r { consume c with phase := .answered response })
  | timeOut (since : Nat) (at_pc : c.phase = .waiting since) (limited : 0 < conf.requestTimeout)
      (late : since + millis conf.requestTimeout ≤ s.now) (silent : c.responder.head.value = none) :
      Turn conf s r c ({ s with timeouts := s.timeouts + 1 }.put r
        { hangUp c with phase := .answered response504 })
  | completion (response : Response AppHead) (at_pc : c.phase = .answered response) :
      Turn conf s r c
        ((s.log conf (.completion r (status response) (s.now - c.start) (timing response))).put r
          { c with phase := .closing response })
  | finish (response : Response AppHead) (at_pc : c.phase = .closing response)
      (away : r ∉ s.contents .future) :
      Turn conf s r c ((dropInFlight s).put r { c with phase := .returned response })
  | finishOwner (response : Response AppHead) (x : Responder AppHead B)
      (at_pc : c.phase = .closing response) (here : r ∈ s.contents .future)
      (moved : respond500IfUnsent c.responder = some x) :
      Turn conf s r c (((dropInFlight s).forget r .future).put r
        { c with phase := .returned response, responder := x })
  | cancelArrived (at_pc : c.phase = .arrived) :
      Turn conf s r c (s.put r { c with phase := .dropped })
  | cancelPending (since : Nat) (x : Responder AppHead B) (at_pc : c.phase = .pending since)
      (here : r ∈ s.contents .pending)
      (moved : respond500IfUnsent (KinoShutdown.hangUp c.responder) = some x) :
      Turn conf s r c (((dropInFlight (dropSender s)).forget r .pending).put r
        { c with phase := .dropped, responder := x })
  | cancelPulled (since : Nat) (at_pc : c.phase = .pending since)
      (gone : r ∉ s.contents .pending) :
      Turn conf s r c ((dropInFlight (dropSender s)).put r { hangUp c with phase := .dropped })
  | cancelSleeping (deadline : Nat) (x : Responder AppHead B)
      (at_pc : c.phase = .sleeping deadline)
      (moved : respond500IfUnsent (KinoShutdown.hangUp c.responder) = some x) :
      Turn conf s r c (((dropInFlight s).forget r .future).put r
        { c with phase := .dropped, responder := x })
  | cancelWaiting (since : Nat) (at_pc : c.phase = .waiting since) :
      Turn conf s r c ((dropInFlight s).put r { hangUp c with phase := .dropped })

inductive Around (conf : Config) (s : State B) : State B → Prop where
  | admitCtx (i r : Nat) (rest : List Nat) (c : Call B) (there : s.calls[r]? = some c)
      (front : s.contents (.hand i) = r :: rest) :
      Around conf s (({ s with served := s.served + 1 }.shift r (.hand i) (.worker i)).put r
        { c with wait := s.now - c.enqueuedAt, admittedAt := s.now, admitted := true })
  | takeQueue (i r : Nat) (rest : List Nat) (front : s.contents .queue = r :: rest)
      (nobody : s.contents .pending = []) :
      Around conf s { s.shift r .queue (.hand i) with received := s.received ++ [r] }
  | takePull (i r p : Nat) (rest others : List Nat) (front : s.contents .queue = r :: rest)
      (next : s.contents .pending = p :: others) :
      Around conf s
        ({ s.shift r .queue (.hand i) with received := s.received ++ [r] }.shift p .pending .queue)
  | takeLane (i k r : Nat) (rest : List Nat) (front : s.contents (.lane k) = r :: rest) :
      Around conf s (s.shift r (.lane k) (.hand i))
  | drop (r : Nat) (c : Call B) (x : Responder AppHead B) (p : Place)
      (there : s.calls[r]? = some c) (here : r ∈ s.contents p)
      (held : (∃ i, p = .lane i) ∨ ∃ i, p = .worker i)
      (moved : respond500IfUnsent c.responder = some x) :
      Around conf s ((s.forget r p).put r { c with responder := x })
  | abort (r : Nat) (c : Call B) (x : Responder AppHead B) (there : s.calls[r]? = some c)
      (moved : respond500IfUnsent c.responder = some x) : Around conf s (s.respond r c x)
  | use (r i : Nat) (c : Call B) (op : Use Nat B) (x : Responder AppHead B)
      (there : s.calls[r]? = some c) (here : r ∈ s.contents (.worker i))
      (moved : useResponder c.responder (stamp (timed conf s c) op) = some x) :
      Around conf s (s.respond r c x)
  | takeFrame (r : Nat) (c : Call B) (there : s.calls[r]? = some c) :
      Around conf s (s.respond r c (KinoShutdown.takeFrame c.responder))

inductive Move (conf : Config) (s : State B) : State B → Prop where
  | turn (r : Nat) (c : Call B) (s' : State B) (there : s.calls[r]? = some c)
      (turn : Turn conf s r c s') : Move conf s s'
  | around (s' : State B) (around : Around conf s s') : Move conf s s'
  | arrive (length : Option Nat) : Move conf s { s with calls := s.calls ++ [newCall length] }
  | tick (d : Nat) : Move conf s { s with now := s.now + d }
  | close : Move conf s { s with reqTx := false }
  | slots (slots : List Slot) : Move conf s { s with slots := slots }

theorem advance_turn {conf : Config} {s s' : State B} {r : Nat} {c : Call B}
    (moved : advance conf s r c = some s') : Turn conf s r c s' := by
  unfold advance at moved
  cases at_pc : c.phase with
  | arrived =>
    simp only [at_pc, Option.some.injEq] at moved
    exact moved ▸ .arrival at_pc
  | logged =>
    simp only [at_pc, Option.some.injEq] at moved
    exact moved ▸ .create at_pc
  | created =>
    simp only [at_pc, Option.some.injEq] at moved
    exact moved ▸ .guard at_pc
  | guarded =>
    simp only [at_pc] at moved
    split at moved
    · next large =>
      cases moved
      exact .tooLarge at_pc large
    · split at moved
      · next lanes =>
        cases moved
        exact .toLanes at_pc lanes
      · next queue =>
        split at moved
        · next open_ =>
          cases moved
          exact .cloneSender at_pc (by simpa using queue) open_
        · next shut =>
          cases moved
          exact .closed at_pc (by simpa using queue) (by simpa using shut)
  | offering =>
    simp only [at_pc] at moved
    split at moved
    · next room =>
      cases moved
      exact .send (.inl at_pc) room
    · cases moved
      exact .full at_pc
  | polling since =>
    simp only [at_pc] at moved
    split at moved
    · next room =>
      cases moved
      exact .send (.inr ⟨since, at_pc⟩) room
    · next full =>
      cases moved
      exact .queueUp since at_pc (by omega)
  | pending since =>
    simp only [at_pc] at moved
    split at moved
    · cases moved
    · next gone =>
      cases moved
      exact .pulled since at_pc gone
  | sleeping deadline =>
    simp only [at_pc, Option.some.injEq] at moved
    exact moved ▸ .wake deadline at_pc
  | enqueued =>
    simp only [at_pc, Option.some.injEq] at moved
    exact moved ▸ .await at_pc
  | waiting since =>
    simp only [at_pc] at moved
    split at moved
    · next response sent =>
      cases moved
      exact .head since response at_pc (.inl sent)
    · next silent =>
      split at moved
      · cases moved
      · next gone =>
        cases moved
        exact .head since response500 at_pc (.inr ⟨silent, by simpa using gone, rfl⟩)
  | answered response =>
    simp only [at_pc, Option.some.injEq] at moved
    exact moved ▸ .completion response at_pc
  | closing response =>
    simp only [at_pc] at moved
    split at moved
    · next here =>
      obtain ⟨x, answered, rfl⟩ := Option.map_eq_some_iff.mp moved
      exact .finishOwner response x at_pc here answered
    · next away =>
      cases moved
      exact .finish response at_pc away
  | dispatching | returned | dropped => simp [at_pc] at moved

theorem expire_turn {conf : Config} {s s' : State B} {r : Nat} {c : Call B}
    (moved : expire conf s r c = some s') : Turn conf s r c s' := by
  unfold expire at moved
  split at moved
  · next since at_pc =>
    split at moved
    · next met =>
      obtain ⟨x, answered, rfl⟩ := Option.map_eq_some_iff.mp moved
      exact .expire since x at_pc met.1 met.2 answered
    · cases moved
  · cases moved

theorem laneSend_turn {conf : Config} {s s' : State B} {r i : Nat} {c : Call B}
    (moved : laneSend s r i c = some s') : Turn conf s r c s' := by
  unfold laneSend at moved
  split at moved
  · next deadline slot at_pc there =>
    split at moved
    · cases moved
      exact .laneSend deadline i at_pc
    · cases moved
  · cases moved

theorem laneFull_turn {conf : Config} {s s' : State B} {r : Nat} {c : Call B}
    (moved : laneFull s r c = some s') : Turn conf s r c s' := by
  unfold laneFull at moved
  split at moved
  · next deadline at_pc =>
    split at moved
    · next late =>
      obtain ⟨x, answered, rfl⟩ := Option.map_eq_some_iff.mp moved
      exact .laneRefused deadline x at_pc (.inl late) answered
    · cases moved
      exact .sleep deadline at_pc
  · cases moved

theorem laneClosed_turn {conf : Config} {s s' : State B} {r : Nat} {c : Call B}
    (moved : laneClosed s r c = some s') : Turn conf s r c s' := by
  unfold laneClosed at moved
  split at moved
  · next deadline at_pc =>
    split at moved
    · next shut =>
      obtain ⟨x, answered, rfl⟩ := Option.map_eq_some_iff.mp moved
      exact .laneRefused deadline x at_pc (.inr shut) answered
    · cases moved
  · cases moved

theorem timeOut_turn {conf : Config} {s s' : State B} {r : Nat} {c : Call B}
    (moved : timeOut conf s r c = some s') : Turn conf s r c s' := by
  unfold timeOut at moved
  split at moved
  · next since at_pc =>
    split at moved
    · next met =>
      cases moved
      exact .timeOut since at_pc met.1 met.2.1 met.2.2.1
    · cases moved
  · cases moved

theorem cancel_turn {conf : Config} {s s' : State B} {r : Nat} {c : Call B}
    (moved : cancel s r c = some s') : Turn conf s r c s' := by
  unfold cancel at moved
  cases at_pc : c.phase with
  | arrived =>
    simp only [at_pc, Option.some.injEq] at moved
    exact moved ▸ .cancelArrived at_pc
  | pending since =>
    simp only [at_pc] at moved
    split at moved
    · next here =>
      obtain ⟨x, answered, rfl⟩ := Option.map_eq_some_iff.mp moved
      exact .cancelPending since x at_pc here answered
    · next gone =>
      cases moved
      exact .cancelPulled since at_pc gone
  | sleeping deadline =>
    simp only [at_pc] at moved
    obtain ⟨x, answered, rfl⟩ := Option.map_eq_some_iff.mp moved
    exact .cancelSleeping deadline x at_pc answered
  | waiting since =>
    simp only [at_pc, Option.some.injEq] at moved
    exact moved ▸ .cancelWaiting since at_pc
  | _ => simp [at_pc] at moved

theorem take_around {conf : Config} {s s' : State B} {i : Nat} {source : Option Nat}
    (moved : take s i source = some s') : Around conf s s' := by
  cases source with
  | none =>
    simp only [take] at moved
    split at moved
    · cases moved
    · next r rest front =>
      cases moved
      unfold pull
      split
      · next nobody => exact .takeQueue i r rest front (by simpa [State.shift] using nobody)
      · next p others next =>
        exact .takePull i r p rest others front (by simpa [State.shift] using next)
  | some k =>
    simp only [take] at moved
    split at moved
    · cases moved
    · next r rest front =>
      cases moved
      exact .takeLane i k r rest front

theorem setSlot_move {conf : Config} {s s' : State B} {i : Nat} {change : Slot → Slot}
    (moved : s.setSlot i change = some s') : Move conf s s' := by
  obtain ⟨slot, there, rfl⟩ := Option.map_eq_some_iff.mp moved
  exact .slots _

theorem step_move {conf : Config} {s s' : State B} {l : Label B}
    (moved : step conf s l = some s') : Move conf s s' := by
  have turned : ∀ {r : Nat} {f : Call B → Option (State B)}, s.calls[r]?.bind f = some s' →
      (∀ c, f c = some s' → Turn conf s r c s') → Move conf s s' := by
    intro r f moved each
    obtain ⟨c, there, moved⟩ := Option.bind_eq_some_iff.mp moved
    exact .turn r c s' there (each c moved)
  cases l with
  | tick d =>
    cases moved
    exact .tick d
  | arrive length =>
    cases moved
    exact .arrive length
  | advance r => exact turned moved fun _ => advance_turn
  | expire r => exact turned moved fun _ => expire_turn
  | laneSend r i => exact turned moved fun _ => laneSend_turn
  | laneFull r => exact turned moved fun _ => laneFull_turn
  | laneClosed r => exact turned moved fun _ => laneClosed_turn
  | timeOut r => exact turned moved fun _ => timeOut_turn
  | cancel r => exact turned moved fun _ => cancel_turn
  | registerWorker =>
    cases moved
    exact .slots _
  | retire i | reset i | closeLane i => exact setSlot_move moved
  | closeReqTx =>
    cases moved
    exact .close
  | drainLane i =>
    simp only [step] at moved
    split at moved
    · cases moved
    · next r rest front =>
      obtain ⟨c, there, moved⟩ := Option.bind_eq_some_iff.mp moved
      obtain ⟨x, answered, rfl⟩ := Option.map_eq_some_iff.mp moved
      exact .around _ (.drop r c x _ there (by simp [front]) (.inl ⟨i, rfl⟩) answered)
  | take i source => exact .around _ (take_around moved)
  | admitCtx i =>
    simp only [step, admitCtx] at moved
    split at moved
    · cases moved
    · next r rest front =>
      obtain ⟨c, there, rfl⟩ := Option.map_eq_some_iff.mp moved
      exact .around _ (.admitCtx i r rest c there front)
  | use r i op =>
    simp only [step] at moved
    split at moved
    · next here =>
      obtain ⟨c, there, moved⟩ := Option.bind_eq_some_iff.mp moved
      obtain ⟨x, used, rfl⟩ := Option.map_eq_some_iff.mp moved
      exact .around _ (.use r i c op x there here used)
    · cases moved
  | takeFrame r =>
    obtain ⟨c, there, rfl⟩ := Option.map_eq_some_iff.mp moved
    exact .around _ (.takeFrame r c there)
  | abort r =>
    simp only [step] at moved
    split at moved
    · obtain ⟨c, there, moved⟩ := Option.bind_eq_some_iff.mp moved
      obtain ⟨x, answered, rfl⟩ := Option.map_eq_some_iff.mp moved
      exact .around _ (.abort r c x there answered)
    · cases moved
  | release r i =>
    simp only [step] at moved
    split at moved
    · next here =>
      obtain ⟨c, there, moved⟩ := Option.bind_eq_some_iff.mp moved
      obtain ⟨x, answered, rfl⟩ := Option.map_eq_some_iff.mp moved
      exact .around _ (.drop r c x _ there here (.inr ⟨i, rfl⟩) answered)
    · cases moved

end KinoRequestLifecycle
