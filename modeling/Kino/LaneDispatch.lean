import Kino.Transitions
import Kino.Channels

/-!
Lane mode: `try_dispatch` and its retry loop (ext/kino/src/server.rs), `lane_take` and
`after_timeout` (queue.rs), `WorkerSlot::retire` and `reset` (registry.rs), `abort_slot`
and `close_queue`. Every access to shared state is a step of its own. A request is
named by a number, which also names the task that dispatches it. A pass over the slots
keeps the count it read under the slots' read lock, and slots are only ever added.
-/
namespace KinoLaneDispatch
open Transitions Channels

def laneDepth : Nat := 4

inductive Agent where
  | dispatcher (request : Nat)
  | operation (thread : Nat)
  deriving DecidableEq, Repr

inductive Outcome where
  | item
  | disconnected
  | retired
  deriving DecidableEq, Repr

/-- `serving` is the worker outside a take. A sweep over the siblings is made before
    parking and again after each timeout. -/
inductive WorkerPc where
  | absent
  | serving
  | own
  | sweep (n k : Nat) (parked : Bool)
  | parking
  | stamping (seq : Nat)
  | flagging
  | waiting
  | timedOut
  | lastTry
  | unparking (outcome : Outcome)
  | left (retired : Bool)
  deriving DecidableEq, Repr

structure Slot where
  laneTx : Bool
  lock : Option Agent
  lane : Chan Nat laneDepth
  parked : Bool
  parkedAt : Nat
  retired : Bool
  worker : WorkerPc
  gen : Nat

/-- `WorkerSlot::new` with lanes on, before a worker runs on it. -/
def Slot.new : Slot where
  laneTx := true
  lock := none
  lane := Chan.create Nat laneDepth
  parked := false
  parkedAt := 0
  retired := false
  worker := .absent
  gen := 0

structure Pass where
  n : Nat
  start : Nat
  anyOpen : Bool
  deriving DecidableEq, Repr

/-- Where a failed `try_lane` returns to. -/
inductive Resume where
  | awake (k : Nat)
  | hottest
  | anyLane (k : Nat)
  deriving DecidableEq, Repr

inductive DispatchPc where
  | absent
  | ready
  | awake (p : Pass) (k : Nat)
  | hotParked (p : Pass) (j : Nat) (best : Option (Nat × Nat))
  | hotEmpty (p : Pass) (j : Nat) (best : Option (Nat × Nat))
  | hotKey (p : Pass) (j : Nat) (best : Option (Nat × Nat))
  | anyLane (p : Pass) (k : Nat)
  | locking (p : Pass) (back : Resume) (i : Nat)
  | opening (p : Pass) (back : Resume) (i : Nat)
  | checking (p : Pass) (back : Resume) (i : Nat)
  | sending (p : Pass) (back : Resume) (i : Nat)
  | unlocking (p : Pass) (back : Resume) (i : Nat) (sent : Bool)
  | sent
  | full
  | closed
  | rejected
  deriving DecidableEq, Repr

inductive Operation where
  | retire (i : Nat)
  | reset (i : Nat)
  | abortSlot (i : Nat)
  | closeQueue
  deriving DecidableEq, Repr

inductive OpPc where
  | absent
  | retireLock (i : Nat)
  | retireStore (i : Nat)
  | retireUnlock (i : Nat)
  | resetLock (i : Nat)
  | resetRetired (i : Nat)
  | resetParked (i : Nat)
  | resetParkedAt (i : Nat)
  | resetHandOver (i : Nat)
  | abortLock (i : Nat)
  | abortTake (i : Nat)
  | abortUnlock (i : Nat)
  | abortPark (i : Nat)
  | abortDrain (i : Nat)
  | closeLock (k n : Nat)
  | closeTake (k n : Nat)
  | closeUnlock (k n : Nat)
  | finished
  deriving DecidableEq, Repr

structure Worker where
  slot : Nat
  gen : Nat
  deriving DecidableEq, Repr

/-- `cursor` starts at 0 and each dispatch adds one: the wrap of the `usize` is 2^64 dispatches
    away, past any run that happens. `taken` and `dropped` are history: what each worker took off
    the lanes and what the drain of `abort_slot` dropped. -/
structure State where
  slots : Nat → Slot
  count : Nat
  cursor : Nat
  parkSeq : Nat
  disp : Nat → DispatchPc
  ops : Nat → OpPc
  taken : Worker → List Nat
  dropped : List Nat

def initial : State where
  slots := fun _ => Slot.new
  count := 0
  cursor := 0
  parkSeq := 0
  disp := fun _ => .absent
  ops := fun _ => .absent
  taken := fun _ => []
  dropped := []

def State.put (s : State) (i : Nat) (slot : Slot) : State :=
  { s with slots := Function.update s.slots i slot }

def State.goto (s : State) (r : Nat) (pc : DispatchPc) : State :=
  { s with disp := Function.update s.disp r pc }

def State.operate (s : State) (t : Nat) (pc : OpPc) : State :=
  { s with ops := Function.update s.ops t pc }

def State.worker (s : State) (i : Nat) (pc : WorkerPc) : State :=
  s.put i { s.slots i with worker := pc }

def State.lock (s : State) (i : Nat) (holder : Option Agent) : State :=
  s.put i { s.slots i with lock := holder }

def resume (p : Pass) : Resume → DispatchPc
  | .awake k => .awake p (k + 1)
  | .hottest => .anyLane p 0
  | .anyLane k => .anyLane p (k + 1)

/-- `max_by_key` keeps the later of two equal keys. -/
def hotter (best : Option (Nat × Nat)) (j key : Nat) : Option (Nat × Nat) :=
  match best with
  | none => some (j, key)
  | some (i, top) => if key < top then some (i, top) else some (j, key)

/-- One step of the task that dispatches `r`; `none` while it waits for a lane lock. -/
def dispatch (s : State) (r : Nat) : Option State :=
  match s.disp r with
  | .ready =>
    if s.count = 0 then some (s.goto r .full)
    else some ({ s with cursor := s.cursor + 1 }.goto r (.awake ⟨s.count, s.cursor, false⟩ 0))
  | .awake p k =>
    if p.n ≤ k then some (s.goto r (.hotParked p 0 none))
    else
      let i := (p.start + k) % p.n
      if (s.slots i).parked then some (s.goto r (.awake p (k + 1)))
      else some (s.goto r (.locking p (.awake k) i))
  | .hotParked p j best =>
    if p.n ≤ j then
      match best with
      | some (i, _) => some (s.goto r (.locking p .hottest i))
      | none => some (s.goto r (.anyLane p 0))
    else if (s.slots j).parked then some (s.goto r (.hotEmpty p j best))
    else some (s.goto r (.hotParked p (j + 1) best))
  | .hotEmpty p j best =>
    if (s.slots j).lane.buf = [] then some (s.goto r (.hotKey p j best))
    else some (s.goto r (.hotParked p (j + 1) best))
  | .hotKey p j best =>
    some (s.goto r (.hotParked p (j + 1) (hotter best j (s.slots j).parkedAt)))
  | .anyLane p k =>
    if p.n ≤ k then some (s.goto r (if p.anyOpen then .full else .closed))
    else some (s.goto r (.locking p (.anyLane k) ((p.start + k) % p.n)))
  | .locking p back i =>
    if (s.slots i).lock = none then
      some ((s.lock i (some (.dispatcher r))).goto r (.opening p back i))
    else none
  | .opening p back i =>
    if (s.slots i).laneTx then some (s.goto r (.checking { p with anyOpen := true } back i))
    else some (s.goto r (.unlocking p back i false))
  | .checking p back i =>
    if (s.slots i).retired then some (s.goto r (.unlocking p back i false))
    else some (s.goto r (.sending p back i))
  | .sending p back i =>
    match (s.slots i).lane.trySend r with
    | (.sent, c) => some ((s.put i { s.slots i with lane := c }).goto r (.unlocking p back i true))
    | _ => some (s.goto r (.unlocking p back i false))
  | .unlocking p back i sent =>
    some ((s.lock i none).goto r (if sent then .sent else resume p back))
  | .full => some (s.goto r .ready)
  | _ => none

/-- Worker `i` takes a request off lane `j` and goes on at `pc`. -/
def State.take (s : State) (i j r : Nat) (pc : WorkerPc) : State :=
  let w : Worker := ⟨i, (s.slots i).gen⟩
  { s.put j { s.slots j with lane := (s.slots j).lane.pop } with
    taken := Function.update s.taken w (s.taken w ++ [r]) }.worker i pc

/-- One step of worker `i` inside `lane_take`; `none` while it waits on its lane. -/
def work (s : State) (i : Nat) : Option State :=
  let slot := s.slots i
  match slot.worker with
  | .own =>
    match slot.lane.tryRecv with
    | (.item r, _) => some (s.take i i r .serving)
    | (.disconnected, _) => some (s.worker i (.left false))
    | (.empty, _) => some (s.worker i (.sweep s.count 0 false))
  | .sweep n k parked =>
    if n ≤ k then some (s.worker i (if parked then .waiting else .parking))
    else if k = i then some (s.worker i (.sweep n (k + 1) parked))
    else
      match (s.slots k).lane.tryRecv with
      | (.item r, _) => some (s.take i k r (if parked then .unparking .item else .serving))
      | _ => some (s.worker i (.sweep n (k + 1) parked))
  | .parking =>
    some ({ s with parkSeq := s.parkSeq + 1 }.worker i (.stamping (s.parkSeq + 1)))
  | .stamping seq => some (s.put i { slot with parkedAt := seq, worker := .flagging })
  | .flagging => some (s.put i { slot with parked := true, worker := .waiting })
  | .waiting =>
    match slot.lane.tryRecv with
    | (.item r, _) => some (s.take i i r (.unparking .item))
    | (.disconnected, _) => some (s.worker i (.unparking .disconnected))
    | (.empty, _) => none
  | .timedOut =>
    if slot.retired then some (s.worker i .lastTry)
    else some (s.worker i (.sweep s.count 0 true))
  | .lastTry =>
    match slot.lane.tryRecv with
    | (.item r, _) => some (s.take i i r (.unparking .item))
    | _ => some (s.worker i (.unparking .retired))
  | .unparking outcome =>
    let pc := match outcome with
      | .item => .serving
      | .disconnected => .left false
      | .retired => .left true
    some (s.put i { slot with parked := false, worker := pc })
  | _ => none

/-- A lane closed for good: `lane_tx.take()` drops the only sender. -/
def State.closeLane (s : State) (i : Nat) : State :=
  if (s.slots i).laneTx then
    s.put i { s.slots i with laneTx := false, lane := (s.slots i).lane.dropSender }
  else s

/-- One step of an operation thread; `none` while it waits for a lane lock, and a
    reset also while the slot's worker has not left. -/
def operate (s : State) (t : Nat) : Option State :=
  let acquire (i : Nat) (pc : OpPc) : Option State :=
    if (s.slots i).lock = none then
      some ((s.lock i (some (.operation t))).operate t pc)
    else none
  match s.ops t with
  | .retireLock i => acquire i (.retireStore i)
  | .retireStore i =>
    some ((s.put i { s.slots i with retired := true }).operate t (.retireUnlock i))
  | .retireUnlock i => some ((s.lock i none).operate t .finished)
  | .resetLock i =>
    match (s.slots i).worker with
    | .left _ => acquire i (.resetRetired i)
    | _ => none
  | .resetRetired i =>
    some ((s.put i { s.slots i with retired := false }).operate t (.resetParked i))
  | .resetParked i =>
    some ((s.put i { s.slots i with parked := false }).operate t (.resetParkedAt i))
  | .resetParkedAt i =>
    some ((s.put i { s.slots i with parkedAt := 0 }).operate t (.resetHandOver i))
  | .resetHandOver i =>
    some ((s.put i { s.slots i with
      lock := none, worker := .serving, gen := (s.slots i).gen + 1 }).operate t .finished)
  | .abortLock i => acquire i (.abortTake i)
  | .abortTake i => some ((s.closeLane i).operate t (.abortUnlock i))
  | .abortUnlock i => some ((s.lock i none).operate t (.abortPark i))
  | .abortPark i =>
    some ((s.put i { s.slots i with parked := true }).operate t (.abortDrain i))
  | .abortDrain i =>
    match (s.slots i).lane.tryRecv with
    | (.item r, c) =>
      some { s.put i { s.slots i with lane := c } with dropped := s.dropped ++ [r] }
    | _ => some (s.operate t .finished)
  | .closeLock k n => if n ≤ k then some (s.operate t .finished) else acquire k (.closeTake k n)
  | .closeTake k n => some ((s.closeLane k).operate t (.closeUnlock k n))
  | .closeUnlock k n => some ((s.lock k none).operate t (.closeLock (k + 1) n))
  | _ => none

def entry (s : State) : Operation → Option OpPc
  | .retire i => if i < s.count then some (.retireLock i) else none
  | .reset i => if i < s.count then some (.resetLock i) else none
  | .abortSlot i => if i < s.count then some (.abortLock i) else none
  | .closeQueue => some (.closeLock 0 s.count)

/-- `timeout` ends a worker's bounded wait and `giveUp` is a dispatcher past its
    deadline; the environment chooses when. -/
inductive Label where
  | register
  | arrive (r : Nat)
  | dispatch (r : Nat)
  | giveUp (r : Nat)
  | take (i : Nat)
  | work (i : Nat)
  | timeout (i : Nat)
  | call (t : Nat) (op : Operation)
  | operate (t : Nat)
  deriving DecidableEq, Repr

def step (s : State) : Label → Option State
  | .register =>
    if (s.slots s.count).worker = .absent then
      some ({ s with count := s.count + 1 }.worker s.count .serving)
    else none
  | .arrive r => if s.disp r = .absent then some (s.goto r .ready) else none
  | .dispatch r => dispatch s r
  | .giveUp r => if s.disp r = .full then some (s.goto r .rejected) else none
  | .take i => if (s.slots i).worker = .serving then some (s.worker i .own) else none
  | .work i => work s i
  | .timeout i => if (s.slots i).worker = .waiting then some (s.worker i .timedOut) else none
  | .call t op =>
    if s.ops t = .absent then (entry s op).map fun pc => s.operate t pc else none
  | .operate t => operate s t

def system : System State Label := ⟨fun s => s = initial, step⟩

def critical : DispatchPc → Option Nat
  | .opening _ _ i | .checking _ _ i | .sending _ _ i | .unlocking _ _ i _ => some i
  | _ => none

def opCritical : OpPc → Option Nat
  | .retireStore i | .retireUnlock i | .resetRetired i | .resetParked i | .resetParkedAt i
  | .resetHandOver i | .abortTake i | .abortUnlock i | .closeTake i _ | .closeUnlock i _ => some i
  | _ => none

def landed : DispatchPc → Bool
  | .unlocking _ _ _ true | .sent => true
  | _ => false

def away : WorkerPc → Bool
  | .left _ => true
  | _ => false

def calm : WorkerPc → Bool
  | .lastTry | .unparking .retired | .left true => false
  | _ => true

def resetting : OpPc → Option Nat
  | .resetRetired i | .resetParked i | .resetParkedAt i | .resetHandOver i => some i
  | _ => none

def cleared : OpPc → Option Nat
  | .resetParked i | .resetParkedAt i | .resetHandOver i => some i
  | _ => none

inductive Move (s : State) : Label → State → Prop where
  | walk (l : Label) (r c : Nat) (pc : DispatchPc) (out : critical (s.disp r) = none)
      (not_yet : landed (s.disp r) = false) (still_out : critical pc = none)
      (still_not : landed pc = false) : Move s l ({ s with cursor := c }.goto r pc)
  | lockLane (r : Nat) (p : Pass) (back : Resume) (i : Nat) (at_pc : s.disp r = .locking p back i)
      (free : (s.slots i).lock = none) :
      Move s (.dispatch r) ((s.lock i (some (.dispatcher r))).goto r (.opening p back i))
  | closedLane (r : Nat) (p : Pass) (back : Resume) (i : Nat) (at_pc : s.disp r = .opening p back i) :
      Move s (.dispatch r) (s.goto r (.unlocking p back i false))
  | openLane (r : Nat) (p : Pass) (back : Resume) (i : Nat) (at_pc : s.disp r = .opening p back i) :
      Move s (.dispatch r) (s.goto r (.checking { p with anyOpen := true } back i))
  | retiredLane (r : Nat) (p : Pass) (back : Resume) (i : Nat)
      (at_pc : s.disp r = .checking p back i) :
      Move s (.dispatch r) (s.goto r (.unlocking p back i false))
  | liveLane (r : Nat) (p : Pass) (back : Resume) (i : Nat) (at_pc : s.disp r = .checking p back i)
      (live : (s.slots i).retired = false) : Move s (.dispatch r) (s.goto r (.sending p back i))
  | send (r : Nat) (p : Pass) (back : Resume) (i : Nat) (at_pc : s.disp r = .sending p back i)
      (room : (s.slots i).lane.buf.length < laneDepth) :
      Move s (.dispatch r)
        ((s.put i { s.slots i with lane := (s.slots i).lane.push r room }).goto r
          (.unlocking p back i true))
  | noSend (r : Nat) (p : Pass) (back : Resume) (i : Nat) (at_pc : s.disp r = .sending p back i) :
      Move s (.dispatch r) (s.goto r (.unlocking p back i false))
  | unlockLane (r : Nat) (p : Pass) (back : Resume) (i : Nat) (sent : Bool)
      (at_pc : s.disp r = .unlocking p back i sent) :
      Move s (.dispatch r) ((s.lock i none).goto r (if sent then .sent else resume p back))
  | stroll (l : Label) (i n seq at_ : Nat) (parked : Bool) (pc : WorkerPc)
      (here : away (s.slots i).worker = false) (plain : calm pc = true) :
      Move s l ({ s with count := n, parkSeq := seq }.put i
        { s.slots i with parked := parked, parkedAt := at_, worker := pc })
  | takeFrom (i j r : Nat) (rest : List Nat) (pc : WorkerPc)
      (front : (s.slots j).lane.buf = r :: rest) (here : away (s.slots i).worker = false)
      (plain : calm pc = true) : Move s (.work i) (s.take i j r pc)
  | sawRetired (i : Nat) (at_pc : (s.slots i).worker = .timedOut)
      (retired : (s.slots i).retired = true) : Move s (.work i) (s.worker i .lastTry)
  | foundEmpty (i : Nat) (at_pc : (s.slots i).worker = .lastTry)
      (empty : (s.slots i).lane.buf = []) : Move s (.work i) (s.worker i (.unparking .retired))
  | leave (i : Nat) (at_pc : (s.slots i).worker = .unparking .retired) :
      Move s (.work i) (s.put i { s.slots i with parked := false, worker := .left true })
  | opWalk (l : Label) (t : Nat) (pc : OpPc) (out : opCritical (s.ops t) = none)
      (still_out : opCritical pc = none) : Move s l (s.operate t pc)
  | lockOp (t i : Nat) (pc : OpPc) (out : opCritical (s.ops t) = none)
      (free : (s.slots i).lock = none) (inside : opCritical pc = some i) (before : cleared pc = none)
      (left : resetting pc = some i → away (s.slots i).worker = true) :
      Move s (.operate t) ((s.lock i (some (.operation t))).operate t pc)
  | retireStore (t i : Nat) (at_pc : s.ops t = .retireStore i) :
      Move s (.operate t)
        ((s.put i { s.slots i with retired := true }).operate t (.retireUnlock i))
  | unlockOp (t i : Nat) (pc : OpPc) (inside : opCritical (s.ops t) = some i)
      (other : resetting (s.ops t) = none) (out : opCritical pc = none) :
      Move s (.operate t) ((s.lock i none).operate t pc)
  | clearRetired (t i : Nat) (at_pc : s.ops t = .resetRetired i) :
      Move s (.operate t)
        ((s.put i { s.slots i with retired := false }).operate t (.resetParked i))
  | clearParked (t i at_ : Nat) (parked : Bool) (pc : OpPc) (was : cleared (s.ops t) = some i)
      (is : cleared pc = some i) :
      Move s (.operate t)
        ((s.put i { s.slots i with parked := parked, parkedAt := at_ }).operate t pc)
  | handOver (t i : Nat) (at_pc : s.ops t = .resetHandOver i) :
      Move s (.operate t)
        ((s.put i { s.slots i with
          lock := none, worker := .serving, gen := (s.slots i).gen + 1 }).operate t .finished)
  | closeTx (t i : Nat) (pc : OpPc) (was : opCritical (s.ops t) = some i)
      (other : resetting (s.ops t) = none) (is : opCritical pc = some i)
      (still_other : resetting pc = none) : Move s (.operate t) ((s.closeLane i).operate t pc)
  | abortPark (t i : Nat) (at_pc : s.ops t = .abortPark i) :
      Move s (.operate t)
        ((s.put i { s.slots i with parked := true }).operate t (.abortDrain i))
  | abortDrop (t i r : Nat) (rest : List Nat) (at_pc : s.ops t = .abortDrain i)
      (front : (s.slots i).lane.buf = r :: rest) :
      Move s (.operate t)
        { s.put i { s.slots i with lane := (s.slots i).lane.pop } with
          dropped := s.dropped ++ [r] }

theorem walk_move {s : State} {l : Label} {r : Nat} {pc : DispatchPc}
    (out : critical (s.disp r) = none) (not_yet : landed (s.disp r) = false)
    (still_out : critical pc = none) (still_not : landed pc = false) : Move s l (s.goto r pc) :=
  .walk l r s.cursor pc out not_yet still_out still_not

theorem dispatch_move {s s' : State} {r : Nat} (moved : dispatch s r = some s') :
    Move s (.dispatch r) s' := by
  unfold dispatch at moved
  cases at_pc : s.disp r with
  | ready =>
    simp only [at_pc] at moved
    split at moved <;> cases moved
    · exact walk_move (by simp [at_pc, critical]) (by simp [at_pc, landed]) rfl rfl
    · exact .walk _ r _ _ (by simp [at_pc, critical]) (by simp [at_pc, landed]) rfl rfl
  | awake p k =>
    have out : ∀ pc, critical pc = none → landed pc = false → Move s (.dispatch r) (s.goto r pc) :=
      fun pc => walk_move (by simp [at_pc, critical]) (by simp [at_pc, landed])
    simp only [at_pc] at moved
    split at moved
    · cases moved; exact out _ rfl rfl
    · split at moved <;> cases moved <;> exact out _ rfl rfl
  | hotParked p j best =>
    have out : ∀ pc, critical pc = none → landed pc = false → Move s (.dispatch r) (s.goto r pc) :=
      fun pc => walk_move (by simp [at_pc, critical]) (by simp [at_pc, landed])
    simp only [at_pc] at moved
    split at moved
    · split at moved <;> cases moved <;> exact out _ rfl rfl
    · split at moved <;> cases moved <;> exact out _ rfl rfl
  | hotEmpty p j best =>
    simp only [at_pc] at moved
    split at moved <;> cases moved <;>
      exact walk_move (by simp [at_pc, critical]) (by simp [at_pc, landed]) rfl rfl
  | hotKey p j best =>
    simp only [at_pc] at moved
    cases moved
    exact walk_move (by simp [at_pc, critical]) (by simp [at_pc, landed]) rfl rfl
  | anyLane p k =>
    simp only [at_pc] at moved
    split at moved <;> cases moved
    · refine walk_move (by simp [at_pc, critical]) (by simp [at_pc, landed]) ?_ ?_ <;>
        cases p.anyOpen <;> rfl
    · exact walk_move (by simp [at_pc, critical]) (by simp [at_pc, landed]) rfl rfl
  | locking p back i =>
    simp only [at_pc] at moved
    split at moved <;> cases moved
    exact .lockLane r p back i at_pc ‹_›
  | opening p back i =>
    simp only [at_pc] at moved
    split at moved <;> cases moved
    · exact .openLane r p back i at_pc
    · exact .closedLane r p back i at_pc
  | checking p back i =>
    simp only [at_pc] at moved
    split at moved <;> cases moved
    · exact .retiredLane r p back i at_pc
    · exact .liveLane r p back i at_pc (by simp_all)
  | sending p back i =>
    simp only [at_pc] at moved
    rcases Chan.trySend_cases (s.slots i).lane r with ⟨_, eq⟩ | ⟨_, room, eq⟩ | ⟨_, eq⟩ <;>
      simp only [eq] at moved <;> cases moved
    · exact .noSend r p back i at_pc
    · exact .send r p back i at_pc room
    · exact .noSend r p back i at_pc
  | unlocking p back i sent =>
    simp only [at_pc] at moved
    cases moved
    exact .unlockLane r p back i sent at_pc
  | full =>
    simp only [at_pc] at moved
    cases moved
    exact walk_move (by simp [at_pc, critical]) (by simp [at_pc, landed]) rfl rfl
  | absent | sent | closed | rejected =>
    simp only [at_pc] at moved
    cases moved

theorem worker_move {s : State} {l : Label} {i : Nat} {pc : WorkerPc}
    (here : away (s.slots i).worker = false) (plain : calm pc = true) :
    Move s l (s.worker i pc) :=
  .stroll l i s.count s.parkSeq (s.slots i).parkedAt (s.slots i).parked pc here plain

theorem work_move {s s' : State} {i : Nat} (moved : work s i = some s') :
    Move s (.work i) s' := by
  unfold work at moved
  cases at_pc : (s.slots i).worker with
  | own =>
    have here : away (s.slots i).worker = false := by simp [at_pc, away]
    simp only [at_pc] at moved
    rcases Chan.tryRecv_cases (s.slots i).lane with ⟨r, rest, front, eq⟩ | ⟨_, _, eq⟩ | ⟨_, _, eq⟩ <;>
      simp only [eq] at moved <;> cases moved
    · exact .takeFrom i i r rest _ front here rfl
    · exact worker_move here rfl
    · exact worker_move here rfl
  | sweep n k parked =>
    have here : away (s.slots i).worker = false := by simp [at_pc, away]
    simp only [at_pc] at moved
    split at moved
    · cases moved
      exact worker_move here (by cases parked <;> rfl)
    · split at moved
      · cases moved
        exact worker_move here rfl
      · rcases Chan.tryRecv_cases (s.slots k).lane with
          ⟨r, rest, front, eq⟩ | ⟨_, _, eq⟩ | ⟨_, _, eq⟩ <;> simp only [eq] at moved <;> cases moved
        · exact .takeFrom i k r rest _ front here (by cases parked <;> rfl)
        · exact worker_move here rfl
        · exact worker_move here rfl
  | parking =>
    simp only [at_pc] at moved
    cases moved
    exact .stroll _ i s.count _ _ _ _ (by simp [at_pc, away]) rfl
  | stamping seq =>
    simp only [at_pc] at moved
    cases moved
    exact .stroll _ i s.count s.parkSeq _ _ _ (by simp [at_pc, away]) rfl
  | flagging =>
    simp only [at_pc] at moved
    cases moved
    exact .stroll _ i s.count s.parkSeq _ _ _ (by simp [at_pc, away]) rfl
  | waiting =>
    have here : away (s.slots i).worker = false := by simp [at_pc, away]
    simp only [at_pc] at moved
    rcases Chan.tryRecv_cases (s.slots i).lane with ⟨r, rest, front, eq⟩ | ⟨_, _, eq⟩ | ⟨_, _, eq⟩ <;>
      simp only [eq] at moved <;> cases moved
    · exact .takeFrom i i r rest _ front here rfl
    · exact worker_move here rfl
  | timedOut =>
    simp only [at_pc] at moved
    split at moved <;> cases moved
    · exact .sawRetired i at_pc ‹_›
    · exact worker_move (by simp [at_pc, away]) rfl
  | lastTry =>
    have here : away (s.slots i).worker = false := by simp [at_pc, away]
    simp only [at_pc] at moved
    rcases Chan.tryRecv_cases (s.slots i).lane with
      ⟨r, rest, front, eq⟩ | ⟨empty, _, eq⟩ | ⟨empty, _, eq⟩ <;> simp only [eq] at moved <;> cases moved
    · exact .takeFrom i i r rest _ front here rfl
    · exact .foundEmpty i at_pc empty
    · exact .foundEmpty i at_pc empty
  | unparking outcome =>
    simp only [at_pc] at moved
    cases outcome <;> cases moved
    · exact .stroll _ i s.count s.parkSeq _ _ _ (by simp [at_pc, away]) rfl
    · exact .stroll _ i s.count s.parkSeq _ _ _ (by simp [at_pc, away]) rfl
    · exact .leave i at_pc
  | absent | serving | left retired =>
    simp only [at_pc] at moved
    cases moved

theorem operate_move {s s' : State} {t : Nat} (moved : operate s t = some s') :
    Move s (.operate t) s' := by
  unfold operate at moved
  cases at_pc : s.ops t with
  | retireLock i | abortLock i =>
    simp only [at_pc] at moved
    split at moved <;> cases moved
    exact .lockOp t i _ (by simp [at_pc, opCritical]) ‹_› rfl rfl (by simp [resetting])
  | closeLock k n =>
    simp only [at_pc] at moved
    split at moved
    · cases moved
      exact .opWalk _ t _ (by simp [at_pc, opCritical]) rfl
    · split at moved <;> cases moved
      exact .lockOp t k _ (by simp [at_pc, opCritical]) ‹_› rfl rfl (by simp [resetting])
  | resetLock i =>
    simp only [at_pc] at moved
    split at moved
    · rename_i gone
      split at moved <;> cases moved
      exact .lockOp t i _ (by simp [at_pc, opCritical]) ‹_› rfl rfl (by simp [gone, away])
    · cases moved
  | retireStore i =>
    simp only [at_pc] at moved
    cases moved
    exact .retireStore t i at_pc
  | retireUnlock i | abortUnlock i =>
    simp only [at_pc] at moved
    cases moved
    exact .unlockOp t i _ (by simp [at_pc, opCritical]) (by simp [at_pc, resetting]) rfl
  | closeUnlock k n =>
    simp only [at_pc] at moved
    cases moved
    exact .unlockOp t k _ (by simp [at_pc, opCritical]) (by simp [at_pc, resetting]) rfl
  | resetRetired i =>
    simp only [at_pc] at moved
    cases moved
    exact .clearRetired t i at_pc
  | resetParked i | resetParkedAt i =>
    simp only [at_pc] at moved
    cases moved
    exact .clearParked t i _ _ _ (by simp [at_pc, cleared]) rfl
  | resetHandOver i =>
    simp only [at_pc] at moved
    cases moved
    exact .handOver t i at_pc
  | abortTake i =>
    simp only [at_pc] at moved
    cases moved
    exact .closeTx t i _ (by simp [at_pc, opCritical]) (by simp [at_pc, resetting]) rfl rfl
  | closeTake k n =>
    simp only [at_pc] at moved
    cases moved
    exact .closeTx t k _ (by simp [at_pc, opCritical]) (by simp [at_pc, resetting]) rfl rfl
  | abortPark i =>
    simp only [at_pc] at moved
    cases moved
    exact .abortPark t i at_pc
  | abortDrain i =>
    simp only [at_pc] at moved
    rcases Chan.tryRecv_cases (s.slots i).lane with ⟨r, rest, front, eq⟩ | ⟨_, _, eq⟩ | ⟨_, _, eq⟩ <;>
      simp only [eq] at moved <;> cases moved
    · exact .abortDrop t i r rest at_pc front
    · exact .opWalk _ t _ (by simp [at_pc, opCritical]) rfl
    · exact .opWalk _ t _ (by simp [at_pc, opCritical]) rfl
  | absent | finished =>
    simp only [at_pc] at moved
    cases moved

theorem step_move {s s' : State} {l : Label} (moved : step s l = some s') : Move s l s' := by
  cases l with
  | register =>
    simp only [step] at moved
    split at moved <;> cases moved
    exact .stroll _ s.count _ s.parkSeq _ _ _ (by simp [*, away]) rfl
  | arrive r | giveUp r =>
    simp only [step] at moved
    split at moved <;> cases moved
    exact walk_move (by simp [*, critical]) (by simp [*, landed]) rfl rfl
  | dispatch r => exact dispatch_move moved
  | take i | timeout i =>
    simp only [step] at moved
    split at moved <;> cases moved
    exact worker_move (by simp [*, away]) rfl
  | work i => exact work_move moved
  | call t op =>
    simp only [step] at moved
    split at moved
    · rename_i idle
      obtain ⟨pc, entered, rfl⟩ := Option.map_eq_some_iff.mp moved
      refine .opWalk _ t pc (by simp [idle, opCritical]) ?_
      cases op <;> simp only [entry] at entered
      case closeQueue => cases entered; rfl
      all_goals
        split at entered <;> cases entered
        rfl
    · cases moved
  | operate t => exact operate_move moved

end KinoLaneDispatch
