import Kino.LaneClosing

/-!
The worker pools over the lanes: `SlotBank` (lib/kino/slot_bank.rb), the supervisors of
ractor_supervisor.rb, the groups of threaded_pool.rb, and the part of `Server#shutdown`
that closes the queue and raises the draining flag. The dispatchers, the workers' take
loops and the native operations are those of the lane model. A reset runs under the lane
lock of a slot whose worker is gone, and is one step here.
-/
namespace KinoLanePool
open Transitions Channels KinoLaneDispatch KinoLaneSafety KinoLaneClosing

inductive Mode where
  | ractor
  | threaded
  deriving DecidableEq, Repr

/-- A worker of the pool: a ractor with its supervisor thread, or a group of threads.
    `claiming` is `spawn_worker` before the ractor starts; `aborting`, `answering` and
    `closing` are the `abort_inflight` calls on the slots of a ractor that died; `deciding`
    is the supervisor about to ask whether the server is draining. -/
inductive Sup where
  | absent
  | claiming (got : List Nat)
  | running (ids : List Nat)
  | aborting (left : List Nat)
  | answering (i : Nat) (todo left : List Nat)
  | closing (i t : Nat) (left : List Nat)
  | deciding
  | gone
  deriving DecidableEq, Repr

/-- How far `Server#shutdown` is. -/
inductive Shut where
  | serving
  | closing (t : Nat)
  | closed
  | flagged
  deriving DecidableEq, Repr

/-- `held` are the requests a slot's thread admitted since it last came back for more and
    `claimed` the requests whose responder is claimed. `ended` marks a thread that an
    exception ended, or the end of its ractor. `settled` is history: the slots whose
    death the pool has finished reacting to, with what the thread held. -/
structure Pool where
  base : State
  free : List Nat
  owner : Nat → Option Nat
  sups : Nat → Sup
  draining : Bool
  shut : Shut
  ended : Nat → Bool
  held : Nat → List Nat
  claimed : Nat → Bool
  settled : List (Nat × List Nat)

def empty : Pool where
  base := KinoLaneDispatch.initial
  free := []
  owner := fun _ => none
  sups := fun _ => .absent
  draining := false
  shut := .serving
  ended := fun _ => false
  held := fun _ => []
  claimed := fun _ => false
  settled := []

def Pool.goto (s : Pool) (w : Nat) (pc : Sup) : Pool :=
  { s with sups := Function.update s.sups w pc }

def setWorkers (b : State) (ids : List Nat) (pc : WorkerPc) : State :=
  { b with slots := fun j => if j ∈ ids then { b.slots j with worker := pc } else b.slots j }

def finished (s : Pool) (i : Nat) : Bool := away (s.base.slots i).worker && !s.ended i

/-- `.each(&:join)`: the first thread, in the order of the slots, that has not finished. -/
def joined (s : Pool) (ids : List Nat) : Option Nat := ids.find? fun i => !finished s i

/-- `WorkerSlot::reset` for a slot the bank hands on. -/
def handOn (slot : Slot) (pc : WorkerPc) : Slot :=
  { slot with retired := false, parked := false, parkedAt := 0, worker := pc, gen := slot.gen + 1 }

/-- `SlotBank#claim`: the last of the free list, reset, or else a fresh slot. `none`
    while the reset waits for the slot's lane lock. -/
def claimSlot (s : Pool) (w : Nat) (pc : WorkerPc) : Option (Nat × Pool) :=
  match s.free.getLast? with
  | some i =>
    if (s.base.slots i).lock = none then
      some (i, { s with
        base := s.base.put i (handOn (s.base.slots i) pc)
        free := s.free.dropLast
        owner := Function.update s.owner i (some w)
        ended := Function.update s.ended i false
        held := Function.update s.held i [] })
    else none
  | none =>
    some (s.base.count, { s with
      base := { s.base with count := s.base.count + 1 }.worker s.base.count pc
      owner := Function.update s.owner s.base.count (some w) })

inductive Event where
  | lane (l : Label)
  | respond (r : Nat)
  | supervise (w : Nat)
  | claim (w : Nat)
  | launch (w : Nat)
  | crash (i : Nat)
  | join (w : Nat) (retired : Bool)
  | react (w t : Nat)
  | beginClose (t : Nat)
  | endClose
  | drain
  deriving DecidableEq, Repr

/-- A step of the lane model. Slots are registered and reset by the bank, and the queue
    is closed by `Server#shutdown`, so those labels are not taken here. -/
def laneStep (s : Pool) (l : Label) : Option Pool :=
  match l with
  | .register | .call _ (.reset _) | .call _ .closeQueue => none
  | .take i =>
    -- the checkout forgets the batch before
    (step s.base l).map fun b => { s with base := b, held := Function.update s.held i [] }
  | .work i =>
    (step s.base l).map fun b =>
      let w : Worker := ⟨i, (s.base.slots i).gen⟩
      { s with
        base := b
        held := Function.update s.held i
          (s.held i ++ (b.taken w).drop (s.base.taken w).length) }
  | l => (step s.base l).map fun b => { s with base := b }

/-- The loop of the thread on slot `i` ends by an exception. The threaded pool fires its
    hook, raises again and does no more. -/
def crash (mode : Mode) (s : Pool) (i : Nat) : Option Pool :=
  if (s.base.slots i).worker = .serving then
    let died := { s with
      base := s.base.worker i (.left false)
      ended := Function.update s.ended i true }
    match mode with
    | .threaded => some { died with settled := s.settled ++ [(i, s.held i)] }
    | .ractor => some died
  else none

def giveBack (s : Pool) (ids : List Nat) (retired : Bool) : Pool :=
  if retired then
    { s with free := s.free ++ ids, owner := fun i => if i ∈ ids then none else s.owner i }
  else s

/-- A ractor's block comes to its end: when every thread finished, or when the join meets
    one that died, which ends the ractor and the threads it still has. A retired group of
    threads is reaped when none of them is alive. -/
def join (mode : Mode) (s : Pool) (w : Nat) (retired : Bool) : Option Pool :=
  match s.sups w, mode with
  | .running ids, .ractor =>
    match joined s ids with
    | none => some ((giveBack s ids retired).goto w .gone)
    | some i =>
      if s.ended i then
        let killed := ids.filter fun j => !finished s j
        some ({ s with
          base := setWorkers s.base killed (.left false)
          ended := fun j => if j ∈ killed then true else s.ended j }.goto w (.aborting ids))
      else none
  | .running ids, .threaded =>
    if retired ∧ ∀ i ∈ ids, away (s.base.slots i).worker = true then
      some ((giveBack s ids true).goto w .gone)
    else none
  | _, _ => none

/-- The supervisor of a ractor that died. `t` is the thread the native call runs on. -/
def react (s : Pool) (w t : Nat) : Option Pool :=
  match s.sups w with
  | .aborting (i :: left) => some (s.goto w (.answering i (s.held i) left))
  | .answering i (r :: todo) left =>
    some ({ s with claimed := Function.update s.claimed r true }.goto w (.answering i todo left))
  | .answering i [] left =>
    if s.base.ops t = .absent then
      some ({ s with base := s.base.operate t (.abortLock i) }.goto w (.closing i t left))
    else none
  | .closing i u left =>
    if s.base.ops u = .finished then
      some ({ s with settled := s.settled ++ [(i, s.held i)] }.goto w (.aborting left))
    else none
  | .aborting [] => some (s.goto w .deciding)
  | .deciding => some (s.goto w (if s.draining then .gone else .claiming []))
  | _ => none

def poolStep (mode : Mode) (s : Pool) : Event → Option Pool
  | .lane l => laneStep s l
  | .respond r => some { s with claimed := Function.update s.claimed r true }
  | .supervise w =>
    if s.sups w = .absent then
      some (s.goto w (if mode = .ractor then .claiming [] else .running []))
    else none
  | .claim w =>
    match s.sups w, mode with
    | .claiming got, .ractor =>
      (claimSlot s w .absent).map fun (i, s') => s'.goto w (.claiming (got ++ [i]))
    | .running ids, .threaded =>
      (claimSlot s w .serving).map fun (i, s') => s'.goto w (.running (ids ++ [i]))
    | _, _ => none
  | .launch w =>
    match s.sups w with
    | .claiming got =>
      some ({ s with base := setWorkers s.base got .serving }.goto w (.running got))
    | _ => none
  | .crash i => crash mode s i
  | .join w retired => join mode s w retired
  | .react w t => react s w t
  | .beginClose t =>
    if s.shut = .serving ∧ s.base.ops t = .absent then
      some { s with base := s.base.operate t (.closeLock 0 s.base.count), shut := .closing t }
    else none
  | .endClose =>
    match s.shut with
    | .closing t => if s.base.ops t = .finished then some { s with shut := .closed } else none
    | _ => none
  | .drain => if s.shut = .closed then some { s with draining := true, shut := .flagged } else none

def poolSystem (mode : Mode) : System Pool Event := ⟨fun s => s = empty, poolStep mode⟩

def Steady (b : State) : Prop := ∀ t, resets (b.ops t) = false

def live (pc : WorkerPc) : Bool := pc ≠ .absent && !away pc

def lost : WorkerPc → Bool
  | .unparking .disconnected | .left false => true
  | _ => false

def outward : WorkerPc → Bool
  | .lastTry | .unparking .retired | .left true => true
  | _ => false

/-- What a step of the lanes does to the thread on a slot: nothing, or the thread was
    in its loop and goes on, turning away only from a lane without a sender or from a
    retired slot. -/
structure ThreadStep (a b : Slot) : Prop where
  retired : a.retired = true → b.retired = true
  worker : b.worker = a.worker ∨
    (live a.worker = true ∧ b.worker ≠ .absent ∧
      (lost b.worker = true → lost a.worker = true ∨ a.lane.senders = 0) ∧
      (outward b.worker = true → outward a.worker = true ∨ a.retired = true))

theorem same_thread {a b : Slot} (retired : b.retired = a.retired) (worker : b.worker = a.worker) :
    ThreadStep a b :=
  ⟨fun was => by rwa [retired], .inl worker⟩

theorem put_thread {s s' : State} {i : Nat} {slot : Slot}
    (slots : s'.slots = Function.update s.slots i slot) (here : ThreadStep (s.slots i) slot)
    (j : Nat) : ThreadStep (s.slots j) (s'.slots j) := by
  rw [slots]
  by_cases same : j = i
  · subst j
    rwa [Function.update_self]
  · rw [Function.update_of_ne same]
    exact same_thread rfl rfl

theorem take_thread {s : State} {i k r : Nat} {pc : WorkerPc}
    (going : live (s.slots i).worker = true) (next : pc ≠ .absent ∧ lost pc = false ∧ outward pc = false)
    (j : Nat) : ThreadStep (s.slots j) ((s.take i k r pc).slots j) := by
  by_cases same : j = i
  · subst j
    refine ⟨?_, .inr ⟨going, ?_, ?_, ?_⟩⟩
    · by_cases own : i = k <;> simp [State.take, State.worker, State.put, own]
    · simpa [State.take, State.worker, State.put] using next.1
    · simp [State.take, State.worker, State.put, next.2.1]
    · simp [State.take, State.worker, State.put, next.2.2]
  · by_cases other : j = k
    · subst k
      exact same_thread (by simp [State.take, State.worker, State.put, same])
        (by simp [State.take, State.worker, State.put, same])
    · exact same_thread (by simp [State.take, State.worker, State.put, same, other])
        (by simp [State.take, State.worker, State.put, same, other])

theorem dispatch_thread {s s' : State} {r : Nat} (moved : dispatch s r = some s') (j : Nat) :
    ThreadStep (s.slots j) (s'.slots j) := by
  have stay : ∀ pc, ThreadStep (s.slots j) ((s.goto r pc).slots j) :=
    fun pc => same_thread rfl rfl
  unfold dispatch at moved
  cases at_pc : s.disp r with
  | ready =>
    simp only [at_pc] at moved
    split at moved <;> cases moved
    · exact stay _
    · exact same_thread rfl rfl
  | awake p k | hotParked p k best =>
    simp only [at_pc] at moved
    split at moved
    · first
      | cases moved; exact stay _
      | split at moved <;> cases moved <;> exact stay _
    · split at moved <;> cases moved <;> exact stay _
  | hotEmpty p k best | anyLane p k | opening p back i | checking p back i =>
    simp only [at_pc] at moved
    split at moved <;> cases moved <;> exact stay _
  | hotKey p k best | full =>
    simp only [at_pc] at moved
    cases moved
    exact stay _
  | locking p back i =>
    simp only [at_pc] at moved
    split at moved <;> cases moved
    refine put_thread rfl ?_ j
    exact same_thread rfl rfl
  | sending p back i =>
    simp only [at_pc] at moved
    rcases Chan.trySend_cases (s.slots i).lane r with ⟨_, eq⟩ | ⟨_, room, eq⟩ | ⟨_, eq⟩ <;>
      simp only [eq] at moved <;> cases moved
    · exact stay _
    · refine put_thread rfl ?_ j
      exact same_thread rfl rfl
    · exact stay _
  | unlocking p back i sent =>
    simp only [at_pc] at moved
    cases moved
    refine put_thread rfl ?_ j
    exact same_thread rfl rfl
  | absent | sent | closed | rejected =>
    simp only [at_pc] at moved
    cases moved

theorem operate_thread {s s' : State} {t : Nat} (steady : Steady s)
    (moved : operate s t = some s') (j : Nat) : ThreadStep (s.slots j) (s'.slots j) := by
  have calm_op := steady t
  unfold operate at moved
  cases at_pc : s.ops t with
  | retireLock i | abortLock i =>
    simp only [at_pc] at moved
    split at moved <;> cases moved
    refine put_thread rfl ?_ j
    exact same_thread rfl rfl
  | closeLock k n =>
    simp only [at_pc] at moved
    split at moved
    · cases moved
      exact same_thread rfl rfl
    · split at moved <;> cases moved
      refine put_thread rfl ?_ j
      exact same_thread rfl rfl
  | retireStore i =>
    simp only [at_pc] at moved
    cases moved
    refine put_thread rfl ?_ j
    exact ⟨fun _ => rfl, .inl rfl⟩
  | retireUnlock i | abortUnlock i | closeUnlock i n | abortPark i =>
    simp only [at_pc] at moved
    cases moved
    refine put_thread rfl ?_ j
    exact same_thread rfl rfl
  | abortTake i | closeTake i n =>
    simp only [at_pc] at moved
    cases moved
    have same := (closeLane_same s i).2.2.2.2 j
    exact same_thread same.1 same.2
  | abortDrain i =>
    simp only [at_pc] at moved
    rcases Chan.tryRecv_cases (s.slots i).lane with ⟨r, rest, front, eq⟩ | ⟨_, _, eq⟩ | ⟨_, _, eq⟩ <;>
      simp only [eq] at moved <;> cases moved
    · refine put_thread rfl ?_ j
      exact same_thread rfl rfl
    · exact same_thread rfl rfl
    · exact same_thread rfl rfl
  | resetLock i | resetRetired i | resetParked i | resetParkedAt i | resetHandOver i =>
    simp [at_pc, resets] at calm_op
  | absent | finished =>
    simp only [at_pc] at moved
    cases moved

theorem worker_thread {s s' : State} {i at_ : Nat} {parked : Bool} {pc : WorkerPc}
    (slots : s'.slots = Function.update s.slots i
      { s.slots i with parked := parked, parkedAt := at_, worker := pc })
    (going : live (s.slots i).worker = true) (next : pc ≠ .absent)
    (off : lost pc = true → lost (s.slots i).worker = true ∨ (s.slots i).lane.senders = 0)
    (out : outward pc = true → outward (s.slots i).worker = true ∨ (s.slots i).retired = true)
    (j : Nat) : ThreadStep (s.slots j) (s'.slots j) :=
  put_thread slots ⟨id, .inr ⟨going, next, off, out⟩⟩ j

theorem work_thread {s s' : State} {i : Nat} (moved : work s i = some s') (j : Nat) :
    ThreadStep (s.slots j) (s'.slots j) := by
  unfold work at moved
  cases at_pc : (s.slots i).worker with
  | own =>
    have going : live (s.slots i).worker = true := by simp [at_pc, live, away]
    simp only [at_pc] at moved
    rcases Chan.tryRecv_cases (s.slots i).lane with
      ⟨r, rest, front, eq⟩ | ⟨_, gone, eq⟩ | ⟨_, _, eq⟩ <;> simp only [eq] at moved <;> cases moved
    · exact take_thread going (by simp [lost, outward]) j
    · exact worker_thread rfl going (by simp) (fun _ => .inr gone) (by simp [outward]) j
    · exact worker_thread rfl going (by simp) (by simp [lost]) (by simp [outward]) j
  | sweep n k parked =>
    have going : live (s.slots i).worker = true := by simp [at_pc, live, away]
    simp only [at_pc] at moved
    split at moved
    · cases moved
      cases parked <;>
        exact worker_thread rfl going (by simp) (by simp [lost]) (by simp [outward]) j
    · split at moved
      · cases moved
        exact worker_thread rfl going (by simp) (by simp [lost]) (by simp [outward]) j
      · rcases Chan.tryRecv_cases (s.slots k).lane with
          ⟨r, rest, front, eq⟩ | ⟨_, _, eq⟩ | ⟨_, _, eq⟩ <;> simp only [eq] at moved <;> cases moved
        · exact take_thread going (by cases parked <;> simp [lost, outward]) j
        · exact worker_thread rfl going (by simp) (by simp [lost]) (by simp [outward]) j
        · exact worker_thread rfl going (by simp) (by simp [lost]) (by simp [outward]) j
  | parking | stamping seq | flagging =>
    have going : live (s.slots i).worker = true := by simp [at_pc, live, away]
    simp only [at_pc] at moved
    cases moved
    exact worker_thread rfl going (by simp) (by simp [lost]) (by simp [outward]) j
  | waiting =>
    have going : live (s.slots i).worker = true := by simp [at_pc, live, away]
    simp only [at_pc] at moved
    rcases Chan.tryRecv_cases (s.slots i).lane with
      ⟨r, rest, front, eq⟩ | ⟨_, gone, eq⟩ | ⟨_, _, eq⟩ <;> simp only [eq] at moved <;> cases moved
    · exact take_thread going (by simp [lost, outward]) j
    · exact worker_thread rfl going (by simp) (fun _ => .inr gone) (by simp [outward]) j
  | timedOut =>
    have going : live (s.slots i).worker = true := by simp [at_pc, live, away]
    simp only [at_pc] at moved
    split at moved <;> cases moved
    · exact worker_thread rfl going (by simp) (by simp [lost]) (fun _ => .inr ‹_›) j
    · exact worker_thread rfl going (by simp) (by simp [lost]) (by simp [outward]) j
  | lastTry =>
    have going : live (s.slots i).worker = true := by simp [at_pc, live, away]
    have leaving : outward (s.slots i).worker = true := by simp [at_pc, outward]
    simp only [at_pc] at moved
    rcases Chan.tryRecv_cases (s.slots i).lane with ⟨r, rest, front, eq⟩ | ⟨_, _, eq⟩ | ⟨_, _, eq⟩ <;>
      simp only [eq] at moved <;> cases moved
    · exact take_thread going (by simp [lost, outward]) j
    · exact worker_thread rfl going (by simp) (by simp [lost]) (fun _ => .inl leaving) j
    · exact worker_thread rfl going (by simp) (by simp [lost]) (fun _ => .inl leaving) j
  | unparking outcome =>
    have going : live (s.slots i).worker = true := by simp [at_pc, live, away]
    simp only [at_pc] at moved
    cases outcome <;> cases moved
    · exact worker_thread rfl going (by simp) (by simp [lost]) (by simp [outward]) j
    · exact worker_thread rfl going (by simp) (fun _ => .inl (by simp [at_pc, lost]))
        (by simp [outward]) j
    · exact worker_thread rfl going (by simp) (by simp [lost])
        (fun _ => .inl (by simp [at_pc, outward])) j
  | absent | serving | left retired =>
    simp only [at_pc] at moved
    cases moved

theorem step_thread {s s' : State} {l : Label} (steady : Steady s) (here : l ≠ .register)
    (moved : step s l = some s') (j : Nat) : ThreadStep (s.slots j) (s'.slots j) := by
  cases l with
  | register => exact absurd rfl here
  | arrive r | giveUp r =>
    simp only [step] at moved
    split at moved <;> cases moved
    exact same_thread rfl rfl
  | dispatch r => exact dispatch_thread moved j
  | take i | timeout i =>
    simp only [step] at moved
    split at moved <;> cases moved
    rename_i at_pc
    have going : live (s.slots i).worker = true := by simp [at_pc, live, away]
    exact worker_thread rfl going (by simp) (by simp [lost]) (by simp [outward]) j
  | work i => exact work_thread moved j
  | call t op =>
    simp only [step] at moved
    split at moved
    · obtain ⟨pc, _, rfl⟩ := Option.map_eq_some_iff.mp moved
      exact same_thread rfl rfl
    · cases moved
  | operate t => exact operate_thread steady moved j

structure BaseInv (b : State) : Prop where
  lock : LockInv b
  opened : OpenInv b
  steady : Steady b
  fresh : ∀ i, b.count ≤ i → (b.slots i).worker = .absent
  leaving : ∀ i, outward (b.slots i).worker = true → (b.slots i).retired = true

theorem initial_base_inv : BaseInv initial :=
  ⟨initial_lock_inv, initial_open_inv, fun _ => rfl, fun _ _ => rfl, by
    simp [initial, Slot.new, outward]⟩

theorem step_steady {s s' : State} {l : Label} (steady : Steady s)
    (here : ∀ t i, l ≠ .call t (.reset i)) (moved : step s l = some s') : Steady s' := by
  intro u
  cases step_lane_step moved with
  | dispatch r pc next =>
    rw [next.ops]
    exact steady u
  | operate t next =>
    by_cases same : u = t
    · subst u
      have was := steady t
      by_contra begun
      have := next.begun.2 (by simpa using begun)
      simp [was] at this
    · rw [next.others u same]
      exact steady u
  | arrive r | giveUp r full => exact steady u
  | call t op pc entered handed =>
    by_cases same : u = t
    · subst u
      by_contra begun
      obtain ⟨i, asked⟩ := handed (by simpa [State.operate] using begun)
      exact here t i (by rw [asked])
    · simpa [State.operate, same] using steady u
  | other disp ops count lanes =>
    rw [ops]
    exact steady u

theorem step_base_inv {b b' : State} {l : Label} (inv : BaseInv b) (fresh : l ≠ .register)
    (kept : ∀ t i, l ≠ .call t (.reset i)) (moved : step b l = some b') : BaseInv b' := by
  have threads := step_thread inv.steady fresh moved
  refine ⟨?_, step_open_inv inv.lock inv.opened moved, step_steady inv.steady kept moved, ?_, ?_⟩
  · exact change_lock_inv inv.lock (step_lock_change (step_move moved))
  · intro i outside
    rw [step_count fresh moved] at outside
    have absent := inv.fresh i outside
    rcases (threads i).worker with same | ⟨going, -⟩
    · rw [same, absent]
    · simp [absent, live] at going
  · intro i out
    apply (threads i).retired
    rcases (threads i).worker with same | ⟨-, -, -, leaving⟩
    · rw [same] at out
      exact inv.leaving i out
    · exact (leaving out).elim (inv.leaving i) id

theorem slots_base_inv {b b' : State} (inv : BaseInv b) (disp : b'.disp = b.disp)
    (ops : b'.ops = b.ops)
    (same : ∀ j, (b'.slots j).lock = (b.slots j).lock ∧ (b'.slots j).laneTx = (b.slots j).laneTx ∧
      (b'.slots j).lane = (b.slots j).lane)
    (fresh : ∀ i, b'.count ≤ i → (b'.slots i).worker = .absent)
    (leaving : ∀ i, outward (b'.slots i).worker = true → (b'.slots i).retired = true) :
    BaseInv b' := by
  have locked : locks b' = locks b := by
    funext j
    exact (same j).1
  have held : holding b' = holding b := by
    funext a
    cases a <;> simp [holding, disp, ops]
  refine ⟨?_, ⟨fun i => ?_, fun r i met => ?_⟩, ?_, fresh, leaving⟩
  · unfold LockInv
    rw [locked, held]
    exact inv.lock
  · rw [(same i).2.1, (same i).2.2]
    exact inv.opened.linked i
  · rw [disp] at met
    exact (same i).2.1.trans (inv.opened.held r i met)
  · intro t
    rw [ops]
    exact inv.steady t

theorem setWorkers_base_inv {b : State} {ids : List Nat} {pc : WorkerPc} (inv : BaseInv b)
    (inside : ∀ i ∈ ids, i < b.count) (plain : outward pc = false) :
    BaseInv (setWorkers b ids pc) := by
  refine slots_base_inv inv rfl rfl ?_ ?_ ?_
  · intro j
    by_cases listed : j ∈ ids <;> simp [setWorkers, listed]
  · intro i outside
    have away_ : i ∉ ids := fun listed => by
      have := inside i listed
      simp only [setWorkers] at outside
      omega
    simpa [setWorkers, away_] using inv.fresh i outside
  · intro i out
    by_cases listed : i ∈ ids
    · simp [setWorkers, listed, plain] at out
    · simp only [setWorkers, listed, if_false] at out ⊢
      exact inv.leaving i out

theorem operate_base_inv {b : State} {t : Nat} {pc : OpPc} (inv : BaseInv b)
    (idle : b.ops t = .absent) (out : opCritical pc = none) (other : resets pc = false) :
    BaseInv (b.operate t pc) := by
  refine ⟨?_, ⟨inv.opened.linked, inv.opened.held⟩, ?_, inv.fresh, inv.leaving⟩
  · have held : holding (b.operate t pc) = holding b :=
      holding_operate_same (by rw [idle, out]; rfl)
    unfold LockInv
    rw [held]
    exact inv.lock
  · intro u
    by_cases same : u = t
    · simp [State.operate, same, other]
    · simpa [State.operate, same] using inv.steady u

def listed : Sup → List Nat
  | .claiming ids | .running ids | .aborting ids => ids
  | .answering i _ left | .closing i _ left => i :: left
  | _ => []

def pending : Sup → List Nat
  | .aborting ids => ids
  | .answering i _ left | .closing i _ left => i :: left
  | _ => []

structure OwnInv (s : Pool) : Prop where
  base : BaseInv s.base
  owned : ∀ w i, i ∈ listed (s.sups w) → s.owner i = some w ∧ i < s.base.count
  once : ∀ w, (listed (s.sups w)).Nodup
  bank : ∀ i, i ∈ s.free → s.owner i = none ∧ i < s.base.count
  bankOnce : s.free.Nodup
  waiting : ∀ i, i < s.base.count → (s.base.slots i).worker = .absent →
    ∃ w got, s.sups w = .claiming got ∧ i ∈ got
  unstarted : ∀ w got i, s.sups w = .claiming got → i ∈ got → (s.base.slots i).worker = .absent
  fallen : ∀ w i, i ∈ pending (s.sups w) → away (s.base.slots i).worker = true
  dead : ∀ i, s.ended i = true → away (s.base.slots i).worker = true
  off : ∀ i, lost (s.base.slots i).worker = true → s.ended i = true ∨ laneOpen s.base i = false

theorem empty_own_inv : OwnInv empty := by
  refine ⟨initial_base_inv, ?_, ?_, ?_, ?_, ?_, ?_, ?_, ?_, ?_⟩ <;>
    simp [empty, listed, pending, KinoLaneDispatch.initial, Slot.new, lost]

theorem goto_sups (s : Pool) (w v : Nat) (pc : Sup) :
    (s.goto w pc).sups v = if v = w then pc else s.sups v := by
  by_cases same : v = w <;> simp [Pool.goto, same]

theorem goto_own_inv {s : Pool} {w : Nat} {pc : Sup} (inv : OwnInv s)
    (inside : ∀ i, i ∈ listed pc → i ∈ listed (s.sups w)) (once : (listed pc).Nodup)
    (fallen : ∀ i, i ∈ pending pc → away (s.base.slots i).worker = true)
    (waiting : ∀ got, s.sups w = .claiming got → ∀ i ∈ got, (s.base.slots i).worker ≠ .absent)
    (begun : ∀ got, pc = .claiming got → got = []) : OwnInv (s.goto w pc) := by
  refine ⟨inv.base, ?_, ?_, inv.bank, inv.bankOnce, ?_, ?_, ?_, inv.dead, inv.off⟩
  · intro v i here
    rw [goto_sups] at here
    split at here
    · next same =>
      subst v
      exact inv.owned w i (inside i here)
    · exact inv.owned v i here
  · intro v
    rw [goto_sups]
    split
    · exact once
    · exact inv.once v
  · intro i known absent
    obtain ⟨v, got, at_pc, mine⟩ := inv.waiting i known absent
    refine ⟨v, got, ?_, mine⟩
    rw [goto_sups]
    split
    · next same =>
      subst v
      exact absurd absent (waiting got at_pc i mine)
    · exact at_pc
  · intro v got i claims mine
    rw [goto_sups] at claims
    split at claims
    · simp [begun got claims] at mine
    · exact inv.unstarted v got i claims mine
  · intro v i here
    rw [goto_sups] at here
    split at here
    · exact fallen i here
    · exact inv.fallen v i here

structure LaneMove (s s' : Pool) (l : Label) : Prop where
  fresh : l ≠ .register
  kept : ∀ t i, l ≠ .call t (.reset i)
  open_ : ∀ t, l ≠ .call t .closeQueue
  moved : step s.base l = some s'.base
  rest : s' = { s with base := s'.base, held := s'.held }
  held : ∀ i, s'.held i = s.held i ∨ live (s.base.slots i).worker = true

theorem work_live {b b' : State} {i : Nat} (moved : work b i = some b') :
    live (b.slots i).worker = true := by
  unfold work at moved
  cases at_pc : (b.slots i).worker <;> simp [at_pc] at moved <;> simp [live, away]

theorem laneStep_move {s s' : Pool} {l : Label} (moved : laneStep s l = some s') :
    LaneMove s s' l := by
  unfold laneStep at moved
  split at moved
  · cases moved
  · cases moved
  · cases moved
  · next i =>
    obtain ⟨b, went, rfl⟩ := Option.map_eq_some_iff.mp moved
    refine ⟨by simp, by simp, by simp, went, rfl, ?_⟩
    intro j
    by_cases same : j = i
    · subst j
      refine .inr ?_
      simp only [step] at went
      split at went
      · next at_pc => simp [at_pc, live, away]
      · cases went
    · exact .inl (by simp [same])
  · next i =>
    obtain ⟨b, went, rfl⟩ := Option.map_eq_some_iff.mp moved
    refine ⟨by simp, by simp, by simp, went, rfl, ?_⟩
    intro j
    by_cases same : j = i
    · subst j
      exact .inr (work_live went)
    · exact .inl (by simp [same])
  · next no_register no_reset no_close _ _ =>
    obtain ⟨b, went, rfl⟩ := Option.map_eq_some_iff.mp moved
    exact ⟨no_register, no_reset, no_close, went, rfl, fun _ => .inl rfl⟩

theorem away_live {pc : WorkerPc} (out : away pc = true) : live pc = false := by
  simp [live, out]

theorem lane_own_inv {s s' : Pool} {l : Label} (inv : OwnInv s) (move : LaneMove s s' l) :
    OwnInv s' := by
  have threads := step_thread inv.base.steady move.fresh move.moved
  have counted := step_count move.fresh move.moved
  have stays : ∀ i, away (s.base.slots i).worker = true →
      away (s'.base.slots i).worker = true := by
    intro i out
    rcases (threads i).worker with same | ⟨going, -⟩
    · rwa [same]
    · simp [away_live out] at going
  have fields := move.rest
  have sups : s'.sups = s.sups := by rw [fields]
  have owner : s'.owner = s.owner := by rw [fields]
  have free : s'.free = s.free := by rw [fields]
  have ended : s'.ended = s.ended := by rw [fields]
  refine ⟨step_base_inv inv.base move.fresh move.kept move.moved, ?_, ?_, ?_, ?_, ?_, ?_, ?_, ?_,
    ?_⟩
  · rw [sups, owner, counted]
    exact inv.owned
  · rw [sups]
    exact inv.once
  · rw [free, owner, counted]
    exact inv.bank
  · rw [free]
    exact inv.bankOnce
  · rw [sups, counted]
    intro i known absent
    apply inv.waiting i known
    rcases (threads i).worker with same | ⟨-, here, -⟩
    · rwa [same] at absent
    · exact absurd absent here
  · rw [sups]
    intro w got i claims mine
    have absent := inv.unstarted w got i claims mine
    rcases (threads i).worker with same | ⟨going, -⟩
    · rwa [same]
    · simp [absent, live] at going
  · rw [sups]
    intro w i here
    exact stays i (inv.fallen w i here)
  · rw [ended]
    intro i gone
    exact stays i (inv.dead i gone)
  · rw [ended]
    intro i off
    have still : laneOpen s.base i = false → laneOpen s'.base i = false := by
      intro shut
      by_contra opened
      have := step_fewer move.moved i (by simpa using opened)
      simp [shut] at this
    rcases (threads i).worker with same | ⟨-, -, turned, -⟩
    · rw [same] at off
      exact (inv.off i off).imp_right still
    · rcases turned off with before | unlinked
      · exact (inv.off i before).imp_right still
      · have linked := inv.base.opened.linked i
        refine .inr (still ?_)
        rw [unlinked] at linked
        by_contra opened
        have tx : (s.base.slots i).laneTx = true := by simpa [laneOpen] using opened
        simp [tx] at linked

/-- Threads begin or end their loops at one stroke: the slots' lanes are untouched. -/
theorem set_own_inv {s : Pool} {ids : List Nat} {pc : WorkerPc} {ended : Nat → Bool}
    (inv : OwnInv s) (inside : ∀ i, i ∈ ids → i < s.base.count) (here : pc ≠ .absent)
    (plain : outward pc = false)
    (fallen : ∀ w i, i ∈ pending (s.sups w) → i ∈ ids → away pc = true)
    (started : ∀ i, i ∈ ids → (s.base.slots i).worker ≠ .absent)
    (marks : ∀ i, ended i = true → if i ∈ ids then away pc = true else s.ended i = true)
    (keeps : ∀ i, i ∉ ids → s.ended i = true → ended i = true)
    (off : ∀ i, i ∈ ids → lost pc = true → ended i = true) :
    OwnInv { s with base := setWorkers s.base ids pc, ended := ended } := by
  have worker : ∀ i, ((setWorkers s.base ids pc).slots i).worker =
      if i ∈ ids then pc else (s.base.slots i).worker := by
    intro i
    by_cases mine : i ∈ ids <;> simp [setWorkers, mine]
  have lanes : laneOpen (setWorkers s.base ids pc) = laneOpen s.base := by
    funext i
    by_cases mine : i ∈ ids <;> simp [laneOpen, setWorkers, mine]
  refine ⟨setWorkers_base_inv inv.base inside plain, inv.owned, inv.once, inv.bank, inv.bankOnce,
    ?_, ?_, ?_, ?_, ?_⟩
  · intro i known absent
    simp only [worker] at absent
    split at absent
    · exact absurd absent here
    · exact inv.waiting i known absent
  · intro w got i claims mine
    have absent := inv.unstarted w got i claims mine
    simp only [worker]
    split
    · next set => exact absurd absent (started i set)
    · exact absent
  · intro w i mine
    simp only [worker]
    split
    · next set => exact fallen w i mine set
    · exact inv.fallen w i mine
  · intro i gone
    have mark := marks i gone
    simp only [worker]
    split
    · next set => simpa [set] using mark
    · next unset => exact inv.dead i (by simpa [unset] using mark)
  · intro i loses
    simp only [worker] at loses
    simp only [lanes]
    split at loses
    · next set => exact .inl (off i set loses)
    · next unset => exact (inv.off i loses).imp_left (keeps i unset)

/-- What a claim does: slot `i`, from the bank or fresh, becomes `w`'s. -/
structure Claimed (s s' : Pool) (w : Nat) (pc : WorkerPc) (i : Nat) : Prop where
  unowned : i ∈ s.free ∨ i = s.base.count
  owner : s'.owner = Function.update s.owner i (some w)
  free : ∀ j, j ∈ s'.free → j ∈ s.free ∧ j ≠ i
  bankOnce : s'.free.Nodup
  count : ∀ j, j < s'.base.count ↔ j < s.base.count ∨ j = i
  slots : ∀ j, j ≠ i → s'.base.slots j = s.base.slots j
  lock : (s'.base.slots i).lock = (s.base.slots i).lock
  tx : (s'.base.slots i).laneTx = (s.base.slots i).laneTx
  lane : (s'.base.slots i).lane = (s.base.slots i).lane
  worker : (s'.base.slots i).worker = pc
  ended : s'.ended i = false
  others : ∀ j, j ≠ i → s'.ended j = s.ended j ∧ s'.held j = s.held j
  rest : s'.sups = s.sups ∧ s'.base.disp = s.base.disp ∧ s'.base.ops = s.base.ops ∧
    s'.claimed = s.claimed ∧ s'.settled = s.settled ∧ s'.shut = s.shut

theorem dropLast_ne_last {l : List Nat} (once : l.Nodup) {i j : Nat} (last : l.getLast? = some i)
    (here : j ∈ l.dropLast) : j ≠ i := by
  have whole := List.dropLast_append_getLast? i last
  rw [← whole, List.nodup_append] at once
  exact once.2.2 j here i (by simp)

theorem claimSlot_claimed {s s' : Pool} {w i : Nat} {pc : WorkerPc} (inv : OwnInv s)
    (took : claimSlot s w pc = some (i, s')) : Claimed s s' w pc i := by
  unfold claimSlot at took
  split at took
  · next k last =>
    split at took <;> cases took
    have mine : i ∈ s.free := List.mem_of_getLast? last
    refine ⟨.inl mine, rfl, ?_, ?_, ?_, ?_, ?_, ?_, ?_, ?_, ?_, ?_, rfl, rfl, rfl, rfl, rfl, rfl⟩
    · intro j here
      exact ⟨List.mem_of_mem_dropLast here, dropLast_ne_last inv.bankOnce last here⟩
    · exact inv.bankOnce.sublist (List.dropLast_sublist _)
    · intro j
      have known := (inv.bank i mine).2
      simp only [State.put]
      omega
    · intro j other
      simp [State.put, other]
    all_goals simp +contextual [State.put, handOn]
  · next none_free =>
    cases took
    have none_left : s.free = [] := List.getLast?_eq_none_iff.mp none_free
    have unborn := inv.base.fresh s.base.count (Nat.le_refl _)
    refine ⟨.inr rfl, rfl, ?_, ?_, ?_, ?_, ?_, ?_, ?_, ?_, ?_, ?_, rfl, rfl, rfl, rfl, rfl, rfl⟩
    · simp [none_left]
    · exact inv.bankOnce
    · intro j
      simp only [State.worker, State.put]
      omega
    · intro j other
      simp [State.worker, State.put, other]
    · simp [State.worker, State.put]
    · simp [State.worker, State.put]
    · simp [State.worker, State.put]
    · simp [State.worker, State.put]
    · by_contra dead
      have := inv.dead s.base.count (by simpa using dead)
      simp [unborn, away] at this
    · simp

theorem claimed_lanes {s s' : Pool} {w i : Nat} {pc : WorkerPc} (took : Claimed s s' w pc i) :
    laneOpen s'.base = laneOpen s.base := by
  funext j
  by_cases same : j = i
  · subst j
    exact took.tx
  · simp [laneOpen, took.slots j same]

theorem claimed_unowned {s s' : Pool} {w i : Nat} {pc : WorkerPc} (inv : OwnInv s)
    (took : Claimed s s' w pc i) {v j : Nat} (mine : j ∈ listed (s.sups v)) : j ≠ i := by
  intro same
  subst j
  have owned := inv.owned v i mine
  rcases took.unowned with free | fresh
  · have := (inv.bank i free).1
    simp [this] at owned
  · omega

theorem claimed_base_inv {s s' : Pool} {w i : Nat} {pc : WorkerPc} (inv : OwnInv s)
    (took : Claimed s s' w pc i) (plain : outward pc = false) : BaseInv s'.base := by
  refine slots_base_inv inv.base took.rest.2.1 took.rest.2.2.1 ?_ ?_ ?_
  · intro j
    by_cases same : j = i
    · subst j
      exact ⟨took.lock, took.tx, took.lane⟩
    · simp [took.slots j same]
  · intro j outside
    have beyond : ¬ (j < s.base.count ∨ j = i) := fun inside => by
      have := (took.count j).mpr inside
      omega
    rw [took.slots j (fun same => beyond (.inr same))]
    exact inv.base.fresh j (Nat.le_of_not_lt fun less => beyond (.inl less))
  · intro j out
    by_cases same : j = i
    · subst j
      simp [took.worker, plain] at out
    · rw [took.slots j same] at out ⊢
      exact inv.base.leaving j out

theorem claimed_own_inv {s s' : Pool} {w i : Nat} {pc : WorkerPc} {next : Sup} (inv : OwnInv s)
    (took : Claimed s s' w pc i) (plain : outward pc = false) (steady : lost pc = false)
    (grown : listed next = listed (s.sups w) ++ [i]) (calm : pending next = [])
    (waits : pc = .absent → next = .claiming (listed (s.sups w) ++ [i]))
    (started : ∀ got, s.sups w = .claiming got → next = .claiming (got ++ [i]))
    (unstarted : ∀ got, next = .claiming got → pc = .absent ∧ s.sups w = .claiming (listed (s.sups w))) :
    OwnInv (s'.goto w next) := by
  have sups : ∀ v, (s'.goto w next).sups v = if v = w then next else s.sups v := by
    intro v
    rw [goto_sups, took.rest.1]
  have apart : ∀ v j, j ∈ listed (s.sups v) → j ≠ i := fun v j mine =>
    claimed_unowned inv took mine
  have ownedAfter : ∀ v j, j ∈ listed (s.sups v) → s'.owner j = some v ∧ j < s'.base.count := by
    intro v j mine
    have before := inv.owned v j mine
    refine ⟨?_, (took.count j).mpr (.inl before.2)⟩
    rw [took.owner, Function.update_of_ne (apart v j mine)]
    exact before.1
  have base := claimed_base_inv inv took plain
  refine ⟨base, ?_, ?_, ?_, took.bankOnce, ?_, ?_, ?_, ?_, ?_⟩
  · intro v j mine
    rw [sups] at mine
    split at mine
    · next same =>
      subst v
      rw [grown, List.mem_append, List.mem_singleton] at mine
      rcases mine with before | new
      · exact ownedAfter w j before
      · subst j
        exact ⟨by simp [Pool.goto, took.owner], (took.count i).mpr (.inr rfl)⟩
    · exact ownedAfter v j mine
  · intro v
    rw [sups]
    split
    · rw [grown, List.nodup_append]
      exact ⟨inv.once w, by simp, fun j mine k new => by
        simp only [List.mem_singleton] at new
        subst k
        exact apart w j mine⟩
    · exact inv.once v
  · intro j free
    obtain ⟨before, other⟩ := took.free j free
    refine ⟨?_, (took.count j).mpr (.inl (inv.bank j before).2)⟩
    simp only [Pool.goto]
    rw [took.owner, Function.update_of_ne other]
    exact (inv.bank j before).1
  · intro j known absent
    simp only [Pool.goto] at absent
    by_cases same : j = i
    · subst j
      rw [took.worker] at absent
      exact ⟨w, _, by rw [sups, if_pos rfl]; exact waits absent, by simp⟩
    · rw [took.slots j same] at absent
      have before : j < s.base.count := ((took.count j).mp known).resolve_right same
      obtain ⟨v, got, at_pc, mine⟩ := inv.waiting j before absent
      by_cases own : v = w
      · subst v
        exact ⟨w, _, by rw [sups, if_pos rfl]; exact started got at_pc, by simp [mine]⟩
      · exact ⟨v, got, by rw [sups, if_neg own]; exact at_pc, mine⟩
  · intro v got j claims mine
    simp only [Pool.goto]
    by_cases same : j = i
    · subst j
      rw [sups] at claims
      split at claims
      · rw [took.worker]
        exact (unstarted got claims).1
      · exact absurd rfl (apart v i (by rw [claims]; exact mine))
    · rw [took.slots j same]
      rw [sups] at claims
      split at claims
      · next own =>
        refine inv.unstarted w _ j (unstarted got claims).2 ?_
        have whole : got = listed (s.sups w) ++ [i] := by rw [← grown, claims]; rfl
        rw [whole, List.mem_append, List.mem_singleton] at mine
        exact mine.resolve_right same
      · exact inv.unstarted v got j claims mine
  · intro v j mine
    rw [sups] at mine
    split at mine
    · simp [calm] at mine
    · have other : j ≠ i := apart v j (by cases at_pc : s.sups v <;> simp_all [pending, listed])
      simp only [Pool.goto]
      rw [took.slots j other]
      exact inv.fallen v j mine
  · intro j dead
    simp only [Pool.goto] at dead ⊢
    by_cases same : j = i
    · subst j
      simp [took.ended] at dead
    · rw [took.slots j same]
      exact inv.dead j (by rwa [(took.others j same).1] at dead)
  · intro j loses
    simp only [Pool.goto] at loses ⊢
    rw [claimed_lanes took]
    by_cases same : j = i
    · subst j
      simp [took.worker, steady] at loses
    · rw [took.slots j same] at loses
      rw [(took.others j same).1]
      exact inv.off j loses

theorem giveBack_own_inv {s : Pool} {w : Nat} {ids : List Nat} {retired : Bool} (inv : OwnInv s)
    (at_pc : s.sups w = .running ids) : OwnInv ((giveBack s ids retired).goto w .gone) := by
  have mine : ∀ i, i ∈ ids → s.owner i = some w ∧ i < s.base.count := fun i here =>
    inv.owned w i (by rw [at_pc]; exact here)
  cases retired with
  | false =>
    apply goto_own_inv inv
    · simp [listed]
    · simp [listed]
    · simp [pending]
    · intro got other
      simp [at_pc] at other
    · simp
  | true =>
    have sups : ∀ v, ((giveBack s ids true).goto w .gone).sups v =
        if v = w then .gone else s.sups v := fun v => goto_sups _ w v _
    have elsewhere : ∀ v i, v ≠ w → i ∈ listed (s.sups v) → i ∉ ids := by
      intro v i other here given
      have owner := (inv.owned v i here).1
      rw [(mine i given).1] at owner
      exact other (Option.some.inj owner).symm
    refine ⟨inv.base, ?_, ?_, ?_, ?_, ?_, ?_, ?_, inv.dead, inv.off⟩
    · intro v i here
      rw [sups] at here
      split at here
      · simp [listed] at here
      · next other =>
        have before := inv.owned v i here
        exact ⟨by simpa [Pool.goto, giveBack, elsewhere v i other here] using before.1, before.2⟩
    · intro v
      rw [sups]
      split
      · simp [listed]
      · exact inv.once v
    · intro i free
      simp only [Pool.goto, giveBack, if_true, List.mem_append] at free ⊢
      by_cases given : i ∈ ids
      · exact ⟨by simp [given], (mine i given).2⟩
      · have before := inv.bank i (free.resolve_right given)
        exact ⟨by simpa [given] using before.1, before.2⟩
    · simp only [Pool.goto, giveBack, if_true, List.nodup_append]
      refine ⟨inv.bankOnce, ?_, ?_⟩
      · have once := inv.once w
        rwa [at_pc] at once
      · intro i free j given same
        subst j
        have unowned := (inv.bank i free).1
        rw [(mine i given).1] at unowned
        cases unowned
    · intro i known absent
      obtain ⟨v, got, claims, here⟩ := inv.waiting i known absent
      refine ⟨v, got, ?_, here⟩
      rw [sups]
      split
      · next same =>
        subst v
        simp [at_pc] at claims
      · exact claims
    · intro v got i claims here
      rw [sups] at claims
      split at claims
      · cases claims
      · exact inv.unstarted v got i claims here
    · intro v i here
      rw [sups] at here
      split at here
      · simp [pending] at here
      · exact inv.fallen v i here

theorem worker_set (b : State) (i : Nat) (pc : WorkerPc) : b.worker i pc = setWorkers b [i] pc := by
  have slots : (b.worker i pc).slots = (setWorkers b [i] pc).slots := by
    funext j
    by_cases same : j = i
    · subst j
      simp [State.worker, State.put, setWorkers]
    · simp [State.worker, State.put, setWorkers, same]
  unfold State.worker State.put at slots ⊢
  unfold setWorkers at slots ⊢
  simp only at slots
  rw [slots]

theorem same_own_inv {s s' : Pool} (inv : OwnInv s) (base : s'.base = s.base)
    (free : s'.free = s.free) (owner : s'.owner = s.owner) (sups : s'.sups = s.sups)
    (ended : s'.ended = s.ended) : OwnInv s' := by
  obtain ⟨b, f, o, p, d, sh, e, h, c, st⟩ := s'
  simp only at base free owner sups ended
  subst base free owner sups ended
  exact ⟨inv.base, inv.owned, inv.once, inv.bank, inv.bankOnce, inv.waiting, inv.unstarted,
    inv.fallen, inv.dead, inv.off⟩

theorem crash_own_inv {mode : Mode} {s s' : Pool} {i : Nat} (inv : OwnInv s)
    (moved : crash mode s i = some s') : OwnInv s' := by
  unfold crash at moved
  split at moved
  · next at_pc =>
    have known : i < s.base.count := by
      by_contra outside
      have := inv.base.fresh i (by omega)
      simp [at_pc] at this
    have died : OwnInv { s with
        base := s.base.worker i (.left false), ended := Function.update s.ended i true } := by
      rw [worker_set]
      apply set_own_inv inv
      · intro j here
        simp only [List.mem_singleton] at here
        omega
      · simp
      · rfl
      · intro _ _ _ _
        rfl
      · intro j here
        simp only [List.mem_singleton] at here
        simp [here, at_pc]
      · intro j dead
        by_cases same : j = i
        · simp [same, away]
        · simpa [same] using dead
      · intro j other dead
        by_cases same : j = i
        · simp [same]
        · simpa [same] using dead
      · intro j here _
        simp only [List.mem_singleton] at here
        simp [here]
    cases mode <;> cases moved <;> exact same_own_inv died rfl rfl rfl rfl rfl
  · cases moved

def endRactor (s : Pool) (ids : List Nat) : Pool :=
  { s with
    base := setWorkers s.base (ids.filter fun j => !finished s j) (.left false)
    ended := fun j => if j ∈ ids.filter (fun j => !finished s j) then true else s.ended j }

theorem running_started {s : Pool} {w i : Nat} {ids : List Nat} (inv : OwnInv s)
    (at_pc : s.sups w = .running ids) (here : i ∈ ids) : (s.base.slots i).worker ≠ .absent := by
  intro absent
  have mine := inv.owned w i (by rw [at_pc]; exact here)
  obtain ⟨v, got, claims, theirs⟩ := inv.waiting i mine.2 absent
  have other := (inv.owned v i (by rw [claims]; exact theirs)).1
  rw [mine.1] at other
  cases other
  simp [at_pc] at claims

theorem endRactor_own_inv {s : Pool} {w : Nat} {ids : List Nat} (inv : OwnInv s)
    (at_pc : s.sups w = .running ids) : OwnInv (endRactor s ids) := by
  apply set_own_inv inv
  · intro i here
    exact (inv.owned w i (by rw [at_pc]; exact List.mem_of_mem_filter here)).2
  · simp
  · rfl
  · intro _ _ _ _
    rfl
  · intro i here
    exact running_started inv at_pc (List.mem_of_mem_filter here)
  · intro i dead
    by_cases killed : i ∈ ids.filter fun j => !finished s j
    · simp [killed, away]
    · simpa [killed] using dead
  · intro i killed dead
    simpa [killed] using dead
  · intro i killed _
    simp [killed]

theorem endRactor_away {s : Pool} {ids : List Nat} {i : Nat} (here : i ∈ ids) :
    away ((endRactor s ids).base.slots i).worker = true := by
  by_cases done : finished s i = true
  · have out : away (s.base.slots i).worker = true := by
      unfold finished at done
      simp only [Bool.and_eq_true] at done
      exact done.1
    simpa [endRactor, setWorkers, done] using out
  · simp [endRactor, setWorkers, here, done, away]

inductive Joined (mode : Mode) (s : Pool) (w : Nat) (s' : Pool) : Prop where
  | clean (ids : List Nat) (retired : Bool) (at_pc : s.sups w = .running ids)
      (after : s' = (giveBack s ids retired).goto w .gone)
  | died (ids : List Nat) (i : Nat) (at_pc : s.sups w = .running ids) (ractor : mode = .ractor)
      (first : joined s ids = some i) (dead : s.ended i = true)
      (after : s' = (endRactor s ids).goto w (.aborting ids))

theorem join_joined {mode : Mode} {s s' : Pool} {w : Nat} {retired : Bool}
    (moved : join mode s w retired = some s') : Joined mode s w s' := by
  unfold join at moved
  split at moved
  · next ids at_pc =>
    split at moved
    · cases moved
      exact .clean ids retired at_pc rfl
    · next i first =>
      split at moved <;> cases moved
      exact .died ids i at_pc rfl first ‹_› rfl
  · next ids at_pc =>
    split at moved <;> cases moved
    exact .clean ids true at_pc rfl
  · cases moved

theorem join_own_inv {mode : Mode} {s s' : Pool} {w : Nat} {retired : Bool} (inv : OwnInv s)
    (moved : join mode s w retired = some s') : OwnInv s' := by
  cases join_joined moved with
  | clean ids retired at_pc after =>
    subst s'
    exact giveBack_own_inv inv at_pc
  | died ids i at_pc ractor first dead after =>
    subst s'
    have once := inv.once w
    rw [at_pc] at once
    apply goto_own_inv (endRactor_own_inv inv at_pc)
    · intro j here
      simpa [endRactor, at_pc, listed] using here
    · exact once
    · intro j here
      exact endRactor_away here
    · intro got claims
      simp [endRactor, at_pc] at claims
    · simp

theorem react_own_inv {s s' : Pool} {w t : Nat} (inv : OwnInv s)
    (moved : react s w t = some s') : OwnInv s' := by
  have once := inv.once w
  have fallen := inv.fallen w
  unfold react at moved
  split at moved
  · next i left at_pc =>
    cases moved
    rw [at_pc] at once fallen
    exact goto_own_inv inv (by simp [at_pc, listed]) once fallen (by simp [at_pc]) (by simp)
  · next i r todo left at_pc =>
    cases moved
    rw [at_pc] at once fallen
    have claimed : OwnInv { s with claimed := Function.update s.claimed r true } :=
      same_own_inv inv rfl rfl rfl rfl rfl
    exact goto_own_inv claimed (by simp [at_pc, listed]) once fallen (by simp [at_pc]) (by simp)
  · next i left at_pc =>
    split at moved <;> cases moved
    rename_i idle
    rw [at_pc] at once fallen
    have called : OwnInv { s with base := s.base.operate t (.abortLock i) } :=
      ⟨operate_base_inv inv.base idle rfl rfl, inv.owned, inv.once, inv.bank, inv.bankOnce,
        inv.waiting, inv.unstarted, inv.fallen, inv.dead, inv.off⟩
    exact goto_own_inv called (by simp [at_pc, listed]) once fallen (by simp [at_pc]) (by simp)
  · next i u left at_pc =>
    split at moved <;> cases moved
    rw [at_pc] at once fallen
    have recorded : OwnInv { s with settled := s.settled ++ [(i, s.held i)] } :=
      same_own_inv inv rfl rfl rfl rfl rfl
    refine goto_own_inv recorded ?_ (List.nodup_cons.mp once).2 ?_ (by simp [at_pc]) (by simp)
    · intro j here
      rw [at_pc]
      exact List.mem_cons_of_mem _ here
    · intro j here
      exact fallen j (List.mem_cons_of_mem _ here)
  · next at_pc =>
    cases moved
    exact goto_own_inv inv (by simp [listed]) (by simp [listed]) (by simp [pending])
      (by simp [at_pc]) (by simp)
  · next at_pc =>
    cases moved
    refine goto_own_inv inv ?_ ?_ ?_ (by simp [at_pc]) ?_ <;> cases s.draining <;>
      simp +contextual [listed, pending]
  · cases moved

theorem launch_own_inv {s : Pool} {w : Nat} {got : List Nat} (inv : OwnInv s)
    (at_pc : s.sups w = .claiming got) :
    OwnInv ({ s with base := setWorkers s.base got .serving }.goto w (.running got)) := by
  have mine : ∀ i, i ∈ got → s.owner i = some w ∧ i < s.base.count := fun i here =>
    inv.owned w i (by rw [at_pc]; exact here)
  have others : ∀ v i, v ≠ w → i ∈ listed (s.sups v) → i ∉ got := by
    intro v i other here given
    have owner := (inv.owned v i here).1
    rw [(mine i given).1] at owner
    exact other (Option.some.inj owner).symm
  have worker : ∀ i, i ∉ got →
      (setWorkers s.base got .serving).slots i = s.base.slots i := fun i away_ => by
    simp [setWorkers, away_]
  have sups : ∀ v, ({ s with base := setWorkers s.base got .serving }.goto w (.running got)).sups v =
      if v = w then .running got else s.sups v := fun v => goto_sups _ w v _
  have lanes : laneOpen (setWorkers s.base got .serving) = laneOpen s.base := by
    funext i
    by_cases here : i ∈ got <;> simp [laneOpen, setWorkers, here]
  have base : BaseInv (setWorkers s.base got .serving) :=
    setWorkers_base_inv inv.base (fun i here => (mine i here).2) rfl
  refine ⟨base, ?_, ?_, inv.bank, inv.bankOnce, ?_, ?_, ?_, ?_, ?_⟩
  · intro v i here
    rw [sups] at here
    split at here
    · next same =>
      subst v
      exact mine i here
    · exact inv.owned v i here
  · intro v
    have once := inv.once v
    rw [sups]
    split
    · next same =>
      subst v
      rwa [at_pc] at once
    · exact once
  · intro i known absent
    have unset : i ∉ got := fun given => by simp [Pool.goto, setWorkers, given] at absent
    obtain ⟨v, claims, at_v, here⟩ := inv.waiting i known (by
      simpa only [Pool.goto, worker i unset] using absent)
    refine ⟨v, claims, ?_, here⟩
    rw [sups]
    split
    · next same =>
      subst v
      rw [at_pc] at at_v
      cases at_v
      exact absurd here unset
    · exact at_v
  · intro v claims i at_v here
    rw [sups] at at_v
    split at at_v
    · cases at_v
    · next other =>
      simp only [Pool.goto]
      rw [worker i (others v i other (by rw [at_v]; exact here))]
      exact inv.unstarted v claims i at_v here
  · intro v i here
    rw [sups] at here
    split at here
    · simp [pending] at here
    · next other =>
      have theirs : i ∈ listed (s.sups v) := by
        cases h : s.sups v <;> simp_all [pending, listed]
      simp only [Pool.goto]
      rw [worker i (others v i other theirs)]
      exact inv.fallen v i here
  · intro i dead
    have out := inv.dead i dead
    have unset : i ∉ got := by
      intro given
      simp [inv.unstarted w got i at_pc given, away] at out
    simp only [Pool.goto]
    rw [worker i unset]
    exact out
  · intro i loses
    have unset : i ∉ got := fun given => by simp [Pool.goto, setWorkers, given, lost] at loses
    simp only [Pool.goto] at loses ⊢
    rw [worker i unset] at loses
    rw [lanes]
    exact inv.off i loses

theorem step_own_inv {mode : Mode} {s s' : Pool} {e : Event} (inv : OwnInv s)
    (moved : poolStep mode s e = some s') : OwnInv s' := by
  cases e with
  | lane l => exact lane_own_inv inv (laneStep_move moved)
  | respond r =>
    cases moved
    exact same_own_inv inv rfl rfl rfl rfl rfl
  | supervise w =>
    simp only [poolStep] at moved
    split at moved <;> cases moved
    rename_i absent
    refine goto_own_inv inv ?_ ?_ ?_ (by simp [absent]) ?_ <;> cases mode <;>
      simp +contextual [listed, pending]
  | claim w =>
    simp only [poolStep] at moved
    split at moved
    · next got at_pc =>
      obtain ⟨⟨i, s₁⟩, took, rfl⟩ := Option.map_eq_some_iff.mp moved
      exact claimed_own_inv inv (claimSlot_claimed inv took) rfl rfl (by simp [at_pc, listed]) rfl
        (by simp [at_pc, listed]) (by simp [at_pc]) (by simp [at_pc, listed])
    · next ids at_pc =>
      obtain ⟨⟨i, s₁⟩, took, rfl⟩ := Option.map_eq_some_iff.mp moved
      exact claimed_own_inv inv (claimSlot_claimed inv took) rfl rfl (by simp [at_pc, listed]) rfl
        (by simp) (by simp [at_pc]) (by simp)
    · cases moved
  | launch w =>
    simp only [poolStep] at moved
    split at moved
    · next got at_pc =>
      cases moved
      exact launch_own_inv inv at_pc
    · cases moved
  | crash i => exact crash_own_inv inv moved
  | join w retired => exact join_own_inv inv moved
  | react w t => exact react_own_inv inv moved
  | beginClose t =>
    simp only [poolStep] at moved
    split at moved <;> cases moved
    rename_i ready
    exact ⟨operate_base_inv inv.base ready.2 rfl rfl, inv.owned, inv.once, inv.bank, inv.bankOnce,
      inv.waiting, inv.unstarted, inv.fallen, inv.dead, inv.off⟩
  | endClose =>
    simp only [poolStep] at moved
    split at moved
    · split at moved <;> cases moved
      exact same_own_inv inv rfl rfl rfl rfl rfl
    · cases moved
  | drain =>
    simp only [poolStep] at moved
    split at moved <;> cases moved
    exact same_own_inv inv rfl rfl rfl rfl rfl

theorem reachable_own_inv {mode : Mode} {allowed : Pool → Event → Prop} {s : Pool}
    (reached : ReachableBy (poolSystem mode) allowed s) : OwnInv s := by
  refine invariant OwnInv ?_ ?_ reached
  · intro s start
    cases start
    exact empty_own_inv
  · intro s s' e inv _ moved
    exact step_own_inv inv moved

/-- What the pool itself does to the lanes: their senders and contents stay, a native call
    starts on an idle thread, and only a claim that finds the bank empty adds a lane. -/
structure Aside (s : Pool) (e : Event) (s' : Pool) : Prop where
  disp : s'.base.disp = s.base.disp
  ops : ∀ t, s.base.ops t ≠ .absent → s'.base.ops t = s.base.ops t
  tx : ∀ j, (s'.base.slots j).laneTx = (s.base.slots j).laneTx
  lane : ∀ j, (s'.base.slots j).lane = (s.base.slots j).lane
  count : s'.base.count = s.base.count ∨ ∃ w, e = .claim w ∧ s.free = []

theorem same_aside {s s' : Pool} {e : Event} (base : s'.base = s.base) : Aside s e s' := by
  refine ⟨?_, ?_, ?_, ?_, .inl ?_⟩ <;> simp [base]

theorem set_aside {s s' : Pool} {e : Event} {ids : List Nat} {pc : WorkerPc}
    (base : s'.base = setWorkers s.base ids pc) : Aside s e s' := by
  refine ⟨?_, ?_, ?_, ?_, .inl ?_⟩ <;> rw [base]
  · rfl
  · intro t _
    rfl
  · intro j
    by_cases here : j ∈ ids <;> simp [setWorkers, here]
  · intro j
    by_cases here : j ∈ ids <;> simp [setWorkers, here]
  · rfl

theorem call_aside {s s' : Pool} {e : Event} {t : Nat} {pc : OpPc}
    (base : s'.base = s.base.operate t pc) (idle : s.base.ops t = .absent) : Aside s e s' := by
  refine ⟨?_, ?_, ?_, ?_, .inl ?_⟩ <;> rw [base]
  · rfl
  · intro u busy
    have other : u ≠ t := fun same => busy (by rw [same, idle])
    simp [State.operate, other]
  · intro j
    rfl
  · intro j
    rfl
  · rfl

theorem claim_aside {s s' s₁ : Pool} {w i : Nat} {pc : WorkerPc} (inv : OwnInv s)
    (took : claimSlot s w pc = some (i, s₁)) (base : s'.base = s₁.base) :
    Aside s (.claim w) s' := by
  have claimed := claimSlot_claimed inv took
  refine ⟨?_, ?_, ?_, ?_, ?_⟩ <;> rw [base]
  · exact claimed.rest.2.1
  · intro t _
    rw [claimed.rest.2.2.1]
  · intro j
    by_cases same : j = i
    · rw [same, claimed.tx]
    · rw [claimed.slots j same]
  · intro j
    by_cases same : j = i
    · rw [same, claimed.lane]
    · rw [claimed.slots j same]
  · unfold claimSlot at took
    split at took
    · split at took <;> cases took
      exact .inl rfl
    · next none_free => exact .inr ⟨w, rfl, List.getLast?_eq_none_iff.mp none_free⟩

theorem crash_aside {mode : Mode} {s s' : Pool} {i : Nat} (moved : crash mode s i = some s') :
    Aside s (.crash i) s' := by
  unfold crash at moved
  split at moved
  · cases mode <;> cases moved <;> exact set_aside (worker_set s.base i (.left false))
  · cases moved

theorem react_aside {s s' : Pool} {w t : Nat} (moved : react s w t = some s') :
    Aside s (.react w t) s' := by
  unfold react at moved
  split at moved
  · cases moved; exact same_aside rfl
  · cases moved; exact same_aside rfl
  · split at moved <;> cases moved
    exact call_aside rfl ‹_›
  · split at moved <;> cases moved
    exact same_aside rfl
  · cases moved; exact same_aside rfl
  · cases moved; exact same_aside rfl
  · cases moved

theorem lane_or_aside {mode : Mode} {s s' : Pool} {e : Event} (inv : OwnInv s)
    (moved : poolStep mode s e = some s') :
    (∃ l, e = .lane l ∧ LaneMove s s' l) ∨ Aside s e s' := by
  cases e with
  | lane l => exact .inl ⟨l, rfl, laneStep_move moved⟩
  | respond r =>
    cases moved
    exact .inr (same_aside rfl)
  | supervise w =>
    simp only [poolStep] at moved
    split at moved <;> cases moved
    exact .inr (same_aside rfl)
  | claim w =>
    simp only [poolStep] at moved
    split at moved
    · obtain ⟨⟨i, s₁⟩, took, rfl⟩ := Option.map_eq_some_iff.mp moved
      exact .inr (claim_aside inv took rfl)
    · obtain ⟨⟨i, s₁⟩, took, rfl⟩ := Option.map_eq_some_iff.mp moved
      exact .inr (claim_aside inv took rfl)
    · cases moved
  | launch w =>
    simp only [poolStep] at moved
    split at moved <;> cases moved
    exact .inr (set_aside rfl)
  | crash i => exact .inr (crash_aside moved)
  | join w retired =>
    cases join_joined moved with
    | clean ids retired at_pc after =>
      subst s'
      cases retired <;> exact .inr (same_aside rfl)
    | died ids i at_pc ractor first dead after =>
      subst s'
      exact .inr (set_aside rfl)
  | react w t => exact .inr (react_aside moved)
  | beginClose t =>
    simp only [poolStep] at moved
    split at moved <;> cases moved
    rename_i ready
    exact .inr (call_aside rfl ready.2)
  | endClose =>
    simp only [poolStep] at moved
    split at moved
    · split at moved <;> cases moved
      exact .inr (same_aside rfl)
    · cases moved
  | drain =>
    simp only [poolStep] at moved
    split at moved <;> cases moved
    exact .inr (same_aside rfl)

theorem aside_lanes {s s' : Pool} {e : Event} (aside : Aside s e s') :
    laneOpen s'.base = laneOpen s.base := by
  funext j
  exact aside.tx j

/-- A busy operation thread goes on by its own steps only. -/
theorem busy_op {b b' : State} {l : Label} {t : Nat} (moved : step b l = some b')
    (busy : b.ops t ≠ .absent) : b'.ops t = b.ops t ∨ operate b t = some b' := by
  cases l with
  | operate u =>
    by_cases same : u = t
    · subst u
      exact .inr moved
    · exact .inl ((operate_step moved).others t (Ne.symm same))
  | call u op =>
    simp only [step] at moved
    split at moved
    · next idle =>
      obtain ⟨pc, _, rfl⟩ := Option.map_eq_some_iff.mp moved
      have other : t ≠ u := fun same => busy (by rw [same, idle])
      exact .inl (by simp [State.operate, other])
    · cases moved
  | dispatch r =>
    obtain ⟨pc, next⟩ := dispatch_step moved
    exact .inl (by rw [next.ops])
  | work i => exact .inl (by rw [(work_lanes moved).2.1])
  | register | arrive r | giveUp r | take i | timeout i =>
    simp only [step] at moved
    split at moved <;> cases moved
    exact .inl rfl

end KinoLanePool
