import Kino.LaneSafety

/-!
When a dispatch pass ends as closed. `try_dispatch` reads "draining" off the lanes: a
pass that met no sender is refused at once. Lanes are closed by `close_queue`, and by
`abort_slot` for the worker of a crashed ractor, whose respawn registers new slots only
later.
-/
namespace KinoLaneClosing
open Transitions Channels Ownership KinoLaneDispatch KinoLaneSafety

def laneOpen (s : State) (i : Nat) : Bool := (s.slots i).laneTx

theorem laneOpen_put (s : State) (i : Nat) (slot : Slot) :
    laneOpen (s.put i slot) = Function.update (laneOpen s) i slot.laneTx := by
  funext j
  by_cases same : j = i
  · subst j; simp [laneOpen, State.put]
  · simp [laneOpen, State.put, same]

theorem laneOpen_put_same {s : State} {i : Nat} {slot : Slot}
    (same : slot.laneTx = (s.slots i).laneTx) : laneOpen (s.put i slot) = laneOpen s := by
  rw [laneOpen_put, same]
  exact Function.update_eq_self i (laneOpen s)

theorem laneOpen_worker (s : State) (i : Nat) (pc : WorkerPc) :
    laneOpen (s.worker i pc) = laneOpen s := laneOpen_put_same rfl

theorem laneOpen_take (s : State) (i j r : Nat) (pc : WorkerPc) :
    laneOpen (s.take i j r pc) = laneOpen s := by
  unfold State.take
  rw [laneOpen_worker]
  exact laneOpen_put_same (s := s) rfl

theorem laneOpen_closeLane (s : State) (i : Nat) :
    laneOpen (s.closeLane i) = Function.update (laneOpen s) i false := by
  unfold State.closeLane
  split
  · exact laneOpen_put s i _
  · next shut =>
    have was : laneOpen s i = false := by simpa [laneOpen] using shut
    rw [← was]
    exact (Function.update_eq_self i (laneOpen s)).symm

def closes : OpPc → Option Nat
  | .abortTake i | .closeTake i _ => some i
  | _ => none

/-- Part of a `close_queue`, as far as its place tells. -/
def closing : OpPc → Bool
  | .closeLock _ _ | .closeTake _ _ | .closeUnlock _ _ => true
  | _ => false

/-- Part of a `reset_slot`. -/
def resets : OpPc → Bool
  | .resetLock _ | .resetRetired _ | .resetParked _ | .resetParkedAt _ | .resetHandOver _ => true
  | _ => false

structure OpStep (s s' : State) (t : Nat) : Prop where
  disp : s'.disp = s.disp
  count : s'.count = s.count
  others : ∀ u, u ≠ t → s'.ops u = s.ops u
  begun : (closing (s'.ops t) = true → closing (s.ops t) = true) ∧
    (resets (s'.ops t) = true → resets (s.ops t) = true)
  lanes : laneOpen s' = match closes (s.ops t) with
    | some i => Function.update (laneOpen s) i false
    | none => laneOpen s

theorem op_step {s s' : State} {t : Nat} {pc : OpPc} (disp : s'.disp = s.disp)
    (count : s'.count = s.count) (ops : s'.ops = Function.update s.ops t pc)
    (begun : (closing pc = true → closing (s.ops t) = true) ∧
      (resets pc = true → resets (s.ops t) = true))
    (plain : closes (s.ops t) = none) (lanes : laneOpen s' = laneOpen s) : OpStep s s' t := by
  refine ⟨disp, count, ?_, ?_, ?_⟩
  · intro u other
    rw [ops, Function.update_of_ne other]
  · rw [ops, Function.update_self]
    exact begun
  · rw [plain]
    exact lanes

theorem closeLane_step {s : State} {t i : Nat} {pc : OpPc} (at_pc : closes (s.ops t) = some i)
    (begun : (closing pc = true → closing (s.ops t) = true) ∧
      (resets pc = true → resets (s.ops t) = true)) :
    OpStep s ((s.closeLane i).operate t pc) t := by
  obtain ⟨_, _, ops, disp, _⟩ := closeLane_same s i
  refine ⟨disp, ?_, ?_, ?_, ?_⟩
  · unfold State.closeLane
    split <;> rfl
  · intro u other
    simp [State.operate, other, ops]
  · simpa [State.operate] using begun
  · rw [at_pc]
    exact laneOpen_closeLane s i

theorem operate_step {s s' : State} {t : Nat} (moved : operate s t = some s') : OpStep s s' t := by
  unfold operate at moved
  cases at_pc : s.ops t with
  | retireLock i | abortLock i =>
    simp only [at_pc] at moved
    split at moved <;> cases moved
    exact op_step rfl rfl rfl (by simp [at_pc, closing, resets]) (by simp [at_pc, closes]) (laneOpen_put_same rfl)
  | closeLock k n =>
    simp only [at_pc] at moved
    split at moved
    · cases moved
      exact op_step rfl rfl rfl (by simp [at_pc, closing, resets]) (by simp [at_pc, closes]) rfl
    · split at moved <;> cases moved
      exact op_step rfl rfl rfl (by simp [at_pc, closing, resets]) (by simp [at_pc, closes])
        (laneOpen_put_same rfl)
  | resetLock i =>
    simp only [at_pc] at moved
    split at moved
    · split at moved <;> cases moved
      exact op_step rfl rfl rfl (by simp [at_pc, closing, resets]) (by simp [at_pc, closes])
        (laneOpen_put_same rfl)
    · cases moved
  | retireStore i | retireUnlock i | abortUnlock i | resetRetired i | resetParked i
  | resetParkedAt i | resetHandOver i | abortPark i =>
    simp only [at_pc] at moved
    cases moved
    exact op_step rfl rfl rfl (by simp [at_pc, closing, resets]) (by simp [at_pc, closes]) (laneOpen_put_same rfl)
  | closeUnlock k n =>
    simp only [at_pc] at moved
    cases moved
    exact op_step rfl rfl rfl (by simp [at_pc, closing, resets]) (by simp [at_pc, closes])
      (laneOpen_put_same rfl)
  | abortTake i =>
    simp only [at_pc] at moved
    cases moved
    exact closeLane_step (by simp [at_pc, closes]) (by simp [at_pc, closing, resets])
  | closeTake k n =>
    simp only [at_pc] at moved
    cases moved
    exact closeLane_step (by simp [at_pc, closes]) (by simp [at_pc, closing, resets])
  | abortDrain i =>
    simp only [at_pc] at moved
    rcases Chan.tryRecv_cases (s.slots i).lane with ⟨r, rest, front, eq⟩ | ⟨_, _, eq⟩ | ⟨_, _, eq⟩ <;>
      simp only [eq] at moved <;> cases moved
    · refine op_step rfl rfl (Function.update_eq_self t s.ops).symm (by simp)
        (by simp [at_pc, closes]) ?_
      exact laneOpen_put_same rfl
    · exact op_step rfl rfl rfl (by simp [at_pc, closing, resets]) (by simp [at_pc, closes]) rfl
    · exact op_step rfl rfl rfl (by simp [at_pc, closing, resets]) (by simp [at_pc, closes]) rfl
  | absent | finished =>
    simp only [at_pc] at moved
    cases moved

def passOf : DispatchPc → Option Pass
  | .awake p _ | .hotParked p _ _ | .hotEmpty p _ _ | .hotKey p _ _ | .anyLane p _
  | .locking p _ _ | .opening p _ _ | .checking p _ _ | .sending p _ _ | .unlocking p _ _ _ => some p
  | _ => none

def meets : DispatchPc → Option Nat
  | .checking _ _ i | .sending _ _ i => some i
  | _ => none

/-- A pass that met no sender found the first `k` lanes of its last round closed. -/
def Seen (s : State) (p : Pass) (k : Nat) : Prop :=
  p.anyOpen = false → ∀ j, j < k → laneOpen s ((p.start + j) % p.n) = false

def Scanned (s : State) : DispatchPc → Prop
  | .anyLane p k => Seen s p k
  | .locking p (.anyLane k) i | .opening p (.anyLane k) i => i = (p.start + k) % p.n ∧ Seen s p k
  | .checking p _ _ | .sending p _ _ => p.anyOpen = true
  | .unlocking p (.anyLane k) _ _ => Seen s p (k + 1)
  | _ => True

theorem seen_zero (s : State) (p : Pass) : Seen s p 0 := by
  intro _ j less
  omega

theorem seen_open {s : State} {p : Pass} (met : p.anyOpen = true) (k : Nat) : Seen s p k := by
  intro unmet
  simp [met] at unmet

theorem seen_succ {s : State} {p : Pass} {k : Nat} (seen : Seen s p k)
    (shut : laneOpen s ((p.start + k) % p.n) = false) : Seen s p (k + 1) := by
  intro unmet j less
  rcases Nat.lt_succ_iff_lt_or_eq.mp less with earlier | here
  · exact seen unmet j earlier
  · rw [here]
    exact shut

theorem seen_fewer {s s' : State} {p : Pass} {k : Nat} (seen : Seen s p k)
    (fewer : ∀ j, laneOpen s' j = true → laneOpen s j = true) : Seen s' p k := by
  intro unmet j less
  have shut := seen unmet j less
  by_contra opened
  have was := fewer _ (by simpa using opened)
  simp [shut] at was

theorem scanned_fewer {s s' : State} {pc : DispatchPc} (scanned : Scanned s pc)
    (fewer : ∀ j, laneOpen s' j = true → laneOpen s j = true) : Scanned s' pc := by
  unfold Scanned at scanned ⊢
  split
  · exact seen_fewer scanned fewer
  · exact ⟨scanned.1, seen_fewer scanned.2 fewer⟩
  · exact ⟨scanned.1, seen_fewer scanned.2 fewer⟩
  · exact scanned
  · exact scanned
  · exact seen_fewer scanned fewer
  · trivial

structure PassStep (s : State) (pc pc' : DispatchPc) : Prop where
  scanned : Scanned s pc → Scanned s pc'
  ends : pc' = .closed → ∃ p k, pc = .anyLane p k ∧ p.n ≤ k ∧ p.anyOpen = false
  patient : pc' ≠ .rejected
  meets : ∀ i, meets pc' = some i → meets pc = some i ∨ laneOpen s i = true
  carries : ∀ p', passOf pc' = some p' →
    (pc = .ready ∧ p'.n = s.count ∧ s.count ≠ 0) ∨
      ∃ p, passOf pc = some p ∧ p'.n = p.n ∧ (p.anyOpen = true → p'.anyOpen = true)

theorem same_pass {s : State} {pc pc' : DispatchPc} (scanned : Scanned s pc → Scanned s pc')
    (open_ : pc' ≠ .closed ∧ pc' ≠ .rejected)
    (same : (∀ p', passOf pc' = some p' → passOf pc = some p') ∧
      ∀ i, meets pc' = some i → meets pc = some i) : PassStep s pc pc' :=
  ⟨scanned, fun shut => absurd shut open_.1, open_.2, fun i met => .inl (same.2 i met),
    fun p' here => .inr ⟨p', same.1 p' here, rfl, id⟩⟩

structure DispatchStep (s s' : State) (r : Nat) (pc : DispatchPc) : Prop where
  disp : s'.disp = Function.update s.disp r pc
  lanes : laneOpen s' = laneOpen s
  ops : s'.ops = s.ops
  count : s'.count = s.count
  pass : PassStep s (s.disp r) pc

theorem goto_step {s : State} {r : Nat} {pc pc' : DispatchPc} (at_pc : s.disp r = pc)
    (pass : PassStep s pc pc') : ∃ next, DispatchStep s (s.goto r pc') r next :=
  ⟨pc', rfl, rfl, rfl, rfl, at_pc ▸ pass⟩

theorem put_step {s : State} {r i : Nat} {slot : Slot} {pc pc' : DispatchPc}
    (at_pc : s.disp r = pc) (same : slot.laneTx = (s.slots i).laneTx) (pass : PassStep s pc pc') :
    ∃ next, DispatchStep s ((s.put i slot).goto r pc') r next :=
  ⟨pc', rfl, laneOpen_put_same same, rfl, rfl, at_pc ▸ pass⟩

theorem dispatch_step {s s' : State} {r : Nat} (moved : dispatch s r = some s') :
    ∃ pc, DispatchStep s s' r pc := by
  unfold dispatch at moved
  cases at_pc : s.disp r with
  | ready =>
    simp only [at_pc] at moved
    split at moved <;> cases moved
    · exact goto_step at_pc (same_pass (fun _ => trivial) (by simp) (by simp [passOf, meets]))
    · next some_slots =>
      refine ⟨_, rfl, rfl, rfl, rfl, at_pc ▸ ⟨fun _ => trivial, by simp, by simp, by simp [meets], ?_⟩⟩
      intro p' here
      simp only [passOf, Option.some.injEq] at here
      subst p'
      exact .inl ⟨rfl, rfl, some_slots⟩
  | awake p k =>
    simp only [at_pc] at moved
    split at moved
    · cases moved
      exact goto_step at_pc (same_pass (fun _ => trivial) (by simp) (by simp [passOf, meets]))
    · split at moved <;> cases moved <;>
        exact goto_step at_pc (same_pass (fun _ => trivial) (by simp) (by simp [passOf, meets]))
  | hotParked p j best =>
    simp only [at_pc] at moved
    split at moved
    · split at moved <;> cases moved
      · exact goto_step at_pc (same_pass (fun _ => trivial) (by simp) (by simp [passOf, meets]))
      · exact goto_step at_pc (same_pass (fun _ => seen_zero s p) (by simp) (by simp [passOf, meets]))
    · split at moved <;> cases moved <;>
        exact goto_step at_pc (same_pass (fun _ => trivial) (by simp) (by simp [passOf, meets]))
  | hotEmpty p j best =>
    simp only [at_pc] at moved
    split at moved <;> cases moved <;>
      exact goto_step at_pc (same_pass (fun _ => trivial) (by simp) (by simp [passOf, meets]))
  | hotKey p j best =>
    simp only [at_pc] at moved
    cases moved
    exact goto_step at_pc (same_pass (fun _ => trivial) (by simp) (by simp [passOf, meets]))
  | anyLane p k =>
    simp only [at_pc] at moved
    split at moved <;> cases moved
    · next covered =>
      apply goto_step at_pc
      cases met : p.anyOpen with
      | true => exact same_pass (fun _ => trivial) (by simp) (by simp [passOf, meets])
      | false => exact ⟨fun _ => trivial, fun _ => ⟨p, k, rfl, covered, met⟩, by simp, by simp [meets],
          by simp [passOf]⟩
    · exact goto_step at_pc (same_pass (fun seen => ⟨rfl, seen⟩) (by simp) (by simp [passOf, meets]))
  | locking p back i =>
    simp only [at_pc] at moved
    split at moved <;> cases moved
    refine put_step at_pc rfl (same_pass ?_ (by simp) (by simp [passOf, meets]))
    cases back <;> exact id
  | opening p back i =>
    simp only [at_pc] at moved
    split at moved <;> cases moved <;> apply goto_step at_pc
    · refine ⟨fun _ => rfl, by simp, by simp, ?_, ?_⟩
      · intro j met
        simp only [meets, Option.some.injEq] at met
        subst j
        exact .inr ‹_›
      intro p' here
      simp only [passOf, Option.some.injEq] at here
      subst p'
      exact .inr ⟨p, rfl, rfl, fun _ => rfl⟩
    · next shut =>
      refine same_pass ?_ (by simp) (by simp [passOf, meets])
      intro scanned
      cases back with
      | awake k => trivial
      | hottest => trivial
      | anyLane k =>
        obtain ⟨here, seen⟩ := scanned
        exact seen_succ seen (by rw [← here]; simpa [laneOpen] using shut)
  | checking p back i =>
    simp only [at_pc] at moved
    split at moved <;> cases moved <;> apply goto_step at_pc
    · refine same_pass ?_ (by simp) (by simp [passOf, meets])
      intro met
      cases back <;> first | trivial | exact seen_open met _
    · exact same_pass id (by simp) (by simp [passOf, meets])
  | sending p back i =>
    have out : ∀ sent, PassStep s (.sending p back i) (.unlocking p back i sent) := by
      intro sent
      refine same_pass ?_ (by simp) (by simp [passOf, meets])
      intro met
      cases back <;> first | trivial | exact seen_open met _
    simp only [at_pc] at moved
    rcases Chan.trySend_cases (s.slots i).lane r with ⟨_, eq⟩ | ⟨_, room, eq⟩ | ⟨_, eq⟩ <;>
      simp only [eq] at moved <;> cases moved
    · exact goto_step at_pc (out false)
    · exact put_step at_pc rfl (out true)
    · exact goto_step at_pc (out false)
  | unlocking p back i sent =>
    simp only [at_pc] at moved
    cases moved
    refine put_step at_pc rfl ?_
    cases sent with
    | true => exact same_pass (fun _ => trivial) (by simp) (by simp [passOf, meets])
    | false =>
      cases back with
      | awake k => exact same_pass (fun _ => trivial) (by simp [resume]) (by simp [passOf, meets, resume])
      | hottest =>
        exact same_pass (fun _ => seen_zero s p) (by simp [resume]) (by simp [passOf, meets, resume])
      | anyLane k => exact same_pass id (by simp [resume]) (by simp [passOf, meets, resume])
  | full =>
    simp only [at_pc] at moved
    cases moved
    exact goto_step at_pc (same_pass (fun _ => trivial) (by simp) (by simp [passOf, meets]))
  | absent | sent | closed | rejected =>
    simp only [at_pc] at moved
    cases moved

theorem work_lanes {s s' : State} {i : Nat} (moved : work s i = some s') :
    s'.disp = s.disp ∧ s'.ops = s.ops ∧ s'.count = s.count ∧ laneOpen s' = laneOpen s := by
  unfold work at moved
  cases at_pc : (s.slots i).worker with
  | own | waiting | lastTry =>
    simp only [at_pc] at moved
    rcases Chan.tryRecv_cases (s.slots i).lane with ⟨r, rest, front, eq⟩ | ⟨_, _, eq⟩ | ⟨_, _, eq⟩ <;>
      simp only [eq] at moved <;> cases moved <;>
      first
      | exact ⟨rfl, rfl, rfl, laneOpen_take s _ _ _ _⟩
      | exact ⟨rfl, rfl, rfl, laneOpen_put_same rfl⟩
  | sweep n k parked =>
    simp only [at_pc] at moved
    split at moved
    · cases moved
      exact ⟨rfl, rfl, rfl, laneOpen_put_same rfl⟩
    · split at moved
      · cases moved
        exact ⟨rfl, rfl, rfl, laneOpen_put_same rfl⟩
      · rcases Chan.tryRecv_cases (s.slots k).lane with
          ⟨r, rest, front, eq⟩ | ⟨_, _, eq⟩ | ⟨_, _, eq⟩ <;> simp only [eq] at moved <;> cases moved
        · exact ⟨rfl, rfl, rfl, laneOpen_take s _ _ _ _⟩
        · exact ⟨rfl, rfl, rfl, laneOpen_put_same rfl⟩
        · exact ⟨rfl, rfl, rfl, laneOpen_put_same rfl⟩
  | timedOut =>
    simp only [at_pc] at moved
    split at moved <;> cases moved <;> exact ⟨rfl, rfl, rfl, laneOpen_put_same rfl⟩
  | parking | stamping seq | flagging | unparking outcome =>
    simp only [at_pc] at moved
    cases moved
    exact ⟨rfl, rfl, rfl, laneOpen_put_same rfl⟩
  | absent | serving | left retired =>
    simp only [at_pc] at moved
    cases moved

inductive LaneStep (s : State) : Label → State → Prop where
  | dispatch {s' : State} (r : Nat) (pc : DispatchPc) (step : DispatchStep s s' r pc) :
      LaneStep s (.dispatch r) s'
  | operate {s' : State} (t : Nat) (step : OpStep s s' t) : LaneStep s (.operate t) s'
  | arrive (r : Nat) : LaneStep s (.arrive r) (s.goto r .ready)
  | giveUp (r : Nat) (full : s.disp r = .full) : LaneStep s (.giveUp r) (s.goto r .rejected)
  | call (t : Nat) (op : Operation) (pc : OpPc) (entered : closing pc = true → op = .closeQueue)
      (handed : resets pc = true → ∃ i, op = .reset i) :
      LaneStep s (.call t op) (s.operate t pc)
  | other {l : Label} {s' : State} (disp : s'.disp = s.disp) (ops : s'.ops = s.ops)
      (count : l ≠ .register → s'.count = s.count) (lanes : laneOpen s' = laneOpen s) :
      LaneStep s l s'

theorem step_lane_step {s s' : State} {l : Label} (moved : step s l = some s') :
    LaneStep s l s' := by
  cases l with
  | register =>
    simp only [step] at moved
    split at moved <;> cases moved
    exact .other rfl rfl (by simp) (laneOpen_put_same (s := { s with count := s.count + 1 }) rfl)
  | arrive r =>
    simp only [step] at moved
    split at moved <;> cases moved
    exact .arrive r
  | giveUp r =>
    simp only [step] at moved
    split at moved <;> cases moved
    exact .giveUp r ‹_›
  | dispatch r =>
    obtain ⟨pc, next⟩ := dispatch_step moved
    exact .dispatch r pc next
  | take i | timeout i =>
    simp only [step] at moved
    split at moved <;> cases moved
    exact .other rfl rfl (fun _ => rfl) (laneOpen_put_same rfl)
  | work i =>
    obtain ⟨disp, ops, count, lanes⟩ := work_lanes moved
    exact .other disp ops (fun _ => count) lanes
  | call t op =>
    simp only [step] at moved
    split at moved
    · obtain ⟨pc, entered, rfl⟩ := Option.map_eq_some_iff.mp moved
      refine .call t op pc ?_ ?_
      all_goals
        intro begun
        cases op <;> simp only [entry] at entered
        case closeQueue => cases entered; first | rfl | cases begun
        all_goals
          split at entered <;> cases entered
          first | exact ⟨_, rfl⟩ | cases begun
    · cases moved
  | operate t => exact .operate t (operate_step moved)

theorem step_count {s s' : State} {l : Label} (here : l ≠ .register)
    (moved : step s l = some s') : s'.count = s.count := by
  cases step_lane_step moved with
  | dispatch r pc next => exact next.count
  | operate t next => exact next.count
  | arrive r | giveUp r full | call t op pc entered handed => rfl
  | other disp ops count lanes => exact count here

theorem opStep_fewer {s s' : State} {t : Nat} (step : OpStep s s' t) (j : Nat)
    (opened : laneOpen s' j = true) : laneOpen s j = true := by
  rw [step.lanes] at opened
  split at opened
  · next i _ =>
    by_cases same : j = i
    · simp [same] at opened
    · rwa [Function.update_of_ne same] at opened
  · exact opened

/-- A lane that was closed is never open again. -/
theorem step_fewer {s s' : State} {l : Label} (moved : step s l = some s') (j : Nat)
    (opened : laneOpen s' j = true) : laneOpen s j = true := by
  cases step_lane_step moved with
  | dispatch r pc next => rwa [next.lanes] at opened
  | operate t next => exact opStep_fewer next j opened
  | arrive r | giveUp r full | call t op pc entered handed => exact opened
  | other disp ops count lanes => rwa [lanes] at opened

/-- What one step can do to a lane: nothing, take its front, add one request that a
    dispatcher is sending into it, or close it. -/
inductive LaneChange (s : State) (j : Nat) (b : Slot) : Prop where
  | keep (tx : b.laneTx = (s.slots j).laneTx) (lane : b.lane = (s.slots j).lane)
  | pop (tx : b.laneTx = (s.slots j).laneTx) (lane : b.lane = (s.slots j).lane.pop)
  | push (r : Nat) (p : Pass) (back : Resume) (room : (s.slots j).lane.buf.length < laneDepth)
      (at_pc : s.disp r = .sending p back j) (tx : b.laneTx = (s.slots j).laneTx)
      (lane : b.lane = (s.slots j).lane.push r room)
  | close (was : (s.slots j).laneTx = true) (tx : b.laneTx = false)
      (lane : b.lane = (s.slots j).lane.dropSender)

theorem put_lane_change {s s' : State} {i : Nat} {slot : Slot}
    (slots : s'.slots = Function.update s.slots i slot) (here : LaneChange s i slot) (j : Nat) :
    LaneChange s j (s'.slots j) := by
  rw [slots]
  by_cases same : j = i
  · subst j
    rwa [Function.update_self]
  · rw [Function.update_of_ne same]
    exact .keep rfl rfl

theorem same_lane_change {s s' : State} (slots : s'.slots = s.slots) (j : Nat) :
    LaneChange s j (s'.slots j) := by
  rw [slots]
  exact .keep rfl rfl

theorem closeLane_change (s : State) (i j : Nat) : LaneChange s j ((s.closeLane i).slots j) := by
  unfold State.closeLane
  split
  · next opened => exact put_lane_change rfl (.close opened rfl rfl) j
  · exact .keep rfl rfl

theorem take_lane_change (s : State) (i k r : Nat) (pc : WorkerPc) (j : Nat) :
    LaneChange s j ((s.take i k r pc).slots j) := by
  have popped : LaneChange s j ((s.put k { s.slots k with lane := (s.slots k).lane.pop }).slots j) := by
    refine put_lane_change rfl ?_ j
    exact .pop rfl rfl
  by_cases same : j = i
  · subst j
    by_cases own : i = k
    · subst k
      exact .pop (by simp [State.take, State.worker, State.put])
        (by simp [State.take, State.worker, State.put])
    · exact .keep (by simp [State.take, State.worker, State.put, own])
        (by simp [State.take, State.worker, State.put, own])
  · have outside : (s.take i k r pc).slots j =
        (s.put k { s.slots k with lane := (s.slots k).lane.pop }).slots j := by
      simp [State.take, State.worker, State.put, same]
    rwa [outside]

theorem move_lane_change {s s' : State} {l : Label} (moved : Move s l s') (j : Nat) :
    LaneChange s j (s'.slots j) := by
  cases moved with
  | walk _ r c pc out not_yet still_out still_not => exact same_lane_change rfl j
  | closedLane r p back i at_pc | openLane r p back i at_pc | retiredLane r p back i at_pc
  | liveLane r p back i at_pc live | noSend r p back i at_pc => exact same_lane_change rfl j
  | send r p back i at_pc room =>
    refine put_lane_change rfl ?_ j
    exact .push r p back room at_pc rfl rfl
  | opWalk _ t pc out still_out => exact same_lane_change rfl j
  | takeFrom i k r rest pc front here plain => exact take_lane_change s i k r pc j
  | closeTx t i pc was other is still_other => exact closeLane_change s i j
  | abortDrop t i r rest at_pc front =>
    refine put_lane_change rfl ?_ j
    exact .pop rfl rfl
  | lockLane r p back i at_pc free | unlockLane r p back i sent at_pc
  | stroll _ i n seq at_ parked pc here plain | sawRetired i at_pc retired
  | foundEmpty i at_pc empty | leave i at_pc | lockOp t i pc out free inside before left
  | unlockOp t i pc inside other out | retireStore t i at_pc | clearRetired t i at_pc
  | clearParked t i at_ parked pc was is | handOver t i at_pc | abortPark t i at_pc =>
    refine put_lane_change rfl ?_ j
    exact .keep rfl rfl

structure OpenInv (s : State) : Prop where
  linked : ∀ i, (s.slots i).lane.senders = if (s.slots i).laneTx then 1 else 0
  held : ∀ r i, meets (s.disp r) = some i → laneOpen s i = true

theorem initial_open_inv : OpenInv initial := by
  constructor <;> simp [initial, Slot.new, Chan.create, meets]

theorem meets_critical {pc : DispatchPc} {i : Nat} (met : meets pc = some i) :
    critical pc = some i := by
  cases pc <;> simp_all [meets, critical]

theorem closes_critical {pc : OpPc} {i : Nat} (about : closes pc = some i) :
    opCritical pc = some i := by
  cases pc <;> simp_all [closes, opCritical]

theorem linked_change {s : State} {j : Nat} {b : Slot}
    (linked : (s.slots j).lane.senders = if (s.slots j).laneTx then 1 else 0)
    (change : LaneChange s j b) : b.lane.senders = if b.laneTx then 1 else 0 := by
  cases change with
  | keep tx lane => rwa [tx, lane]
  | pop tx lane => rwa [tx, lane]
  | push r p back room at_pc tx lane => rwa [tx, lane]
  | close was tx lane =>
    have one : (s.slots j).lane.senders = 1 := by simpa [was] using linked
    simp [tx, lane, Chan.dropSender, one]

theorem step_open_inv {s s' : State} {l : Label} (lock : LockInv s) (inv : OpenInv s)
    (moved : step s l = some s') : OpenInv s' := by
  refine ⟨fun j => linked_change (inv.linked j) (move_lane_change (step_move moved) j), ?_⟩
  intro q i met
  cases step_lane_step moved with
  | dispatch r pc next =>
    rw [next.lanes]
    rw [next.disp] at met
    by_cases same : q = r
    · subst q
      rw [Function.update_self] at met
      exact (next.pass.meets i met).elim (inv.held r i) id
    · rw [Function.update_of_ne same] at met
      exact inv.held q i met
  | operate t next =>
    rw [next.disp] at met
    rw [next.lanes]
    split
    · next k about =>
      -- the dispatcher holds the lock of the lane it found open
      have apart : i ≠ k := by
        intro same
        subst k
        have mine : holding s (.dispatcher q) = some i := meets_critical met
        have theirs : holding s (.operation t) = some i := closes_critical about
        simpa using one_holder lock mine theirs
      rw [Function.update_of_ne apart]
      exact inv.held q i met
    · exact inv.held q i met
  | arrive r | giveUp r full =>
    by_cases same : q = r
    · simp [State.goto, same, meets] at met
    · exact inv.held q i (by simpa [State.goto, same] using met)
  | call t op pc entered handed => exact inv.held q i met
  | other disp ops count lanes =>
    rw [lanes]
    rw [disp] at met
    exact inv.held q i met

/-- Nothing comes into a closed lane. -/
theorem closed_lane_empty {s s' : State} {l : Label} (inv : OpenInv s)
    (moved : step s l = some s') {j : Nat} (shut : laneOpen s j = false)
    (empty : (s.slots j).lane.buf = []) : (s'.slots j).lane.buf = [] := by
  cases move_lane_change (step_move moved) j with
  | keep tx lane => rw [lane, empty]
  | pop tx lane => simp [lane, Chan.pop, empty]
  | push r p back room at_pc tx lane =>
    have opened := inv.held r j (by rw [at_pc]; rfl)
    simp [shut] at opened
  | close was tx lane => simp [lane, Chan.dropSender, empty]

/-- No `close_queue` is running, no request was refused as in a drain, and each pass that
    has met no sender still has an open lane before it. -/
structure PassInv (s : State) : Prop where
  quiet : ∀ t, closing (s.ops t) = false
  scanned : ∀ r, Scanned s (s.disp r)
  hope : ∀ r p, passOf (s.disp r) = some p →
    p.anyOpen = true ∨ ∃ j, j < p.n ∧ laneOpen s j = true
  unrefused : ∀ r, s.disp r ≠ .closed

theorem initial_pass_inv : PassInv initial := by
  constructor <;> simp [initial, closing, Scanned, passOf]

/-- Steps that cannot end in a refusal: no `close_queue` is called, a pass over some
    slots begins with one of their lanes open, and a crash closes no lane that is the
    last open one of a pass that has met no sender. -/
def Spared (s : State) : Label → Prop
  | .call _ op => op ≠ .closeQueue
  | .dispatch r => s.disp r = .ready → s.count ≠ 0 → ∃ j, j < s.count ∧ laneOpen s j = true
  | .operate t => ∀ i, s.ops t = .abortTake i → ∀ r p, passOf (s.disp r) = some p →
      p.anyOpen = false → ∃ j, j < p.n ∧ j ≠ i ∧ laneOpen s j = true
  | _ => True

theorem dispatch_pass_inv {s s' : State} {r : Nat} {pc : DispatchPc} (inv : PassInv s)
    (spared : Spared s (.dispatch r)) (next : DispatchStep s s' r pc) : PassInv s' := by
  have scanned : ∀ q, Scanned s' (s.disp q) := fun q =>
    scanned_fewer (inv.scanned q) (fun j opened => by rwa [next.lanes] at opened)
  constructor
  · rw [next.ops]
    exact inv.quiet
  · intro q
    rw [next.disp]
    by_cases same : q = r
    · subst q
      rw [Function.update_self]
      exact scanned_fewer (next.pass.scanned (inv.scanned r))
        (fun j opened => by rwa [next.lanes] at opened)
    · rw [Function.update_of_ne same]
      exact scanned q
  · intro q p' here
    rw [next.disp] at here
    rw [next.lanes]
    by_cases same : q = r
    · subst q
      rw [Function.update_self] at here
      rcases next.pass.carries p' here with ⟨ready, counted, some_slots⟩ | ⟨p, was, counted, met⟩
      · rw [counted]
        exact .inr (spared ready some_slots)
      · rw [counted]
        exact (inv.hope r p was).imp met id
    · rw [Function.update_of_ne same] at here
      exact inv.hope q p' here
  · intro q
    rw [next.disp]
    by_cases same : q = r
    · subst q
      rw [Function.update_self]
      intro refused
      -- the pass came round to its end, so it looked at the lane that is open
      obtain ⟨p, k, was, covered, unmet⟩ := next.pass.ends refused
      have seen : Seen s p k := by
        have := inv.scanned r
        rwa [was] at this
      rcases inv.hope r p (by rw [was]; rfl) with met | ⟨j, inside, opened⟩
      · simp [unmet] at met
      · obtain ⟨m, less, here⟩ := round_covers p.start inside
        have shut := seen unmet m (by omega)
        rw [here, opened] at shut
        cases shut
    · rw [Function.update_of_ne same]
      exact inv.unrefused q

theorem operate_pass_inv {s s' : State} {t : Nat} (inv : PassInv s)
    (spared : Spared s (.operate t)) (next : OpStep s s' t) : PassInv s' := by
  constructor
  · intro u
    by_cases same : u = t
    · subst u
      have was := inv.quiet t
      by_contra begun
      have := next.begun.1 (by simpa using begun)
      simp [was] at this
    · rw [next.others u same]
      exact inv.quiet u
  · intro q
    rw [next.disp]
    exact scanned_fewer (inv.scanned q) (opStep_fewer next)
  · intro q p here
    rw [next.disp] at here
    rw [next.lanes]
    rcases inv.hope q p here with met | before
    · exact .inl met
    · split
      · next i at_pc =>
        cases met : p.anyOpen with
        | true => exact .inl rfl
        | false =>
          refine .inr ?_
          have aborting : s.ops t = .abortTake i := by
            have was := inv.quiet t
            cases pc : s.ops t <;> simp_all [closes, closing]
          obtain ⟨j, inside, other, opened⟩ := spared i aborting q p here met
          exact ⟨j, inside, by rw [Function.update_of_ne other]; exact opened⟩
      · exact .inr before
  · rw [next.disp]
    exact inv.unrefused

theorem goto_pass_inv {s : State} {r : Nat} {pc : DispatchPc} (inv : PassInv s)
    (outside : passOf pc = none) (open_ : pc ≠ .closed) : PassInv (s.goto r pc) := by
  have scanned : Scanned s pc := by
    cases pc <;> simp_all [passOf, Scanned]
  have elsewhere : ∀ q, (s.goto r pc).disp q = if q = r then pc else s.disp q := by
    intro q
    by_cases same : q = r <;> simp [State.goto, same]
  refine ⟨inv.quiet, fun q => ?_, fun q p here => ?_, fun q => ?_⟩
  · rw [elsewhere]
    split
    · exact scanned
    · exact inv.scanned q
  · rw [elsewhere] at here
    split at here
    · simp [outside] at here
    · exact inv.hope q p here
  · rw [elsewhere]
    split
    · exact open_
    · exact inv.unrefused q

theorem step_pass_inv {s s' : State} {l : Label} (inv : PassInv s) (spared : Spared s l)
    (moved : step s l = some s') : PassInv s' := by
  cases step_lane_step moved with
  | dispatch r pc next => exact dispatch_pass_inv inv spared next
  | operate t next => exact operate_pass_inv inv spared next
  | arrive r | giveUp r full => exact goto_pass_inv inv rfl (by simp)
  | call t op pc entered handed =>
    refine ⟨fun u => ?_, inv.scanned, inv.hope, inv.unrefused⟩
    by_cases same : u = t
    · subst u
      by_contra begun
      exact spared (entered (by simpa [State.operate] using begun))
    · simpa [State.operate, same] using inv.quiet u
  | other disp ops count lanes =>
    refine ⟨by rw [ops]; exact inv.quiet, fun q => ?_, fun q p here => ?_, ?_⟩
    · rw [disp]
      exact scanned_fewer (inv.scanned q) (fun j opened => by rwa [lanes] at opened)
    · rw [lanes]
      exact inv.hope q p (by rwa [disp] at here)
    · rw [disp]
      exact inv.unrefused

def refused : DispatchPc → Bool
  | .closed | .rejected => true
  | _ => false

/-- While `close_queue` has not been called, a request is refused only by its own
    deadline, after a pass that ended as full. -/
theorem refused_only_by_deadline {s : State} (reached : ReachableBy system Spared s) :
    (∀ r, s.disp r ≠ .closed) ∧
    ∀ l s' r, Spared s l → step s l = some s' → refused (s.disp r) = false →
      refused (s'.disp r) = true → l = .giveUp r ∧ s.disp r = .full := by
  have inv : PassInv s := by
    refine invariant PassInv ?_ ?_ reached
    · intro s start
      cases start
      exact initial_pass_inv
    · intro s s' l kept spared moved
      exact step_pass_inv kept spared moved
  refine ⟨inv.unrefused, ?_⟩
  intro l s' r spared moved before after
  have unrefused := (step_pass_inv inv spared moved).unrefused r
  cases step_lane_step moved with
  | dispatch q pc next =>
    exfalso
    by_cases same : r = q
    · subst q
      rw [next.disp, Function.update_self] at after unrefused
      have patient := next.pass.patient
      cases pc <;> simp_all [refused]
    · rw [next.disp, Function.update_of_ne same] at after
      simp [before] at after
  | operate t next =>
    rw [next.disp] at after
    simp [before] at after
  | arrive q =>
    by_cases same : r = q
    · subst q
      simp [State.goto, refused] at after
    · simp [State.goto, same, before] at after
  | giveUp q full =>
    by_cases same : r = q
    · subst q
      exact ⟨rfl, full⟩
    · simp [State.goto, same, before] at after
  | call t op pc entered handed =>
    exact absurd after (by simp [State.operate, before])
  | other disp ops count lanes =>
    rw [disp] at after
    simp [before] at after

def crashRun : List Label :=
  [Label.register, .register, .call 0 (.abortSlot 0), .operate 0]

/-- Enough for `Spared` where no operation is about to close a lane and lane 1 is open. -/
def spares (s : State) : Label → Bool
  | .call _ op => op ≠ .closeQueue
  | .dispatch _ => 1 < s.count && laneOpen s 1
  | .operate t => closes (s.ops t) = none
  | _ => true

theorem spares_sound (s : State) (l : Label) (checked : spares s l = true) : Spared s l := by
  cases l with
  | call t op => simpa [spares, Spared] using checked
  | dispatch r =>
    intro _ _
    simp only [spares, Bool.and_eq_true, decide_eq_true_eq] at checked
    exact ⟨1, checked⟩
  | operate t =>
    intro i at_pc
    simp [spares, at_pc, closes] at checked
  | register | arrive r | giveUp r | take i | work i | timeout i => trivial

theorem request_outlives_crash : ∃ s s', runBy system spares initial crashRun = some s ∧
    step s (.operate 0) = some s' ∧ laneOpen s' 0 = false ∧ (∀ r, s'.disp r ≠ .closed) := by
  have ran : ∃ s s', runBy system spares initial crashRun = some s ∧
      step s (.operate 0) = some s' ∧ laneOpen s' 0 = false ∧ s.disp = fun _ => .absent :=
    ⟨_, _, rfl, rfl, rfl, rfl⟩
  obtain ⟨s, s', ran, moved, shut, absent⟩ := ran
  have before := reachable_runBy spares_sound (.start rfl) ran
  have permitted : Spared s (.operate 0) := by
    intro i _ r p here
    simp [absent, passOf] at here
  exact ⟨s, s', ran, moved, shut, (refused_only_by_deadline (before.next permitted moved)).1⟩

/-- A lone worker crashes: until its respawn registers, every request is refused. -/
def loneCrashRun : List Label :=
  [Label.register, .call 0 (.abortSlot 0)] ++ List.replicate 5 (Label.operate 0) ++
    [Label.arrive 1] ++ List.replicate 15 (Label.dispatch 1)

theorem lone_crash_refuses : ∃ s, run system initial loneCrashRun = some s ∧
    (∀ t, Label.call t .closeQueue ∉ loneCrashRun) ∧ s.disp 1 = .closed :=
  ⟨_, rfl, by simp [loneCrashRun], rfl⟩

end KinoLaneClosing
