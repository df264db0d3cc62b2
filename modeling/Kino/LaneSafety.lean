import Kino.Ownership
import Kino.LaneDispatch

/-!
No request sent into a lane is lost or taken twice, and a retired worker leaves an
empty lane behind. The first is an agreement between the lanes, the workers' hands and
the drain on where each request is; the second rests on the lane lock, under which the
dispatcher reads the retired flag and sends, and under which the flag is written.
-/
namespace KinoLaneSafety
open Transitions Channels Ownership KinoLaneDispatch

inductive Place where
  | lane (i : Nat)
  | worker (w : Worker)
  | dropped
  deriving DecidableEq, Repr

def contents (s : State) : Place → List Nat
  | .lane i => (s.slots i).lane.buf
  | .worker w => s.taken w
  | .dropped => s.dropped

def locks (s : State) (i : Nat) : Option Agent := (s.slots i).lock

def holding (s : State) : Agent → Option Nat
  | .dispatcher r => critical (s.disp r)
  | .operation t => opCritical (s.ops t)

theorem contents_put (s : State) (i : Nat) (slot : Slot) :
    contents (s.put i slot) = Function.update (contents s) (.lane i) slot.lane.buf := by
  funext p
  cases p with
  | lane j =>
    by_cases same : j = i
    · subst j; simp [contents, State.put]
    · simp [contents, State.put, same]
  | worker w => rfl
  | dropped => rfl

theorem contents_put_same {s : State} {i : Nat} {slot : Slot}
    (same : slot.lane.buf = (s.slots i).lane.buf) : contents (s.put i slot) = contents s := by
  rw [contents_put, same]
  exact Function.update_eq_self (Place.lane i) (contents s)

@[simp] theorem contents_goto (s : State) (r : Nat) (pc : DispatchPc) :
    contents (s.goto r pc) = contents s := rfl

@[simp] theorem contents_operate (s : State) (t : Nat) (pc : OpPc) :
    contents (s.operate t pc) = contents s := rfl

@[simp] theorem contents_lock (s : State) (i : Nat) (holder : Option Agent) :
    contents (s.lock i holder) = contents s := contents_put_same rfl

@[simp] theorem contents_worker (s : State) (i : Nat) (pc : WorkerPc) :
    contents (s.worker i pc) = contents s := contents_put_same rfl

@[simp] theorem contents_closeLane (s : State) (i : Nat) :
    contents (s.closeLane i) = contents s := by
  unfold State.closeLane
  split
  · exact contents_put_same rfl
  · rfl

theorem contents_take {s : State} {i j r : Nat} {rest : List Nat} {pc : WorkerPc}
    (front : (s.slots j).lane.buf = r :: rest) :
    contents (s.take i j r pc) =
      Function.update (Function.update (contents s) (.lane j) rest)
        (.worker ⟨i, (s.slots i).gen⟩) (contents s (.worker ⟨i, (s.slots i).gen⟩) ++ [r]) := by
  unfold State.take
  rw [contents_worker]
  funext p
  cases p with
  | lane k =>
    by_cases same : k = j
    · subst k; simp [contents, State.put, Chan.pop, front]
    · simp [contents, State.put, same]
  | worker w =>
    by_cases same : w = ⟨i, (s.slots i).gen⟩
    · subst w; simp [contents]
    · simp [contents, same]
  | dropped => simp [contents, State.put]

theorem contents_drop {s : State} {i r : Nat} {rest : List Nat}
    (front : (s.slots i).lane.buf = r :: rest) :
    contents { s.put i { s.slots i with lane := (s.slots i).lane.pop } with
        dropped := s.dropped ++ [r] } =
      Function.update (Function.update (contents s) (.lane i) rest) .dropped
        (contents s .dropped ++ [r]) := by
  funext p
  cases p with
  | lane k =>
    by_cases same : k = i
    · subst k; simp [contents, State.put, Chan.pop, front]
    · simp [contents, State.put, same]
  | worker w => simp [contents, State.put]
  | dropped => simp [contents]

/-- What a step does to the requests: nothing, or one goes from its dispatcher into a
    lane, or one goes from the front of a lane to a worker or the drain. -/
inductive Flow (s s' : State) : Prop where
  | still (same : contents s' = contents s)
      (others : ∀ q, landed (s'.disp q) = landed (s.disp q))
  | enter (r i : Nat) (fresh : landed (s.disp r) = false) (now : landed (s'.disp r) = true)
      (others : ∀ q, q ≠ r → landed (s'.disp q) = landed (s.disp q))
      (sent : contents s' =
        Function.update (contents s) (.lane i) (contents s (.lane i) ++ [r]))
  | move (r : Nat) (rest : List Nat) (i : Nat) (q : Place) (apart : Place.lane i ≠ q)
      (front : contents s (.lane i) = r :: rest)
      (moved : contents s' =
        Function.update (Function.update (contents s) (.lane i) rest) q (contents s q ++ [r]))
      (others : ∀ q, landed (s'.disp q) = landed (s.disp q))

theorem landed_goto {s : State} {r : Nat} {pc : DispatchPc} (same : landed pc = landed (s.disp r))
    (q : Nat) : landed ((s.goto r pc).disp q) = landed (s.disp q) := by
  by_cases here : q = r
  · subst q; simp [State.goto, same]
  · simp [State.goto, here]

theorem step_flow {s s' : State} {l : Label} (moved : Move s l s') : Flow s s' := by
  cases moved with
  | walk _ r c pc out not_yet still_out still_not =>
    exact .still rfl (landed_goto (s := { s with cursor := c }) (by simp [not_yet, still_not]))
  | lockLane r p back i at_pc free =>
    refine .still (by simp) (landed_goto (s := s.lock i _) ?_)
    simp [State.lock, State.put, at_pc, landed]
  | closedLane r p back i at_pc | openLane r p back i at_pc | retiredLane r p back i at_pc
  | liveLane r p back i at_pc live | noSend r p back i at_pc =>
    exact .still rfl (landed_goto (by simp [at_pc, landed]))
  | send r p back i at_pc room =>
    refine .enter r i (by simp [at_pc, landed]) (by simp [State.goto, landed]) ?_ ?_
    · intro q other
      simp [State.goto, State.put, other]
    · rw [contents_goto, contents_put]
      simp [Chan.push, contents]
  | unlockLane r p back i sent at_pc =>
    refine .still (by simp) (landed_goto (s := s.lock i _) ?_)
    cases sent
    · cases back <;> simp [State.lock, State.put, at_pc, landed, resume]
    · simp [State.lock, State.put, at_pc, landed]
  | stroll _ i n seq at_ parked pc here plain =>
    refine .still ?_ (fun q => rfl)
    exact contents_put_same (s := { s with count := n, parkSeq := seq }) rfl
  | takeFrom i j r rest pc front here plain =>
    exact .move r rest j (.worker ⟨i, (s.slots i).gen⟩) (by simp) front (contents_take front)
      (fun q => rfl)
  | sawRetired i at_pc retired => exact .still (by simp) (fun q => rfl)
  | foundEmpty i at_pc empty => exact .still (by simp) (fun q => rfl)
  | leave i at_pc => exact .still (contents_put_same rfl) (fun q => rfl)
  | opWalk _ t pc out still_out => exact .still rfl (fun q => rfl)
  | lockOp t i pc out free inside before left => exact .still (by simp) (fun q => rfl)
  | unlockOp t i pc inside other out => exact .still (by simp) (fun q => rfl)
  | retireStore t i at_pc => exact .still (by simp [contents_put_same]) (fun q => rfl)
  | clearRetired t i at_pc => exact .still (by simp [contents_put_same]) (fun q => rfl)
  | clearParked t i at_ parked pc was is =>
    exact .still (by simp [contents_put_same]) (fun q => rfl)
  | handOver t i at_pc => exact .still (by simp [contents_put_same]) (fun q => rfl)
  | closeTx t i pc was other is still_other =>
    refine .still (by simp) (fun q => ?_)
    unfold State.closeLane
    split <;> rfl
  | abortPark t i at_pc => exact .still (by simp [contents_put_same]) (fun q => rfl)
  | abortDrop t i r rest at_pc front =>
    exact .move r rest i .dropped (by simp) front (contents_drop front) (fun q => rfl)

def PlaceInv (s : State) : Prop :=
  ∃ loc, Located (contents s) loc ∧ ∀ r, landed (s.disp r) = (loc r).isSome

theorem initial_place_inv : PlaceInv initial := by
  refine ⟨fun _ => none, ?_, fun r => rfl⟩
  have empty : contents initial = fun _ => [] := by
    funext p
    cases p <;> rfl
  rw [empty]
  exact located_empty

theorem flow_place_inv {s s' : State} (inv : PlaceInv s) (flow : Flow s s') : PlaceInv s' := by
  obtain ⟨loc, located, known⟩ := inv
  cases flow with
  | still same others =>
    exact ⟨loc, same ▸ located, fun r => (others r).trans (known r)⟩
  | enter r i fresh now others sent =>
    have outside : loc r = none := by
      have := known r
      rw [fresh] at this
      simpa using this.symm
    refine ⟨_, sent ▸ located_enter located outside, ?_⟩
    intro q
    by_cases here : q = r
    · subst q; simp [now]
    · rw [others q here, known q, Function.update_of_ne here]
  | move r rest i q apart front moved others =>
    refine ⟨_, moved ▸ located_move located apart front, ?_⟩
    intro o
    rw [others o, known o]
    by_cases here : o = r
    · have was : loc r = some (.lane i) := located_mem located (by simp [front])
      simp [here, was]
    · rw [Function.update_of_ne here]

theorem locks_put (s : State) (i : Nat) (slot : Slot) :
    locks (s.put i slot) = Function.update (locks s) i slot.lock := by
  funext j
  by_cases same : j = i
  · subst j; simp [locks, State.put]
  · simp [locks, State.put, same]

theorem locks_put_same {s : State} {i : Nat} {slot : Slot} (same : slot.lock = (s.slots i).lock) :
    locks (s.put i slot) = locks s := by
  rw [locks_put, same]
  exact Function.update_eq_self i (locks s)

theorem locks_worker (s : State) (i : Nat) (pc : WorkerPc) : locks (s.worker i pc) = locks s :=
  locks_put_same rfl

theorem holding_goto (s : State) (r : Nat) (pc : DispatchPc) :
    holding (s.goto r pc) = Function.update (holding s) (.dispatcher r) (critical pc) := by
  funext a
  cases a with
  | dispatcher q =>
    by_cases same : q = r
    · subst q; simp [holding, State.goto]
    · simp [holding, State.goto, same]
  | operation t => simp [holding, State.goto]

theorem holding_goto_same {s : State} {r : Nat} {pc : DispatchPc}
    (same : critical pc = critical (s.disp r)) : holding (s.goto r pc) = holding s := by
  rw [holding_goto, same]
  exact Function.update_eq_self (Agent.dispatcher r) (holding s)

theorem holding_operate (s : State) (t : Nat) (pc : OpPc) :
    holding (s.operate t pc) = Function.update (holding s) (.operation t) (opCritical pc) := by
  funext a
  cases a with
  | dispatcher q => simp [holding, State.operate]
  | operation u =>
    by_cases same : u = t
    · subst u; simp [holding, State.operate]
    · simp [holding, State.operate, same]

theorem holding_operate_same {s : State} {t : Nat} {pc : OpPc}
    (same : opCritical pc = opCritical (s.ops t)) : holding (s.operate t pc) = holding s := by
  rw [holding_operate, same]
  exact Function.update_eq_self (Agent.operation t) (holding s)

theorem closeLane_same (s : State) (i : Nat) :
    locks (s.closeLane i) = locks s ∧ holding (s.closeLane i) = holding s ∧
    (s.closeLane i).ops = s.ops ∧ (s.closeLane i).disp = s.disp ∧
    ∀ j, ((s.closeLane i).slots j).retired = (s.slots j).retired ∧
      ((s.closeLane i).slots j).worker = (s.slots j).worker := by
  unfold State.closeLane
  split
  · refine ⟨locks_put_same rfl, rfl, rfl, rfl, fun j => ?_⟩
    by_cases same : j = i
    · subst j; simp [State.put]
    · simp [State.put, same]
  · exact ⟨rfl, rfl, rfl, rfl, fun j => ⟨rfl, rfl⟩⟩

inductive LockChange (s s' : State) : Prop where
  | same (locked : locks s' = locks s) (held : holding s' = holding s)
  | acquire (a : Agent) (i : Nat) (free : locks s i = none) (without : holding s a = none)
      (locked : locks s' = Function.update (locks s) i (some a))
      (held : holding s' = Function.update (holding s) a (some i))
  | release (a : Agent) (i : Nat) (inside : holding s a = some i)
      (locked : locks s' = Function.update (locks s) i none)
      (held : holding s' = Function.update (holding s) a none)

theorem step_lock_change {s s' : State} {l : Label} (moved : Move s l s') : LockChange s s' := by
  cases moved with
  | walk _ r c pc out not_yet still_out still_not =>
    exact .same rfl (holding_goto_same (s := { s with cursor := c }) (by simp [out, still_out]))
  | lockLane r p back i at_pc free =>
    refine .acquire (.dispatcher r) i free (by simp [holding, at_pc, critical]) ?_ ?_
    · exact locks_put s i _
    · exact holding_goto _ r _
  | closedLane r p back i at_pc | openLane r p back i at_pc | retiredLane r p back i at_pc
  | liveLane r p back i at_pc live | noSend r p back i at_pc =>
    exact .same rfl (holding_goto_same (by simp [at_pc, critical]))
  | send r p back i at_pc room =>
    refine .same (locks_put_same rfl) (holding_goto_same (s := s.put i _) ?_)
    simp [State.put, at_pc, critical]
  | unlockLane r p back i sent at_pc =>
    refine .release (.dispatcher r) i (by simp [holding, at_pc, critical]) (locks_put s i _) ?_
    have out : critical (if sent then .sent else resume p back) = none := by
      cases sent
      · cases back <;> rfl
      · rfl
    exact (holding_goto _ r _).trans (by rw [out]; rfl)
  | stroll _ i n seq at_ parked pc here plain =>
    exact .same (locks_put_same (s := { s with count := n, parkSeq := seq }) rfl) rfl
  | takeFrom i j r rest pc front here plain =>
    refine .same ?_ rfl
    unfold State.take
    rw [locks_worker]
    exact locks_put_same (s := s) rfl
  | sawRetired i at_pc retired => exact .same (locks_put_same rfl) rfl
  | foundEmpty i at_pc empty => exact .same (locks_put_same rfl) rfl
  | leave i at_pc => exact .same (locks_put_same rfl) rfl
  | opWalk _ t pc out still_out => exact .same rfl (holding_operate_same (by rw [out, still_out]))
  | lockOp t i pc out free inside before left =>
    refine .acquire (.operation t) i free out (locks_put s i _) ?_
    exact (holding_operate _ t pc).trans (by rw [inside]; rfl)
  | unlockOp t i pc inside other out =>
    refine .release (.operation t) i inside (locks_put s i _) ?_
    exact (holding_operate _ t pc).trans (by rw [out]; rfl)
  | retireStore t i at_pc | clearRetired t i at_pc =>
    refine .same (locks_put_same (s := s) rfl) (holding_operate_same ?_)
    simp [State.put, at_pc, opCritical]
  | clearParked t i at_ parked pc was is =>
    refine .same (locks_put_same (s := s) rfl) (holding_operate_same ?_)
    have inside : ∀ o, cleared o = some i → opCritical o = some i := by
      intro o
      cases o <;> simp [cleared, opCritical]
    simp [State.put, inside _ was, inside _ is]
  | handOver t i at_pc =>
    refine .release (.operation t) i (by simp [holding, at_pc, opCritical]) (locks_put s i _) ?_
    exact holding_operate _ t _
  | closeTx t i pc was other is still_other =>
    obtain ⟨e1, e2, e3, -⟩ := closeLane_same s i
    refine .same e1 ((holding_operate_same ?_).trans e2)
    rw [e3, was, is]
  | abortPark t i at_pc =>
    refine .same (locks_put_same (s := s) rfl) (holding_operate_same ?_)
    simp [State.put, at_pc, opCritical]
  | abortDrop t i r rest at_pc front => exact .same (locks_put_same (s := s) rfl) rfl

def LockInv (s : State) : Prop := Exclusive (locks s) (holding s)

theorem initial_lock_inv : LockInv initial := by
  intro i a
  cases a <;> simp [locks, holding, initial, Slot.new, critical, opCritical]

theorem change_lock_inv {s s' : State} (inv : LockInv s) (change : LockChange s s') :
    LockInv s' := by
  unfold LockInv at inv ⊢
  cases change with
  | same locked held =>
    rw [locked, held]
    exact inv
  | acquire a i free without locked held =>
    rw [locked, held]
    exact exclusive_acquire inv free without
  | release a i inside locked held =>
    rw [locked, held]
    exact exclusive_release inv inside

def Rests (s : State) (i : Nat) : Prop :=
  match (s.slots i).worker with
  | .lastTry => (s.slots i).retired = true
  | .unparking .retired => (s.slots i).retired = true ∧ (s.slots i).lane.buf = []
  | .left true => (s.slots i).lane.buf = [] ∧
      ((s.slots i).retired = true ∨ ∃ t, cleared (s.ops t) = some i)
  | _ => True

structure RetireInv (s : State) : Prop where
  live : ∀ r p back i, s.disp r = .sending p back i → (s.slots i).retired = false
  reset : ∀ t i, resetting (s.ops t) = some i → away (s.slots i).worker = true
  rests : ∀ i, Rests s i

theorem initial_retire_inv : RetireInv initial := by
  constructor <;> simp [initial, Slot.new, resetting, Rests]

theorem rests_of_calm {s : State} {i : Nat} (plain : calm (s.slots i).worker = true) :
    Rests s i := by
  unfold Rests
  split <;> simp_all [calm]

structure Eases (s s' : State) : Prop where
  retired : ∀ i, (s'.slots i).retired = (s.slots i).retired
  worker : ∀ i, (s'.slots i).worker = (s.slots i).worker ∨
    (away (s.slots i).worker = false ∧ calm (s'.slots i).worker = true)
  lane : ∀ i, (s.slots i).lane.buf = [] → (s'.slots i).lane.buf = []
  sending : ∀ r p back i, s'.disp r = .sending p back i → s.disp r = .sending p back i
  cleared : ∀ t, cleared (s'.ops t) = cleared (s.ops t)
  resetting : ∀ t i, resetting (s'.ops t) = some i → resetting (s.ops t) = some i

theorem Eases.trans {a b c : State} (first : Eases a b) (second : Eases b c) : Eases a c := by
  constructor
  · intro i
    exact (second.retired i).trans (first.retired i)
  · intro i
    rcases second.worker i with same | ⟨here, plain⟩
    · rw [same]
      exact first.worker i
    · rcases first.worker i with same | ⟨here', -⟩
      · exact .inr ⟨same ▸ here, plain⟩
      · exact .inr ⟨here', plain⟩
  · intro i empty
    exact second.lane i (first.lane i empty)
  · intro r p back i at_pc
    exact first.sending r p back i (second.sending r p back i at_pc)
  · intro t
    exact (second.cleared t).trans (first.cleared t)
  · intro t i begun
    exact first.resetting t i (second.resetting t i begun)

theorem eases_same {s s' : State} (slots : s'.slots = s.slots) (disp : s'.disp = s.disp)
    (ops : s'.ops = s.ops) : Eases s s' := by
  refine ⟨?_, ?_, ?_, ?_, ?_, ?_⟩
  · intro i
    rw [slots]
  · intro i
    rw [slots]
    exact .inl rfl
  · intro i empty
    rw [slots]
    exact empty
  · intro r p back i at_pc
    rw [← disp]
    exact at_pc
  · intro t
    rw [ops]
  · intro t i begun
    rw [← ops]
    exact begun

theorem eases_put {s : State} {i : Nat} {slot : Slot}
    (retired : slot.retired = (s.slots i).retired)
    (worker : slot.worker = (s.slots i).worker ∨
      (away (s.slots i).worker = false ∧ calm slot.worker = true))
    (lane : (s.slots i).lane.buf = [] → slot.lane.buf = []) : Eases s (s.put i slot) := by
  refine ⟨?_, ?_, ?_, fun _ _ _ _ at_pc => at_pc, fun _ => rfl, fun _ _ begun => begun⟩
  all_goals
    intro j
    by_cases same : j = i
    · subst j
      simpa [State.put] using by assumption
    · simp [State.put, same]

theorem eases_goto {s : State} {r : Nat} {pc : DispatchPc}
    (other : ∀ p back i, pc ≠ .sending p back i) : Eases s (s.goto r pc) := by
  refine ⟨fun _ => rfl, fun _ => .inl rfl, fun _ empty => empty, ?_, fun _ => rfl,
    fun _ _ begun => begun⟩
  intro q p back i at_pc
  by_cases same : q = r
  · subst q
    simp only [State.goto, Function.update_self] at at_pc
    exact absurd at_pc (other p back i)
  · simpa [State.goto, same] using at_pc

theorem eases_operate {s : State} {t : Nat} {pc : OpPc} (same : cleared pc = cleared (s.ops t))
    (begun : ∀ i, resetting pc = some i → resetting (s.ops t) = some i) :
    Eases s (s.operate t pc) := by
  refine ⟨fun _ => rfl, fun _ => .inl rfl, fun _ empty => empty, fun _ _ _ _ at_pc => at_pc, ?_, ?_⟩
  all_goals
    intro u
    by_cases here : u = t
    · subst u
      simpa [State.operate] using by assumption
    · simp [State.operate, here]

theorem eases_retire_inv {s s' : State} (inv : RetireInv s) (eases : Eases s s') :
    RetireInv s' := by
  constructor
  · intro r p back i at_pc
    rw [eases.retired i]
    exact inv.live r p back i (eases.sending r p back i at_pc)
  · intro t i begun
    have gone := inv.reset t i (eases.resetting t i begun)
    rcases eases.worker i with same | ⟨here, -⟩
    · rw [same]
      exact gone
    · simp [here] at gone
  · intro i
    rcases eases.worker i with same | ⟨-, plain⟩
    · have before := inv.rests i
      have lane := eases.lane i
      unfold Rests at before ⊢
      simp only [same, eases.retired i, eases.cleared]
      split
      · simpa [*] using before
      · simp only [*] at before
        exact before.imp_right lane
      · simp only [*] at before
        exact before.imp_left lane
      · trivial
    · exact rests_of_calm plain

theorem resetting_critical {pc : OpPc} {i : Nat} (begun : resetting pc = some i) :
    opCritical pc = some i := by
  cases pc <;> simp_all [resetting, opCritical]

theorem cleared_resetting {pc : OpPc} {i : Nat} (done : cleared pc = some i) :
    resetting pc = some i := by
  cases pc <;> simp_all [cleared, resetting]

theorem not_resetting {pc : OpPc} (out : opCritical pc = none) :
    resetting pc = none ∧ cleared pc = none := by
  cases pc <;> simp_all [resetting, cleared, opCritical]

theorem not_cleared {pc : OpPc} (other : resetting pc = none) : cleared pc = none := by
  cases pc <;> simp_all [resetting, cleared]

/-- Two agents cannot be inside one lane's lock. -/
theorem one_holder {s : State} (inv : LockInv s) {a b : Agent} {i : Nat}
    (first : holding s a = some i) (second : holding s b = some i) : a = b := by
  have locked := (inv i a).mpr first
  rw [(inv i b).mpr second] at locked
  exact (Option.some.inj locked).symm

/-- A dispatcher about to send has found the slot in service: its worker is not on the
    way out, and no reset is at work on it. -/
theorem sending_calm {s : State} (lock : LockInv s) (inv : RetireInv s) {r i : Nat} {p : Pass}
    {back : Resume} (at_pc : s.disp r = .sending p back i) : calm (s.slots i).worker = true := by
  have live := inv.live r p back i at_pc
  have rests := inv.rests i
  have inside : holding s (.dispatcher r) = some i := by simp [holding, at_pc, critical]
  unfold Rests at rests
  by_contra uneasy
  cases at_worker : (s.slots i).worker with
  | lastTry => simp [at_worker, live] at rests
  | unparking outcome => cases outcome <;> simp_all [calm]
  | left retired =>
    cases retired with
    | false => simp [at_worker, calm] at uneasy
    | true =>
      simp only [at_worker, live, Bool.false_eq_true, false_or] at rests
      obtain ⟨-, t, done⟩ := rests
      have other : holding s (.operation t) = some i :=
        resetting_critical (cleared_resetting done)
      simpa using one_holder lock inside other
  | _ => simp [at_worker, calm] at uneasy

/-- A change to one slot and to the operations on it is checked at that slot alone. -/
theorem local_retire_inv {s s' : State} {i : Nat} (inv : RetireInv s) (disp : s'.disp = s.disp)
    (slots : ∀ j, j ≠ i → s'.slots j = s.slots j)
    (begun : ∀ t j, j ≠ i → resetting (s'.ops t) = some j → resetting (s.ops t) = some j)
    (done : ∀ t j, j ≠ i → cleared (s.ops t) = some j → cleared (s'.ops t) = some j)
    (live : ∀ r p back, s.disp r = .sending p back i → (s'.slots i).retired = false)
    (reset : ∀ t, resetting (s'.ops t) = some i → away (s'.slots i).worker = true)
    (rests : Rests s' i) : RetireInv s' := by
  constructor
  · intro r p back j at_pc
    rw [disp] at at_pc
    by_cases same : j = i
    · subst j
      exact live r p back at_pc
    · rw [slots j same]
      exact inv.live r p back j at_pc
  · intro t j resets
    by_cases same : j = i
    · subst j
      exact reset t resets
    · rw [slots j same]
      exact inv.reset t j (begun t j same resets)
  · intro j
    by_cases same : j = i
    · subst j
      exact rests
    · have before := inv.rests j
      unfold Rests at before ⊢
      rw [slots j same]
      split
      · simpa only [*] using before
      · simpa only [*] using before
      · simp only [*] at before
        obtain ⟨empty, retired | ⟨t, cleared⟩⟩ := before
        · exact ⟨empty, .inl retired⟩
        · exact ⟨empty, .inr ⟨t, done t j same cleared⟩⟩
      · trivial

theorem put_retire_inv {s : State} {i : Nat} {slot : Slot} (inv : RetireInv s)
    (live : ∀ r p back, s.disp r = .sending p back i → slot.retired = false)
    (reset : ∀ t, resetting (s.ops t) = some i → away slot.worker = true)
    (rests : Rests (s.put i slot) i) : RetireInv (s.put i slot) := by
  refine local_retire_inv (i := i) inv rfl ?_ ?_ ?_ ?_ ?_ rests
  · intro j other
    simp [State.put, other]
  · intro t j _ begun
    exact begun
  · intro t j _ done
    exact done
  · intro r p back at_pc
    simpa [State.put] using live r p back at_pc
  · intro t begun
    simpa [State.put] using reset t begun

theorem send_retire_inv {s : State} (lock : LockInv s) (inv : RetireInv s) {r i : Nat} {p : Pass}
    {back : Resume} (at_pc : s.disp r = .sending p back i)
    (room : (s.slots i).lane.buf.length < laneDepth) :
    RetireInv ((s.put i { s.slots i with lane := (s.slots i).lane.push r room }).goto r
      (.unlocking p back i true)) := by
  have plain := sending_calm lock inv at_pc
  refine eases_retire_inv (s := s.put i _) ?_ (eases_goto (by simp))
  apply put_retire_inv inv
  · intro q p' back' at_q
    exact inv.live q p' back' i at_q
  · intro t begun
    exact inv.reset t i begun
  · exact rests_of_calm (by simpa [State.put] using plain)

theorem outward_retire_inv {s : State} (inv : RetireInv s) {i : Nat} {slot : Slot}
    (here : away (s.slots i).worker = false) (retired : slot.retired = (s.slots i).retired)
    (rests : Rests (s.put i slot) i) : RetireInv (s.put i slot) := by
  apply put_retire_inv inv _ _ rests
  · intro r p back at_pc
    rw [retired]
    exact inv.live r p back i at_pc
  · intro t begun
    have gone := inv.reset t i begun
    simp [here] at gone

theorem lockOp_retire_inv {s : State} (inv : RetireInv s) {t i : Nat} {pc : OpPc}
    (out : opCritical (s.ops t) = none) (inside : opCritical pc = some i)
    (before : cleared pc = none)
    (left : resetting pc = some i → away (s.slots i).worker = true) :
    RetireInv ((s.lock i (some (.operation t))).operate t pc) := by
  have locked : RetireInv (s.lock i (some (.operation t))) :=
    eases_retire_inv inv (eases_put rfl (.inl rfl) id)
  have same_worker : ∀ j, ((s.lock i (some (.operation t))).slots j).worker = (s.slots j).worker := by
    intro j
    by_cases same : j = i
    · subst j; simp [State.lock, State.put]
    · simp [State.lock, State.put, same]
  refine ⟨locked.live, ?_, ?_⟩
  · intro u j begun
    by_cases here : u = t
    · subst u
      simp only [State.operate, Function.update_self] at begun
      have at_i : some j = some i := (resetting_critical begun).symm.trans inside
      cases at_i
      rw [show (((s.lock i (some (.operation t))).operate t pc).slots i).worker = (s.slots i).worker from
        same_worker i]
      exact left begun
    · simp only [State.operate, Function.update_of_ne here] at begun
      exact locked.reset u j begun
  · intro j
    have was := locked.rests j
    have unchanged : ∀ u, cleared (((s.lock i (some (.operation t))).operate t pc).ops u) =
        cleared (s.ops u) := by
      intro u
      by_cases here : u = t
      · subst u
        simp [State.operate, before, (not_resetting out).2]
      · simp [State.operate, State.lock, State.put, here]
    unfold Rests at was ⊢
    simp only [unchanged]
    exact was

theorem retireStore_retire_inv {s : State} (lock : LockInv s) (inv : RetireInv s) {t i : Nat}
    (at_pc : s.ops t = .retireStore i) :
    RetireInv ((s.put i { s.slots i with retired := true }).operate t (.retireUnlock i)) := by
  have inside : holding s (.operation t) = some i := by simp [holding, at_pc, opCritical]
  refine eases_retire_inv (s := s.put i _) ?_
    (eases_operate (by simp [State.put, at_pc, cleared]) (by simp [resetting]))
  apply put_retire_inv inv
  · intro r p back at_r
    have other : holding s (.dispatcher r) = some i := by simp [holding, at_r, critical]
    simpa using one_holder lock inside other
  · intro u begun
    exact inv.reset u i begun
  · have before := inv.rests i
    unfold Rests at before ⊢
    simp only [State.put, Function.update_self]
    split <;> simp_all

theorem clearRetired_retire_inv {s : State} (inv : RetireInv s) {t i : Nat}
    (at_pc : s.ops t = .resetRetired i) :
    RetireInv ((s.put i { s.slots i with retired := false }).operate t (.resetParked i)) := by
  have gone := inv.reset t i (by simp [at_pc, resetting])
  refine local_retire_inv (i := i) inv rfl ?_ ?_ ?_ ?_ ?_ ?_
  · intro j other
    simp [State.operate, State.put, other]
  · intro u j other begun
    by_cases here : u = t
    · subst u
      simp [State.operate, resetting, Ne.symm other] at begun
    · simpa [State.operate, State.put, here] using begun
  · intro u j _ done
    by_cases here : u = t
    · subst u
      simp [at_pc, cleared] at done
    · simpa [State.operate, State.put, here] using done
  · intro r p back _
    simp [State.operate, State.put]
  · intro u _
    simpa [State.operate, State.put] using gone
  · have done : cleared (((s.put i { s.slots i with retired := false }).operate t
        (.resetParked i)).ops t) = some i := by simp [State.operate, cleared]
    have before := inv.rests i
    unfold Rests at before ⊢
    cases at_worker : (s.slots i).worker with
    | left retired =>
      cases retired with
      | true =>
        simp only [at_worker] at before
        simp only [State.operate, State.put, Function.update_self, at_worker]
        exact ⟨before.1, .inr ⟨t, done⟩⟩
      | false => simp [State.operate, State.put, at_worker]
    | _ => simp [at_worker, away] at gone

theorem handOver_retire_inv {s : State} (lock : LockInv s) (inv : RetireInv s) {t i : Nat}
    (at_pc : s.ops t = .resetHandOver i) :
    RetireInv ((s.put i { s.slots i with
      lock := none, worker := .serving, gen := (s.slots i).gen + 1 }).operate t .finished) := by
  have inside : holding s (.operation t) = some i := by simp [holding, at_pc, opCritical]
  refine local_retire_inv (i := i) inv rfl ?_ ?_ ?_ ?_ ?_ ?_
  · intro j other
    simp [State.operate, State.put, other]
  · intro u j _ begun
    by_cases here : u = t
    · subst u
      simp [State.operate, resetting] at begun
    · simpa [State.operate, State.put, here] using begun
  · intro u j other done
    by_cases here : u = t
    · subst u
      simp [at_pc, cleared, Ne.symm other] at done
    · simpa [State.operate, State.put, here] using done
  · intro r p back at_r
    simpa [State.operate, State.put] using inv.live r p back i at_r
  · intro u begun
    -- the lane's lock is this reset's own: no other reset of the slot is under way
    have other : u ≠ t := by
      intro here
      subst u
      simp [State.operate, resetting] at begun
    have was : resetting (s.ops u) = some i := by
      simpa [State.operate, State.put, other] using begun
    have again : holding s (.operation u) = some i := resetting_critical was
    have same := one_holder lock inside again
    simp_all
  · exact rests_of_calm (by simp [State.operate, State.put, calm])

theorem take_eases {s : State} {i j r : Nat} {rest : List Nat} {pc : WorkerPc}
    (front : (s.slots j).lane.buf = r :: rest) (here : away (s.slots i).worker = false)
    (plain : calm pc = true) : Eases s (s.take i j r pc) := by
  have popped : Eases s (s.put j { s.slots j with lane := (s.slots j).lane.pop }) :=
    eases_put rfl (.inl rfl) (by simp [front])
  have counted : Eases (s.put j { s.slots j with lane := (s.slots j).lane.pop })
      { s.put j { s.slots j with lane := (s.slots j).lane.pop } with
        taken := Function.update s.taken ⟨i, (s.slots i).gen⟩
          (s.taken ⟨i, (s.slots i).gen⟩ ++ [r]) } :=
    eases_same rfl rfl rfl
  refine (popped.trans counted).trans (eases_put rfl (.inr ⟨?_, plain⟩) id)
  by_cases same : i = j
  · subst j; simpa [State.put] using here
  · simpa [State.put, same] using here

theorem step_retire_inv {s s' : State} {l : Label} (lock : LockInv s) (inv : RetireInv s)
    (moved : Move s l s') : RetireInv s' := by
  cases moved with
  | walk _ r c pc out not_yet still_out still_not =>
    have turned : Eases s { s with cursor := c } := eases_same rfl rfl rfl
    refine eases_retire_inv inv (turned.trans (eases_goto ?_))
    intro p back i same
    simp [same, critical] at still_out
  | lockLane r p back i at_pc free =>
    refine eases_retire_inv (s := s.lock i _) ?_ (eases_goto (by simp))
    exact eases_retire_inv inv (eases_put rfl (.inl rfl) id)
  | closedLane r p back i at_pc | openLane r p back i at_pc | retiredLane r p back i at_pc
  | noSend r p back i at_pc => exact eases_retire_inv inv (eases_goto (by simp))
  | liveLane r p back i at_pc live =>
    refine ⟨?_, inv.reset, inv.rests⟩
    intro q p' back' j at_q
    by_cases same : q = r
    · subst q
      simp only [State.goto, Function.update_self, DispatchPc.sending.injEq] at at_q
      obtain ⟨-, -, rfl⟩ := at_q
      exact live
    · simp only [State.goto, Function.update_of_ne same] at at_q
      exact inv.live q p' back' j at_q
  | send r p back i at_pc room => exact send_retire_inv lock inv at_pc room
  | unlockLane r p back i sent at_pc =>
    refine eases_retire_inv (s := s.lock i none) ?_ (eases_goto ?_)
    · exact eases_retire_inv inv (eases_put rfl (.inl rfl) id)
    · cases sent
      · cases back <;> simp [resume]
      · simp
  | stroll _ i n seq at_ parked pc here plain =>
    have counted : Eases s { s with count := n, parkSeq := seq } := eases_same rfl rfl rfl
    exact eases_retire_inv inv (counted.trans (eases_put rfl (.inr ⟨here, plain⟩) id))
  | takeFrom i j r rest pc front here plain =>
    exact eases_retire_inv inv (take_eases front here plain)
  | sawRetired i at_pc retired =>
    refine outward_retire_inv inv (by simp [at_pc, away]) rfl ?_
    simpa [Rests, State.put] using retired
  | foundEmpty i at_pc empty =>
    have rests := inv.rests i
    simp only [Rests, at_pc] at rests
    refine outward_retire_inv inv (by simp [at_pc, away]) rfl ?_
    simpa [Rests, State.put] using ⟨rests, empty⟩
  | leave i at_pc =>
    have rests := inv.rests i
    simp only [Rests, at_pc] at rests
    refine outward_retire_inv inv (by simp [at_pc, away]) rfl ?_
    simp [Rests, State.put, rests]
  | opWalk _ t pc out still_out =>
    refine eases_retire_inv inv (eases_operate ?_ ?_)
    · rw [(not_resetting out).2, (not_resetting still_out).2]
    · intro i begun
      simp [(not_resetting still_out).1] at begun
  | lockOp t i pc out free inside before left => exact lockOp_retire_inv inv out inside before left
  | retireStore t i at_pc => exact retireStore_retire_inv lock inv at_pc
  | unlockOp t i pc inside other out =>
    refine eases_retire_inv (s := s.lock i none) ?_ (eases_operate ?_ ?_)
    · exact eases_retire_inv inv (eases_put rfl (.inl rfl) id)
    · rw [(not_resetting out).2]
      exact (not_cleared other).symm
    · intro j begun
      simp [(not_resetting out).1] at begun
  | clearRetired t i at_pc => exact clearRetired_retire_inv inv at_pc
  | clearParked t i at_ parked pc was is =>
    refine eases_retire_inv (s := s.put i _) ?_ (eases_operate ?_ ?_)
    · exact eases_retire_inv inv (eases_put rfl (.inl rfl) id)
    · exact is.trans was.symm
    · intro j begun
      rw [cleared_resetting is] at begun
      cases begun
      exact cleared_resetting was
  | handOver t i at_pc => exact handOver_retire_inv lock inv at_pc
  | closeTx t i pc was other is still_other =>
    obtain ⟨-, -, ops, disp, slots⟩ := closeLane_same s i
    have closed : Eases s (s.closeLane i) := by
      refine ⟨fun j => (slots j).1, fun j => .inl (slots j).2, ?_, ?_, ?_, ?_⟩
      · intro j empty
        have same := congrFun (contents_closeLane s i) (.lane j)
        exact same.trans empty
      · rw [disp]; exact fun _ _ _ _ at_pc => at_pc
      · rw [ops]; exact fun _ => rfl
      · rw [ops]; exact fun _ _ begun => begun
    refine eases_retire_inv inv (closed.trans (eases_operate ?_ ?_))
    · rw [ops, not_cleared other, not_cleared still_other]
    · intro j begun
      simp [still_other] at begun
  | abortPark t i at_pc =>
    refine eases_retire_inv (s := s.put i _) ?_ (eases_operate ?_ ?_)
    · exact eases_retire_inv inv (eases_put rfl (.inl rfl) id)
    · simp [State.put, at_pc, cleared]
    · simp [resetting]
  | abortDrop t i r rest at_pc front =>
    have popped : Eases s (s.put i { s.slots i with lane := (s.slots i).lane.pop }) :=
      eases_put rfl (.inl rfl) (by simp [front])
    have counted : Eases (s.put i { s.slots i with lane := (s.slots i).lane.pop })
        { s.put i { s.slots i with lane := (s.slots i).lane.pop } with
          dropped := s.dropped ++ [r] } := eases_same rfl rfl rfl
    exact eases_retire_inv inv (popped.trans counted)

structure LaneInv (s : State) : Prop where
  places : PlaceInv s
  locks : LockInv s
  retire : RetireInv s

theorem reachable_lane_inv {s : State} (reached : Reachable system s) : LaneInv s := by
  refine reachable_invariant LaneInv ?_ ?_ reached
  · intro s start
    subst s
    exact ⟨initial_place_inv, initial_lock_inv, initial_retire_inv⟩
  · intro s t l inv moved
    have move := step_move moved
    exact ⟨flow_place_inv inv.places (step_flow move),
      change_lock_inv inv.locks (step_lock_change move),
      step_retire_inv inv.locks inv.retire move⟩

theorem taken_stays {s s' : State} {l : Label} (moved : Move s l s') {p : Place} {r : Nat}
    (settled : ∀ i, p ≠ .lane i) (here : r ∈ contents s p) : r ∈ contents s' p := by
  rcases step_flow moved with ⟨same, -⟩ | ⟨q, i, -, -, -, sent⟩ | ⟨q, rest, i, o, -, -, moved, -⟩
  · rw [same]
    exact here
  · rw [sent, Function.update_of_ne (settled i)]
    exact here
  · rw [moved]
    by_cases same : p = o
    · subst p
      simp [here]
    · rw [Function.update_of_ne same, Function.update_of_ne (settled i)]
      exact here

theorem left_until_reset {s s' : State} {l : Label} {i : Nat} (moved : Move s l s')
    (gone : (s.slots i).worker = .left true) :
    (s'.slots i).worker = .left true ∨ ∃ t, l = .operate t ∧ s.ops t = .resetHandOver i := by
  have stays : ∀ j, away (s.slots j).worker = false → i ≠ j := by
    intro j here same
    subst j
    simp [gone, away] at here
  cases moved with
  | handOver t j at_pc =>
    by_cases same : i = j
    · subst j
      exact .inr ⟨t, rfl, at_pc⟩
    · left
      simpa [State.operate, State.put, same] using gone
  | stroll _ j n seq at_ parked pc here plain =>
    left
    simpa [State.put, stays j here] using gone
  | takeFrom j k r rest pc front here plain =>
    left
    by_cases same : i = k
    · subst k
      simpa [State.take, State.worker, State.put, stays j here] using gone
    · simpa [State.take, State.worker, State.put, stays j here, same] using gone
  | sawRetired j at_pc retired =>
    left
    simpa [State.worker, State.put, stays j (by simp [at_pc, away])] using gone
  | foundEmpty j at_pc empty =>
    left
    simpa [State.worker, State.put, stays j (by simp [at_pc, away])] using gone
  | leave j at_pc =>
    left
    simpa [State.put, stays j (by simp [at_pc, away])] using gone
  | closeTx t j pc was other is still_other =>
    left
    exact (((closeLane_same s j).2.2.2.2 i).2).trans gone
  | walk _ r c pc | closedLane r p back j | openLane r p back j | retiredLane r p back j
  | liveLane r p back j | noSend r p back j | opWalk _ t pc => exact .inl gone
  | lockLane r p back j | send r p back j | unlockLane r p back j | lockOp t j
  | retireStore t j | unlockOp t j | clearRetired t j | clearParked t j | abortPark t j
  | abortDrop t j =>
    left
    by_cases same : i = j
    · subst j
      simpa [State.goto, State.operate, State.lock, State.put] using gone
    · simpa [State.goto, State.operate, State.lock, State.put, same] using gone

structure LaneSafe (s : State) : Prop where
  one_place : ∀ r, s.disp r = .sent → ∃ p, ExactlyAt (contents s) r p
  settled : ∀ l s', step s l = some s' → ∀ p r, (∀ i, p ≠ .lane i) → r ∈ contents s p →
    r ∈ contents s' p
  left_empty : ∀ i, (s.slots i).worker = .left true → (s.slots i).lane.buf = []
  until_reset : ∀ i l s', (s.slots i).worker = .left true → step s l = some s' →
    (s'.slots i).worker = .left true ∨ ∃ t, l = .operate t ∧ s.ops t = .resetHandOver i

theorem lanes_lose_nothing {s : State} (reached : Reachable system s) : LaneSafe s := by
  obtain ⟨⟨loc, located, known⟩, -, retire⟩ := reachable_lane_inv reached
  constructor
  · intro r sent
    have placed := known r
    rw [sent] at placed
    obtain ⟨p, here⟩ := Option.isSome_iff_exists.mp placed.symm
    exact ⟨p, located_exactly located here⟩
  · intro l s' moved p r settled here
    exact taken_stays (step_move moved) settled here
  · intro i gone
    have rests := retire.rests i
    simp only [Rests, gone] at rests
    exact rests.1
  · intro i l s' gone moved
    exact left_until_reset (step_move moved) gone

def retireRun : List Label :=
  [Label.register, .arrive 7] ++ List.replicate 7 (Label.dispatch 7) ++
    [Label.take 0, .work 0, .take 0] ++ List.replicate 6 (Label.work 0) ++
    [Label.call 0 (.retire 0), .operate 0, .operate 0, .operate 0, .timeout 0, .work 0, .work 0,
      .work 0]

theorem retired_worker_leaves_empty_lane : ∃ s, run system initial retireRun = some s ∧
    LaneSafe s ∧ s.disp 7 = .sent ∧ contents s (.worker ⟨0, 0⟩) = [7] ∧
    (s.slots 0).worker = .left true := by
  have ran : (run system initial retireRun).map (fun s =>
      (s.disp 7, contents s (.worker ⟨0, 0⟩), (s.slots 0).worker)) =
      some (.sent, [7], .left true) := by
    decide +kernel
  obtain ⟨s, ran, seen⟩ := Option.map_eq_some_iff.mp ran
  simp only [Prod.mk.injEq] at seen
  exact ⟨s, ran, lanes_lose_nothing (reachable_run (.start rfl) ran), seen⟩

end KinoLaneSafety
