import Kino.LanePool

/-!
What becomes of a lane whose worker thread an exception ended. A ractor's supervisor
answers for every slot of a ractor that died: the requests it held, then the lane. It
learns of the death from the joins, which come to a dead thread only when no thread
before it is running. The threaded pool does nothing for the lane.
-/
namespace KinoCrashedLane
open Transitions Channels KinoLaneDispatch KinoLaneClosing KinoLanePool

/-- How far `abort_slot i` on thread `t` is: past the take the lane is closed, and at
    the end it is drained. -/
def Aborting (b : State) (t i : Nat) : Prop :=
  match b.ops t with
  | .abortLock j | .abortTake j => j = i
  | .abortUnlock j | .abortPark j | .abortDrain j => j = i ∧ laneOpen b i = false
  | .finished => laneOpen b i = false ∧ (b.slots i).lane.buf = []
  | _ => False

theorem aborting_busy {b : State} {t i : Nat} (aborting : Aborting b t i) :
    b.ops t ≠ .absent := by
  intro idle
  simp [Aborting, idle] at aborting

theorem aborting_same {b b' : State} {t i : Nat} (aborting : Aborting b t i)
    (ops : b'.ops t = b.ops t) (shut : laneOpen b i = false → laneOpen b' i = false)
    (empty : laneOpen b i = false → (b.slots i).lane.buf = [] → (b'.slots i).lane.buf = []) :
    Aborting b' t i := by
  unfold Aborting at aborting ⊢
  rw [ops]
  cases at_pc : b.ops t <;> simp only [at_pc] at aborting ⊢
  case abortLock j => exact aborting
  case abortTake j => exact aborting
  case finished => exact ⟨shut aborting.1, empty aborting.1 aborting.2⟩
  all_goals exact ⟨aborting.1, shut aborting.2⟩

theorem shut_stays {b b' : State} (fewer : ∀ j, laneOpen b' j = true → laneOpen b j = true) (i : Nat)
    (shut : laneOpen b i = false) : laneOpen b' i = false := by
  by_contra opened
  have was := fewer i (by simpa using opened)
  simp [shut] at was

theorem aborting_operate {b b' : State} {t i : Nat} (aborting : Aborting b t i)
    (moved : operate b t = some b') : Aborting b' t i := by
  have fewer := opStep_fewer (operate_step moved)
  have shut := shut_stays fewer i
  unfold Aborting at aborting ⊢
  unfold operate at moved
  cases at_pc : b.ops t with
  | abortLock j =>
    simp only [at_pc] at moved aborting
    split at moved <;> cases moved
    simpa [State.operate] using aborting
  | abortTake j =>
    simp only [at_pc] at moved aborting
    cases moved
    subst j
    simp only [State.operate, Function.update_self]
    refine ⟨trivial, ?_⟩
    change laneOpen (b.closeLane i) i = false
    rw [laneOpen_closeLane, Function.update_self]
  | abortUnlock j | abortPark j =>
    simp only [at_pc] at moved aborting
    cases moved
    simp only [State.operate, Function.update_self]
    exact ⟨aborting.1, shut aborting.2⟩
  | abortDrain j =>
    simp only [at_pc] at moved aborting
    obtain ⟨rfl, closed⟩ := aborting
    rcases Chan.tryRecv_cases (b.slots j).lane with
      ⟨r, rest, front, eq⟩ | ⟨empty, _, eq⟩ | ⟨empty, _, eq⟩ <;> simp only [eq] at moved <;> cases moved
    · simp only [State.put, at_pc]
      exact ⟨trivial, shut closed⟩
    · simp only [State.operate, Function.update_self]
      exact ⟨closed, empty⟩
    · simp only [State.operate, Function.update_self]
      exact ⟨closed, empty⟩
  | finished =>
    simp only [at_pc] at moved
    cases moved
  | _ => simp [at_pc] at aborting

theorem lane_aborting {s s' : Pool} {l : Label} {t i : Nat} (own : OwnInv s)
    (move : LaneMove s s' l) (aborting : Aborting s.base t i) : Aborting s'.base t i := by
  rcases busy_op move.moved (aborting_busy aborting) with same | mine
  · exact aborting_same aborting same (shut_stays (step_fewer move.moved) i)
      (closed_lane_empty own.base.opened move.moved)
  · exact aborting_operate aborting mine

theorem aside_aborting {s s' : Pool} {e : Event} {t i : Nat} (aside : Aside s e s')
    (aborting : Aborting s.base t i) : Aborting s'.base t i := by
  refine aborting_same aborting (aside.ops t (aborting_busy aborting)) ?_ ?_
  · intro shut
    rw [aside_lanes aside]
    exact shut
  · intro _ empty
    rw [aside.lane i]
    exact empty

/-- The pool has yet to act for slot `i`, and nothing keeps it from doing so: the ractor
    it belongs to is about to end, or its supervisor is at work on the slots. -/
def Due (mode : Mode) (s : Pool) (i : Nat) : Prop :=
  ∃ w, i ∈ pending (s.sups w) ∨
    (mode = .ractor ∧ ∃ ids k, s.sups w = .running ids ∧ i ∈ ids ∧ joined s ids = some k ∧
      s.ended k = true)

def Settled (s : Pool) (i : Nat) (held : List Nat) : Prop :=
  (∀ r, r ∈ held → s.claimed r = true) ∧ laneOpen s.base i = false ∧
    (s.base.slots i).lane.buf = []

structure CrashInv (mode : Mode) (s : Pool) : Prop where
  settled : ∀ i held, (i, held) ∈ s.settled → Settled s i held
  answering : ∀ w i todo left, s.sups w = .answering i todo left →
    ∀ r, r ∈ s.held i → r ∈ todo ∨ s.claimed r = true
  closing : ∀ w i t left, s.sups w = .closing i t left →
    (∀ r, r ∈ s.held i → s.claimed r = true) ∧ Aborting s.base t i
  placed : ∀ i, live (s.base.slots i).worker = true → ∃ w ids, s.sups w = .running ids ∧ i ∈ ids
  attended : ∀ i, s.ended i = true → laneOpen s.base i = true → Due mode s i

/-- A crash the pool can answer for. In the threaded pool it must find nothing to do:
    what the thread held is claimed and its lane is closed and empty. In a ractor no
    thread before it in the order of the joins may be running, unless its lane is closed. -/
def Answerable (mode : Mode) (s : Pool) : Event → Prop
  | .crash i =>
    match mode with
    | .threaded => Settled s i (s.held i)
    | .ractor => laneOpen s.base i = false ∨ ∀ w ids, s.sups w = .running ids → i ∈ ids →
        ∀ j, j ∈ ids.takeWhile (fun k => k ≠ i) → away (s.base.slots j).worker = true
  | _ => True

theorem joined_keeps {s s' : Pool} {ids : List Nat} {k : Nat}
    (done : ∀ j, j ∈ ids → finished s j = true → finished s' j = true) (first : joined s ids = some k)
    (dead : s'.ended k = true) : joined s' ids = some k := by
  unfold joined at first ⊢
  rw [List.find?_eq_some_iff_append] at first ⊢
  obtain ⟨-, before, after, split, finished_before⟩ := first
  refine ⟨by simp [finished, dead], before, after, split, ?_⟩
  intro j here
  have was : finished s j = true := by simpa using finished_before j here
  simpa using done j (by simp [split, here]) was

theorem joined_mem {s : Pool} {ids : List Nat} {k : Nat} (first : joined s ids = some k) :
    k ∈ ids := List.mem_of_find?_eq_some first

theorem due_keeps {mode : Mode} {s s' : Pool} {i : Nat} (due : Due mode s i)
    (kept : ∀ w, s'.sups w = s.sups w ∨ (i ∉ pending (s.sups w) ∧ (mode = .ractor → ∀ ids k,
      s.sups w = .running ids → i ∈ ids → joined s ids = some k → s.ended k = false)))
    (done : ∀ w ids j, s.sups w = .running ids → j ∈ ids → finished s j = true →
      finished s' j = true)
    (ended : ∀ w ids k, s.sups w = .running ids → k ∈ ids → s.ended k = true →
      s'.ended k = true) : Due mode s' i := by
  obtain ⟨w, here | ⟨ractor, ids, k, runs, mine, first, dead⟩⟩ := due
  · rcases kept w with same | ⟨away_, -⟩
    · exact ⟨w, .inl (by rwa [same])⟩
    · exact absurd here away_
  · rcases kept w with same | ⟨-, lives⟩
    · have still := ended w ids k runs (joined_mem first) dead
      refine ⟨w, .inr ⟨ractor, ids, k, by rwa [same], mine, ?_, still⟩⟩
      exact joined_keeps (fun j => done w ids j runs) first still
    · simp [lives ractor ids k runs mine first] at dead

theorem lane_finished {s s' : Pool} {l : Label} (own : OwnInv s) (move : LaneMove s s' l) {j : Nat}
    (over_ : finished s j = true) : finished s' j = true := by
  have ended : s'.ended = s.ended := by rw [move.rest]
  unfold finished at over_ ⊢
  simp only [Bool.and_eq_true] at over_ ⊢
  refine ⟨?_, by rw [ended]; exact over_.2⟩
  rcases (step_thread own.base.steady move.fresh move.moved j).worker with same | ⟨going, -⟩
  · rw [same]
    exact over_.1
  · simp [away_live over_.1] at going

theorem lane_crash_inv {mode : Mode} {s s' : Pool} {l : Label} (own : OwnInv s)
    (inv : CrashInv mode s) (move : LaneMove s s' l) : CrashInv mode s' := by
  have threads := step_thread own.base.steady move.fresh move.moved
  have shut := shut_stays (step_fewer move.moved)
  have sups : s'.sups = s.sups := by rw [move.rest]
  have ended : s'.ended = s.ended := by rw [move.rest]
  have claimed : s'.claimed = s.claimed := by rw [move.rest]
  have settled : s'.settled = s.settled := by rw [move.rest]
  have held : ∀ w i, i ∈ pending (s.sups w) → s'.held i = s.held i := by
    intro w i here
    rcases move.held i with same | going
    · exact same
    · simp [away_live (own.fallen w i here)] at going
  constructor
  · intro i before here
    rw [settled] at here
    obtain ⟨answered, closed, empty⟩ := inv.settled i before here
    refine ⟨by rw [claimed]; exact answered, shut i closed, ?_⟩
    exact closed_lane_empty own.base.opened move.moved closed empty
  · intro w i todo left at_pc
    rw [sups] at at_pc
    rw [held w i (by simp [at_pc, pending]), claimed]
    exact inv.answering w i todo left at_pc
  · intro w i t left at_pc
    rw [sups] at at_pc
    have before := inv.closing w i t left at_pc
    rw [held w i (by simp [at_pc, pending]), claimed]
    exact ⟨before.1, lane_aborting own move before.2⟩
  · intro i going
    rw [sups]
    apply inv.placed
    rcases (threads i).worker with same | ⟨before, -⟩
    · rwa [same] at going
    · exact before
  · intro i dead opened
    rw [ended] at dead
    have due := inv.attended i dead (step_fewer move.moved i opened)
    refine due_keeps due (fun w => .inl (by rw [sups])) ?_ ?_
    · intro w ids j _ _ over_
      exact lane_finished own move over_
    · intro w ids k _ _ gone
      rw [ended]
      exact gone

theorem aside_crash_inv {mode : Mode} {s s' : Pool} {e : Event} (inv : CrashInv mode s)
    (aside : Aside s e s') (claimed : ∀ r, s.claimed r = true → s'.claimed r = true)
    (settled : ∀ i held, (i, held) ∈ s'.settled → (i, held) ∈ s.settled ∨ Settled s' i held)
    (answering : ∀ w i todo left, s'.sups w = .answering i todo left →
      (s.sups w = .answering i todo left ∧ s'.held i = s.held i) ∨
        ∀ r, r ∈ s'.held i → r ∈ todo ∨ s'.claimed r = true)
    (closing : ∀ w i t left, s'.sups w = .closing i t left →
      (s.sups w = .closing i t left ∧ s'.held i = s.held i) ∨
        ((∀ r, r ∈ s'.held i → s'.claimed r = true) ∧ Aborting s'.base t i))
    (placed : ∀ i, live (s'.base.slots i).worker = true →
      ∃ w ids, s'.sups w = .running ids ∧ i ∈ ids)
    (attended : ∀ i, s'.ended i = true → laneOpen s.base i = true → Due mode s' i) :
    CrashInv mode s' := by
  have lanes := aside_lanes aside
  constructor
  · intro i held here
    rcases settled i held here with before | now
    · obtain ⟨answered, closed, empty⟩ := inv.settled i held before
      refine ⟨fun r mine => claimed r (answered r mine), by rw [lanes]; exact closed, ?_⟩
      rw [aside.lane i]
      exact empty
    · exact now
  · intro w i todo left at_pc r mine
    rcases answering w i todo left at_pc with ⟨before, same⟩ | now
    · rw [same] at mine
      exact (inv.answering w i todo left before r mine).imp_right (claimed r)
    · exact now r mine
  · intro w i t left at_pc
    rcases closing w i t left at_pc with ⟨before, same⟩ | now
    · obtain ⟨answered, aborting⟩ := inv.closing w i t left before
      rw [same]
      exact ⟨fun r mine => claimed r (answered r mine), aside_aborting aside aborting⟩
    · exact now
  · exact placed
  · intro i dead opened
    rw [lanes] at opened
    exact attended i dead opened

structure Crashed (s s' : Pool) (i : Nat) : Prop where
  serving : (s.base.slots i).worker = .serving
  base : s'.base = s.base.worker i (.left false)
  ended : s'.ended = Function.update s.ended i true
  sups : s'.sups = s.sups
  held : s'.held = s.held
  claimed : s'.claimed = s.claimed

theorem crash_crashed {mode : Mode} {s s' : Pool} {i : Nat} (moved : crash mode s i = some s') :
    Crashed s s' i := by
  unfold crash at moved
  split at moved
  · next serving => cases mode <;> cases moved <;> exact ⟨serving, rfl, rfl, rfl, rfl, rfl⟩
  · cases moved

theorem crashed_worker {s s' : Pool} {i : Nat} (died : Crashed s s' i) (j : Nat) :
    (s'.base.slots j).worker = if j = i then .left false else (s.base.slots j).worker := by
  rw [died.base]
  by_cases same : j = i
  · simp [State.worker, State.put, same]
  · simp [State.worker, State.put, same]

theorem crashed_finished {s s' : Pool} {i : Nat} (died : Crashed s s' i) (j : Nat) :
    finished s' j = finished s j := by
  unfold finished
  rw [crashed_worker died, died.ended]
  by_cases same : j = i
  · simp [same, died.serving, away]
  · simp [same]

/-- The joins come to a dead thread when every thread before this one is out. -/
theorem crashed_due {mode : Mode} {s s' : Pool} {i w : Nat} {ids : List Nat}
    (ractor : mode = .ractor) (died : Crashed s s' i) (runs : s.sups w = .running ids)
    (mine : i ∈ ids)
    (before : ∀ j, j ∈ ids.takeWhile (fun k => k ≠ i) → away (s.base.slots j).worker = true) :
    Due mode s' i := by
  have dead : s'.ended i = true := by rw [died.ended, Function.update_self]
  have stuck : finished s' i = false := by simp [finished, dead]
  cases first : joined s' ids with
  | none =>
    unfold joined at first
    rw [List.find?_eq_none] at first
    exact absurd (first i mine) (by simp [stuck])
  | some k =>
    refine ⟨w, .inr ⟨ractor, ids, k, by rw [died.sups]; exact runs, mine, first, ?_⟩⟩
    by_cases here : k = i
    · rw [here]
      exact dead
    · -- a thread before `i` that is out and did not finish was ended
      unfold joined at first
      rw [List.find?_eq_some_iff_append] at first
      obtain ⟨unfinished, front, back, split, done⟩ := first
      have early : k ∈ ids.takeWhile (fun j => j ≠ i) := by
        have passed : ∀ j, j ∈ front → decide (j ≠ i) = true := by
          intro j inside
          have := done j inside
          simp only [decide_eq_true_eq]
          intro same
          simp [same, stuck] at this
        rw [split, List.takeWhile_append_of_pos passed]
        simp [here]
      have out := before k early
      have was : finished s k = false := by
        rw [← crashed_finished died]
        simpa using unfinished
      rw [died.ended, Function.update_of_ne here]
      simpa [finished, out] using was

theorem crash_crash_inv {mode : Mode} {s s' : Pool} {i : Nat}
    (inv : CrashInv mode s) (allowed : Answerable mode s (.crash i))
    (moved : crash mode s i = some s') : CrashInv mode s' := by
  have died := crash_crashed moved
  have aside := crash_aside moved
  refine aside_crash_inv inv aside (by rw [died.claimed]; exact fun _ => id) ?_ ?_ ?_ ?_ ?_
  · intro j held here
    unfold crash at moved
    rw [if_pos died.serving] at moved
    cases mode with
    | ractor =>
      cases moved
      exact .inl here
    | threaded =>
      cases moved
      rcases List.mem_append.mp here with before | new
      · exact .inl before
      · refine .inr ?_
        simp only [List.mem_singleton, Prod.mk.injEq] at new
        obtain ⟨rfl, rfl⟩ := new
        obtain ⟨answered, closed, empty⟩ := allowed
        refine ⟨answered, ?_, ?_⟩
        · rw [aside_lanes aside]
          exact closed
        · rw [aside.lane j]
          exact empty
  · intro w j todo left at_pc
    rw [died.sups] at at_pc
    exact .inl ⟨at_pc, by rw [died.held]⟩
  · intro w j t left at_pc
    rw [died.sups] at at_pc
    exact .inl ⟨at_pc, by rw [died.held]⟩
  · intro j going
    rw [died.sups]
    rw [crashed_worker died] at going
    split at going
    · simp [live, away] at going
    · exact inv.placed j going
  · intro j dead opened
    by_cases same : j = i
    · subst j
      cases mode with
      | threaded => simp [allowed.2.1] at opened
      | ractor =>
        rcases allowed with closed | before
        · simp [closed] at opened
        · obtain ⟨w, ids, runs, mine⟩ := inv.placed i (by simp [died.serving, live, away])
          exact crashed_due rfl died runs mine (before w ids runs mine)
    · rw [died.ended, Function.update_of_ne same] at dead
      refine due_keeps (inv.attended j dead opened) (fun w => .inl (by rw [died.sups])) ?_ ?_
      · intro w ids k _ _ over_
        rw [crashed_finished died]
        exact over_
      · intro w ids k _ _ gone
        rw [died.ended]
        by_cases here : k = i
        · simp [here]
        · rw [Function.update_of_ne here]
          exact gone

theorem goto_crash_inv {mode : Mode} {s s' : Pool} {e : Event} {w : Nat} {pc : Sup}
    (inv : CrashInv mode s) (aside : Aside s e s') (sups : s'.sups = Function.update s.sups w pc)
    (held : ∀ v i, v ≠ w → i ∈ pending (s.sups v) → s'.held i = s.held i)
    (claimed : s'.claimed = s.claimed) (settled : s'.settled = s.settled)
    (answering : ∀ i todo left, pc = .answering i todo left →
      ∀ r, r ∈ s'.held i → r ∈ todo ∨ s'.claimed r = true)
    (closing : ∀ i t left, pc = .closing i t left →
      (∀ r, r ∈ s'.held i → s'.claimed r = true) ∧ Aborting s'.base t i)
    (placed : ∀ i, live (s'.base.slots i).worker = true →
      ∃ w ids, s'.sups w = .running ids ∧ i ∈ ids)
    (attended : ∀ i, s'.ended i = true → laneOpen s.base i = true → Due mode s' i) :
    CrashInv mode s' := by
  have at_sup : ∀ v, s'.sups v = if v = w then pc else s.sups v := by
    intro v
    rw [sups]
    by_cases same : v = w <;> simp [same]
  refine aside_crash_inv inv aside (by rw [claimed]; exact fun _ => id) ?_ ?_ ?_ placed attended
  · intro i before here
    rw [settled] at here
    exact .inl here
  · intro v i todo left at_pc
    rw [at_sup] at at_pc
    split at at_pc
    · exact .inr (answering i todo left at_pc)
    · next other => exact .inl ⟨at_pc, held v i other (by simp [at_pc, pending])⟩
  · intro v i t left at_pc
    rw [at_sup] at at_pc
    split at at_pc
    · exact .inr (closing i t left at_pc)
    · next other => exact .inl ⟨at_pc, held v i other (by simp [at_pc, pending])⟩

theorem joined_clean {mode : Mode} {s s' : Pool} {w : Nat} {retired : Bool}
    (moved : join mode s w retired = some s') :
    (∃ ids r, s.sups w = .running ids ∧ (∀ i, i ∈ ids → away (s.base.slots i).worker = true) ∧
      (mode = .ractor → joined s ids = none) ∧ s' = (giveBack s ids r).goto w .gone) ∨
    ∃ ids, mode = .ractor ∧ s.sups w = .running ids ∧
      s' = (endRactor s ids).goto w (.aborting ids) := by
  unfold join at moved
  split at moved
  · next ids at_pc =>
    split at moved
    · next all_done =>
      cases moved
      refine .inl ⟨ids, retired, at_pc, ?_, fun _ => all_done, rfl⟩
      intro i here
      unfold joined at all_done
      rw [List.find?_eq_none] at all_done
      have done : finished s i = true := by simpa using all_done i here
      unfold finished at done
      simp only [Bool.and_eq_true] at done
      exact done.1
    · split at moved <;> cases moved
      exact .inr ⟨ids, rfl, at_pc, rfl⟩
  · next ids at_pc =>
    split at moved
    · next none_alive =>
      cases moved
      exact .inl ⟨ids, true, at_pc, none_alive.2, by simp, rfl⟩
    · cases moved
  · cases moved

theorem giveBack_same (s : Pool) (ids : List Nat) (retired : Bool) :
    (giveBack s ids retired).base = s.base ∧ (giveBack s ids retired).ended = s.ended ∧
    (giveBack s ids retired).sups = s.sups ∧ (giveBack s ids retired).held = s.held ∧
    (giveBack s ids retired).claimed = s.claimed ∧ (giveBack s ids retired).settled = s.settled := by
  cases retired <;> exact ⟨rfl, rfl, rfl, rfl, rfl, rfl⟩

theorem leave_crash_inv {mode : Mode} {s : Pool} {w : Nat} {ids : List Nat} {retired r : Bool}
    (inv : CrashInv mode s) (runs : s.sups w = .running ids)
    (out : ∀ i, i ∈ ids → away (s.base.slots i).worker = true)
    (done : mode = .ractor → joined s ids = none)
    (aside : Aside s (.join w retired) ((giveBack s ids r).goto w .gone)) :
    CrashInv mode ((giveBack s ids r).goto w .gone) := by
  obtain ⟨base, ended, sups, held, claimed, settled⟩ := giveBack_same s ids r
  have at_sup : ∀ v, ((giveBack s ids r).goto w .gone).sups v = if v = w then .gone else s.sups v := by
    intro v
    rw [goto_sups, sups]
  refine goto_crash_inv inv aside (by rw [← sups]; rfl) (fun _ _ _ _ => congrFun held _) claimed settled
    (by simp) (by simp) ?_ ?_
  · intro i going
    have before : live (s.base.slots i).worker = true := by rw [← base]; exact going
    obtain ⟨v, others, at_pc, mine⟩ := inv.placed i before
    refine ⟨v, others, ?_, mine⟩
    rw [at_sup]
    split
    · next same =>
      subst v
      rw [runs] at at_pc
      cases at_pc
      simp [away_live (out i mine)] at before
    · exact at_pc
  · intro i dead opened
    have was : s.ended i = true := by rw [← ended]; exact dead
    refine due_keeps (inv.attended i was opened) ?_ ?_ ?_
    · intro v
      rw [at_sup]
      split
      · next same =>
        subst v
        refine .inr ⟨by simp [runs, pending], ?_⟩
        intro ractor others k at_pc _ first
        rw [runs] at at_pc
        cases at_pc
        simp [done ractor] at first
      · exact .inl rfl
    · intro v others j _ _ over_
      have same : finished ((giveBack s ids r).goto w .gone) j = finished s j := by
        simp only [finished, Pool.goto, base, ended]
      rw [same]
      exact over_
    · intro v others k _ _ gone
      simp only [Pool.goto, ended]
      exact gone

theorem endRactor_finished (s : Pool) (ids : List Nat) (j : Nat) :
    finished (endRactor s ids) j = finished s j := by
  by_cases killed : j ∈ ids.filter fun k => !finished s k
  · have before : finished s j = false := by simpa using (List.mem_filter.mp killed).2
    have dead : (endRactor s ids).ended j = true := by
      simp only [endRactor]
      rw [if_pos killed]
    simp [finished, dead] at before ⊢
    exact before
  · have worker : ((endRactor s ids).base.slots j) = s.base.slots j := by
      simp only [endRactor, setWorkers, killed, if_false]
    unfold finished
    rw [worker]
    simp only [endRactor, killed, if_false]

theorem end_crash_inv {s : Pool} {w : Nat} {ids : List Nat} {retired : Bool}
    (inv : CrashInv .ractor s) (runs : s.sups w = .running ids)
    (aside : Aside s (.join w retired) ((endRactor s ids).goto w (.aborting ids))) :
    CrashInv .ractor ((endRactor s ids).goto w (.aborting ids)) := by
  have at_sup : ∀ v, ((endRactor s ids).goto w (.aborting ids)).sups v =
      if v = w then .aborting ids else s.sups v := fun v => goto_sups _ w v _
  refine goto_crash_inv inv aside rfl (fun _ _ _ _ => rfl) rfl rfl (by simp) (by simp) ?_ ?_
  · intro i going
    by_cases mine : i ∈ ids
    · have out := endRactor_away (s := s) mine
      simp only [Pool.goto] at going
      simp [away_live out] at going
    · have same : ((endRactor s ids).base.slots i) = s.base.slots i := by
        simp [endRactor, setWorkers, mine]
      simp only [Pool.goto, same] at going
      obtain ⟨v, others, at_pc, here⟩ := inv.placed i going
      refine ⟨v, others, ?_, here⟩
      rw [at_sup]
      split
      · next own =>
        subst v
        rw [runs] at at_pc
        cases at_pc
        exact absurd here mine
      · exact at_pc
  · intro i dead opened
    by_cases mine : i ∈ ids
    · exact ⟨w, .inl (by rw [at_sup, if_pos rfl]; exact mine)⟩
    · have was : s.ended i = true := by simpa [Pool.goto, endRactor, mine] using dead
      refine due_keeps (inv.attended i was opened) ?_ ?_ ?_
      · intro v
        rw [at_sup]
        split
        · next own =>
          subst v
          refine .inr ⟨by simp [runs, pending], ?_⟩
          intro _ others k at_pc here
          rw [runs] at at_pc
          cases at_pc
          exact absurd here mine
        · exact .inl rfl
      · intro v others j _ _ over_
        have same : finished ((endRactor s ids).goto w (.aborting ids)) j = finished s j :=
          endRactor_finished s ids j
        rw [same]
        exact over_
      · intro v others k _ _ gone
        simp only [Pool.goto, endRactor]
        split
        · rfl
        · exact gone

theorem pending_listed {pc : Sup} {i : Nat} (here : i ∈ pending pc) : i ∈ listed pc := by
  cases pc <;> simp_all [pending, listed]

theorem claim_crash_inv {mode : Mode} {s s₁ : Pool} {w i : Nat} {pc : WorkerPc} {next : Sup}
    (own : OwnInv s) (inv : CrashInv mode s) (took : Claimed s s₁ w pc i)
    (aside : Aside s (.claim w) (s₁.goto w next)) (quiet : pending (s.sups w) = [])
    (spawns : mode = .ractor → ∀ ids, s.sups w ≠ .running ids)
    (started : live pc = true → next = .running (listed (s.sups w) ++ [i]))
    (grows : ∀ ids, s.sups w = .running ids → next = .running (ids ++ [i]))
    (calm : (∀ j todo left, next ≠ .answering j todo left) ∧ ∀ j t left, next ≠ .closing j t left) :
    CrashInv mode (s₁.goto w next) := by
  obtain ⟨sups, -, -, claimed, settled, -⟩ := took.rest
  have at_sup : ∀ v, (s₁.goto w next).sups v = if v = w then next else s.sups v := by
    intro v
    rw [goto_sups, sups]
  have apart : ∀ v j, j ∈ listed (s.sups v) → j ≠ i := fun v j => claimed_unowned own took
  refine goto_crash_inv inv aside (by rw [← sups]; rfl) ?_ claimed settled ?_ ?_ ?_ ?_
  · intro v j _ here
    exact (took.others j (apart v j (pending_listed here))).2
  · intro j todo left at_pc
    exact absurd at_pc (calm.1 j todo left)
  · intro j t left at_pc
    exact absurd at_pc (calm.2 j t left)
  · intro j going
    simp only [Pool.goto] at going
    by_cases same : j = i
    · subst j
      rw [took.worker] at going
      exact ⟨w, _, by rw [at_sup, if_pos rfl]; exact started going, by simp⟩
    · rw [took.slots j same] at going
      obtain ⟨v, ids, runs, mine⟩ := inv.placed j going
      by_cases here : v = w
      · subst v
        exact ⟨w, _, by rw [at_sup, if_pos rfl]; exact grows ids runs, by simp [mine]⟩
      · exact ⟨v, ids, by rw [at_sup, if_neg here]; exact runs, mine⟩
  · intro j dead opened
    simp only [Pool.goto] at dead
    have other : j ≠ i := by
      intro same
      subst j
      simp [took.ended] at dead
    rw [(took.others j other).1] at dead
    refine due_keeps (inv.attended j dead opened) ?_ ?_ ?_
    · intro v
      rw [at_sup]
      split
      · next here =>
        subst v
        exact .inr ⟨by simp [quiet], fun ractor ids k runs => absurd runs (spawns ractor ids)⟩
      · exact .inl rfl
    · intro v ids k runs mine over_
      have away_ : k ≠ i := apart v k (by rw [runs]; exact mine)
      simp only [finished, Pool.goto]
      rw [took.slots k away_, (took.others k away_).1]
      exact over_
    · intro v ids k runs mine gone
      have away_ : k ≠ i := apart v k (by rw [runs]; exact mine)
      simp only [Pool.goto]
      rw [(took.others k away_).1]
      exact gone

theorem launch_crash_inv {mode : Mode} {s : Pool} {w : Nat} {got : List Nat} (own : OwnInv s)
    (inv : CrashInv mode s) (claims : s.sups w = .claiming got)
    (aside : Aside s (.launch w)
      ({ s with base := setWorkers s.base got .serving }.goto w (.running got))) :
    CrashInv mode ({ s with base := setWorkers s.base got .serving }.goto w (.running got)) := by
  have at_sup : ∀ v, ({ s with base := setWorkers s.base got .serving }.goto w (.running got)).sups v =
      if v = w then .running got else s.sups v := fun v => goto_sups _ w v _
  refine goto_crash_inv inv aside rfl (fun _ _ _ _ => rfl) rfl rfl (by simp) (by simp) ?_ ?_
  · intro i going
    by_cases mine : i ∈ got
    · exact ⟨w, got, by rw [at_sup, if_pos rfl], mine⟩
    · have before : live (s.base.slots i).worker = true := by
        simpa [Pool.goto, setWorkers, mine] using going
      obtain ⟨v, ids, runs, here⟩ := inv.placed i before
      refine ⟨v, ids, ?_, here⟩
      rw [at_sup]
      split
      · next same =>
        subst v
        simp [claims] at runs
      · exact runs
  · intro i dead opened
    refine due_keeps (inv.attended i dead opened) ?_ ?_ ?_
    · intro v
      rw [at_sup]
      split
      · next same =>
        subst v
        exact .inr ⟨by simp [claims, pending], fun _ ids k runs => by simp [claims] at runs⟩
      · exact .inl rfl
    · intro v ids k _ _ over_
      have unset : k ∉ got := by
        intro given
        simp [finished, own.unstarted w got k claims given, away] at over_
      simpa [finished, Pool.goto, setWorkers, unset] using over_
    · intro v ids k _ _ gone
      exact gone

/-- The supervisor's own steps: the threads and the other workers stay as they are. -/
theorem goto_due {mode : Mode} {s s' : Pool} {w i : Nat} {pc : Sup} (due : Due mode s i)
    (sups : s'.sups = Function.update s.sups w pc) (slots : s'.base.slots = s.base.slots)
    (ended : s'.ended = s.ended) (quiet : ∀ ids, s.sups w ≠ .running ids)
    (kept : i ∈ pending (s.sups w) → i ∈ pending pc) : Due mode s' i := by
  have still : ∀ v, v ≠ w → s'.sups v = s.sups v := by
    intro v other
    rw [sups, Function.update_of_ne other]
  have same : ∀ j, finished s' j = finished s j := by
    intro j
    simp only [finished, slots, ended]
  obtain ⟨v, here | ⟨ractor, ids, k, runs, mine, first, dead⟩⟩ := due
  · by_cases own : v = w
    · subst v
      exact ⟨w, .inl (by rw [sups, Function.update_self]; exact kept here)⟩
    · exact ⟨v, .inl (by rw [still v own]; exact here)⟩
  · have own : v ≠ w := by
      intro here
      subst v
      exact quiet ids runs
    refine ⟨v, .inr ⟨ractor, ids, k, by rw [still v own]; exact runs, mine, ?_, by rwa [ended]⟩⟩
    refine joined_keeps ?_ first (by rwa [ended])
    intro j _ over_
    rw [same]
    exact over_

theorem goto_placed {mode : Mode} {s s' : Pool} {w : Nat} {pc : Sup} (inv : CrashInv mode s)
    (sups : s'.sups = Function.update s.sups w pc) (slots : s'.base.slots = s.base.slots)
    (quiet : ∀ ids, s.sups w ≠ .running ids) (i : Nat)
    (going : live (s'.base.slots i).worker = true) :
    ∃ w ids, s'.sups w = .running ids ∧ i ∈ ids := by
  rw [slots] at going
  obtain ⟨v, ids, runs, mine⟩ := inv.placed i going
  have other : v ≠ w := by
    intro here
    subst v
    exact quiet ids runs
  exact ⟨v, ids, by rw [sups, Function.update_of_ne other]; exact runs, mine⟩

/-- A supervisor that watches no ractor takes a step of its own, and forgets no thread that it
    has to answer for. -/
theorem turn_crash_inv {mode : Mode} {s s' : Pool} {e : Event} {w : Nat} {pc : Sup}
    (inv : CrashInv mode s) (aside : Aside s e s') (sups : s'.sups = Function.update s.sups w pc)
    (slots : s'.base.slots = s.base.slots) (ended : s'.ended = s.ended) (held : s'.held = s.held)
    (claimed : s'.claimed = s.claimed) (settled : s'.settled = s.settled)
    (quiet : ∀ ids, s.sups w ≠ .running ids) (kept : ∀ i, i ∈ pending (s.sups w) → i ∈ pending pc)
    (answering : ∀ i todo left, pc = .answering i todo left →
      ∀ r, r ∈ s'.held i → r ∈ todo ∨ s'.claimed r = true)
    (closing : ∀ i t left, pc = .closing i t left →
      (∀ r, r ∈ s'.held i → s'.claimed r = true) ∧ Aborting s'.base t i) : CrashInv mode s' := by
  refine goto_crash_inv inv aside sups (fun _ i _ _ => congrFun held i) claimed settled answering
    closing (goto_placed inv sups slots quiet) ?_
  intro i dead opened
  rw [ended] at dead
  exact goto_due (inv.attended i dead opened) sups slots ended quiet (kept i)

theorem react_crash_inv {mode : Mode} {s s' : Pool} {w t : Nat} (inv : CrashInv mode s)
    (moved : react s w t = some s') : CrashInv mode s' := by
  have aside := react_aside moved
  unfold react at moved
  split at moved
  · next i left at_pc =>
    cases moved
    refine turn_crash_inv inv aside rfl rfl rfl rfl rfl rfl (by simp [at_pc])
      (by simp [at_pc, pending]) ?_ (by simp)
    intro j todo rest same r mine
    simp only [Sup.answering.injEq] at same
    obtain ⟨rfl, rfl, rfl⟩ := same
    exact .inl mine
  · next i r todo left at_pc =>
    cases moved
    have claimed : ∀ q, s.claimed q = true → Function.update s.claimed r true q = true := by
      intro q was
      by_cases same : q = r
      · simp [same]
      · rwa [Function.update_of_ne same]
    refine aside_crash_inv inv aside claimed (fun _ _ here => .inl here) ?_ ?_
      (goto_placed inv rfl rfl (by simp [at_pc])) ?_
    · intro v j rest later at_v
      rw [goto_sups] at at_v
      split at at_v
      · refine .inr ?_
        simp only [Sup.answering.injEq] at at_v
        obtain ⟨rfl, rfl, rfl⟩ := at_v
        intro q mine
        rcases inv.answering w i (r :: todo) left at_pc q mine with queued | done
        · rcases List.mem_cons.mp queued with now | later
          · exact .inr (by simp [Pool.goto, now])
          · exact .inl later
        · exact .inr (claimed q done)
      · exact .inl ⟨at_v, rfl⟩
    · intro v j u later at_v
      rw [goto_sups] at at_v
      split at at_v
      · cases at_v
      · exact .inl ⟨at_v, rfl⟩
    · intro j dead opened
      exact goto_due (inv.attended j dead opened) rfl rfl rfl (by simp [at_pc])
        (by simp [at_pc, pending])
  · next i left at_pc =>
    split at moved <;> cases moved
    refine turn_crash_inv inv aside rfl rfl rfl rfl rfl rfl (by simp [at_pc])
      (by simp [at_pc, pending]) (by simp) ?_
    intro j u rest same
    simp only [Sup.closing.injEq] at same
    obtain ⟨rfl, rfl, rfl⟩ := same
    refine ⟨?_, ?_⟩
    · intro q mine
      exact (inv.answering w i [] left at_pc q mine).resolve_left List.not_mem_nil
    · simp [Aborting, Pool.goto, State.operate]
  · next i u left at_pc =>
    split at moved <;> cases moved
    next returned =>
    obtain ⟨answered, aborting⟩ := inv.closing w i u left at_pc
    simp only [Aborting, returned] at aborting
    refine aside_crash_inv inv aside (fun _ => id) ?_ ?_ ?_
      (goto_placed inv rfl rfl (by simp [at_pc])) ?_
    · intro j before here
      simp only [Pool.goto, List.mem_append, List.mem_singleton, Prod.mk.injEq] at here
      rcases here with old | ⟨rfl, rfl⟩
      · exact .inl old
      · exact .inr ⟨answered, aborting⟩
    · intro v j todo later at_v
      rw [goto_sups] at at_v
      split at at_v
      · cases at_v
      · exact .inl ⟨at_v, rfl⟩
    · intro v j q later at_v
      rw [goto_sups] at at_v
      split at at_v
      · cases at_v
      · exact .inl ⟨at_v, rfl⟩
    · intro j dead opened
      refine goto_due (inv.attended j dead opened) rfl rfl rfl (by simp [at_pc]) ?_
      intro here
      simp only [at_pc, pending, List.mem_cons] at here ⊢
      refine here.resolve_left ?_
      intro same
      subst j
      simp [aborting.1] at opened
  · next at_pc =>
    cases moved
    exact turn_crash_inv inv aside rfl rfl rfl rfl rfl rfl (by simp [at_pc])
      (by simp [at_pc, pending]) (by simp) (by simp)
  · next at_pc =>
    cases moved
    refine turn_crash_inv inv aside rfl rfl rfl rfl rfl rfl (by simp [at_pc])
      (by simp [at_pc, pending]) ?_ ?_
    · cases s.draining <;> simp
    · cases s.draining <;> simp
  · cases moved

theorem same_crash_inv {mode : Mode} {s s' : Pool} {e : Event} (inv : CrashInv mode s)
    (aside : Aside s e s') (slots : s'.base.slots = s.base.slots) (sups : s'.sups = s.sups)
    (ended : s'.ended = s.ended) (held : s'.held = s.held) (settled : s'.settled = s.settled)
    (claimed : ∀ r, s.claimed r = true → s'.claimed r = true) : CrashInv mode s' := by
  refine aside_crash_inv inv aside claimed ?_ ?_ ?_ ?_ ?_
  · intro i before here
    rw [settled] at here
    exact .inl here
  · intro w i todo left at_pc
    exact .inl ⟨by rwa [sups] at at_pc, by rw [held]⟩
  · intro w i t left at_pc
    exact .inl ⟨by rwa [sups] at at_pc, by rw [held]⟩
  · rw [sups, slots]
    exact inv.placed
  · intro i dead opened
    rw [ended] at dead
    refine due_keeps (inv.attended i dead opened) (fun w => .inl (by rw [sups])) ?_ ?_
    · intro w ids j _ _ over_
      simpa only [finished, slots, ended] using over_
    · intro w ids k _ _ gone
      rw [ended]
      exact gone

theorem step_crash_inv {mode : Mode} {s s' : Pool} {e : Event} (own : OwnInv s)
    (inv : CrashInv mode s) (allowed : Answerable mode s e)
    (moved : poolStep mode s e = some s') : CrashInv mode s' := by
  rcases lane_or_aside own moved with ⟨l, rfl, move⟩ | aside
  · exact lane_crash_inv own inv move
  · cases e with
    | lane l => exact lane_crash_inv own inv (laneStep_move moved)
    | respond r =>
      cases moved
      refine same_crash_inv inv aside rfl rfl rfl rfl rfl ?_
      intro q was
      by_cases same : q = r
      · simp [same]
      · simpa [same] using was
    | supervise w =>
      simp only [poolStep] at moved
      split at moved <;> cases moved
      next absent =>
      refine turn_crash_inv inv aside rfl rfl rfl rfl rfl rfl (by simp [absent])
        (by simp [absent, pending]) ?_ ?_
      · cases mode <;> simp
      · cases mode <;> simp
    | claim w =>
      simp only [poolStep] at moved
      split at moved
      · next got at_pc =>
        obtain ⟨⟨i, s₁⟩, took, rfl⟩ := Option.map_eq_some_iff.mp moved
        exact claim_crash_inv own inv (claimSlot_claimed own took) aside (by simp [at_pc, pending])
          (by simp [at_pc]) (by simp [live]) (by simp [at_pc]) (by simp)
      · next ids at_pc =>
        obtain ⟨⟨i, s₁⟩, took, rfl⟩ := Option.map_eq_some_iff.mp moved
        exact claim_crash_inv own inv (claimSlot_claimed own took) aside (by simp [at_pc, pending])
          (by simp) (by simp [at_pc, listed]) (by simp [at_pc]) (by simp)
      · cases moved
    | launch w =>
      simp only [poolStep] at moved
      split at moved
      · next got at_pc =>
        cases moved
        exact launch_crash_inv own inv at_pc aside
      · cases moved
    | crash i => exact crash_crash_inv inv allowed moved
    | join w retired =>
      rcases joined_clean moved with ⟨ids, r, runs, out, done, rfl⟩ | ⟨ids, rfl, runs, rfl⟩
      · exact leave_crash_inv inv runs out done aside
      · exact end_crash_inv inv runs aside
    | react w t => exact react_crash_inv inv moved
    | beginClose t =>
      simp only [poolStep] at moved
      split at moved <;> cases moved
      exact same_crash_inv inv aside rfl rfl rfl rfl rfl (fun _ => id)
    | endClose =>
      simp only [poolStep] at moved
      split at moved
      · split at moved <;> cases moved
        exact same_crash_inv inv aside rfl rfl rfl rfl rfl (fun _ => id)
      · cases moved
    | drain =>
      simp only [poolStep] at moved
      split at moved <;> cases moved
      exact same_crash_inv inv aside rfl rfl rfl rfl rfl (fun _ => id)

theorem empty_crash_inv (mode : Mode) : CrashInv mode empty := by
  refine ⟨?_, ?_, ?_, ?_, ?_⟩ <;>
    simp [empty, KinoLaneDispatch.initial, Slot.new, live]

/-- The law of a crashed worker's lane. A death the pool has finished with is settled,
    and an open lane has a worker in its loop, or is retired so that no dispatcher sends
    into it, or is being given a worker, or the pool is about to close it. -/
structure LaneLaw (mode : Mode) (s : Pool) : Prop where
  settled : ∀ i held, (i, held) ∈ s.settled → Settled s i held
  attended : ∀ i, i < s.base.count → laneOpen s.base i = true →
    live (s.base.slots i).worker = true ∨ (s.base.slots i).retired = true ∨
      (∃ w got, s.sups w = .claiming got ∧ i ∈ got) ∨ Due mode s i

theorem crashed_lane_law {mode : Mode} {s : Pool}
    (reached : ReachableBy (poolSystem mode) (Answerable mode) s) : LaneLaw mode s := by
  obtain ⟨own, inv⟩ : OwnInv s ∧ CrashInv mode s := by
    refine invariant (fun s => OwnInv s ∧ CrashInv mode s) ?_ ?_ reached
    · intro s start
      cases start
      exact ⟨empty_own_inv, empty_crash_inv mode⟩
    · intro s s' e inv allowed moved
      exact ⟨step_own_inv inv.1 moved, step_crash_inv inv.1 inv.2 allowed moved⟩
  refine ⟨inv.settled, ?_⟩
  intro i known opened
  cases going : live (s.base.slots i).worker with
  | true => exact .inl rfl
  | false =>
    refine .inr ?_
    cases at_pc : (s.base.slots i).worker with
    | absent => exact .inr (.inl (own.waiting i known at_pc))
    | left retired =>
      cases retired with
      | true => exact .inl (own.base.leaving i (by simp [at_pc, outward]))
      | false =>
        rcases own.off i (by simp [at_pc, lost]) with dead | shut
        · exact .inr (.inr (inv.attended i dead opened))
        · simp [shut] at opened
    | _ => simp [at_pc, live, away] at going

/-- Request `r` is dispatched into the first lane of its pass, which has room. -/
def sendFirst (r : Nat) : List Event :=
  Event.lane (.arrive r) :: List.replicate 7 (Event.lane (.dispatch r))

def takeOne : List Event :=
  [Event.supervise 0, .claim 0, .launch 0] ++ sendFirst 7 ++ [Event.lane (.take 0), .lane (.work 0)]

def answerOne : List Event :=
  [Event.join 0 false, .react 0 0, .react 0 0, .react 0 0] ++
    List.replicate 5 (Event.lane (.operate 0)) ++ [Event.react 0 0]

def noCrash (_ : Pool) : Event → Bool
  | .crash _ => false
  | _ => true

theorem noCrash_sound (mode : Mode) (s : Pool) (e : Event) (checked : noCrash s e = true) :
    Answerable mode s e := by
  cases e <;> trivial

theorem lone_ractor_settles : ∃ s t u, runBy (poolSystem .ractor) noCrash empty takeOne = some s ∧
    poolStep .ractor s (.crash 0) = some t ∧
    runBy (poolSystem .ractor) noCrash t answerOne = some u ∧ (0, [7]) ∈ u.settled ∧
    u.claimed 7 = true ∧ laneOpen u.base 0 = false := by
  have ran : ∃ s t u, runBy (poolSystem .ractor) noCrash empty takeOne = some s ∧
      poolStep .ractor s (.crash 0) = some t ∧
      runBy (poolSystem .ractor) noCrash t answerOne = some u ∧ (0, [7]) ∈ u.settled ∧
      s.owner 0 = some 0 ∧ s.sups 0 = .running [0] :=
    ⟨_, _, _, rfl, rfl, rfl, by decide, rfl, rfl⟩
  obtain ⟨s, t, u, taken, died, answered, settled, owner, runs⟩ := ran
  have before := reachable_runBy (noCrash_sound .ractor) (.start rfl) taken
  have permitted : Answerable .ractor s (.crash 0) := by
    refine .inr ?_
    intro w ids at_w mine j early
    have same := ((reachable_own_inv before).owned w 0 (by rw [at_w]; exact mine)).1
    rw [owner] at same
    cases same
    rw [runs] at at_w
    cases at_w
    simp at early
  have law := crashed_lane_law
    (reachable_runBy (noCrash_sound .ractor) (before.next permitted died) answered)
  obtain ⟨claimed, shut, -⟩ := law.settled 0 [7] settled
  exact ⟨s, t, u, taken, died, answered, settled, claimed 7 (by simp), shut⟩

def threadedCrash : List Event :=
  [Event.supervise 0, .claim 0] ++ sendFirst 7 ++
    [Event.lane (.take 0), .lane (.work 0), .crash 0] ++ sendFirst 8

def secondThreadCrash : List Event :=
  [Event.supervise 0, .claim 0, .claim 0, .launch 0, .crash 1] ++ sendFirst 7 ++ sendFirst 8

theorem dead_lanes_stay_open :
    (∃ s, run (poolSystem .threaded) empty threadedCrash = some s ∧ (0, [7]) ∈ s.settled ∧
      s.claimed 7 = false ∧ laneOpen s.base 0 = true ∧ (s.base.slots 0).lane.buf = [8]) ∧
    ∃ s, run (poolSystem .ractor) empty secondThreadCrash = some s ∧ s.ended 1 = true ∧
      laneOpen s.base 1 = true ∧ (s.base.slots 1).lane.buf = [8] ∧
      (∀ retired, poolStep .ractor s (.join 0 retired) = none) :=
  ⟨⟨_, rfl, by decide, rfl, rfl, rfl⟩, ⟨_, rfl, rfl, rfl, rfl, fun _ => rfl⟩⟩

end KinoCrashedLane
