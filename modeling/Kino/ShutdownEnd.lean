import Kino.GracefulDrain

/-!
How long `Server#shutdown` takes (lib/kino/server.rb): to its deadline, and the moments it gives
to the threads and to the runtime past it. It needs no one's help, but for the client of a stream
that is full where `abort_slot` ends the stream: the send of the last frame waits. The scaler and
the monitor have been stopped before, and the control server stops after.
-/
namespace KinoShutdownEnd
open Transitions Ownership KinoRequestLifecycle KinoRequestCounts
open KinoRequestDeadlines (put_there respond500_some)
open KinoWorkerHandles KinoGracefulDrain
open KinoResponder (Responder respond500IfUnsent claim)
variable {B : Type}

/-- The request whose client `abort_slot` has to wait for. -/
def awaited (conf : Config) (s : Server B) : Option Nat :=
  match s.pc, shutdown conf s with
  | .answering _ (r :: _), none => some r
  | _, _ => none

/-- The clock and the thread that shuts down; the runtime takes all the time it is given. The
    client it waits for takes a frame. -/
def own (conf : Config) (s : Server B) : Event B → Bool
  | .tick _ => true
  | .shutdown =>
    match s.pc with
    | .tearing since => decide (since + runtimeTimeout ≤ s.front.now)
    | _ => true
  | .front (.takeFrame r) => awaited conf s = some r
  | _ => false

/-- On its own the shutdown comes to its end before the clock is past `bound`. -/
def Ends (conf : Config) (bound : Nat) (s : Server B) : Prop :=
  ∃ ls t, runBy (drainSystem B conf) (own conf) s ls = some t ∧ t.pc = .down ∧ t.front.now ≤ bound

section Ends
variable {conf : Config} {bound : Nat} {s t : Server B}

theorem ends_step {e : Event B} (reached : Reachable (drainSystem B conf) s)
    (mine : own conf s e = true) (moved : drainStep conf s e = some t)
    (rest : Reachable (drainSystem B conf) t → Ends conf bound t) : Ends conf bound s := by
  obtain ⟨ls, u, ran, down, early⟩ := rest (reachable_step (m := drainSystem B conf) reached moved)
  exact ⟨e :: ls, u, runBy_cons.mpr ⟨mine, t, moved, ran⟩, down, early⟩

theorem ends_shutdown (reached : Reachable (drainSystem B conf) s)
    (waits : ∀ since, s.pc ≠ .tearing since) (moved : shutdown conf s = some t)
    (rest : Reachable (drainSystem B conf) t → Ends conf bound t) : Ends conf bound s := by
  refine ends_step (e := .shutdown) reached ?_ moved rest
  simp only [own]

def later (s : Server B) (d : Nat) : Server B := setFront s { s.front with now := s.front.now + d }

theorem ends_tick (d : Nat) (reached : Reachable (drainSystem B conf) s)
    (rest : Reachable (drainSystem B conf) (later s d) → Ends conf bound (later s d)) :
    Ends conf bound s :=
  ends_step (e := .tick d) reached rfl rfl rest

theorem ends_down (down : s.pc = .down) (early : s.front.now ≤ bound) : Ends conf bound s :=
  ⟨[], s, rfl, down, early⟩

def Noted (s : Server B) : Prop :=
  match s.pc with
  | .sleeping _ wake => wake ≤ s.front.now + nap
  | .joining second deadline _ since =>
    since ≤ s.front.now ∧ (second = true → deadline ≤ s.front.now + millis 200)
  | .answering i _ => i < s.front.slots.length
  | .tearing since => since ≤ s.front.now
  | _ => True

theorem noted_on (noted : Noted s) (same : t.pc = s.pc) (grows : Grows s.front t.front) :
    Noted t := by
  have on := grows.now
  have more := grows.slots
  unfold Noted at *
  rw [same]
  cases at_pc : s.pc with
  | sleeping deadline wake =>
    simp only [at_pc] at noted ⊢
    omega
  | joining second deadline i since =>
    simp only [at_pc] at noted ⊢
    exact ⟨by omega, fun again => Nat.le_trans (noted.2 again) (by omega)⟩
  | answering i rs =>
    simp only [at_pc] at noted ⊢
    omega
  | tearing since =>
    simp only [at_pc] at noted ⊢
    omega
  | _ => trivial

theorem shutdown_noted (noted : Noted s) (moved : shutdown conf s = some t) : Noted t := by
  unfold shutdown at moved
  cases at_pc : s.pc with
  | serving | down => simp [at_pc] at moved
  | draining deadline =>
    simp only [at_pc] at moved
    split at moved <;> cases moved <;> trivial
  | looked deadline queued =>
    simp only [at_pc] at moved
    split at moved <;> cases moved
    · trivial
    · exact Nat.le_refl _
  | sleeping deadline wake =>
    simp only [at_pc] at moved
    split at moved <;> cases moved
    trivial
  | closeQueue deadline =>
    simp only [at_pc] at moved
    cases moved
    trivial
  | closeLanes deadline i =>
    simp only [at_pc] at moved
    split at moved <;> cases moved
    · trivial
    · exact ⟨Nat.le_refl _, fun again => (nomatch again)⟩
  | joining second deadline i since =>
    simp only [Noted, at_pc] at noted
    simp only [at_pc] at moved
    split at moved
    · cases moved
      unfold joined
      split
      · exact Nat.le_refl _
      · trivial
    · split at moved <;> cases moved
      exact ⟨Nat.le_refl _, noted.2⟩
  | aborting i =>
    simp only [at_pc] at moved
    split at moved <;> cases moved
    · next inside => exact inside
    · trivial
  | answering i rs =>
    simp only [Noted, at_pc] at noted
    cases rs with
    | nil =>
      simp only [at_pc] at moved
      obtain ⟨f, -, rfl⟩ := Option.map_eq_some_iff.mp moved
      trivial
    | cons r rs =>
      simp only [at_pc] at moved
      split at moved
      · obtain ⟨f, stepped, rfl⟩ := Option.map_eq_some_iff.mp moved
        exact Nat.lt_of_lt_of_le noted (step_grows stepped).slots
      · cases moved
        exact noted
  | emptying i =>
    simp only [at_pc] at moved
    split at moved
    · cases moved
      trivial
    · obtain ⟨f, -, rfl⟩ := Option.map_eq_some_iff.mp moved
      simp only [Noted, setFront, at_pc]
  | interrupting =>
    simp only [at_pc] at moved
    cases moved
    exact ⟨Nat.le_refl _, fun _ => Nat.le_refl _⟩
  | tearing since =>
    simp only [at_pc] at moved
    cases moved
    trivial

theorem step_noted {e : Event B} (noted : Noted s) (moved : drainStep conf s e = some t) :
    Noted t := by
  cases e with
  | tick d =>
    cases moved
    exact noted_on noted rfl ⟨Nat.le_refl _, Nat.le_add_right _ _⟩
  | front l =>
    simp only [drainStep, Option.ite_none_right_eq_some] at moved
    obtain ⟨f, stepped, rfl⟩ := Option.map_eq_some_iff.mp moved.2
    exact noted_on noted rfl (step_grows stepped)
  | startWorker i | checkout i | leave i =>
    simp only [drainStep, Option.ite_none_right_eq_some, Option.some.injEq] at moved
    obtain ⟨-, rfl⟩ := moved
    exact noted_on noted rfl (grows_same rfl rfl)
  | admitRequest i =>
    simp only [drainStep, Option.ite_none_right_eq_some, admitRequest] at moved
    obtain ⟨-, moved⟩ := moved
    split at moved
    · cases moved
    · obtain ⟨f, stepped, rfl⟩ := Option.map_eq_some_iff.mp moved
      exact noted_on noted rfl (step_grows stepped)
  | serve r i act =>
    simp only [drainStep, Option.ite_none_right_eq_some, serve] at moved
    obtain ⟨-, moved⟩ := moved
    split at moved
    · cases moved
    · cases moved
      exact noted_on noted rfl (grows_same rfl rfl)
    · obtain ⟨f, stepped, rfl⟩ := Option.map_eq_some_iff.mp moved
      exact noted_on noted rfl (step_grows stepped)
  | crash i =>
    cases moved
    exact noted_on noted rfl (grows_same rfl rfl)
  | stopAccepting timeout =>
    simp only [drainStep, Option.ite_none_right_eq_some, Option.some.injEq] at moved
    obtain ⟨-, rfl⟩ := moved
    trivial
  | shutdown => exact shutdown_noted noted moved

theorem reachable_noted (reached : Reachable (drainSystem B conf) s) : Noted s := by
  apply reachable_invariant Noted _ _ reached
  · intro s start
    cases start
    trivial
  · intro s t e noted moved
    exact step_noted noted moved

theorem ends_tearing {since : Nat} (reached : Reachable (drainSystem B conf) s)
    (at_pc : s.pc = .tearing since) (within : s.front.now + runtimeTimeout ≤ bound) :
    Ends conf bound s := by
  have begun := reachable_noted reached
  simp only [Noted, at_pc] at begun
  refine ends_tick runtimeTimeout reached fun reached => ?_
  have moved : shutdown conf (later s runtimeTimeout) =
      some { later s runtimeTimeout with pc := .down } := by
    simp [shutdown, later, setFront, at_pc]
  refine ends_step (e := .shutdown) reached ?_ moved fun _ => ends_down rfl within
  simp only [own, later, setFront, at_pc, decide_eq_true_eq]
  omega

/-- One thread is joined after the other, each for a moment where the deadline has passed. -/
theorem ends_join {second : Bool} {deadline n m left : Nat}
    (rest : ∀ t : Server B, Reachable (drainSystem B conf) t → t.front.slots.length = n →
      t.front.now ≤ m → (∃ i since, t.pc = .joining second deadline i since ∧ n ≤ i) →
        Ends conf bound t) {i since : Nat} (reached : Reachable (drainSystem B conf) s)
    (size : s.front.slots.length = n) (ahead : n - i = left)
    (at_pc : s.pc = .joining second deadline i since)
    (within : max s.front.now deadline + nap * left ≤ m) : Ends conf bound s := by
  induction left generalizing s i since with
  | zero => exact rest s reached size (by omega) ⟨i, since, at_pc, by omega⟩
  | succ left ih =>
    have begun := reachable_noted reached
    simp only [Noted, at_pc] at begun
    have inside : ¬ s.front.slots.length ≤ i := by omega
    rw [Nat.mul_succ] at within
    by_cases gone : i ∈ s.left
    · have moved : shutdown conf s =
          some { s with pc := .joining second deadline (i + 1) s.front.now } := by
        simp [shutdown, at_pc, inside, gone]
      refine ends_shutdown reached (by simp [at_pc]) moved fun reached =>
        ih reached size (by omega) rfl ?_
      simp only
      omega
    · refine ends_tick (joinEnds deadline since - s.front.now) reached fun reached => ?_
      have late : joinEnds deadline since ≤
          s.front.now + (joinEnds deadline since - s.front.now) := by omega
      have moved : shutdown conf (later s (joinEnds deadline since - s.front.now)) = some
          { later s (joinEnds deadline since - s.front.now) with
            pc := .joining second deadline (i + 1)
              (s.front.now + (joinEnds deadline since - s.front.now)) } := by
        simp [shutdown, later, setFront, at_pc, inside, late]
      refine ends_shutdown reached (by simp [later, setFront, at_pc]) moved fun reached =>
        ih reached size (by omega) rfl ?_
      simp only [later, setFront, joinEnds] at *
      omega

theorem ends_rejoining {deadline i since : Nat} (reached : Reachable (drainSystem B conf) s)
    (at_pc : s.pc = .joining true deadline i since)
    (within : max s.front.now deadline + nap * s.front.slots.length + runtimeTimeout ≤ bound) :
    Ends conf bound s := by
  refine ends_join (m := max s.front.now deadline + nap * s.front.slots.length)
    (fun t reached size early stage => ?_) reached rfl rfl at_pc ?_
  · obtain ⟨i, since, at_pc, beyond⟩ := stage
    have moved : shutdown conf t = some { t with pc := .tearing t.front.now } := by
      simp [shutdown, at_pc, size, beyond, joined]
    exact ends_shutdown reached (by simp [at_pc]) moved fun reached =>
      ends_tearing reached rfl (by simp only; omega)
  · have fewer : nap * (s.front.slots.length - i) ≤ nap * s.front.slots.length :=
      Nat.mul_le_mul_left _ (Nat.sub_le _ _)
    omega

def escalation (n : Nat) : Nat := millis 200 + nap * n + runtimeTimeout

theorem ends_interrupting (reached : Reachable (drainSystem B conf) s)
    (at_pc : s.pc = .interrupting)
    (within : s.front.now + escalation s.front.slots.length ≤ bound) : Ends conf bound s := by
  have moved : shutdown conf s =
      some { s with pc := .joining true (s.front.now + millis 200) 0 s.front.now } := by
    simp [shutdown, at_pc]
  refine ends_shutdown reached (by simp [at_pc]) moved fun reached =>
    ends_rejoining reached rfl ?_
  simp only [escalation] at *
  omega

theorem ends_emptying {i n m left : Nat}
    (rest : ∀ t : Server B, Reachable (drainSystem B conf) t → t.front.slots.length = n →
      t.front.now ≤ m → t.pc = .aborting (i + 1) → Ends conf bound t)
    (reached : Reachable (drainSystem B conf) s) (size : s.front.slots.length = n)
    (early : s.front.now ≤ m) (at_pc : s.pc = .emptying i)
    (queued : (s.front.contents (.lane i)).length = left) : Ends conf bound s := by
  induction left generalizing s with
  | zero =>
    have empty := List.eq_nil_of_length_eq_zero queued
    have moved : shutdown conf s = some { s with pc := .aborting (i + 1) } := by
      simp [shutdown, at_pc, empty]
    exact ends_shutdown reached (by simp [at_pc]) moved fun reached =>
      rest _ reached size early rfl
  | succ left ih =>
    have inv := reachable_drain reached
    have place := reachable_place inv.front
    obtain ⟨r, others, front⟩ := List.exists_cons_of_length_eq_add_one queued
    have at_lane : s.front.loc r = some (.lane i) := located_mem place.located (by simp [front])
    obtain ⟨c, there⟩ : ∃ c, s.front.calls[r]? = some c :=
      ⟨_, List.getElem?_eq_getElem (place.known r _ at_lane)⟩
    have shut : c.responder.bodyTx = false := by
      by_contra open_
      obtain ⟨j, at_worker⟩ := (reachable_tended inv.front r c there).held (by simpa using open_)
      rw [at_lane] at at_worker
      cases at_worker
    obtain ⟨x, answered⟩ := respond500_some shut
    have stepped : step conf s.front (.drainLane i) =
        some ((s.front.forget r (.lane i)).put r { c with responder := x }) := by
      simp only [step, front, there, Option.bind_some, dropCtx, answered, Option.map_some]
    have moved : shutdown conf s =
        some (setFront s ((s.front.forget r (.lane i)).put r { c with responder := x })) := by
      simp only [shutdown, at_pc, front, stepped, Option.map_some]
    refine ends_shutdown reached (by simp [at_pc]) moved fun reached =>
      ih reached size early at_pc ?_
    simp only [front, List.length_cons, Nat.add_right_cancel_iff] at queued
    simp [setFront, State.put, State.forget, front, queued]

theorem popped_answers (x : Responder AppHead B) :
    ∃ y, respond500IfUnsent (KinoShutdown.takeFrame x) = some y := by
  have same : (claim (KinoShutdown.takeFrame x)).2.frames = x.frames.pop := by
    unfold claim
    split <;> rfl
  unfold respond500IfUnsent
  split
  · exact ⟨_, rfl⟩
  · next y claimed =>
    rw [claimed] at same
    split
    · unfold KinoResponder.sendAbandoned
      split
      · next c full =>
        have blocks : (Channels.Chan.Blocks y.frames) :=
          (Channels.Chan.trySend_full_iff _ _).mp (congrArg Prod.fst full)
        have bounded := x.frames.bounded
        have length := blocks.2
        rw [same] at length
        simp only [Channels.Chan.pop, List.length_tail] at length
        simp only [KinoResponder.STREAM_BUFFER] at length bounded
        omega
      · exact ⟨_, rfl⟩
    · exact ⟨_, rfl⟩

theorem abort_step {f : State B} {r : Nat} {c : Call B} {x : Responder AppHead B}
    (alive : (f.loc r).isSome = true) (there : f.calls[r]? = some c)
    (answered : respond500IfUnsent c.responder = some x) :
    step conf f (.abort r) = some (f.respond r c x) := by
  simp only [step, alive, if_true, there, Option.bind_some, answered, Option.map_some]

/-- Each listed request that is still somewhere is answered, its client taking a frame where it
    has to. -/
theorem ends_answering {i n m : Nat} {rs : List Nat}
    (rest : ∀ t : Server B, Reachable (drainSystem B conf) t → t.front.slots.length = n →
      t.front.now ≤ m → t.pc = .answering i [] → Ends conf bound t)
    (reached : Reachable (drainSystem B conf) s) (size : s.front.slots.length = n)
    (early : s.front.now ≤ m) (at_pc : s.pc = .answering i rs) : Ends conf bound s := by
  induction rs generalizing s with
  | nil => exact rest s reached size early at_pc
  | cons r rs ih =>
    by_cases alive : (s.front.loc r).isSome = true
    · have place := reachable_place (reachable_drain reached).front
      obtain ⟨p, at_p⟩ := Option.isSome_iff_exists.mp alive
      obtain ⟨c, there⟩ : ∃ c, s.front.calls[r]? = some c :=
        ⟨_, List.getElem?_eq_getElem (place.known r p at_p)⟩
      have answers : ∀ {t : Server B} {c : Call B} {x : Responder AppHead B},
          Reachable (drainSystem B conf) t → t.front.slots.length = n → t.front.now ≤ m →
            t.pc = .answering i (r :: rs) → (t.front.loc r).isSome = true →
              t.front.calls[r]? = some c → respond500IfUnsent c.responder = some x →
                Ends conf bound t := by
        intro t c x reached size early at_pc alive there answered
        have moved : shutdown conf t =
            some { t with front := t.front.respond r c x, pc := .answering i rs } := by
          simp only [shutdown, at_pc, alive, if_true, abort_step alive there answered,
            Option.map_some]
        exact ends_shutdown reached (by simp [at_pc]) moved fun reached =>
          ih reached size early rfl
      cases answered : respond500IfUnsent c.responder with
      | some x => exact answers reached size early at_pc alive there answered
      | none =>
        -- its stream is full
        obtain ⟨x, popped⟩ := popped_answers c.responder
        have waits : shutdown conf s = none := by
          simp only [shutdown, at_pc, alive, if_true, step, there, Option.bind_some, answered,
            Option.map_none]
        have taken : drainStep conf s (.front (.takeFrame r)) = some (setFront s
            (s.front.respond r c (KinoShutdown.takeFrame c.responder))) := by
          simp only [drainStep, at_pc, Pc.torn, free, handles, step, there, Option.map_some]
          rfl
        refine ends_step reached ?_ taken fun reached =>
          answers reached size early at_pc alive (put_there there) popped
        simp [own, awaited, at_pc, waits]
    · have moved : shutdown conf s = some { s with pc := .answering i rs } := by
        simp only [shutdown, at_pc, if_neg alive]
      exact ends_shutdown reached (by simp [at_pc]) moved fun reached =>
        ih reached size early rfl

theorem ends_slot {i n m : Nat} {rs : List Nat}
    (rest : ∀ t : Server B, Reachable (drainSystem B conf) t → t.front.slots.length = n →
      t.front.now ≤ m → t.pc = .aborting (i + 1) → Ends conf bound t)
    (reached : Reachable (drainSystem B conf) s) (size : s.front.slots.length = n)
    (early : s.front.now ≤ m) (at_pc : s.pc = .answering i rs) : Ends conf bound s := by
  refine ends_answering (fun t reached size early at_pc => ?_) reached size early at_pc
  have inside := reachable_noted reached
  simp only [Noted, at_pc] at inside
  obtain ⟨slot, found⟩ : ∃ slot, t.front.slots[i]? = some slot :=
    ⟨_, List.getElem?_eq_getElem inside⟩
  have closes : shutdown conf t = some { t with
      front := { t.front with slots := t.front.slots.set i { slot with laneTx := false } }
      pc := .emptying i } := by
    simp [shutdown, at_pc, step, State.setSlot, found]
  exact ends_shutdown reached (by simp [at_pc]) closes fun reached =>
    ends_emptying rest reached (by simpa using size) early rfl rfl

theorem ends_aborting {i left : Nat} (reached : Reachable (drainSystem B conf) s)
    (at_pc : s.pc = .aborting i) (ahead : s.front.slots.length - i = left)
    (within : s.front.now + escalation s.front.slots.length ≤ bound) : Ends conf bound s := by
  induction left generalizing s i with
  | zero =>
    have beyond : ¬ i < s.front.slots.length := by omega
    have moved : shutdown conf s = some { s with pc := .interrupting } := by
      simp [shutdown, at_pc, beyond]
    exact ends_shutdown reached (by simp [at_pc]) moved fun reached =>
      ends_interrupting reached rfl within
  | succ left ih =>
    have inside : i < s.front.slots.length := by omega
    have moved : shutdown conf s = some { s with
        pc := .answering i (s.current i), current := Function.update s.current i [] } := by
      simp [shutdown, at_pc, inside]
    refine ends_shutdown reached (by simp [at_pc]) moved fun reached =>
      ends_slot (n := s.front.slots.length) (m := s.front.now)
        (fun t reached size early at_pc => ih reached at_pc ?_ ?_) reached rfl (Nat.le_refl _) rfl
    · omega
    · rw [size]
      omega

theorem ends_joining {deadline i since : Nat} (reached : Reachable (drainSystem B conf) s)
    (at_pc : s.pc = .joining false deadline i since)
    (within : max s.front.now deadline + nap * s.front.slots.length +
      escalation s.front.slots.length ≤ bound) : Ends conf bound s := by
  refine ends_join (m := max s.front.now deadline + nap * s.front.slots.length)
    (fun t reached size early stage => ?_) reached rfl rfl at_pc ?_
  · obtain ⟨i, since, at_pc, beyond⟩ := stage
    by_cases done : workersDone t = true
    · have moved : shutdown conf t = some { t with pc := .tearing t.front.now } := by
        simp [shutdown, at_pc, size, beyond, joined, done]
      refine ends_shutdown reached (by simp [at_pc]) moved fun reached =>
        ends_tearing reached rfl ?_
      simp only [escalation] at *
      omega
    · have moved : shutdown conf t = some { t with pc := .aborting 0, escalated := true } := by
        simp [shutdown, at_pc, size, beyond, joined, done]
      refine ends_shutdown reached (by simp [at_pc]) moved fun reached =>
        ends_aborting reached rfl rfl ?_
      simp only [size]
      omega
  · have fewer : nap * (s.front.slots.length - i) ≤ nap * s.front.slots.length :=
      Nat.mul_le_mul_left _ (Nat.sub_le _ _)
    omega

def joins (n : Nat) : Nat := nap * n + escalation n

theorem ends_lanes {deadline i left : Nat} (reached : Reachable (drainSystem B conf) s)
    (at_pc : s.pc = .closeLanes deadline i) (ahead : s.front.slots.length - i = left)
    (within : max s.front.now deadline + joins s.front.slots.length ≤ bound) :
    Ends conf bound s := by
  induction left generalizing s i with
  | zero =>
    have beyond : s.front.slots[i]? = none := List.getElem?_eq_none (by omega)
    have moved : shutdown conf s = some { s with pc := .joining false deadline 0 s.front.now } := by
      simp [shutdown, at_pc, State.setSlot, beyond]
    refine ends_shutdown reached (by simp [at_pc]) moved fun reached =>
      ends_joining reached rfl ?_
    simp only [joins] at *
    omega
  | succ left ih =>
    obtain ⟨slot, found⟩ : ∃ slot, s.front.slots[i]? = some slot :=
      ⟨_, List.getElem?_eq_getElem (by omega)⟩
    have moved : shutdown conf s = some { s with
        front := { s.front with slots := s.front.slots.set i { slot with laneTx := false } }
        pc := .closeLanes deadline (i + 1) } := by
      simp [shutdown, at_pc, State.setSlot, found]
    refine ends_shutdown reached (by simp [at_pc]) moved fun reached => ih reached rfl ?_ ?_
    · simp only [List.length_set]
      omega
    · simpa using within

theorem ends_closeQueue {deadline : Nat} (reached : Reachable (drainSystem B conf) s)
    (at_pc : s.pc = .closeQueue deadline)
    (within : max s.front.now deadline + joins s.front.slots.length ≤ bound) :
    Ends conf bound s := by
  have moved : shutdown conf s = some { s with
      front := { s.front with reqTx := false }, pc := .closeLanes deadline 0 } := by
    simp [shutdown, at_pc]
  exact ends_shutdown reached (by simp [at_pc]) moved fun reached =>
    ends_lanes reached rfl rfl within

/-- The loop looks and sleeps, until both counters are zero or the deadline has passed. -/
theorem ends_draining {deadline left : Nat} (reached : Reachable (drainSystem B conf) s)
    (at_pc : s.pc = .draining deadline) (ahead : deadline - s.front.now = left)
    (within : max s.front.now (deadline + nap) + joins s.front.slots.length ≤ bound) :
    Ends conf bound s := by
  induction left using Nat.strongRecOn generalizing s with
  | ind left ih =>
    by_cases late : deadline ≤ s.front.now
    · have moved : shutdown conf s = some { s with pc := .closeQueue deadline } := by
        simp [shutdown, at_pc, late]
      exact ends_shutdown reached (by simp [at_pc]) moved fun reached =>
        ends_closeQueue reached rfl (by simp only; omega)
    · have looks : shutdown conf s =
          some { s with pc := .looked deadline (queued conf s.front) } := by
        simp [shutdown, at_pc, late]
      refine ends_shutdown reached (by simp [at_pc]) looks fun reached => ?_
      by_cases empty : queued conf s.front = 0 ∧ s.front.inFlight = 0
      · have moved : shutdown conf { s with pc := .looked deadline (queued conf s.front) } =
            some { s with pc := .closeQueue deadline, look := some (countedCalls s.front) } := by
          simp [shutdown, empty]
        exact ends_shutdown reached (by simp) moved fun reached =>
          ends_closeQueue reached rfl (by simp only; omega)
      · have moved : shutdown conf { s with pc := .looked deadline (queued conf s.front) } =
            some { s with pc := .sleeping deadline (s.front.now + nap) } := by
          simp only [shutdown, if_neg empty]
        refine ends_shutdown reached (by simp) moved fun reached =>
          ends_tick nap reached fun reached => ?_
        have wakes : shutdown conf
            (later { s with pc := .sleeping deadline (s.front.now + nap) } nap) =
              some (later { s with pc := .draining deadline } nap) := by
          simp [shutdown, later, setFront]
        refine ends_shutdown reached (by simp [later, setFront]) wakes fun reached =>
          ih _ ?_ reached rfl rfl ?_
        · simp only [later, setFront, nap, millis]
          omega
        · simp only [later, setFront]
          omega

theorem ends_sleeping {deadline wake : Nat} (reached : Reachable (drainSystem B conf) s)
    (at_pc : s.pc = .sleeping deadline wake)
    (within : max s.front.now deadline + nap + joins s.front.slots.length ≤ bound) :
    Ends conf bound s := by
  have begun := reachable_noted reached
  simp only [Noted, at_pc] at begun
  refine ends_tick (wake - s.front.now) reached fun reached => ?_
  have awake : wake ≤ s.front.now + (wake - s.front.now) := by omega
  have moved : shutdown conf (later s (wake - s.front.now)) =
      some { later s (wake - s.front.now) with pc := .draining deadline } := by
    simp [shutdown, later, setFront, at_pc, awake]
  refine ends_shutdown reached (by simp [later, setFront, at_pc]) moved fun reached =>
    ends_draining reached rfl rfl ?_
  simp only [later, setFront]
  omega

theorem ends_looked {deadline q : Nat} (reached : Reachable (drainSystem B conf) s)
    (at_pc : s.pc = .looked deadline q)
    (within : max s.front.now deadline + nap + joins s.front.slots.length ≤ bound) :
    Ends conf bound s := by
  by_cases empty : q = 0 ∧ s.front.inFlight = 0
  · have moved : shutdown conf s =
        some { s with pc := .closeQueue deadline, look := some (countedCalls s.front) } := by
      simp [shutdown, at_pc, empty]
    exact ends_shutdown reached (by simp [at_pc]) moved fun reached =>
      ends_closeQueue reached rfl (by simp only; omega)
  · have moved : shutdown conf s =
        some { s with pc := .sleeping deadline (s.front.now + nap) } := by
      simp only [shutdown, at_pc, if_neg empty]
    exact ends_shutdown reached (by simp [at_pc]) moved fun reached =>
      ends_sleeping reached rfl within

end Ends

def deadline : Pc → Nat
  | .draining d | .looked d _ | .sleeping d _ | .closeQueue d | .closeLanes d _
  | .joining false d _ _ => d
  | _ => 0

/-- The most that a shutdown of a server with `n` slots takes past its deadline: a sleep of the
    loop, a moment for each thread, twice, 200 ms for the second join and 1 s for the runtime. -/
def grace (n : Nat) : Nat := nap + joins n

def stuckStream : List (Event Unit) :=
  [[.front .registerWorker, .front (.arrive none)], List.replicate 6 (.front (.advance 0)),
    [.checkout 0, .front (.take 0 none), .admitRequest 0, .serve 0 0 (.sendHeaders (some 200))],
    List.replicate 8 (.serve 0 0 (.writeChunk ())), [.stopAccepting 100, .tick 100],
    List.replicate 4 .shutdown, [.tick nap], List.replicate 3 .shutdown].flatten

def stuckServer : Server Unit :=
  (run (drainSystem Unit smallServer) (initialServer Unit) stuckStream).getD (initialServer Unit)

end KinoShutdownEnd
