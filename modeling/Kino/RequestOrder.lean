import Kino.RequestCounts

/-!
The shared queue between `handle_request` and the workers: a bounded channel with the senders
that wait for room behind it. Workers receive requests in the order they were sent, and a
worker that sees the channel closed and empty leaves nothing behind.
-/
namespace KinoRequestOrder
open Transitions Ownership Tallies KinoResponder KinoRequestLifecycle KinoRequestCounts
variable {B : Type} {conf : Config} {s s' : State B}

def line (s : State B) : List Nat := s.received ++ s.contents .queue ++ s.contents .pending

structure LineInv (conf : Config) (s : State B) : Prop where
  order : (line s).Sublist s.sent
  bounded : (s.contents .queue).length ≤ conf.queueDepth
  full : s.contents .pending ≠ [] → (s.contents .queue).length = conf.queueDepth

theorem initial_line : LineInv conf (KinoRequestLifecycle.initial B) :=
  ⟨List.Sublist.refl _, Nat.zero_le _, fun some_wait => absurd rfl some_wait⟩

theorem same_line (inv : LineInv conf s) (received : s'.received = s.received)
    (sent : s'.sent = s.sent) (queue : s'.contents .queue = s.contents .queue)
    (pending : s'.contents .pending = s.contents .pending) : LineInv conf s' := by
  constructor
  · unfold line
    rw [received, sent, queue, pending]
    exact inv.order
  · rw [queue]
    exact inv.bounded
  · rw [queue, pending]
    exact inv.full

theorem leave_line (inv : LineInv conf s) (r : Nat) (received : s'.received = s.received)
    (sent : s'.sent = s.sent) (queue : s'.contents .queue = s.contents .queue)
    (pending : s'.contents .pending = (s.contents .pending).erase r) : LineInv conf s' := by
  constructor
  · unfold line
    rw [received, sent, queue, pending]
    exact ((List.Sublist.refl _).append List.erase_sublist).trans inv.order
  · rw [queue]
    exact inv.bounded
  · rw [queue, pending]
    intro some_wait
    apply inv.full
    intro nobody
    rw [nobody] at some_wait
    exact some_wait rfl

@[simp] theorem log_received (record : Record) : (s.log conf record).received = s.received := by
  unfold State.log
  split <;> rfl

@[simp] theorem log_sent (record : Record) : (s.log conf record).sent = s.sent := by
  unfold State.log
  split <;> rfl

theorem turn_line {r : Nat} {c : Call B} (inv : LineInv conf s) (turn : Turn conf s r c s') :
    LineInv conf s' := by
  cases turn with
  | arrival | completion =>
    exact same_line inv (log_received _) (log_sent _) (congrFun (log_contents ..) _)
      (congrFun (log_contents ..) _)
  | send at_pc room =>
    have nobody : s.contents .pending = [] := by
      by_contra some_wait
      have full := inv.full some_wait
      omega
    constructor
    · change (s.received ++ (s.contents .queue ++ [r]) ++ s.contents .pending).Sublist (s.sent ++ [r])
      have order := inv.order
      unfold line at order
      rw [nobody, List.append_nil] at order ⊢
      rw [← List.append_assoc]
      exact order.append (List.Sublist.refl _)
    · change (s.contents .queue ++ [r]).length ≤ _
      rw [List.length_append, List.length_singleton]
      omega
    · exact fun some_wait => absurd nobody some_wait
  | queueUp since at_pc full =>
    constructor
    · change (s.received ++ s.contents .queue ++ (s.contents .pending ++ [r])).Sublist (s.sent ++ [r])
      rw [← List.append_assoc]
      exact inv.order.append (List.Sublist.refl _)
    · exact inv.bounded
    · exact fun _ => Nat.le_antisymm inv.bounded full
  | expire | cancelPending => exact leave_line inv r rfl rfl rfl rfl
  | _ => exact same_line inv rfl rfl rfl rfl

theorem around_line (inv : LineInv conf s) (around : Around conf s s') : LineInv conf s' := by
  cases around with
  | takeQueue i r rest front nobody =>
    have queue : (s.contents .queue).erase r = rest := by simp [front]
    constructor
    · change (s.received ++ [r] ++ (s.contents .queue).erase r ++ s.contents .pending).Sublist s.sent
      have order := inv.order
      unfold line at order
      rw [queue]
      rw [front] at order
      simpa using order
    · change ((s.contents .queue).erase r).length ≤ _
      have bounded := inv.bounded
      rw [front, List.length_cons] at bounded
      rw [queue]
      omega
    · exact fun some_wait => absurd nobody some_wait
  | takePull i r p rest others front next =>
    have queue : (s.contents .queue).erase r = rest := by simp [front]
    have pending : (s.contents .pending).erase p = others := by simp [next]
    constructor
    · change (s.received ++ [r] ++ ((s.contents .queue).erase r ++ [p]) ++
        (s.contents .pending).erase p).Sublist s.sent
      have order := inv.order
      unfold line at order
      rw [queue, pending]
      rw [front, next] at order
      simpa using order
    · change ((s.contents .queue).erase r ++ [p]).length ≤ _
      have bounded := inv.bounded
      rw [front, List.length_cons] at bounded
      rw [queue, List.length_append, List.length_singleton]
      omega
    · intro _
      change ((s.contents .queue).erase r ++ [p]).length = _
      have full := inv.full (by rw [next]; simp)
      rw [front, List.length_cons] at full
      rw [queue, List.length_append, List.length_singleton]
      omega
  | drop r c x p there here held moved =>
    rcases held with ⟨i, rfl⟩ | ⟨i, rfl⟩ <;> exact same_line inv rfl rfl rfl rfl
  | _ => exact same_line inv rfl rfl rfl rfl

theorem step_line {l : Label B} (inv : LineInv conf s) (moved : step conf s l = some s') :
    LineInv conf s' := by
  cases step_move moved with
  | turn r c s' there turn => exact turn_line inv turn
  | around s' around => exact around_line inv around
  | arrive | tick | close | slots => exact same_line inv rfl rfl rfl rfl

def unsent : Phase → Bool
  | .arrived | .logged => true
  | phase => ownsCtx phase

def gaveUp (c : Call B) : Prop := outcome c.phase = some response503 ∨ c.phase = .dropped

structure SentInv (s : State B) : Prop where
  once : s.sent.Nodup
  later : ∀ r c, s.calls[r]? = some c → unsent c.phase = true → r ∉ s.sent
  known : ∀ r, r ∈ s.sent → r < s.calls.length
  fate : ∀ r c, s.calls[r]? = some c → r ∈ s.sent → r ∉ line s →
    s.loc r = none ∧ c.admitted = false ∧ gaveUp c

theorem initial_sent : SentInv (KinoRequestLifecycle.initial B) :=
  ⟨List.nodup_nil, fun _ _ there => (nomatch there), fun _ here => (nomatch here),
    fun _ _ there => (nomatch there)⟩

/-- Nothing is sent, and a call that changes neither goes back to before it sends nor takes
    up again what it gave up. -/
theorem keep_sent {r : Nat} {c c' : Call B} (inv : SentInv s) (there : s.calls[r]? = some c)
    (calls : s'.calls = s.calls.set r c') (sent : s'.sent = s.sent)
    (lines : ∀ j, j ∈ line s → j ∈ line s')
    (others : ∀ j, j ≠ r → s.loc j = none → s'.loc j = none)
    (onward : unsent c'.phase = true → unsent c.phase = true)
    (kept : s.loc r = none → c.admitted = false → gaveUp c →
      s'.loc r = none ∧ c'.admitted = false ∧ gaveUp c') : SentInv s' := by
  constructor
  · rw [sent]
    exact inv.once
  · rw [calls, sent]
    exact forall_set inv.later fun early => inv.later r c there (onward early)
  · rw [calls, sent, List.length_set]
    exact inv.known
  · intro j x at_j here away
    rw [sent] at here
    have before : j ∉ line s := fun there => away (lines j there)
    rw [calls] at at_j
    rcases set_cases at_j with ⟨rfl, rfl⟩ | ⟨other, at_j⟩
    · obtain ⟨nowhere, fresh, gave⟩ := inv.fate j c there here before
      exact kept nowhere fresh gave
    · obtain ⟨nowhere, fresh, gave⟩ := inv.fate j x at_j here before
      exact ⟨others j other nowhere, fresh, gave⟩

theorem send_sent {r : Nat} {c c' : Call B} (inv : SentInv s) (there : s.calls[r]? = some c)
    (early : unsent c.phase = true) (after : unsent c'.phase = false)
    (calls : s'.calls = s.calls.set r c') (sent : s'.sent = s.sent ++ [r])
    (lines : ∀ j, j ∈ line s ∨ j = r → j ∈ line s')
    (others : ∀ j, j ≠ r → s'.loc j = s.loc j) : SentInv s' := by
  have fresh := inv.later r c there early
  have inside : r < s.calls.length := (List.getElem?_eq_some_iff.mp there).1
  constructor
  · rw [sent, List.nodup_append]
    refine ⟨inv.once, List.nodup_singleton r, ?_⟩
    intro j here k at_r same
    rw [List.mem_singleton] at at_r
    exact fresh (at_r ▸ same ▸ here)
  · intro j x at_j before here
    rw [calls] at at_j
    rcases set_cases at_j with ⟨rfl, rfl⟩ | ⟨other, at_j⟩
    · rw [after] at before
      cases before
    · rw [sent, List.mem_append, List.mem_singleton] at here
      rcases here with here | same
      · exact inv.later j x at_j before here
      · exact other same
  · intro j here
    rw [sent, List.mem_append, List.mem_singleton] at here
    rw [calls, List.length_set]
    rcases here with here | rfl
    · exact inv.known j here
    · exact inside
  · intro j x at_j here away
    by_cases same : j = r
    · exact absurd (lines j (.inr same)) away
    · rw [calls, List.getElem?_set_ne (Ne.symm same)] at at_j
      rw [sent, List.mem_append, List.mem_singleton] at here
      rw [others j same]
      exact inv.fate j x at_j (here.resolve_right same) fun there => away (lines j (.inl there))

theorem leave_sent {r : Nat} {c' : Call B} (inv : SentInv s)
    (calls : s'.calls = s.calls.set r c') (sent : s'.sent = s.sent)
    (received : s'.received = s.received) (queue : s'.contents .queue = s.contents .queue)
    (pending : s'.contents .pending = (s.contents .pending).erase r)
    (nowhere : s'.loc r = none) (others : ∀ j, j ≠ r → s'.loc j = s.loc j)
    (after : unsent c'.phase = false) (fresh : c'.admitted = false) (gave : gaveUp c') :
    SentInv s' := by
  constructor
  · rw [sent]
    exact inv.once
  · rw [calls, sent]
    exact forall_set inv.later fun early => by rw [after] at early; cases early
  · rw [calls, sent, List.length_set]
    exact inv.known
  · intro j x at_j here away
    rw [calls] at at_j
    rcases set_cases at_j with ⟨rfl, rfl⟩ | ⟨other, at_j⟩
    · exact ⟨nowhere, fresh, gave⟩
    · rw [others j other]
      rw [sent] at here
      refine inv.fate j x at_j here fun there => away ?_
      unfold line at there ⊢
      rw [received, queue, pending]
      simp only [List.mem_append] at there ⊢
      exact there.imp_right (List.mem_erase_of_ne other).mpr

theorem gaveUp_phase {c : Call B} (gave : gaveUp c) :
    (c.phase = .answered response503 ∨ c.phase = .closing response503 ∨
      c.phase = .returned response503) ∨ c.phase = .dropped := by
  rcases gave with refused | ended
  · left
    cases at_pc : c.phase <;> simp [at_pc, outcome] at refused <;> simp [refused]
  · exact .inr ended

theorem turn_sent {r : Nat} {c : Call B} (place : PlaceInv s) (inv : SentInv s)
    (there : s.calls[r]? = some c) (turn : Turn conf s r c s') : SentInv s' := by
  have call := place.each r c there
  -- a call that has given up makes no turn but its last ones
  have busy : ∀ {p : Prop}, c.phase ≠ .answered response503 → c.phase ≠ .closing response503 →
      c.phase ≠ .returned response503 → c.phase ≠ .dropped → gaveUp c → p := by
    intro p answered closing returned dropped gave
    rcases gaveUp_phase gave with (at_pc | at_pc | at_pc) | at_pc <;> contradiction
  have pending_fresh : r ∈ s.contents .pending → ∀ {since}, c.phase = .pending since →
      c.admitted = false := by
    intro here since at_pc
    have placed := call.placed
    rw [at_pc] at placed
    exact placed_pending placed (located_mem place.located here)
  cases turn with
  | arrival at_pc =>
    refine keep_sent inv there (log_put_calls ..) (log_sent _) ?_ ?_ (by simp [at_pc, unsent])
      fun _ _ => busy (by simp [at_pc]) (by simp [at_pc]) (by simp [at_pc]) (by simp [at_pc])
    · simp [line, State.put]
    · simp [State.put]
  | completion response at_pc =>
    refine keep_sent inv there (log_put_calls ..) (log_sent _) ?_ ?_ (by simp [unsent, ownsCtx])
      fun nowhere fresh gave => ⟨by simpa [State.put] using nowhere, fresh, ?_⟩
    · simp [line, State.put]
    · simp [State.put]
    · left
      rcases gaveUp_phase gave with (same | same | same) | same <;> rw [at_pc] at same <;>
        cases same
      rfl
  | finish response at_pc away =>
    refine keep_sent inv there rfl rfl (fun _ here => here) (fun _ _ nowhere => nowhere)
      (by simp [unsent, ownsCtx]) fun nowhere fresh gave => ⟨nowhere, fresh, ?_⟩
    left
    rcases gaveUp_phase gave with (same | same | same) | same <;> rw [at_pc] at same <;> cases same
    rfl
  | finishOwner response x at_pc here moved =>
    refine keep_sent inv there rfl rfl (fun _ here => here)
      (fun j other nowhere => (Function.update_of_ne other ..).trans nowhere)
      (by simp [unsent, ownsCtx]) fun nowhere => ?_
    rw [located_mem place.located here] at nowhere
    cases nowhere
  | create at_pc =>
    refine keep_sent inv there rfl rfl (fun _ here => here)
      (fun j other nowhere => (Function.update_of_ne other ..).trans nowhere)
      (by simp [at_pc, unsent])
      fun _ _ => busy (by simp [at_pc]) (by simp [at_pc]) (by simp [at_pc]) (by simp [at_pc])
  | guard at_pc | tooLarge at_pc | toLanes at_pc | cloneSender at_pc | closed at_pc | full at_pc =>
    exact keep_sent inv there rfl rfl (fun _ here => here) (fun _ _ nowhere => nowhere)
      (by simp [at_pc, unsent, ownsCtx])
      fun _ _ => busy (by simp [at_pc]) (by simp [at_pc]) (by simp [at_pc]) (by simp [at_pc])
  | sleep deadline at_pc | wake deadline at_pc =>
    exact keep_sent inv there rfl rfl (fun _ here => here) (fun _ _ nowhere => nowhere)
      (by simp [at_pc, unsent, ownsCtx])
      fun _ _ => busy (by simp [at_pc]) (by simp [at_pc]) (by simp [at_pc]) (by simp [at_pc])
  | await at_pc | cancelArrived at_pc =>
    exact keep_sent inv there rfl rfl (fun _ here => here) (fun _ _ nowhere => nowhere)
      (by simp [unsent, ownsCtx])
      fun _ _ => busy (by simp [at_pc]) (by simp [at_pc]) (by simp [at_pc]) (by simp [at_pc])
  | head since response at_pc | pulled since at_pc | timeOut since at_pc | cancelPulled since at_pc
  | cancelWaiting since at_pc =>
    exact keep_sent inv there rfl rfl (fun _ here => here) (fun _ _ nowhere => nowhere)
      (by simp [unsent, ownsCtx])
      fun _ _ => busy (by simp [at_pc]) (by simp [at_pc]) (by simp [at_pc]) (by simp [at_pc])
  | laneSend deadline i at_pc | laneRefused deadline x at_pc | cancelSleeping deadline x at_pc =>
    exact keep_sent inv there rfl rfl (fun _ here => here)
      (fun j other nowhere => (Function.update_of_ne other ..).trans nowhere)
      (by simp [unsent, ownsCtx])
      fun _ _ => busy (by simp [at_pc]) (by simp [at_pc]) (by simp [at_pc]) (by simp [at_pc])
  | send at_pc room =>
    have early : unsent c.phase = true := by
      rcases at_pc with at_pc | ⟨since, at_pc⟩ <;> simp [at_pc, unsent, ownsCtx]
    refine send_sent inv there early rfl rfl rfl ?_ (fun j other => Function.update_of_ne other ..)
    intro j here
    change j ∈ s.received ++ (s.contents .queue ++ [r]) ++ s.contents .pending
    simp only [line, List.mem_append, List.mem_singleton] at here ⊢
    tauto
  | queueUp since at_pc full =>
    refine send_sent inv there (by simp [at_pc, unsent, ownsCtx]) rfl rfl rfl ?_
      (fun j other => Function.update_of_ne other ..)
    intro j here
    change j ∈ s.received ++ s.contents .queue ++ (s.contents .pending ++ [r])
    simp only [line, List.mem_append, List.mem_singleton] at here ⊢
    tauto
  | expire since x at_pc here =>
    exact leave_sent inv rfl rfl rfl rfl rfl (Function.update_self ..)
      (fun j other => Function.update_of_ne other ..) rfl (pending_fresh here at_pc) (.inl rfl)
  | cancelPending since x at_pc here =>
    exact leave_sent inv rfl rfl rfl rfl rfl (Function.update_self ..)
      (fun j other => Function.update_of_ne other ..) rfl (pending_fresh here at_pc) (.inr rfl)

theorem pass_sent (inv : SentInv s) (calls : s'.calls = s.calls) (sent : s'.sent = s.sent)
    (lines : ∀ j, j ∈ line s → j ∈ line s') (locs : ∀ j, s.loc j = none → s'.loc j = none) :
    SentInv s' := by
  constructor
  · rw [sent]
    exact inv.once
  · rw [calls, sent]
    exact inv.later
  · rw [calls, sent]
    exact inv.known
  · intro j x there here away
    rw [calls] at there
    rw [sent] at here
    obtain ⟨nowhere, rest⟩ := inv.fate j x there here fun before => away (lines j before)
    exact ⟨locs j nowhere, rest⟩

theorem shift_nowhere {r : Nat} {p q : Place} (place : PlaceInv s) (here : r ∈ s.contents p) (j : Nat)
    (nowhere : s.loc j = none) : (s.shift r p q).loc j = none := by
  have other : j ≠ r := by
    intro same
    rw [same, located_mem place.located here] at nowhere
    cases nowhere
  exact (Function.update_of_ne other ..).trans nowhere

theorem around_sent (place : PlaceInv s) (inv : SentInv s) (around : Around conf s s') :
    SentInv s' := by
  cases around with
  | takeQueue i r rest front nobody =>
    refine pass_sent inv rfl rfl ?_
      (shift_nowhere (p := .queue) (q := .hand i) place (by simp [front]))
    intro j here
    change j ∈ s.received ++ [r] ++ (s.contents .queue).erase r ++ s.contents .pending
    simp only [line, front, List.erase_cons_head, List.mem_append, List.mem_cons] at here ⊢
    tauto
  | takePull i r p rest others front next =>
    refine pass_sent inv rfl rfl ?_ ?_
    · intro j here
      change j ∈ s.received ++ [r] ++ ((s.contents .queue).erase r ++ [p]) ++
        (s.contents .pending).erase p
      simp only [line, front, next, List.erase_cons_head, List.mem_append, List.mem_cons] at here ⊢
      tauto
    · intro j nowhere
      have other : j ≠ p := by
        intro same
        rw [same, located_mem place.located (by simp [next] : p ∈ s.contents .pending)] at nowhere
        cases nowhere
      exact (Function.update_of_ne other ..).trans
        (shift_nowhere (q := .hand i) place (by simp [front] : r ∈ s.contents .queue) j nowhere)
  | takeLane i k r rest front =>
    exact pass_sent inv rfl rfl (fun _ here => here)
      (shift_nowhere (p := .lane k) (q := .hand i) place (by simp [front]))
  | admitCtx i r rest c there front =>
    have here : r ∈ s.contents (.hand i) := by simp [front]
    refine keep_sent inv there rfl rfl (fun _ here => here)
      (fun j _ => shift_nowhere (q := .worker i) place here j) id fun nowhere => ?_
    rw [located_mem place.located here] at nowhere
    cases nowhere
  | drop r c x p there here held moved =>
    refine keep_sent inv there rfl rfl ?_
      (fun j other nowhere => (Function.update_of_ne other ..).trans nowhere) id
      fun nowhere fresh gave => ⟨Function.update_self .., fresh, gave⟩
    rcases held with ⟨i, rfl⟩ | ⟨i, rfl⟩ <;> exact fun _ here => here
  | abort r c x there | takeFrame r c there =>
    exact keep_sent inv there rfl rfl (fun _ here => here) (fun _ _ nowhere => nowhere) id
      fun nowhere fresh gave => ⟨nowhere, fresh, gave⟩
  | use r i c op x there =>
    exact keep_sent inv there rfl rfl (fun _ here => here) (fun _ _ nowhere => nowhere) id
      fun nowhere fresh gave => ⟨nowhere, fresh, gave⟩

theorem step_sent {l : Label B} (place : PlaceInv s) (inv : SentInv s)
    (moved : step conf s l = some s') : SentInv s' := by
  cases step_move moved with
  | turn r c s' there turn => exact turn_sent place inv there turn
  | around s' around => exact around_sent place inv around
  | arrive length =>
    refine ⟨inv.once, forall_join inv.later fun _ here => ?_, ?_, ?_⟩
    · exact absurd (inv.known _ here) (by omega)
    · intro r here
      have inside := inv.known r here
      simp only [List.length_append, List.length_singleton]
      omega
    · intro r c there here away
      have inside := inv.known r here
      rw [List.getElem?_append_left inside] at there
      exact inv.fate r c there here away
  | tick | close | slots => exact ⟨inv.once, inv.later, inv.known, inv.fate⟩

theorem reachable_line (reached : Reachable (system B conf) s) : LineInv conf s :=
  reachable_invariant (LineInv conf) (by rintro s rfl; exact initial_line)
    (fun _ _ _ inv moved => step_line inv moved) reached

theorem reachable_sent (reached : Reachable (system B conf) s) : SentInv s :=
  (reachable_invariant (fun s => PlaceInv s ∧ SentInv s)
    (by rintro s rfl; exact ⟨initial_place, initial_sent⟩)
    (fun _ _ _ inv moved => ⟨step_place inv.1 moved, step_sent inv.1 inv.2 moved⟩) reached).2

/-- What a worker whose take sees `Disconnected` has seen. -/
structure Finished (s : State B) : Prop where
  closed : s.reqTx = false
  senders : s.senders = 0
  empty : s.contents .queue = []

theorem no_sender {r : Nat} {c : Call B} (counted : Counted s) (finished : Finished s)
    (there : s.calls[r]? = some c) : sending c = false := by
  have senders := counted.senders
  rw [finished.senders] at senders
  exact tallied_zero senders there

theorem finished_pending (place : PlaceInv s) (counted : Counted s) (finished : Finished s) :
    s.contents .pending = [] := by
  apply List.eq_nil_iff_forall_not_mem.mpr
  intro r here
  have at_pending := located_mem place.located here
  obtain ⟨c, there⟩ : ∃ c, s.calls[r]? = some c :=
    ⟨_, List.getElem?_eq_getElem (place.known r _ at_pending)⟩
  have quiet := no_sender counted finished there
  have placed := (place.each r c there).placed
  rw [at_pending] at placed
  unfold sending at quiet
  cases at_pc : c.phase with
  | pending since => rw [at_pc] at quiet; cases quiet
  | _ => exact absurd rfl (placed_away placed (by simp [at_pc]))

theorem finished_step {l : Label B} (place : PlaceInv s) (counted : Counted s)
    (finished : Finished s) (moved : step conf s l = some s') :
    Finished s' ∧ s'.received = s.received := by
  have nobody := finished_pending place counted finished
  obtain ⟨closed, senders, empty⟩ := finished
  have finished : Finished s := ⟨closed, senders, empty⟩
  cases step_move moved with
  | turn r c s' there turn =>
    have quiet := no_sender counted finished there
    unfold sending at quiet
    cases turn with
    | arrival | completion =>
      unfold State.log
      split <;> exact ⟨⟨closed, senders, empty⟩, rfl⟩
    | cloneSender at_pc queue open_ => rw [closed] at open_; cases open_
    | send at_pc =>
      rcases at_pc with at_pc | ⟨since, at_pc⟩ <;> rw [at_pc] at quiet <;> cases quiet
    | queueUp since at_pc | pulled since at_pc | expire since x at_pc | cancelPending since x at_pc
    | cancelPulled since at_pc => rw [at_pc] at quiet; cases quiet
    | _ => exact ⟨⟨closed, senders, empty⟩, rfl⟩
  | around s' around =>
    cases around with
    | takeQueue i r rest front => rw [empty] at front; cases front
    | takePull i r p rest others front => rw [empty] at front; cases front
    | drop r c x p there here held =>
      rcases held with ⟨i, rfl⟩ | ⟨i, rfl⟩ <;> exact ⟨⟨closed, senders, empty⟩, rfl⟩
    | _ => exact ⟨⟨closed, senders, empty⟩, rfl⟩
  | close => exact ⟨⟨rfl, senders, empty⟩, rfl⟩
  | arrive | tick | slots => exact ⟨⟨closed, senders, empty⟩, rfl⟩

theorem finished_run {ls : List (Label B)} (reached : Reachable (system B conf) s)
    (finished : Finished s) (ran : run (system B conf) s ls = some s') :
    Finished s' ∧ s'.received = s.received := by
  induction ls generalizing s with
  | nil =>
    cases ran
    exact ⟨finished, rfl⟩
  | cons l ls ih =>
    obtain ⟨t, moved, rest⟩ := run_cons.mp ran
    have next := finished_step (reachable_place reached) (reachable_counted reached) finished moved
    have later := ih (reachable_step reached moved) next.1 rest
    exact ⟨later.1, later.2.trans next.2⟩

/-- Workers receive what was sent in the order it was sent, each request once; only a call
    that gave up waiting for room is passed over; nobody waits while there is room; and a
    worker that leaves because the queue is closed and empty leaves nothing to receive. -/
theorem shared_queue_law (B : Type) (conf : Config) :
    (∀ s, Reachable (system B conf) s →
      (line s).Sublist s.sent ∧ (line s).Nodup ∧
      (s.contents .queue).length ≤ conf.queueDepth ∧
      (s.contents .pending ≠ [] → (s.contents .queue).length = conf.queueDepth) ∧
      ∀ r c, s.calls[r]? = some c → r ∈ s.sent → r ∉ line s →
        s.loc r = none ∧ c.admitted = false ∧ gaveUp c) ∧
    ∀ s t ls, Reachable (system B conf) s → Finished s → run (system B conf) s ls = some t →
      t.received = s.received ∧ t.contents .queue = [] ∧ t.contents .pending = [] := by
  constructor
  · intro s reached
    have lines := reachable_line reached
    have sent := reachable_sent reached
    exact ⟨lines.order, lines.order.nodup sent.once, lines.bounded, lines.full, sent.fate⟩
  · intro s t ls reached finished ran
    have ended := finished_run reached finished ran
    have later := reachable_run reached ran
    exact ⟨ended.2, ended.1.empty,
      finished_pending (reachable_place later) (reachable_counted later) ended.1⟩

def crowded : List (Label Unit) :=
  [[Label.arrive none, .arrive none, .arrive none], List.replicate 5 (.advance 0),
    List.replicate 6 (.advance 1), List.replicate 6 (.advance 2),
    [.tick 5000000, .expire 2, .take 0 none, .admitCtx 0, .advance 1, .closeReqTx, .take 0 none]].flatten

def crowdedState : State Unit :=
  (run (system Unit smallServer) (KinoRequestLifecycle.initial Unit) crowded).getD
    (KinoRequestLifecycle.initial Unit)

theorem crowded_queue_received : crowdedState.received = [0, 1] ∧ (line crowdedState).Nodup ∧
    ∀ t ls, run (system Unit smallServer) crowdedState ls = some t → t.received = [0, 1] := by
  have ran : run (system Unit smallServer) (KinoRequestLifecycle.initial Unit) crowded =
      some crowdedState := rfl
  have reached := reachable_run (.start rfl) ran
  have law := shared_queue_law Unit smallServer
  refine ⟨rfl, (law.1 _ reached).2.1, fun t ls on => ?_⟩
  exact (law.2 _ t ls reached ⟨rfl, rfl, rfl⟩ on).1

end KinoRequestOrder
