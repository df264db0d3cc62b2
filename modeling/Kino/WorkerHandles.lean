import Kino.RequestDeadlines

/-!
What the rest of a server leaves of a request that a worker has given to Ruby: no step but the
worker's own gives a worker a context, opens a stream or takes an answer back, and a call that is
over stays over.
-/
namespace KinoWorkerHandles
open Transitions Ownership Tallies KinoRequestLifecycle KinoRequestCounts
open KinoResponder (Responder Response respond500IfUnsent)
open KinoShutdown (Fresh respond500_sweeps respond500_fresh use_fresh claimed_fresh)
variable {B : Type}

/-- The call of `handle_request` is over. -/
def finished : Phase → Bool
  | .returned _ | .dropped => true
  | _ => false

section Front
variable {conf : Config} {s s' : State B}

/-! A stream is open only where a worker holds the context. -/

/-- `place` is where the context is. -/
structure Tended (c : Call B) (place : Option Place) : Prop where
  fresh : Fresh c.responder
  held : c.responder.bodyTx = true → ∃ i, place = some (.worker i)

def AllTended (s : State B) : Prop :=
  ∀ (r : Nat) (c : Call B), s.calls[r]? = some c → Tended c (s.loc r)

theorem put_tended {r : Nat} {c c' : Call B} (inv : AllTended s) (there : s.calls[r]? = some c)
    (calls : s'.calls = s.calls.set r c') (others : ∀ j, j ≠ r → s'.loc j = s.loc j)
    (call : Tended c' (s'.loc r)) : AllTended s' := by
  intro j x at_j
  rw [calls] at at_j
  rcases set_cases at_j with ⟨rfl, rfl⟩ | ⟨other, at_j⟩
  · exact call
  · rw [others j other]
    exact inv j x at_j

theorem tended_on {c c' : Call B} {p p' : Option Place} (tended : Tended c p)
    (fresh : Fresh c'.responder)
    (body : c'.responder.bodyTx = true → c.responder.bodyTx = true)
    (stays : ∀ i, p = some (.worker i) → p' = p) : Tended c' p' := by
  constructor
  · exact fresh
  · intro open_
    obtain ⟨i, here⟩ := tended.held (body open_)
    exact ⟨i, (stays i here).trans here⟩

theorem not_worker {p q p' : Option Place} (there : p = q) (no : ∀ i, q ≠ some (.worker i)) :
    ∀ i, p = some (.worker i) → p' = p :=
  fun i here => absurd (there.symm.trans here) (no i)

theorem answered_body {x y : Responder AppHead B} (fresh : Fresh x)
    (answered : respond500IfUnsent x = some y) : y.bodyTx = false := by
  rcases respond500_sweeps fresh answered with ⟨_, sent⟩ | ⟨settled, rfl⟩
  · exact sent.closed
  · simpa [KinoShutdown.Unanswered] using (not_or.mp settled).2

theorem answered_tended {c' : Call B} {p : Option Place} {x : Responder AppHead B}
    (fresh : Fresh x) (answered : respond500IfUnsent x = some c'.responder) : Tended c' p := by
  constructor
  · exact respond500_fresh fresh answered
  · intro open_
    rw [answered_body fresh answered] at open_
    cases open_

theorem turn_tended {r : Nat} {c : Call B} (place : PlaceInv s) (inv : AllTended s)
    (there : s.calls[r]? = some c) (turn : Turn conf s r c s') : AllTended s' := by
  have tended := inv r c there
  have placed := (place.each r c there).placed
  have owned : ownsCtx c.phase = true → ∀ i p', s.loc r = some (.worker i) → p' = s.loc r := by
    intro owns i p' here
    have future := (placed_owned placed owns).1
    rw [future] at here
    cases here
  cases turn with
  | arrival at_pc | completion response at_pc =>
    exact put_tended inv there (log_put_calls ..) (fun _ _ => by simp [State.put])
      (tended_on tended tended.fresh id fun _ _ => by simp [State.put])
  | create at_pc =>
    have nowhere := (placed_unborn placed (.inr at_pc)).1
    exact put_tended inv there rfl (fun j other => Function.update_of_ne other _ _)
      (tended_on tended tended.fresh id (not_worker nowhere (by simp)))
  | send at_pc =>
    have owns : ownsCtx c.phase = true := by
      rcases at_pc with at_pc | ⟨since, at_pc⟩ <;> rw [at_pc] <;> rfl
    exact put_tended inv there rfl (fun j other => Function.update_of_ne other _ _)
      (tended_on tended tended.fresh id fun i => owned owns i _)
  | queueUp since at_pc | laneSend deadline i at_pc =>
    exact put_tended inv there rfl (fun j other => Function.update_of_ne other _ _)
      (tended_on tended tended.fresh id fun i => owned (by rw [at_pc]; rfl) i _)
  | expire since x at_pc here late answered | laneRefused deadline x at_pc why answered
  | finishOwner response x at_pc here answered =>
    exact put_tended inv there rfl (fun j other => Function.update_of_ne other _ _)
      (answered_tended tended.fresh answered)
  | cancelPending since x at_pc here answered | cancelSleeping deadline x at_pc answered =>
    exact put_tended inv there rfl (fun j other => Function.update_of_ne other _ _)
      (answered_tended (x := KinoShutdown.hangUp c.responder) tended.fresh answered)
  | _ =>
    exact put_tended inv there rfl (fun _ _ => rfl) (tended_on tended tended.fresh id fun _ _ => rfl)

theorem around_tended (place : PlaceInv s) (inv : AllTended s) (around : Around conf s s') :
    AllTended s' := by
  have relocated : ∀ {r : Nat} {p q : Place}, r ∈ s.contents p → (∀ i, p ≠ .worker i) →
      AllTended (s.shift r p q) := by
    intro r p q here no j x at_j
    by_cases same : j = r
    · subst same
      have there := located_mem place.located here
      exact tended_on (inv j x at_j) (inv j x at_j).fresh id
        (not_worker there fun i => by simpa using no i)
    · have kept : (s.shift r p q).loc j = s.loc j := Function.update_of_ne same _ _
      rw [kept]
      exact inv j x at_j
  cases around with
  | admitCtx i r rest c there front =>
    have tended := inv r c there
    exact put_tended inv there rfl (fun j other => Function.update_of_ne other _ _)
      ⟨tended.fresh, fun _ => ⟨i, Function.update_self ..⟩⟩
  | takeQueue i r rest front =>
    exact relocated (by rw [front]; simp) (by simp)
  | takePull i r p rest others front next =>
    have first := relocated (q := .hand i) (p := .queue) (r := r) (by rw [front]; simp) (by simp)
    have waits : p ∈ s.contents .pending := by
      rw [next]
      simp
    intro j x at_j
    by_cases same : j = p
    · subst same
      have there := located_mem place.located waits
      exact tended_on (inv j x at_j) (inv j x at_j).fresh id (not_worker there (by simp))
    · have kept : ((s.shift r .queue (.hand i)).shift p .pending .queue).loc j =
          (s.shift r .queue (.hand i)).loc j := Function.update_of_ne same _ _
      have this := first j x at_j
      rwa [← kept] at this
  | takeLane i k r rest front =>
    exact relocated (by rw [front]; simp) (by simp)
  | drop r c x p there here held answered =>
    exact put_tended inv there rfl (fun j other => Function.update_of_ne other _ _)
      (answered_tended (inv r c there).fresh answered)
  | abort r c x there answered =>
    exact put_tended inv there rfl (fun _ _ => rfl)
      (answered_tended (inv r c there).fresh answered)
  | use r i c op x there here used =>
    exact put_tended inv there rfl (fun _ _ => rfl)
      ⟨use_fresh (inv r c there).fresh used, fun _ => ⟨i, located_mem place.located here⟩⟩
  | takeFrame r c there =>
    have tended := inv r c there
    exact put_tended inv there rfl (fun _ _ => rfl) (tended_on tended tended.fresh id fun _ _ => rfl)

theorem step_tended {l : Label B} (place : PlaceInv s) (inv : AllTended s)
    (moved : step conf s l = some s') : AllTended s' := by
  cases step_move moved with
  | turn r c s' there turn => exact turn_tended place inv there turn
  | around s' around => exact around_tended place inv around
  | arrive length =>
    have unopened : Tended (newCall (B := B) length) (s.loc s.calls.length) :=
      ⟨fun _ => ⟨rfl, rfl⟩, fun open_ => (nomatch open_)⟩
    exact forall_join inv unopened
  | tick | close | slots => exact inv

theorem reachable_tended (reached : Reachable (system B conf) s) : AllTended s :=
  (reachable_invariant (fun s => PlaceInv s ∧ AllTended s)
    (by
      intro s start
      rw [start]
      exact ⟨initial_place, fun _ _ there => (nomatch there)⟩)
    (fun _ _ _ inv moved => ⟨step_place inv.1 moved, step_tended inv.1 inv.2 moved⟩) reached).2

/-! The steps of others do not undo what has become of a worker's contexts. -/

/-- A claim is never given back, and no stream is opened. -/
structure Kept (x y : Responder AppHead B) : Prop where
  claimed : x.responded = true → y.responded = true
  closed : x.bodyTx = false → y.bodyTx = false

theorem kept_same (x : Responder AppHead B) : Kept x x := ⟨id, id⟩

theorem kept_trans {x y z : Responder AppHead B} (first : Kept x y) (second : Kept y z) :
    Kept x z :=
  ⟨second.claimed ∘ first.claimed, second.closed ∘ first.closed⟩

theorem hangUp_kept (x : Responder AppHead B) : Kept x (KinoShutdown.hangUp x) := ⟨id, id⟩

theorem answered_kept {x y : Responder AppHead B} (fresh : Fresh x)
    (answered : respond500IfUnsent x = some y) : Kept x y := by
  rcases respond500_sweeps fresh answered with ⟨_, sent⟩ | ⟨_, rfl⟩
  · exact ⟨fun _ => sent.claimed, fun _ => sent.closed⟩
  · exact kept_same _

/-- No worker is given a context, and every response is kept. -/
structure Quiet (s s' : State B) : Prop where
  given : ∀ i, ∀ r ∈ s'.contents (.worker i), r ∈ s.contents (.worker i)
  kept : ∀ (r : Nat) (c c' : Call B), s.calls[r]? = some c → s'.calls[r]? = some c' →
    Kept c.responder c'.responder

theorem put_quiet {r : Nat} {c c' : Call B} (there : s.calls[r]? = some c)
    (calls : s'.calls = s.calls.set r c')
    (given : ∀ i, ∀ j ∈ s'.contents (.worker i), j ∈ s.contents (.worker i))
    (call : Kept c.responder c'.responder) : Quiet s s' := by
  refine ⟨given, fun j x x' at_j at_j' => ?_⟩
  rw [calls] at at_j'
  rcases set_cases at_j' with ⟨rfl, rfl⟩ | ⟨_, same⟩
  · rw [there, Option.some.injEq] at at_j
    exact at_j ▸ call
  · rw [at_j, Option.some.injEq] at same
    exact same ▸ kept_same _

theorem quiet_same (contents : ∀ i, s'.contents (.worker i) = s.contents (.worker i))
    (calls : s'.calls = s.calls) : Quiet s s' := by
  refine ⟨fun i r here => contents i ▸ here, fun r c c' there there' => ?_⟩
  rw [calls, there, Option.some.injEq] at there'
  exact there' ▸ kept_same _

theorem shift_apart {i : Nat} {p q : Place} (r : Nat) (away : p ≠ .worker i) (aside : q ≠ .worker i) :
    (s.shift r p q).contents (.worker i) = s.contents (.worker i) := by
  simp only [State.shift, Function.update_of_ne (Ne.symm away), Function.update_of_ne (Ne.symm aside)]

theorem drop_quiet {r : Nat} {c c' : Call B} {p : Place} {x : Responder AppHead B}
    (there : s.calls[r]? = some c) (calls : s'.calls = s.calls.set r c')
    (contents : s'.contents = Function.update s.contents p ((s.contents p).erase r))
    (fresh : Fresh x) (before : Kept c.responder x)
    (answered : respond500IfUnsent x = some c'.responder) : Quiet s s' := by
  refine put_quiet there calls (fun i j here => ?_)
    (kept_trans before (answered_kept fresh answered))
  rw [contents] at here
  by_cases same : p = .worker i
  · subst same
    rw [Function.update_self] at here
    exact List.mem_of_mem_erase here
  · rwa [Function.update_of_ne (Ne.symm same)] at here

theorem turn_quiet {r : Nat} {c : Call B} (tended : AllTended s) (there : s.calls[r]? = some c)
    (turn : Turn conf s r c s') : Quiet s s' := by
  have fresh := (tended r c there).fresh
  have shifted : ∀ (p q : Place), (∀ i, p ≠ .worker i) → (∀ i, q ≠ .worker i) →
      ∀ i, ∀ j ∈ (s.shift r p q).contents (.worker i), j ∈ s.contents (.worker i) := by
    intro p q away aside i j here
    exact shift_apart r (away i) (aside i) ▸ here
  cases turn with
  | arrival | completion =>
    exact put_quiet there (log_put_calls ..) (fun i j here => by simpa [State.put] using here)
      (kept_same _)
  | create =>
    refine put_quiet there rfl (fun i j here => ?_) (kept_same _)
    simpa only [State.put, Function.update_of_ne (show Place.worker i ≠ .future by simp)] using here
  | send => exact put_quiet there rfl (shifted .future .queue (by simp) (by simp)) (kept_same _)
  | queueUp =>
    exact put_quiet there rfl (shifted .future .pending (by simp) (by simp)) (kept_same _)
  | laneSend deadline k =>
    exact put_quiet there rfl (shifted .future (.lane k) (by simp) (by simp)) (kept_same _)
  | expire since x at_pc here late answered | laneRefused deadline x at_pc why answered
  | finishOwner response x at_pc here answered =>
    exact drop_quiet there rfl rfl fresh (kept_same _) answered
  | cancelPending since x at_pc here answered | cancelSleeping deadline x at_pc answered =>
    exact drop_quiet (x := KinoShutdown.hangUp c.responder) there rfl rfl fresh (hangUp_kept _)
      answered
  | timeOut | cancelPulled | cancelWaiting | head =>
    exact put_quiet there rfl (fun _ _ here => here) ⟨id, id⟩
  | _ => exact put_quiet there rfl (fun _ _ here => here) (kept_same _)

theorem bound_turn (conf : Config) {r : Nat} {f : Call B → Option (State B)} (tended : AllTended s)
    (moved : s.calls[r]?.bind f = some s') (each : ∀ c, f c = some s' → Turn conf s r c s') :
    Quiet s s' := by
  obtain ⟨c, there, moved⟩ := Option.bind_eq_some_iff.mp moved
  exact turn_quiet tended there (each c moved)

theorem take_contents {i k : Nat} {source : Option Nat} (moved : take s k source = some s') :
    s'.contents (.worker i) = s.contents (.worker i) ∧ s'.calls = s.calls := by
  cases source with
  | none =>
    simp only [take] at moved
    split at moved
    · cases moved
    · rename_i r rest front
      have first := shift_apart (s := s) (i := i) (p := .queue) (q := .hand k) r (by simp) (by simp)
      cases moved
      unfold pull
      split
      · exact ⟨first, rfl⟩
      · rename_i p others next
        have second := shift_apart (s := s.shift r .queue (.hand k)) (i := i) (p := .pending)
          (q := .queue) p (by simp) (by simp)
        exact ⟨second.trans first, rfl⟩
  | some lane =>
    simp only [take] at moved
    split at moved
    · cases moved
    · rename_i r rest front
      cases moved
      exact ⟨shift_apart r (by simp) (by simp), rfl⟩

def handles : Label B → Bool
  | .admitCtx _ | .use .. => true
  | _ => false

theorem step_quiet {l : Label B} (tended : AllTended s) (other : handles l = false)
    (moved : step conf s l = some s') : Quiet s s' := by
  cases l with
  | advance r => exact bound_turn conf tended moved fun _ => advance_turn
  | expire r => exact bound_turn conf tended moved fun _ => expire_turn
  | laneSend r k => exact bound_turn conf tended moved fun _ => laneSend_turn
  | laneFull r => exact bound_turn conf tended moved fun _ => laneFull_turn
  | laneClosed r => exact bound_turn conf tended moved fun _ => laneClosed_turn
  | timeOut r => exact bound_turn conf tended moved fun _ => timeOut_turn
  | cancel r => exact bound_turn conf tended moved fun _ => cancel_turn
  | arrive length =>
    cases moved
    refine ⟨fun _ _ here => here, fun r c c' there there' => ?_⟩
    have inside := (List.getElem?_eq_some_iff.mp there).1
    rw [List.getElem?_append_left inside, there, Option.some.injEq] at there'
    exact there' ▸ kept_same _
  | tick | registerWorker | closeReqTx =>
    cases moved
    exact quiet_same (fun _ => rfl) rfl
  | retire | reset | closeLane =>
    obtain ⟨slot, there, rfl⟩ := Option.map_eq_some_iff.mp moved
    exact quiet_same (fun _ => rfl) rfl
  | drainLane k =>
    simp only [step] at moved
    split at moved
    · cases moved
    · obtain ⟨c, there, dropped⟩ := Option.bind_eq_some_iff.mp moved
      obtain ⟨x, answered, rfl⟩ := Option.map_eq_some_iff.mp dropped
      exact drop_quiet there rfl rfl (tended _ c there).fresh (kept_same _) answered
  | release r k =>
    simp only [step] at moved
    split at moved
    · obtain ⟨c, there, dropped⟩ := Option.bind_eq_some_iff.mp moved
      obtain ⟨x, answered, rfl⟩ := Option.map_eq_some_iff.mp dropped
      exact drop_quiet there rfl rfl (tended r c there).fresh (kept_same _) answered
    · cases moved
  | abort r =>
    simp only [step] at moved
    split at moved
    · obtain ⟨c, there, aborted⟩ := Option.bind_eq_some_iff.mp moved
      obtain ⟨x, answered, rfl⟩ := Option.map_eq_some_iff.mp aborted
      exact put_quiet there rfl (fun _ _ here => here)
        (answered_kept (tended r c there).fresh answered)
    · cases moved
  | takeFrame r =>
    obtain ⟨c, there, rfl⟩ := Option.map_eq_some_iff.mp moved
    exact put_quiet there rfl (fun _ _ here => here) ⟨id, id⟩
  | take k source =>
    exact quiet_same (fun i => (take_contents (i := i) moved).1) (take_contents (i := 0) moved).2
  | admitCtx | use => cases other

/-- What `admitCtx` does: worker `i` is given the context it has received. -/
structure Given (s s' : State B) (r i : Nat) : Prop where
  received : s.loc r = some (.hand i)
  given : ∀ j, ∀ q ∈ s'.contents (.worker j), q ∈ s.contents (.worker j) ∨ (q = r ∧ j = i)
  kept : ∀ (q : Nat) (c' : Call B), s'.calls[q]? = some c' →
    ∃ c, s.calls[q]? = some c ∧ c'.responder = c.responder

theorem admitCtx_given {i r : Nat} {rest : List Nat} (place : PlaceInv s)
    (front : s.contents (.hand i) = r :: rest) (moved : step conf s (.admitCtx i) = some s') :
    Given s s' r i := by
  simp only [step, admitCtx, front] at moved
  obtain ⟨c, there, rfl⟩ := Option.map_eq_some_iff.mp moved
  constructor
  · exact located_mem place.located (by simp [front])
  · intro j q here
    by_cases same : j = i
    · subst same
      simp only [State.put, State.shift, Function.update_self, List.mem_append,
        List.mem_singleton] at here
      rcases here with before | new
      · exact .inl before
      · exact .inr ⟨new, rfl⟩
    · have apart : Place.worker j ≠ .worker i := by simpa using same
      have away : Place.worker j ≠ .hand i := by simp
      simp only [State.put, State.shift, Function.update_of_ne apart,
        Function.update_of_ne away] at here
      exact .inl here
  · intro q c' there'
    rcases set_cases there' with ⟨rfl, rfl⟩ | ⟨_, same⟩
    · exact ⟨c, there, rfl⟩
    · exact ⟨c', same, rfl⟩

theorem use_changes {r i : Nat} {op : KinoShutdown.Use Nat B}
    (moved : step conf s (.use r i op) = some s') :
    s'.contents = s.contents ∧ s'.slots = s.slots ∧ ∃ c x, s.calls[r]? = some c ∧
      KinoShutdown.useResponder c.responder (stamp (timed conf s c) op) = some x ∧
        s'.calls = s.calls.set r { c with responder := x } := by
  simp only [step] at moved
  split at moved
  · obtain ⟨c, there, used⟩ := Option.bind_eq_some_iff.mp moved
    obtain ⟨x, answered, rfl⟩ := Option.map_eq_some_iff.mp used
    exact ⟨rfl, rfl, c, x, there, answered, rfl⟩
  · cases moved

/-! What is over stays over, and slots are only added. -/

theorem turn_live {r : Nat} {c : Call B} (turn : Turn conf s r c s') : finished c.phase = false := by
  cases turn with
  | send at_pc =>
    rcases at_pc with at_pc | ⟨since, at_pc⟩ <;> rw [at_pc] <;> rfl
  | arrival at_pc | create at_pc | guard at_pc | tooLarge at_pc | toLanes at_pc | cloneSender at_pc
  | closed at_pc | full at_pc | queueUp _ at_pc | pulled _ at_pc | expire _ _ at_pc
  | laneSend _ _ at_pc | sleep _ at_pc | wake _ at_pc | laneRefused _ _ at_pc | await at_pc
  | head _ _ at_pc | timeOut _ at_pc | completion _ at_pc | finish _ at_pc | finishOwner _ _ at_pc
  | cancelArrived at_pc | cancelPending _ _ at_pc | cancelPulled _ at_pc | cancelSleeping _ _ at_pc
  | cancelWaiting _ at_pc =>
    rw [at_pc]
    rfl

theorem turn_calls {r : Nat} {c : Call B} (turn : Turn conf s r c s') :
    ∃ c', s'.calls = s.calls.set r c' := by
  cases turn with
  | arrival | completion => exact ⟨_, log_put_calls ..⟩
  | _ => exact ⟨_, rfl⟩

theorem turn_frame {r : Nat} {c : Call B} (turn : Turn conf s r c s') :
    s'.slots = s.slots ∧ s'.now = s.now := by
  cases turn with
  | arrival | completion =>
    unfold State.log
    split <;> exact ⟨rfl, rfl⟩
  | _ => exact ⟨rfl, rfl⟩

theorem around_phase (around : Around conf s s') {r : Nat} {c : Call B}
    (there : s.calls[r]? = some c) : ∃ c', s'.calls[r]? = some c' ∧ c'.phase = c.phase := by
  have put : ∀ {j : Nat} {x x' : Call B}, s.calls[j]? = some x → x'.phase = x.phase →
      ∃ c', (s.calls.set j x')[r]? = some c' ∧ c'.phase = c.phase := by
    intro j x x' at_j same
    by_cases eq : j = r
    · subst eq
      rw [there, Option.some.injEq] at at_j
      have inside := (List.getElem?_eq_some_iff.mp there).1
      exact ⟨x', List.getElem?_set_self inside, by rw [same, at_j]⟩
    · exact ⟨c, by rw [List.getElem?_set_ne eq, there], rfl⟩
  cases around with
  | admitCtx i j rest x at_j => exact put at_j rfl
  | drop j x y p at_j => exact put at_j rfl
  | abort j x y at_j => exact put at_j rfl
  | use j i x op y at_j => exact put at_j rfl
  | takeFrame j x at_j => exact put at_j rfl
  | takeQueue | takePull | takeLane => exact ⟨c, there, rfl⟩

theorem step_finished {l : Label B} (moved : step conf s l = some s') {r : Nat} {c : Call B}
    (there : s.calls[r]? = some c) (done : finished c.phase = true) :
    ∃ c', s'.calls[r]? = some c' ∧ finished c'.phase = true := by
  cases step_move moved with
  | turn j x s' at_j turn =>
    have live := turn_live turn
    obtain ⟨x', calls⟩ := turn_calls turn
    have other : j ≠ r := by
      intro same
      subst same
      rw [there, Option.some.injEq] at at_j
      rw [at_j, live] at done
      cases done
    exact ⟨c, by rw [calls, List.getElem?_set_ne other, there], done⟩
  | around s' around =>
    obtain ⟨c', at_r, same⟩ := around_phase around there
    exact ⟨c', at_r, by rw [same, done]⟩
  | arrive length =>
    have inside := (List.getElem?_eq_some_iff.mp there).1
    exact ⟨c, by rw [List.getElem?_append_left inside, there], done⟩
  | tick | close | slots => exact ⟨c, there, done⟩

structure Grows (s s' : State B) : Prop where
  slots : s.slots.length ≤ s'.slots.length
  now : s.now ≤ s'.now

theorem grows_same (slots : s'.slots.length = s.slots.length) (now : s'.now = s.now) :
    Grows s s' :=
  ⟨Nat.le_of_eq slots.symm, Nat.le_of_eq now.symm⟩

theorem bound_grows (conf : Config) {r : Nat} {f : Call B → Option (State B)}
    (moved : s.calls[r]?.bind f = some s') (each : ∀ c, f c = some s' → Turn conf s r c s') :
    Grows s s' := by
  obtain ⟨c, there, moved⟩ := Option.bind_eq_some_iff.mp moved
  obtain ⟨slots, now⟩ := turn_frame (each c moved)
  exact grows_same (by rw [slots]) now

theorem take_frame {i : Nat} {source : Option Nat} (moved : take s i source = some s') :
    s'.slots = s.slots ∧ s'.now = s.now := by
  cases source with
  | none =>
    simp only [take] at moved
    split at moved
    · cases moved
    · cases moved
      unfold pull
      split <;> exact ⟨rfl, rfl⟩
  | some k =>
    simp only [take] at moved
    split at moved
    · cases moved
    · cases moved
      exact ⟨rfl, rfl⟩

theorem step_grows {l : Label B} (moved : step conf s l = some s') : Grows s s' := by
  cases l with
  | advance r => exact bound_grows conf moved fun _ => advance_turn
  | expire r => exact bound_grows conf moved fun _ => expire_turn
  | laneSend r k => exact bound_grows conf moved fun _ => laneSend_turn
  | laneFull r => exact bound_grows conf moved fun _ => laneFull_turn
  | laneClosed r => exact bound_grows conf moved fun _ => laneClosed_turn
  | timeOut r => exact bound_grows conf moved fun _ => timeOut_turn
  | cancel r => exact bound_grows conf moved fun _ => cancel_turn
  | arrive | closeReqTx =>
    cases moved
    exact grows_same rfl rfl
  | tick d =>
    cases moved
    exact ⟨Nat.le_refl _, Nat.le_add_right _ _⟩
  | registerWorker =>
    cases moved
    exact ⟨by simp, Nat.le_refl _⟩
  | retire | reset | closeLane =>
    obtain ⟨slot, there, rfl⟩ := Option.map_eq_some_iff.mp moved
    exact grows_same (by simp) rfl
  | take i source =>
    obtain ⟨slots, now⟩ := take_frame moved
    exact grows_same (by rw [slots]) now
  | drainLane k =>
    simp only [step] at moved
    split at moved
    · cases moved
    · obtain ⟨c, there, dropped⟩ := Option.bind_eq_some_iff.mp moved
      obtain ⟨x, answered, rfl⟩ := Option.map_eq_some_iff.mp dropped
      exact grows_same rfl rfl
  | admitCtx k =>
    simp only [step, admitCtx] at moved
    split at moved
    · cases moved
    · obtain ⟨c, there, rfl⟩ := Option.map_eq_some_iff.mp moved
      exact grows_same rfl rfl
  | takeFrame r =>
    obtain ⟨c, there, rfl⟩ := Option.map_eq_some_iff.mp moved
    exact grows_same rfl rfl
  | use | abort | release =>
    simp only [step] at moved
    split at moved
    · obtain ⟨c, there, used⟩ := Option.bind_eq_some_iff.mp moved
      obtain ⟨x, answered, rfl⟩ := Option.map_eq_some_iff.mp used
      exact grows_same rfl rfl
    · cases moved

end Front

end KinoWorkerHandles
