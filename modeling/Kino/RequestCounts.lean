import Kino.Tallies
import Kino.RequestLifecycle

/-!
The counters of a server against the calls they count: `in_flight` against the calls past
the drop guard, `rejected` and `timeouts` against the 503 and 504 given out, `served` against
the requests admitted, in every state of every interleaving.
-/
namespace KinoRequestCounts
open Transitions Ownership Tallies KinoResponder KinoRequestLifecycle
variable {B : Type}

def outcome : Phase → Option (Response AppHead)
  | .answered response | .closing response | .returned response => some response
  | _ => none

def underGuard : Phase → Bool
  | .arrived | .logged | .created | .returned _ | .dropped => false
  | _ => true

/-- The call holds a clone of `req_tx`. -/
def holdsSender : Phase → Bool
  | .offering | .polling _ | .pending _ => true
  | _ => false

def guarded (c : Call B) : Bool := underGuard c.phase
def sending (c : Call B) : Bool := holdsSender c.phase
def refused (c : Call B) : Bool := decide (outcome c.phase = some response503)
def timedOut (c : Call B) : Bool := decide (outcome c.phase = some response504)

structure Counted (s : State B) : Prop where
  inFlight : Tallied s.inFlight guarded s.calls
  senders : Tallied s.senders sending s.calls
  rejected : Tallied s.rejected refused s.calls
  timeouts : Tallied s.timeouts timedOut s.calls
  served : Tallied s.served Call.admitted s.calls

def kinds (c : Call B) : Bool × Bool × Bool × Bool × Bool :=
  (guarded c, sending c, refused c, timedOut c, c.admitted)

def counters (s : State B) : Nat × Nat × Nat × Nat × Nat :=
  (s.inFlight, s.senders, s.rejected, s.timeouts, s.served)

/-! Where a context can be, by what its call is doing. -/

def ownsCtx : Phase → Bool
  | .created | .guarded | .offering | .polling _ | .dispatching _ | .sleeping _ => true
  | _ => false

def refusal (response : Response AppHead) : Bool :=
  decide (response = response413) || decide (response = response503)

def roams : Phase → Bool
  | .pending _ | .enqueued | .waiting _ | .dropped => true
  | .answered response | .closing response | .returned response => !refusal response
  | _ => false

inductive Placed : Phase → Option Place → Bool → Prop where
  | unborn {phase : Phase} (early : phase = .arrived ∨ phase = .logged) : Placed phase none false
  | owned {phase : Phase} (owns : ownsCtx phase = true) : Placed phase (some .future) false
  | pending (since : Nat) : Placed (.pending since) (some .pending) false
  | kept {phase : Phase} (response : Response AppHead)
      (given : phase = .answered response ∨ phase = .closing response)
      (without : refusal response = true) : Placed phase (some .future) false
  | refused {phase : Phase} (response : Response AppHead) (given : outcome phase = some response)
      (without : refusal response = true) : Placed phase none false
  | queued {phase : Phase} {p : Place} (free : roams phase = true)
      (ahead : p = .queue ∨ (∃ i, p = .lane i) ∨ ∃ i, p = .hand i) : Placed phase (some p) false
  | worker {phase : Phase} (i : Nat) (free : roams phase = true) :
      Placed phase (some (.worker i)) true
  | gone {phase : Phase} {admitted : Bool} (free : roams phase = true) : Placed phase none admitted

def Sendable (response : Response AppHead) (admitted : Bool) : Prop :=
  response = response500 ∨
    ((∃ head, response = .full head ∨ response = .stream head) ∧ admitted = true)

structure CallInv (c : Call B) (p : Option Place) : Prop where
  placed : Placed c.phase p c.admitted
  value : ∀ response, c.responder.head.value = some response → Sendable response c.admitted
  given : ∀ response, outcome c.phase = some response →
    refusal response = true ∨ response = response504 ∨ Sendable response c.admitted

structure PlaceInv (s : State B) : Prop where
  located : Located s.contents s.loc
  each : ∀ r c, s.calls[r]? = some c → CallInv c (s.loc r)
  known : ∀ r p, s.loc r = some p → r < s.calls.length

theorem send_value (c : Channels.Oneshot (Response AppHead)) (response : Response AppHead) :
    (c.send response).2.value = c.value ∨ (c.send response).2.value = some response := by
  unfold Channels.Oneshot.send
  split
  · exact .inr rfl
  · exact .inl rfl

theorem claim_value (x : Responder AppHead B) : (claim x).2.head = x.head := by
  unfold claim
  split <;> rfl

theorem respond500_value {x y : Responder AppHead B} (answered : respond500IfUnsent x = some y) :
    y.head.value = x.head.value ∨ y.head.value = some response500 := by
  unfold respond500IfUnsent at answered
  have same := claim_value x
  split at answered
  · next z claimed =>
    cases answered
    rw [claimed] at same
    have sent := send_value z.head response500
    rw [same] at sent
    rwa [same]
  · next z claimed =>
    rw [claimed] at same
    left
    split at answered
    · unfold sendAbandoned at answered
      split at answered
      · cases answered
      · cases answered
        rw [← same]
    · cases answered
      rw [← same]

theorem use_value {x y : Responder AppHead B} {op : KinoShutdown.Use AppHead B}
    (used : KinoShutdown.useResponder x op = some y) :
    y.head.value = x.head.value ∨ y.head.value = some response500 ∨
      ∃ head, (op = .respondSimple head ∧ y.head.value = some (.full head)) ∨
        (op = .sendHeaders (some head) ∧ y.head.value = some (.stream head)) := by
  have same := claim_value x
  cases op with
  | respondSimple head =>
    simp only [KinoShutdown.useResponder, Option.some.injEq, sendResponse] at used
    split at used
    · next z claimed =>
      rw [claimed] at same
      subst used
      rcases send_value z.head (.full head) with kept | sent
      · exact .inl (kept.trans (by rw [same]))
      · exact .inr (.inr ⟨head, .inl ⟨rfl, sent⟩⟩)
    · next z claimed =>
      rw [claimed] at same
      subst used
      exact .inl (by rw [← same])
  | sendHeaders builder =>
    simp only [KinoShutdown.useResponder, Option.some.injEq, sendStreamHead] at used
    split at used
    · next z claimed =>
      rw [claimed] at same
      subst used
      exact .inl (by rw [← same])
    · next z claimed =>
      rw [claimed] at same
      cases builder with
      | none =>
        simp only at used
        subst used
        exact .inl (by rw [← same]; rfl)
      | some head =>
        simp only [sendStream] at used
        have sent := send_value z.head (.stream head)
        split at used
        all_goals
          next c put =>
          rw [put] at sent
          subst used
          rcases sent with kept | sent
          · exact .inl (kept.trans (by rw [same]))
          · exact .inr (.inr ⟨head, .inr ⟨rfl, sent⟩⟩)
  | writeChunk chunk =>
    simp only [KinoShutdown.useResponder] at used
    split at used
    · split at used
      · cases used
      · cases used
        exact .inl rfl
    · cases used
      exact .inl rfl
  | finish =>
    simp only [KinoShutdown.useResponder, Option.some.injEq, finishStream] at used
    subst used
    left
    split <;> rfl
  | abort =>
    rcases respond500_value used with kept | sent
    · exact .inl kept
    · exact .inr (.inl sent)

theorem placed_owned {phase : Phase} {p : Option Place} {admitted : Bool}
    (placed : Placed phase p admitted) (owns : ownsCtx phase = true) :
    p = some .future ∧ admitted = false := by
  cases placed with
  | unborn early => rcases early with rfl | rfl <;> cases owns
  | owned => exact ⟨rfl, rfl⟩
  | pending => cases owns
  | kept response given => rcases given with rfl | rfl <;> cases owns
  | refused response given => cases phase <;> simp [outcome, ownsCtx] at given owns
  | queued free | worker i free | gone free => cases phase <;> simp [roams, ownsCtx] at free owns

theorem placed_unborn {phase : Phase} {p : Option Place} {admitted : Bool}
    (placed : Placed phase p admitted) (early : phase = .arrived ∨ phase = .logged) :
    p = none ∧ admitted = false := by
  cases placed with
  | unborn => exact ⟨rfl, rfl⟩
  | owned owns => rcases early with rfl | rfl <;> cases owns
  | pending => rcases early with early | early <;> cases early
  | kept response given => rcases early with rfl | rfl <;> rcases given with given | given <;> cases given
  | refused => exact ⟨rfl, rfl⟩
  | queued free | worker i free | gone free => rcases early with rfl | rfl <;> cases free

theorem placed_pending {since : Nat} {p : Option Place} {admitted : Bool}
    (placed : Placed (.pending since) p admitted) (here : p = some .pending) :
    admitted = false := by
  cases placed with
  | unborn early => rfl
  | pending => rfl
  | worker i free => cases here
  | gone free => cases here
  | _ => rfl

theorem placed_away {phase : Phase} {p : Option Place} {admitted : Bool}
    (placed : Placed phase p admitted) (other : ∀ since, phase ≠ .pending since) :
    p ≠ some .pending := by
  cases placed with
  | pending since => exact absurd rfl (other since)
  | queued free ahead => rcases ahead with rfl | ⟨i, rfl⟩ | ⟨i, rfl⟩ <;> simp
  | _ => simp

theorem placed_on {response : Response AppHead} {phase : Phase} {p : Option Place} {admitted : Bool}
    (placed : Placed phase p admitted) (given : phase = .answered response) :
    Placed (.closing response) p admitted := by
  subst given
  cases placed with
  | unborn early => rcases early with early | early <;> cases early
  | owned owns => cases owns
  | kept response' given without =>
    rcases given with given | given
    · cases given
      exact .kept response (.inr rfl) without
    · cases given
  | refused response' given without =>
    cases given
    exact .refused response rfl without
  | queued free ahead => exact .queued free ahead
  | worker i free => exact .worker i free
  | gone free => exact .gone free

theorem placed_end {response : Response AppHead} {phase : Phase} {p : Option Place}
    {admitted : Bool} (placed : Placed phase p admitted) (given : phase = .closing response)
    (away : p ≠ some .future) : Placed (.returned response) p admitted := by
  subst given
  cases placed with
  | unborn early => rcases early with early | early <;> cases early
  | owned owns => cases owns
  | kept => exact absurd rfl away
  | refused response' given without =>
    cases given
    exact .refused response rfl without
  | queued free ahead => exact .queued free ahead
  | worker i free => exact .worker i free
  | gone free => exact .gone free

theorem placed_keeps {response : Response AppHead} {phase : Phase} {admitted : Bool}
    (placed : Placed phase (some .future) admitted) (given : phase = .closing response) :
    admitted = false ∧ refusal response = true := by
  subst given
  cases placed with
  | owned owns => cases owns
  | kept response' given without =>
    rcases given with given | given
    · cases given
    · cases given
      exact ⟨rfl, without⟩
  | queued free ahead => rcases ahead with h | ⟨i, h⟩ | ⟨i, h⟩ <;> cases h

theorem placed_roam {phase phase' : Phase} {p : Option Place} {admitted : Bool}
    (placed : Placed phase p admitted) (before : roams phase = true) (after : roams phase' = true)
    (away : p ≠ some .pending) : Placed phase' p admitted := by
  cases placed with
  | unborn early => rcases early with rfl | rfl <;> cases before
  | owned owns => cases phase <;> simp [roams, ownsCtx] at before owns
  | pending => exact absurd rfl away
  | kept response given without =>
    rcases given with rfl | rfl <;> simp [roams, without] at before
  | refused response given without => exact .gone after
  | queued free ahead => exact .queued after ahead
  | worker i free => exact .worker i after
  | gone free => exact .gone after

theorem initial_place : PlaceInv (KinoRequestLifecycle.initial B) :=
  ⟨located_empty, fun _ _ there => (nomatch there), fun _ _ here => (nomatch here)⟩

theorem put_place {s s' : State B} {r : Nat} {c c' : Call B} (inv : PlaceInv s)
    (there : s.calls[r]? = some c) (calls : s'.calls = s.calls.set r c')
    (located : Located s'.contents s'.loc) (others : ∀ j, j ≠ r → s'.loc j = s.loc j)
    (call : CallInv c' (s'.loc r)) : PlaceInv s' := by
  have inside : r < s.calls.length := (List.getElem?_eq_some_iff.mp there).1
  constructor
  · exact located
  · intro j x at_j
    by_cases same : j = r
    · subst same
      rw [calls, List.getElem?_set_self inside, Option.some.injEq] at at_j
      exact at_j ▸ call
    · rw [calls, List.getElem?_set_ne (Ne.symm same)] at at_j
      rw [others j same]
      exact inv.each j x at_j
  · intro j p here
    rw [calls, List.length_set]
    by_cases same : j = r
    · subst same
      exact inside
    · rw [others j same] at here
      exact inv.known j p here

theorem forget_located {s : State B} {r : Nat} {p : Place} (inv : PlaceInv s)
    (here : r ∈ s.contents p) : Located (s.forget r p).contents (s.forget r p).loc :=
  located_erase inv.located here

theorem shift_located {s : State B} {r : Nat} {p q : Place} (inv : PlaceInv s)
    (here : r ∈ s.contents p) (apart : p ≠ q) :
    Located (s.shift r p q).contents (s.shift r p q).loc :=
  located_shift inv.located apart here

theorem sendable_mono {response : Response AppHead} {admitted : Bool}
    (sendable : Sendable response admitted) : Sendable response true := by
  rcases sendable with plain | ⟨app, _⟩
  · exact .inl plain
  · exact .inr ⟨app, rfl⟩

theorem not_refusal {response : Response AppHead} {admitted : Bool}
    (sendable : Sendable response admitted) : refusal response = false := by
  rcases sendable with rfl | ⟨⟨head, rfl | rfl⟩, _⟩
  · rfl
  · simp [refusal, response413, response503, plainResponse]
  · simp [refusal, response413, response503, plainResponse]

section Turns
variable {conf : Config} {s : State B} {r : Nat} {c : Call B}

/-- The future goes on, without a response yet, and the context stays where it is. -/
theorem keep_place {s' : State B} {c' : Call B} (inv : PlaceInv s) (there : s.calls[r]? = some c)
    (calls : s'.calls = s.calls.set r c') (contents : s'.contents = s.contents)
    (loc : s'.loc = s.loc) (placed : Placed c'.phase (s.loc r) c'.admitted)
    (value : c'.responder.head.value = c.responder.head.value) (admitted : c'.admitted = c.admitted)
    (given : ∀ response, outcome c'.phase = some response →
      outcome c.phase = some response ∨ refusal response = true ∨ response = response504 ∨
        Sendable response c.admitted) : PlaceInv s' := by
  refine put_place inv there calls (by rw [contents, loc]; exact inv.located)
    (fun j _ => by rw [loc]) ?_
  have call := inv.each r c there
  constructor
  · rw [loc]
    exact placed
  · rw [value, admitted]
    exact call.value
  · intro response gave
    rw [admitted]
    rcases given response gave with before | now
    · exact call.given response before
    · exact now

/-- A context that no worker has taken is dropped with the call's answer or its end. -/
theorem drop_place {s' : State B} {c' : Call B} {p : Place} (inv : PlaceInv s)
    (there : s.calls[r]? = some c) (here : r ∈ s.contents p) (calls : s'.calls = s.calls.set r c')
    (contents : s'.contents = (s.forget r p).contents) (loc : s'.loc = (s.forget r p).loc)
    (admitted : c'.admitted = c.admitted) (fresh : c.admitted = false)
    (value : c'.responder.head.value = c.responder.head.value ∨
      c'.responder.head.value = some response500)
    (given : (∃ response, outcome c'.phase = some response ∧ refusal response = true) ∨
      c'.phase = .dropped) : PlaceInv s' := by
  refine put_place inv there calls (by rw [contents, loc]; exact forget_located inv here)
    (fun j other => by rw [loc]; exact Function.update_of_ne other ..) ?_
  have call := inv.each r c there
  have nowhere : s'.loc r = none := by
    rw [loc]
    exact Function.update_self ..
  rw [nowhere]
  constructor
  · rw [admitted, fresh]
    rcases given with ⟨response, gave, without⟩ | ended
    · exact .refused response gave without
    · rw [ended]
      exact .gone rfl
  · intro response has
    rw [admitted]
    rcases value with kept | plain
    · exact call.value response (kept ▸ has)
    · rw [plain, Option.some.injEq] at has
      exact .inl has.symm
  · intro response gave
    rcases given with ⟨response', gave', without⟩ | ended
    · rw [gave, Option.some.injEq] at gave'
      exact .inl (gave' ▸ without)
    · rw [ended] at gave
      cases gave

theorem shift_place {s' : State B} {c' : Call B} {p q : Place} (inv : PlaceInv s)
    (there : s.calls[r]? = some c) (here : r ∈ s.contents p) (apart : p ≠ q)
    (calls : s'.calls = s.calls.set r c') (contents : s'.contents = (s.shift r p q).contents)
    (loc : s'.loc = (s.shift r p q).loc) (placed : Placed c'.phase (some q) c'.admitted)
    (value : c'.responder.head.value = c.responder.head.value) (admitted : c'.admitted = c.admitted)
    (quiet : outcome c'.phase = none) : PlaceInv s' := by
  refine put_place inv there calls (by rw [contents, loc]; exact shift_located inv here apart)
    (fun j other => by rw [loc]; exact Function.update_of_ne other ..) ?_
  have call := inv.each r c there
  have at_q : s'.loc r = some q := by
    rw [loc]
    exact Function.update_self ..
  constructor
  · rw [at_q]
    exact placed
  · rw [value, admitted]
    exact call.value
  · intro response gave
    rw [quiet] at gave
    cases gave

end Turns

theorem turn_place {conf : Config} {s s' : State B} {r : Nat} {c : Call B} (inv : PlaceInv s)
    (there : s.calls[r]? = some c) (turn : Turn conf s r c s') : PlaceInv s' := by
  have call := inv.each r c there
  have placed := call.placed
  have owned : ownsCtx c.phase = true → s.loc r = some .future ∧ c.admitted = false :=
    placed_owned placed
  have unborn : c.phase = .arrived ∨ c.phase = .logged → s.loc r = none ∧ c.admitted = false :=
    placed_unborn placed
  have mine : ∀ {p}, s.loc r = some p → r ∈ s.contents p := located_here inv.located
  have at_pending : r ∈ s.contents .pending → s.loc r = some .pending := located_mem inv.located
  cases turn with
  | arrival at_pc =>
    obtain ⟨nowhere, fresh⟩ := unborn (.inl at_pc)
    refine keep_place inv there (log_put_calls ..) (log_contents ..) (log_loc ..) ?_ rfl rfl
      (by simp [outcome])
    rw [nowhere, fresh]
    exact .unborn (.inr rfl)
  | create at_pc =>
    obtain ⟨nowhere, fresh⟩ := unborn (.inr at_pc)
    refine put_place inv there rfl (located_enter inv.located nowhere)
      (fun j other => Function.update_of_ne other ..) ⟨?_, call.value, by simp [outcome]⟩
    simp only [State.put, Function.update_self, fresh]
    exact .owned rfl
  | guard at_pc =>
    obtain ⟨at_future, fresh⟩ := owned (by rw [at_pc]; rfl)
    refine keep_place inv there rfl rfl rfl ?_ rfl rfl (by simp [outcome])
    rw [at_future, fresh]
    exact .owned rfl
  | tooLarge at_pc large =>
    obtain ⟨at_future, fresh⟩ := owned (by rw [at_pc]; rfl)
    refine keep_place inv there rfl rfl rfl ?_ rfl rfl ?_
    · rw [at_future, fresh]
      exact .kept response413 (.inl rfl) rfl
    · rintro response ⟨⟩
      exact .inr (.inl rfl)
  | toLanes at_pc | cloneSender at_pc | full at_pc =>
    obtain ⟨at_future, fresh⟩ := owned (by rw [at_pc]; rfl)
    refine keep_place inv there rfl rfl rfl ?_ rfl rfl (by simp [outcome])
    rw [at_future, fresh]
    exact .owned rfl
  | sleep deadline at_pc | wake deadline at_pc =>
    obtain ⟨at_future, fresh⟩ := owned (by rw [at_pc]; rfl)
    refine keep_place inv there rfl rfl rfl ?_ rfl rfl (by simp [outcome])
    rw [at_future, fresh]
    exact .owned rfl
  | closed at_pc =>
    obtain ⟨at_future, fresh⟩ := owned (by rw [at_pc]; rfl)
    refine keep_place inv there rfl rfl rfl ?_ rfl rfl ?_
    · rw [at_future, fresh]
      exact .kept response503 (.inl rfl) rfl
    · rintro response ⟨⟩
      exact .inr (.inl rfl)
  | send at_pc =>
    have owns : ownsCtx c.phase = true := by
      rcases at_pc with at_pc | ⟨since, at_pc⟩ <;> rw [at_pc] <;> rfl
    obtain ⟨at_future, fresh⟩ := owned owns
    refine shift_place inv there (mine at_future) (q := .queue) (by simp) rfl rfl rfl ?_ rfl rfl rfl
    rw [fresh]
    exact .queued rfl (.inl rfl)
  | queueUp since at_pc =>
    obtain ⟨at_future, fresh⟩ := owned (by rw [at_pc]; rfl)
    refine shift_place inv there (mine at_future) (q := .pending) (by simp) rfl rfl rfl ?_ rfl rfl rfl
    rw [fresh]
    exact .pending since
  | pulled since at_pc gone =>
    refine keep_place inv there rfl rfl rfl ?_ rfl rfl (by simp [outcome])
    exact placed_roam placed (by rw [at_pc]; rfl) rfl fun here => gone (mine here)
  | expire since x at_pc here late moved =>
    rw [at_pc] at placed
    have fresh := placed_pending placed (at_pending here)
    exact drop_place inv there here rfl rfl rfl rfl fresh (respond500_value moved)
      (.inl ⟨response503, rfl, rfl⟩)
  | laneSend deadline i at_pc =>
    obtain ⟨at_future, fresh⟩ := owned (by rw [at_pc]; rfl)
    refine shift_place inv there (mine at_future) (q := .lane i) (by simp) rfl rfl rfl ?_ rfl rfl rfl
    rw [fresh]
    exact .queued rfl (.inr (.inl ⟨i, rfl⟩))
  | laneRefused deadline x at_pc why moved =>
    obtain ⟨at_future, fresh⟩ := owned (by rw [at_pc]; rfl)
    exact drop_place inv there (mine at_future) rfl rfl rfl rfl fresh (respond500_value moved)
      (.inl ⟨response503, rfl, rfl⟩)
  | await at_pc =>
    refine keep_place inv there rfl rfl rfl ?_ rfl rfl (by simp [outcome])
    exact placed_roam placed (by rw [at_pc]; rfl) rfl (placed_away placed (by simp [at_pc]))
  | head since response at_pc sent =>
    have sendable : Sendable response c.admitted := by
      rcases sent with value | ⟨_, _, plain⟩
      · exact call.value response value
      · exact .inl plain
    refine keep_place inv there rfl rfl rfl ?_ rfl rfl ?_
    · exact placed_roam placed (by rw [at_pc]; rfl) (by simp [roams, not_refusal sendable])
        (placed_away placed (by simp [at_pc]))
    · rintro response' ⟨⟩
      exact .inr (.inr (.inr sendable))
  | timeOut since at_pc =>
    refine keep_place inv there rfl rfl rfl ?_ rfl rfl ?_
    · exact placed_roam placed (by rw [at_pc]; rfl) rfl (placed_away placed (by simp [at_pc]))
    · rintro response' ⟨⟩
      exact .inr (.inr (.inl rfl))
  | completion response at_pc =>
    refine keep_place inv there (log_put_calls ..) (log_contents ..) (log_loc ..) ?_ rfl rfl ?_
    · exact placed_on placed at_pc
    · rintro response' ⟨⟩
      exact .inl (by rw [at_pc]; rfl)
  | finish response at_pc away =>
    refine keep_place inv there rfl rfl rfl ?_ rfl rfl ?_
    · exact placed_end placed at_pc fun here => away (mine here)
    · rintro response' ⟨⟩
      exact .inl (by rw [at_pc]; rfl)
  | finishOwner response x at_pc here moved =>
    have at_future := located_mem inv.located here
    obtain ⟨fresh, without⟩ := placed_keeps (at_future ▸ placed) at_pc
    exact drop_place inv there here rfl rfl rfl rfl fresh (respond500_value moved)
      (.inl ⟨response, rfl, without⟩)
  | cancelArrived at_pc =>
    obtain ⟨nowhere, fresh⟩ := unborn (.inl at_pc)
    refine keep_place inv there rfl rfl rfl ?_ rfl rfl (by simp [outcome])
    rw [nowhere]
    exact .gone rfl
  | cancelPending since x at_pc here moved =>
    rw [at_pc] at placed
    exact drop_place inv there here rfl rfl rfl rfl (placed_pending placed (at_pending here))
      (respond500_value (x := KinoShutdown.hangUp c.responder) moved) (.inr rfl)
  | cancelPulled since at_pc gone =>
    refine keep_place inv there rfl rfl rfl ?_ rfl rfl (by simp [outcome])
    exact placed_roam placed (by rw [at_pc]; rfl) rfl fun here => gone (mine here)
  | cancelSleeping deadline x at_pc moved =>
    obtain ⟨at_future, fresh⟩ := owned (by rw [at_pc]; rfl)
    exact drop_place inv there (mine at_future) rfl rfl rfl rfl fresh
      (respond500_value (x := KinoShutdown.hangUp c.responder) moved) (.inr rfl)
  | cancelWaiting since at_pc =>
    refine keep_place inv there rfl rfl rfl ?_ rfl rfl (by simp [outcome])
    exact placed_roam placed (by rw [at_pc]; rfl) rfl (placed_away placed (by simp [at_pc]))

theorem respond_place {s : State B} {r : Nat} {c : Call B} {x : Responder AppHead B}
    (inv : PlaceInv s) (there : s.calls[r]? = some c)
    (value : ∀ response, x.head.value = some response → Sendable response c.admitted) :
    PlaceInv (s.respond r c x) := by
  have call := inv.each r c there
  exact put_place inv there rfl inv.located (fun _ _ => rfl) ⟨call.placed, value, call.given⟩

theorem respond500_sendable {x y : Responder AppHead B} {admitted : Bool}
    (value : ∀ response, x.head.value = some response → Sendable response admitted)
    (moved : respond500IfUnsent x = some y) :
    ∀ response, y.head.value = some response → Sendable response admitted := by
  intro response has
  rcases respond500_value moved with kept | plain
  · exact value response (kept ▸ has)
  · rw [plain, Option.some.injEq] at has
    exact .inl has.symm

theorem placed_queued {phase : Phase} {p : Place} {admitted : Bool}
    (placed : Placed phase (some p) admitted)
    (ahead : p = .queue ∨ (∃ i, p = .lane i) ∨ ∃ i, p = .hand i) :
    roams phase = true ∧ admitted = false := by
  cases placed with
  | queued free => exact ⟨free, rfl⟩
  | _ => rcases ahead with h | ⟨i, h⟩ | ⟨i, h⟩ <;> cases h

theorem placed_refused {phase : Phase} {p : Option Place} {admitted : Bool}
    {response : Response AppHead} (placed : Placed phase p admitted)
    (gave : outcome phase = some response) (without : refusal response = true) :
    admitted = false := by
  have stays : roams phase = false := by
    cases phase with
    | answered given | closing given | returned given =>
      cases gave
      simp [roams, without]
    | _ => cases gave
  cases placed with
  | worker i free => rw [stays] at free; cases free
  | gone free => rw [stays] at free; cases free
  | _ => rfl

theorem placed_worker {phase : Phase} {i : Nat} {admitted : Bool}
    (placed : Placed phase (some (.worker i)) admitted) : roams phase = true ∧ admitted = true := by
  cases placed with
  | queued free ahead => rcases ahead with h | ⟨j, h⟩ | ⟨j, h⟩ <;> cases h
  | worker i free => exact ⟨free, rfl⟩

theorem placed_waiting {phase : Phase} {admitted : Bool}
    (placed : Placed phase (some .pending) admitted) : roams phase = true ∧ admitted = false := by
  cases placed with
  | pending since => exact ⟨rfl, rfl⟩
  | queued free ahead => rcases ahead with h | ⟨i, h⟩ | ⟨i, h⟩ <;> cases h

theorem pass_place {s s' : State B} {r : Nat} {p q : Place} (inv : PlaceInv s)
    (here : r ∈ s.contents p)
    (from_ : p = .pending ∨ p = .queue ∨ (∃ i, p = .lane i) ∨ ∃ i, p = .hand i)
    (next : q = .queue ∨ (∃ i, q = .lane i) ∨ ∃ i, q = .hand i) (apart : p ≠ q)
    (calls : s'.calls = s.calls) (contents : s'.contents = (s.shift r p q).contents)
    (loc : s'.loc = (s.shift r p q).loc) : PlaceInv s' := by
  have at_p := located_mem inv.located here
  constructor
  · rw [contents, loc]
    exact shift_located inv here apart
  · intro j x there
    rw [calls] at there
    have call := inv.each j x there
    by_cases same : j = r
    · subst same
      have placed := call.placed
      rw [at_p] at placed
      obtain ⟨free, fresh⟩ : roams x.phase = true ∧ x.admitted = false := by
        rcases from_ with rfl | ahead
        · exact placed_waiting placed
        · exact placed_queued placed ahead
      refine ⟨?_, call.value, call.given⟩
      rw [loc]
      simp only [State.shift, Function.update_self, fresh]
      exact .queued free next
    · rw [loc]
      simp only [State.shift, Function.update_of_ne same]
      exact call
  · intro j o there
    rw [calls]
    rw [loc] at there
    by_cases same : j = r
    · subst same
      exact inv.known j p at_p
    · simp only [State.shift, Function.update_of_ne same] at there
      exact inv.known j o there

theorem around_place {conf : Config} {s s' : State B} (inv : PlaceInv s)
    (around : Around conf s s') : PlaceInv s' := by
  cases around with
  | admitCtx i r rest c there front =>
    have here : r ∈ s.contents (.hand i) := by simp [front]
    have call := inv.each r c there
    have placed := call.placed
    rw [located_mem inv.located here] at placed
    obtain ⟨free, fresh⟩ := placed_queued placed (.inr (.inr ⟨i, rfl⟩))
    refine put_place inv there rfl
      (located_shift (p := .hand i) (q := .worker i) inv.located (by simp) here)
      (fun j other => Function.update_of_ne other ..) ⟨?_, ?_, ?_⟩
    · simp only [State.put, State.shift, Function.update_self]
      exact .worker i free
    · exact fun response has => sendable_mono (call.value response has)
    · intro response gave
      rcases call.given response gave with without | late | sendable
      · exact .inl without
      · exact .inr (.inl late)
      · exact .inr (.inr (sendable_mono sendable))
  | takeQueue i r rest front nobody =>
    exact pass_place inv (by simp [front]) (.inr (.inl rfl)) (.inr (.inr ⟨i, rfl⟩)) (by simp)
      rfl rfl rfl
  | takePull i r p rest others front next =>
    have taken : PlaceInv { s.shift r .queue (.hand i) with received := s.received ++ [r] } :=
      pass_place inv (by simp [front]) (.inr (.inl rfl)) (.inr (.inr ⟨i, rfl⟩)) (by simp)
        rfl rfl rfl
    exact pass_place taken (p := .pending) (q := .queue) (by simp [State.shift, next]) (.inl rfl)
      (.inl rfl) (by simp) rfl rfl rfl
  | takeLane i k r rest front =>
    exact pass_place inv (by simp [front]) (.inr (.inr (.inl ⟨k, rfl⟩))) (.inr (.inr ⟨i, rfl⟩))
      (by simp) rfl rfl rfl
  | drop r c x p there here held moved =>
    have call := inv.each r c there
    have placed := call.placed
    rw [located_mem inv.located here] at placed
    refine put_place inv there rfl (forget_located inv here)
      (fun j other => Function.update_of_ne other ..)
      ⟨?_, respond500_sendable call.value moved, call.given⟩
    have nowhere : ((s.forget r p).put r { c with responder := x }).loc r = none :=
      Function.update_self ..
    rw [nowhere]
    rcases held with ⟨i, rfl⟩ | ⟨i, rfl⟩
    · exact .gone (placed_queued placed (.inr (.inl ⟨i, rfl⟩))).1
    · exact .gone (placed_worker placed).1
  | abort r c x there moved =>
    exact respond_place inv there (respond500_sendable (inv.each r c there).value moved)
  | use r i c op x there here moved =>
    have call := inv.each r c there
    have placed := call.placed
    rw [located_mem inv.located here] at placed
    have admitted := (placed_worker placed).2
    refine respond_place inv there fun response has => ?_
    rcases use_value moved with kept | plain | ⟨head, ⟨_, sent⟩ | ⟨_, sent⟩⟩
    · exact call.value response (kept ▸ has)
    · rw [plain, Option.some.injEq] at has
      exact .inl has.symm
    · rw [sent, Option.some.injEq] at has
      exact .inr ⟨⟨head, .inl has.symm⟩, admitted⟩
    · rw [sent, Option.some.injEq] at has
      exact .inr ⟨⟨head, .inr has.symm⟩, admitted⟩
  | takeFrame r c there => exact respond_place inv there (inv.each r c there).value

theorem arrive_place {s : State B} (inv : PlaceInv s) (length : Option Nat) :
    PlaceInv { s with calls := s.calls ++ [newCall length] } := by
  have unknown : s.loc s.calls.length = none := by
    cases here : s.loc s.calls.length with
    | none => rfl
    | some p => exact absurd (inv.known _ p here) (by omega)
  refine ⟨inv.located, forall_join inv.each ?_, ?_⟩
  · rw [unknown]
    exact ⟨.unborn (.inl rfl), fun _ has => (nomatch has), fun _ gave => (nomatch gave)⟩
  · intro j p here
    have inside := inv.known j p here
    simp only [List.length_append, List.length_singleton]
    omega

theorem step_place {conf : Config} {s s' : State B} {l : Label B} (inv : PlaceInv s)
    (moved : step conf s l = some s') : PlaceInv s' := by
  cases step_move moved with
  | turn r c s' there turn => exact turn_place inv there turn
  | around s' around => exact around_place inv around
  | arrive length => exact arrive_place inv length
  | tick | close | slots => exact ⟨inv.located, inv.each, inv.known⟩

theorem reachable_place {conf : Config} {s : State B} (reached : Reachable (system B conf) s) :
    PlaceInv s :=
  reachable_invariant PlaceInv (by rintro s rfl; exact initial_place)
    (fun _ _ _ inv moved => step_place inv moved) reached

theorem initial_counted : Counted (KinoRequestLifecycle.initial B) := by
  constructor <;> rfl

theorem same_counted {s s' : State B} {r : Nat} {c c' : Call B} (counted : Counted s)
    (there : s.calls[r]? = some c) (calls : s'.calls = s.calls.set r c')
    (count : counters s' = counters s) (same : kinds c' = kinds c) : Counted s' := by
  simp only [counters, Prod.mk.injEq] at count
  simp only [kinds, Prod.mk.injEq] at same
  obtain ⟨inFlight, senders, rejected, timeouts, served⟩ := count
  obtain ⟨guarded, sending, refused, timedOut, admitted⟩ := same
  constructor
  · rw [calls, inFlight]
    exact tallied_same counted.inFlight there guarded
  · rw [calls, senders]
    exact tallied_same counted.senders there sending
  · rw [calls, rejected]
    exact tallied_same counted.rejected there refused
  · rw [calls, timeouts]
    exact tallied_same counted.timeouts there timedOut
  · rw [calls, served]
    exact tallied_same counted.served there admitted

@[simp] theorem log_counters (s : State B) (conf : Config) (record : Record) (r : Nat) (c : Call B) :
    counters ((s.log conf record).put r c) = counters s := by
  unfold State.log
  split <;> rfl

theorem kinds_eq {c c' : Call B} (phase : c'.phase = c.phase) (admitted : c'.admitted = c.admitted) :
    kinds c' = kinds c := by
  unfold kinds guarded sending refused timedOut
  rw [phase, admitted]

attribute [local simp] kinds guarded sending refused timedOut outcome underGuard holdsSender
  response413 response503 response504 response500 plainResponse counters hangUp consume

theorem sendable_plain {response : Response AppHead} {admitted : Bool}
    (sendable : Sendable response admitted) :
    response ≠ response503 ∧ response ≠ response504 := by
  rcases sendable with rfl | ⟨⟨head, rfl | rfl⟩, _⟩ <;> simp

theorem turn_counted {conf : Config} {s s' : State B} {r : Nat} {c : Call B} (inv : PlaceInv s)
    (counted : Counted s) (there : s.calls[r]? = some c) (turn : Turn conf s r c s') :
    Counted s' := by
  have call := inv.each r c there
  obtain ⟨inFlight, senders, rejected, timeouts, served⟩ := counted
  have counted : Counted s := ⟨inFlight, senders, rejected, timeouts, served⟩
  cases turn with
  | arrival at_pc =>
    exact same_counted counted there (log_put_calls ..) (log_counters ..) (by simp [at_pc])
  | completion response at_pc =>
    exact same_counted counted there (log_put_calls ..) (log_counters ..) (by simp [at_pc])
  | create at_pc | tooLarge at_pc | toLanes at_pc | full at_pc =>
    exact same_counted counted there rfl rfl (by simp [at_pc])
  | queueUp since at_pc =>
    exact same_counted counted there rfl rfl (by simp [at_pc])
  | laneSend deadline i at_pc =>
    exact same_counted counted there rfl rfl (by simp [at_pc])
  | sleep deadline at_pc | wake deadline at_pc =>
    exact same_counted counted there rfl rfl (by simp [at_pc])
  | await at_pc => exact same_counted counted there rfl rfl (by simp [at_pc])
  | cancelArrived at_pc => exact same_counted counted there rfl rfl (by simp [at_pc])
  | head since response at_pc sent =>
    have sendable : Sendable response c.admitted := by
      rcases sent with value | ⟨_, _, plain⟩
      · exact call.value response value
      · exact .inl plain
    have other := sendable_plain sendable
    exact same_counted counted there rfl rfl (by simpa [at_pc] using other)
  | guard at_pc =>
    exact ⟨tallied_enter inFlight there (by simp [at_pc]) (by simp),
      tallied_same senders there (by simp [at_pc]), tallied_same rejected there (by simp [at_pc]),
      tallied_same timeouts there (by simp [at_pc]), tallied_same served there rfl⟩
  | cloneSender at_pc =>
    exact ⟨tallied_same inFlight there (by simp [at_pc]),
      tallied_enter senders there (by simp [at_pc]) (by simp),
      tallied_same rejected there (by simp [at_pc]), tallied_same timeouts there (by simp [at_pc]),
      tallied_same served there rfl⟩
  | closed at_pc =>
    exact ⟨tallied_same inFlight there (by simp [at_pc]), tallied_same senders there (by simp [at_pc]),
      tallied_enter rejected there (by simp [at_pc]) (by simp),
      tallied_same timeouts there (by simp [at_pc]), tallied_same served there rfl⟩
  | send at_pc =>
    rcases at_pc with at_pc | ⟨since, at_pc⟩
    all_goals
      exact ⟨tallied_same inFlight there (by simp [at_pc]),
        tallied_leave senders there (by simp [at_pc]) (by simp),
        tallied_same rejected there (by simp [at_pc]), tallied_same timeouts there (by simp [at_pc]),
        tallied_same served there rfl⟩
  | pulled since at_pc =>
    exact ⟨tallied_same inFlight there (by simp [at_pc]),
      tallied_leave senders there (by simp [at_pc]) (by simp),
      tallied_same rejected there (by simp [at_pc]), tallied_same timeouts there (by simp [at_pc]),
      tallied_same served there rfl⟩
  | expire since x at_pc =>
    exact ⟨tallied_same inFlight there (by simp [at_pc]),
      tallied_leave senders there (by simp [at_pc]) (by simp),
      tallied_enter rejected there (by simp [at_pc]) (by simp),
      tallied_same timeouts there (by simp [at_pc]), tallied_same served there rfl⟩
  | laneRefused deadline x at_pc =>
    exact ⟨tallied_same inFlight there (by simp [at_pc]), tallied_same senders there (by simp [at_pc]),
      tallied_enter rejected there (by simp [at_pc]) (by simp),
      tallied_same timeouts there (by simp [at_pc]), tallied_same served there rfl⟩
  | timeOut since at_pc =>
    exact ⟨tallied_same inFlight there (by simp [at_pc]), tallied_same senders there (by simp [at_pc]),
      tallied_same rejected there (by simp [at_pc]),
      tallied_enter timeouts there (by simp [at_pc]) (by simp), tallied_same served there rfl⟩
  | finish response at_pc =>
    exact ⟨tallied_leave inFlight there (by simp [at_pc]) (by simp),
      tallied_same senders there (by simp [at_pc]), tallied_same rejected there (by simp [at_pc]),
      tallied_same timeouts there (by simp [at_pc]), tallied_same served there rfl⟩
  | finishOwner response x at_pc =>
    exact ⟨tallied_leave inFlight there (by simp [at_pc]) (by simp),
      tallied_same senders there (by simp [at_pc]), tallied_same rejected there (by simp [at_pc]),
      tallied_same timeouts there (by simp [at_pc]), tallied_same served there rfl⟩
  | cancelPending since x at_pc =>
    exact ⟨tallied_leave inFlight there (by simp [at_pc]) (by simp),
      tallied_leave senders there (by simp [at_pc]) (by simp),
      tallied_same rejected there (by simp [at_pc]), tallied_same timeouts there (by simp [at_pc]),
      tallied_same served there rfl⟩
  | cancelPulled since at_pc =>
    exact ⟨tallied_leave inFlight there (by simp [at_pc]) (by simp),
      tallied_leave senders there (by simp [at_pc]) (by simp),
      tallied_same rejected there (by simp [at_pc]), tallied_same timeouts there (by simp [at_pc]),
      tallied_same served there rfl⟩
  | cancelSleeping deadline x at_pc =>
    exact ⟨tallied_leave inFlight there (by simp [at_pc]) (by simp),
      tallied_same senders there (by simp [at_pc]), tallied_same rejected there (by simp [at_pc]),
      tallied_same timeouts there (by simp [at_pc]), tallied_same served there rfl⟩
  | cancelWaiting since at_pc =>
    exact ⟨tallied_leave inFlight there (by simp [at_pc]) (by simp),
      tallied_same senders there (by simp [at_pc]), tallied_same rejected there (by simp [at_pc]),
      tallied_same timeouts there (by simp [at_pc]), tallied_same served there rfl⟩

theorem around_counted {conf : Config} {s s' : State B} (inv : PlaceInv s) (counted : Counted s)
    (around : Around conf s s') : Counted s' := by
  cases around with
  | admitCtx i r rest c there front =>
    have placed := (inv.each r c there).placed
    rw [located_mem inv.located (by simp [front] : r ∈ s.contents (.hand i))] at placed
    have fresh := (placed_queued placed (.inr (.inr ⟨i, rfl⟩))).2
    exact ⟨tallied_same counted.inFlight there rfl, tallied_same counted.senders there rfl,
      tallied_same counted.rejected there rfl, tallied_same counted.timeouts there rfl,
      tallied_enter counted.served there fresh rfl⟩
  | takeQueue | takePull | takeLane =>
    exact ⟨counted.inFlight, counted.senders, counted.rejected, counted.timeouts, counted.served⟩
  | drop r c x p there => exact same_counted counted there rfl rfl (kinds_eq rfl rfl)
  | abort r c x there => exact same_counted counted there rfl rfl (kinds_eq rfl rfl)
  | use r i c op x there => exact same_counted counted there rfl rfl (kinds_eq rfl rfl)
  | takeFrame r c there => exact same_counted counted there rfl rfl (kinds_eq rfl rfl)

theorem step_counted {conf : Config} {s s' : State B} {l : Label B} (inv : PlaceInv s)
    (counted : Counted s) (moved : step conf s l = some s') : Counted s' := by
  cases step_move moved with
  | turn r c s' there turn => exact turn_counted inv counted there turn
  | around s' around => exact around_counted inv counted around
  | arrive length =>
    exact ⟨tallied_join counted.inFlight rfl, tallied_join counted.senders rfl,
      tallied_join counted.rejected rfl, tallied_join counted.timeouts rfl,
      tallied_join counted.served rfl⟩
  | tick | close | slots =>
    exact ⟨counted.inFlight, counted.senders, counted.rejected, counted.timeouts, counted.served⟩

theorem reachable_counted {conf : Config} {s : State B} (reached : Reachable (system B conf) s) :
    Counted s :=
  (reachable_invariant (fun s => PlaceInv s ∧ Counted s)
    (by rintro s rfl; exact ⟨initial_place, initial_counted⟩)
    (fun _ _ _ inv moved => ⟨step_place inv.1 moved, step_counted inv.1 inv.2 moved⟩) reached).2

def threeRequests : List (Label Unit) :=
  [[Label.arrive none, .arrive (some 9), .arrive none],
    List.replicate 6 (.advance 0), [.take 0 none, .admitCtx 0, .use 0 0 (.respondSimple 200)],
    List.replicate 3 (.advance 0), List.replicate 6 (.advance 1), [.closeReqTx],
    List.replicate 6 (.advance 2)].flatten

def smallServer : Config := ⟨false, 1, 5, 0, 8, true⟩

def threeState : State Unit :=
  (run (system Unit smallServer) (KinoRequestLifecycle.initial Unit) threeRequests).getD
    (KinoRequestLifecycle.initial Unit)

end KinoRequestCounts
