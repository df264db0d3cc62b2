import Kino.Transitions
import Kino.Ownership
import Kino.Responder
import Kino.LaneDispatch

/-!
The escalation past the shutdown deadline (`abort_slot`, `abort_inflight` and
`abort_all_inflight` in ext/kino/src/server.rs) beside everything else that a server does. A
request's context is at one place at a time: in the shared queue, in a lane, received by a
worker, wrapped in the handle the worker gave to Ruby, or taken out of its lane to be dropped.
A slot lists, by weak references, the responders its worker has admitted since it last came
back for more.
-/
namespace KinoShutdown
open Transitions Channels Ownership KinoResponder

variable {H B : Type}

/-- `hand` is a context received and not yet admitted. -/
inductive Place where
  | queue
  | lane (i : Nat)
  | hand (i : Nat)
  | worker (i : Nat)
  | drained
  deriving DecidableEq, Repr

structure Slot where
  current : List Nat
  inFlight : Nat
  laneTx : Bool
  parked : Bool
  deriving DecidableEq, Repr

/-- Where `abort_slot` is. While it answers, it has the lock of the slot's list. -/
inductive Stage where
  | next
  | answering (rs : List Nat)
  | closing
  | draining
  deriving DecidableEq, Repr

/-- A call of `abort_inflight` or `abort_all_inflight`, with the slots it has yet to do, the
    one it is at first. Either has the lock of the main ractor, so that there is one at a time. -/
structure Sweep where
  all : Bool
  slots : List Nat
  stage : Stage
  deriving DecidableEq, Repr

/-- `senders` are the clones of the queue's sender that requests hold while they enqueue;
    `loc` is where a request's context is, `none` once it is dropped; `next` is the name
    of the next request. -/
structure Server (H B : Type) where
  lanes : Bool
  reqTx : Bool
  senders : Nat
  slots : List Slot
  contents : Place → List Nat
  loc : Nat → Option Place
  next : Nat
  responders : Nat → Responder H B
  sweep : Option Sweep

def initial (lanes : Bool) : Server H B where
  lanes := lanes
  reqTx := true
  senders := 0
  slots := []
  contents := fun _ => []
  loc := fun _ => none
  next := 0
  responders := fun _ => KinoResponder.new
  sweep := none

inductive Use (H B : Type) where
  | respondSimple (head : H)
  | sendHeaders (builder : Option H)
  | writeChunk (chunk : B)
  | finish
  | abort

/-- `none` is a call left waiting for the client. -/
def useResponder (x : Responder H B) : Use H B → Option (Responder H B)
  | .respondSimple head => some (sendResponse x head).2
  | .sendHeaders builder => some (sendStreamHead x builder).2
  | .writeChunk chunk =>
    if x.bodyTx then
      match x.frames.trySend (.data chunk) with
      | (.full, _) => none
      | (_, c) => some { x with frames := c }
    else some x
  | .finish => some (finishStream x)
  | .abort => respond500IfUnsent x

def takeFrame (x : Responder H B) : Responder H B := { x with frames := x.frames.pop }

def hangUp (x : Responder H B) : Responder H B :=
  { x with head := x.head.dropReceiver, frames := x.frames.dropReceiver }

inductive Label (H B : Type) where
  | registerWorker
  | cloneSender
  | accept
  | giveUp
  | dispatch (i : Nat)
  | checkout (i : Nat)
  | take (i : Nat) (source : Option Nat)
  | admitCtx (i : Nat)
  | use (r i : Nat) (op : Use H B)
  | release (r i : Nat)
  | takeFrame (r : Nat)
  | hangUp (r : Nat)
  | resetSlot (i : Nat)
  | closeQueue
  | abortInflight (i : Nat)
  | abortAllInflight
  | sweep

def Server.put (s : Server H B) (i : Nat) (slot : Slot) : Server H B :=
  { s with slots := s.slots.set i slot }

def Server.respond (s : Server H B) (r : Nat) (x : Responder H B) : Server H B :=
  { s with responders := Function.update s.responders r x }

def Server.enter (s : Server H B) (p : Place) : Server H B :=
  { s with
    contents := Function.update s.contents p (s.contents p ++ [s.next])
    loc := Function.update s.loc s.next (some p)
    next := s.next + 1
    responders := Function.update s.responders s.next KinoResponder.new }

def Server.move (s : Server H B) (r : Nat) (p q : Place) : Server H B :=
  { s with
    contents := Function.update (Function.update s.contents p (s.contents p).tail) q
      (s.contents q ++ [r])
    loc := Function.update s.loc r (some q) }

def Server.drop (s : Server H B) (r : Nat) (p : Place) : Server H B :=
  { s with
    contents := Function.update s.contents p ((s.contents p).erase r)
    loc := Function.update s.loc r none }

def take (s : Server H B) (i : Nat) (source : Option Nat) : Option (Server H B) :=
  let p := source.elim Place.queue Place.lane
  if i < s.slots.length ∧ s.contents (.hand i) = [] then
    match s.contents p with
    | [] => none
    | r :: _ => some (s.move r p (.hand i))
  else none

def admitCtx (s : Server H B) (i : Nat) : Option (Server H B) :=
  match s.slots[i]?, s.contents (.hand i) with
  | some slot, r :: _ =>
    some ((s.move r (.hand i) (.worker i)).put i
      { slot with current := slot.current ++ [r], inFlight := slot.inFlight + 1 })
  | _, _ => none

def closeQueue (s : Server H B) : Server H B :=
  { s with reqTx := false, slots := s.slots.map fun slot => { slot with laneTx := false } }

def Server.alive (s : Server H B) (r : Nat) : Bool := (s.loc r).isSome

/-- The lock of slot `i`'s list is the sweep's. -/
def Server.locked (s : Server H B) (i : Nat) : Bool :=
  match s.sweep with
  | some ⟨_, j :: _, .answering _⟩ => i = j
  | _ => false

/-- `abort_all_inflight` reads the slots under their lock. -/
def Server.reading (s : Server H B) : Bool :=
  match s.sweep with
  | some w => w.all
  | none => false

/-- One step of the sweep under way; `none` also while it waits for a client to take a frame.
    The listed requests come first, then the lane, whose contexts answer as they are dropped. -/
def sweepStep (s : Server H B) : Option (Server H B) :=
  match s.sweep with
  | none => none
  | some ⟨_, [], _⟩ => some { s with sweep := none }
  | some ⟨all, i :: rest, .next⟩ =>
    match s.slots[i]? with
    | none => some { s with sweep := some ⟨all, rest, .next⟩ }
    | some slot =>
      some { s.put i { slot with current := [] } with
        sweep := some ⟨all, i :: rest, .answering slot.current⟩ }
  | some ⟨all, i :: rest, .answering []⟩ =>
    some { s with sweep := some ⟨all, i :: rest, .closing⟩ }
  | some ⟨all, i :: rest, .answering (r :: rs)⟩ =>
    if s.alive r then
      (respond500IfUnsent (s.responders r)).map fun x =>
        { s.respond r x with sweep := some ⟨all, i :: rest, .answering rs⟩ }
    else some { s with sweep := some ⟨all, i :: rest, .answering rs⟩ }
  | some ⟨all, i :: rest, .closing⟩ =>
    -- three accesses, of which the others look at the lane's sender only
    s.slots[i]?.map fun slot =>
      { s.put i { slot with inFlight := 0, laneTx := false, parked := true } with
        sweep := some ⟨all, i :: rest, .draining⟩ }
  | some ⟨all, i :: rest, .draining⟩ =>
    match s.contents .drained with
    | r :: _ =>
      (respond500IfUnsent (s.responders r)).map fun x => (s.respond r x).drop r .drained
    | [] =>
      match s.contents (.lane i) with
      | r :: _ => some (s.move r (.lane i) .drained)
      | [] => some { s with sweep := some ⟨all, rest, .next⟩ }

def step (queueDepth : Nat) (s : Server H B) : Label H B → Option (Server H B)
  | .registerWorker =>
    if s.reading then none else some { s with slots := s.slots ++ [⟨[], 0, s.lanes, false⟩] }
  | .cloneSender =>
    if s.lanes = false ∧ s.reqTx = true then some { s with senders := s.senders + 1 } else none
  | .accept =>
    if 0 < s.senders ∧ (s.contents .queue).length < queueDepth then
      some { s.enter .queue with senders := s.senders - 1 }
    else none
  | .giveUp => if 0 < s.senders then some { s with senders := s.senders - 1 } else none
  | .dispatch i =>
    match s.slots[i]? with
    | some slot =>
      if slot.laneTx = true ∧ (s.contents (.lane i)).length < KinoLaneDispatch.laneDepth then
        some (s.enter (.lane i))
      else none
    | none => none
  | .checkout i =>
    if s.locked i then none
    else s.slots[i]?.map fun slot => s.put i { slot with current := [], inFlight := 0 }
  | .take i source => take s i source
  | .admitCtx i => if s.locked i then none else admitCtx s i
  | .use r i op =>
    if r ∈ s.contents (.worker i) then (useResponder (s.responders r) op).map (s.respond r)
    else none
  | .release r i =>
    -- the handle is collected: the context's drop is the backstop
    if r ∈ s.contents (.worker i) then
      (respond500IfUnsent (s.responders r)).map fun x => (s.respond r x).drop r (.worker i)
    else none
  | .takeFrame r => some (s.respond r (takeFrame (s.responders r)))
  | .hangUp r => some (s.respond r (hangUp (s.responders r)))
  | .resetSlot i =>
    if s.locked i then none
    else s.slots[i]?.map fun slot =>
      s.put i { slot with current := [], inFlight := 0, parked := false }
  | .closeQueue => some (closeQueue s)
  | .abortInflight i =>
    if s.sweep = none ∧ i < s.slots.length then some { s with sweep := some ⟨false, [i], .next⟩ }
    else none
  | .abortAllInflight =>
    if s.sweep = none then
      some { s with sweep := some ⟨true, List.range s.slots.length, .next⟩ }
    else none
  | .sweep => sweepStep s

def system (H B : Type) (lanes : Bool) (queueDepth : Nat) : System (Server H B) (Label H B) :=
  ⟨fun s => s = initial lanes, step queueDepth⟩

/-- No response is claimed, or a stream is open. -/
def Unanswered (x : Responder H B) : Prop := x.responded = false ∨ x.bodyTx = true

structure AbortSent (before after : Responder H B) : Prop where
  claimed : after.responded = true
  closed : after.bodyTx = false
  head : before.responded = false → after.head = (before.head.send response500).2
  stream : before.responded = true →
    after.frames = (before.frames.trySend abandonedFrame).2.dropSender

def Fresh (x : Responder H B) : Prop :=
  x.responded = false → x.headTx = true ∧ x.bodyTx = false

structure Owned (s : Server H B) : Prop where
  located : Located s.contents s.loc
  born : ∀ r p, s.loc r = some p → r < s.next
  listed : ∀ slot ∈ s.slots, ∀ r ∈ slot.current,
    r < s.next ∧ (s.loc r = none ∨ ∃ i, s.loc r = some (.worker i))
  laned : ∀ r i, s.loc r = some (.lane i) → i < s.slots.length
  handed : ∀ r i, s.loc r = some (.hand i) → i < s.slots.length
  drained : ∀ r, s.loc r = some .drained →
    ∃ all i rest, s.sweep = some ⟨all, i :: rest, .draining⟩
  gone : ∀ r, r < s.next → s.loc r = none → ¬ Unanswered (s.responders r)
  fresh : ∀ r, Fresh (s.responders r)

theorem claimed_fresh {x : Responder H B} (claimed : x.responded = true) : Fresh x := by
  intro unclaimed
  simp [claimed] at unclaimed

theorem claim_claims (x : Responder H B) : (claim x).2.responded = true := by
  unfold claim
  split
  · assumption
  · rfl

theorem sendStream_responded (x : Responder H B) (head : H) :
    (sendStream x head).responded = x.responded := by
  unfold sendStream
  split <;> rfl

theorem sendAbandoned_spec {x y : Responder H B} (sent : sendAbandoned x = some y) :
    y.responded = x.responded ∧ y.bodyTx = x.bodyTx ∧
      y.frames = (x.frames.trySend abandonedFrame).2.dropSender := by
  unfold sendAbandoned at sent
  split at sent
  · cases sent
  · next c _ result =>
    cases sent
    simp [result]

def Swept (x y : Responder H B) : Prop :=
  (Unanswered x ∧ AbortSent x y) ∨ (¬ Unanswered x ∧ y = x)

theorem respond500_sweeps {x y : Responder H B} (fresh : Fresh x)
    (returned : respond500IfUnsent x = some y) : Swept x y := by
  unfold Swept Unanswered
  cases responded : x.responded with
  | false =>
    obtain ⟨headTx, bodyTx⟩ := fresh responded
    simp only [respond500IfUnsent, claim, responded, headTx] at returned
    cases returned
    exact .inl ⟨.inl rfl, rfl, bodyTx, fun _ => rfl, fun claimed => by simp [responded] at claimed⟩
  | true =>
    cases bodyTx : x.bodyTx with
    | false =>
      simp [respond500IfUnsent, claim, responded, bodyTx] at returned
      exact .inr ⟨by simp, returned.symm⟩
    | true =>
      simp [respond500IfUnsent, claim, responded, bodyTx] at returned
      obtain ⟨claimed, closed, frames⟩ := sendAbandoned_spec returned
      refine .inl ⟨.inr rfl, claimed, closed, ?_, fun _ => frames⟩
      intro unclaimed
      simp [responded] at unclaimed

theorem AbortSent.answered {x y : Responder H B} (sent : AbortSent x y) : ¬ Unanswered y := by
  simp [Unanswered, sent.claimed, sent.closed]

theorem answered_fresh {x : Responder H B} (answered : ¬ Unanswered x) : Fresh x := by
  apply claimed_fresh
  simpa [Unanswered] using (not_or.mp answered).1

theorem respond500_fresh {x y : Responder H B} (fresh : Fresh x)
    (returned : respond500IfUnsent x = some y) : Fresh y := by
  rcases respond500_sweeps fresh returned with ⟨-, sent⟩ | ⟨-, rfl⟩
  · exact answered_fresh sent.answered
  · exact fresh

theorem use_fresh {x y : Responder H B} {op : Use H B} (fresh : Fresh x)
    (used : useResponder x op = some y) : Fresh y := by
  cases op with
  | respondSimple head =>
    cases used
    apply claimed_fresh
    have claimed := claim_claims x
    unfold sendResponse
    split <;> simp_all
  | sendHeaders builder =>
    cases used
    apply claimed_fresh
    have claimed := claim_claims x
    unfold sendStreamHead
    split
    · simp_all
    · cases builder with
      | none => simp_all
      | some head => simp_all [sendStream_responded]
  | writeChunk chunk =>
    simp only [useResponder] at used
    split at used
    · split at used
      · cases used
      · cases used
        exact fresh
    · cases used
      exact fresh
  | finish =>
    cases used
    unfold finishStream
    split
    · intro unclaimed
      exact ⟨(fresh unclaimed).1, rfl⟩
    · exact fresh
  | abort => exact respond500_fresh fresh used

theorem use_answered {x y : Responder H B} {op : Use H B} (answered : ¬ Unanswered x)
    (used : useResponder x op = some y) : ¬ Unanswered y := by
  have claimed : x.responded = true := by simpa [Unanswered] using (not_or.mp answered).1
  have closed : x.bodyTx = false := by simpa [Unanswered] using (not_or.mp answered).2
  have refused : claim x = (false, x) := by simp [claim, claimed]
  cases op with
  | respondSimple head =>
    cases used
    simpa [sendResponse, refused] using answered
  | sendHeaders builder =>
    cases used
    simpa [sendStreamHead, refused] using answered
  | writeChunk chunk =>
    simp only [useResponder, closed, Bool.false_eq_true, if_false, Option.some.injEq] at used
    exact used ▸ answered
  | finish =>
    cases used
    simpa [finishStream, closed] using answered
  | abort =>
    have same : useResponder x (.abort : Use H B) = some x := by
      simp [useResponder, respond500IfUnsent, refused, closed]
    rw [same] at used
    cases used
    exact answered

theorem respond500_answers {x y : Responder H B} (fresh : Fresh x)
    (returned : respond500IfUnsent x = some y) : ¬ Unanswered y := by
  rcases respond500_sweeps fresh returned with ⟨-, sent⟩ | ⟨answered, rfl⟩
  · exact sent.answered
  · exact answered

theorem initial_owned (lanes : Bool) : Owned (initial lanes : Server H B) where
  located := located_empty
  born := by simp [initial]
  listed := by simp [initial]
  laned := by simp [initial]
  handed := by simp [initial]
  drained := by simp [initial]
  gone := by simp [initial]
  fresh := by simp [initial, Fresh, KinoResponder.new]

theorem put_owned {s : Server H B} (i : Nat) (slot : Slot) (owned : Owned s)
    (listed : ∀ r ∈ slot.current,
      r < s.next ∧ (s.loc r = none ∨ ∃ i, s.loc r = some (.worker i))) : Owned (s.put i slot) := by
  constructor
  · exact owned.located
  · exact owned.born
  · intro other here r mem
    rcases List.mem_or_eq_of_mem_set here with old | rfl
    · exact owned.listed other old r mem
    · exact listed r mem
  · intro r j at_lane
    simpa [Server.put] using owned.laned r j at_lane
  · intro r j at_hand
    simpa [Server.put] using owned.handed r j at_hand
  · exact owned.drained
  · exact owned.gone
  · exact owned.fresh

theorem respond_owned {s : Server H B} {r : Nat} {x : Responder H B} (owned : Owned s)
    (fresh : Fresh x) (answered : ¬ Unanswered (s.responders r) → ¬ Unanswered x) :
    Owned (s.respond r x) := by
  refine ⟨owned.located, owned.born, owned.listed, owned.laned, owned.handed, owned.drained, ?_, ?_⟩
  · intro q old out
    have before := owned.gone q old out
    by_cases same : q = r
    · subst same
      simpa [Server.respond] using answered before
    · simpa [Server.respond, Function.update_of_ne same] using before
  · intro q
    by_cases same : q = r
    · subst same
      simpa [Server.respond] using fresh
    · simpa [Server.respond, Function.update_of_ne same] using owned.fresh q

theorem swept_owned {s : Server H B} {sweep : Option Sweep} (owned : Owned s)
    (drained : ∀ r, s.loc r = some .drained →
      ∃ all i rest, sweep = some ⟨all, i :: rest, .draining⟩) : Owned { s with sweep } :=
  ⟨owned.located, owned.born, owned.listed, owned.laned, owned.handed, drained, owned.gone,
    owned.fresh⟩

theorem enter_owned {s : Server H B} {p : Place} (owned : Owned s)
    (waits : p = .queue ∨ ∃ i, i < s.slots.length ∧ p = .lane i) : Owned (s.enter p) := by
  have outside : s.loc s.next = none := by
    by_contra inside
    obtain ⟨q, here⟩ := Option.ne_none_iff_exists'.mp inside
    exact absurd (owned.born _ _ here) (Nat.lt_irrefl _)
  constructor
  · exact located_enter owned.located outside
  · intro r q here
    by_cases same : r = s.next
    · simp [Server.enter, same]
    · simp only [Server.enter, Function.update_of_ne same] at here
      exact Nat.lt_succ_of_lt (owned.born r q here)
  · intro slot here r mem
    obtain ⟨old, away⟩ := owned.listed slot here r mem
    have other : r ≠ s.next := Nat.ne_of_lt old
    simp only [Server.enter, Function.update_of_ne other]
    exact ⟨Nat.lt_succ_of_lt old, away⟩
  · intro r i at_lane
    by_cases same : r = s.next
    · simp only [Server.enter, same, Function.update_self, Option.some.injEq] at at_lane
      rcases waits with queued | ⟨j, bound, laned⟩
      · simp [queued] at at_lane
      · rw [laned, Place.lane.injEq] at at_lane
        exact at_lane ▸ bound
    · simp only [Server.enter, Function.update_of_ne same] at at_lane
      exact owned.laned r i at_lane
  · intro r i at_hand
    by_cases same : r = s.next
    · simp only [Server.enter, same, Function.update_self, Option.some.injEq] at at_hand
      rcases waits with queued | ⟨j, bound, laned⟩
      · simp [queued] at at_hand
      · simp [laned] at at_hand
    · simp only [Server.enter, Function.update_of_ne same] at at_hand
      exact owned.handed r i at_hand
  · intro r held
    by_cases same : r = s.next
    · simp only [Server.enter, same, Function.update_self, Option.some.injEq] at held
      rcases waits with queued | ⟨j, bound, laned⟩
      · simp [queued] at held
      · simp [laned] at held
    · simp only [Server.enter, Function.update_of_ne same] at held
      exact owned.drained r held
  · intro r old out
    by_cases same : r = s.next
    · simp [Server.enter, same] at out
    · have before : r < s.next := by
        have less : r < s.next + 1 := old
        omega
      simp only [Server.enter, Function.update_of_ne same] at out ⊢
      exact owned.gone r before out
  · intro r
    by_cases same : r = s.next
    · simp [Server.enter, same, Fresh, KinoResponder.new]
    · simpa [Server.enter, Function.update_of_ne same] using owned.fresh r

theorem unlisted {s : Server H B} {r : Nat} {p : Place} (owned : Owned s) (here : r ∈ s.contents p)
    (waits : ∀ i, p ≠ .worker i) : ∀ slot ∈ s.slots, r ∉ slot.current := by
  intro slot of_server mem
  have at_p := located_mem owned.located here
  rcases (owned.listed slot of_server r mem).2 with gone | ⟨i, taken⟩
  · simp [gone] at at_p
  · rw [taken, Option.some.injEq] at at_p
    exact waits i at_p.symm

theorem move_owned {s : Server H B} {r : Nat} {rest : List Nat} {p q : Place} (owned : Owned s)
    (front : s.contents p = r :: rest) (apart : p ≠ q) (waits : ∀ i, p ≠ .worker i)
    (to_lane : ∀ i, q ≠ .lane i) (to_hand : ∀ i, q = .hand i → i < s.slots.length)
    (to_drain : q = .drained → ∃ all i rest, s.sweep = some ⟨all, i :: rest, .draining⟩) :
    Owned (s.move r p q) := by
  have here : r ∈ s.contents p := by simp [front]
  have elsewhere : ∀ u, u ≠ r → (s.move r p q).loc u = s.loc u := fun u other => by
    simp [Server.move, Function.update_of_ne other]
  have there : (s.move r p q).loc r = some q := by simp [Server.move]
  constructor
  · simpa [Server.move, front] using located_move owned.located apart front
  · intro u o at_o
    by_cases same : u = r
    · rw [same]
      exact owned.born r p (located_mem owned.located here)
    · exact owned.born u o (elsewhere u same ▸ at_o)
  · intro slot of_server u mem
    have other : u ≠ r := by
      intro same
      exact unlisted owned here waits slot of_server (same ▸ mem)
    rw [elsewhere u other]
    exact owned.listed slot of_server u mem
  · intro u i at_lane
    by_cases same : u = r
    · rw [same, there, Option.some.injEq] at at_lane
      exact absurd at_lane (to_lane i)
    · exact owned.laned u i (elsewhere u same ▸ at_lane)
  · intro u i at_hand
    by_cases same : u = r
    · rw [same, there, Option.some.injEq] at at_hand
      exact to_hand i at_hand
    · exact owned.handed u i (elsewhere u same ▸ at_hand)
  · intro u held
    by_cases same : u = r
    · rw [same, there, Option.some.injEq] at held
      exact to_drain held
    · exact owned.drained u (elsewhere u same ▸ held)
  · intro u old out
    by_cases same : u = r
    · rw [same, there] at out
      cases out
    · exact owned.gone u old (elsewhere u same ▸ out)
  · exact owned.fresh

/-- A context that goes away, its request answered, leaves the others where they are. -/
theorem drop_owned {s : Server H B} {r : Nat} {p : Place} (owned : Owned s)
    (here : r ∈ s.contents p) (answered : ¬ Unanswered (s.responders r)) : Owned (s.drop r p) := by
  have elsewhere : ∀ u, u ≠ r → (s.drop r p).loc u = s.loc u := fun u other => by
    simp [Server.drop, Function.update_of_ne other]
  have out : (s.drop r p).loc r = none := by simp [Server.drop]
  have stays : ∀ u q, (s.drop r p).loc u = some q → s.loc u = some q := by
    intro u q at_q
    by_cases same : u = r
    · rw [same, out] at at_q
      cases at_q
    · exact elsewhere u same ▸ at_q
  constructor
  · exact located_erase owned.located here
  · exact fun u q at_q => owned.born u q (stays u q at_q)
  · intro slot of_server u mem
    obtain ⟨old, away⟩ := owned.listed slot of_server u mem
    refine ⟨old, ?_⟩
    by_cases same : u = r
    · exact .inl (same ▸ out)
    · rwa [elsewhere u same]
  · exact fun u i at_lane => owned.laned u i (stays u _ at_lane)
  · exact fun u i at_hand => owned.handed u i (stays u _ at_hand)
  · exact fun u held => owned.drained u (stays u _ held)
  · intro u old gone
    by_cases same : u = r
    · exact same ▸ answered
    · exact owned.gone u old (elsewhere u same ▸ gone)
  · exact owned.fresh

theorem dropped_owned {s : Server H B} {r : Nat} {p : Place} {x : Responder H B} (owned : Owned s)
    (here : r ∈ s.contents p) (returned : respond500IfUnsent (s.responders r) = some x) :
    Owned ((s.respond r x).drop r p) := by
  have answered := respond500_answers (owned.fresh r) returned
  have kept : Owned (s.respond r x) :=
    respond_owned owned (respond500_fresh (owned.fresh r) returned) fun _ => answered
  refine drop_owned kept here ?_
  simpa [Server.respond] using answered

theorem sweepStep_owned {s t : Server H B} (owned : Owned s) (moved : sweepStep s = some t) :
    Owned t := by
  have elsewhere : ∀ {w}, s.sweep = w → (∀ all i rest, w ≠ some ⟨all, i :: rest, .draining⟩) →
      ∀ r, s.loc r ≠ some .drained := by
    intro w at_w other r held
    obtain ⟨all, i, rest, draining⟩ := owned.drained r held
    exact other all i rest (at_w ▸ draining)
  unfold sweepStep at moved
  split at moved
  · cases moved
  · next stage at_end =>
    cases moved
    exact swept_owned owned fun r held => absurd held (elsewhere at_end (by simp) r)
  · next all i rest at_next =>
    have free := elsewhere at_next (by simp)
    split at moved
    · cases moved
      exact swept_owned owned fun r held => absurd held (free r)
    · cases moved
      have emptied := put_owned i { ‹Slot› with current := [] } owned (by simp)
      exact swept_owned emptied fun r held => absurd held (free r)
  · next at_answered =>
    cases moved
    exact swept_owned owned fun r held => absurd held (elsewhere at_answered (by simp) r)
  · next all i rest r rs at_answer =>
    have free := elsewhere at_answer (by simp)
    split at moved
    · obtain ⟨x, returned, rfl⟩ := Option.map_eq_some_iff.mp moved
      have answered := respond500_answers (owned.fresh _) returned
      have kept : Owned (s.respond r x) :=
        respond_owned owned (respond500_fresh (owned.fresh r) returned) fun _ => answered
      exact swept_owned kept fun r held => absurd held (free r)
    · cases moved
      exact swept_owned owned fun r held => absurd held (free r)
  · next all i rest at_closing =>
    have free := elsewhere at_closing (by simp)
    obtain ⟨slot, found, rfl⟩ := Option.map_eq_some_iff.mp moved
    have closed := put_owned i { slot with inFlight := 0, laneTx := false, parked := true } owned
      (owned.listed slot (List.mem_of_getElem? found))
    exact swept_owned closed fun r held => absurd held (free r)
  · next all i rest at_drain =>
    split at moved
    · next r more held =>
      obtain ⟨x, returned, rfl⟩ := Option.map_eq_some_iff.mp moved
      exact dropped_owned owned (by simp [held]) returned
    · next none_held =>
      split at moved
      · next r more front =>
        cases moved
        exact move_owned owned front (by simp) (by simp) (by simp) (by simp)
          fun _ => ⟨all, i, rest, at_drain⟩
      · cases moved
        refine swept_owned owned fun r held => ?_
        have here := located_here owned.located held
        simp [none_held] at here
/-- Slots may be added, and what is listed stays listed, or goes. -/
theorem around_owned {s : Server H B} (senders : Nat) (reqTx : Bool) (slots : List Slot)
    (owned : Owned s)
    (listed : ∀ slot ∈ slots, ∀ r ∈ slot.current, ∃ old ∈ s.slots, r ∈ old.current)
    (longer : s.slots.length ≤ slots.length) : Owned { s with senders, reqTx, slots } := by
  refine ⟨owned.located, owned.born, ?_, ?_, ?_, owned.drained, owned.gone, owned.fresh⟩
  · intro slot here r mem
    obtain ⟨old, of_server, before⟩ := listed slot here r mem
    exact owned.listed old of_server r before
  · intro r i at_lane
    exact Nat.lt_of_lt_of_le (owned.laned r i at_lane) longer
  · intro r i at_hand
    exact Nat.lt_of_lt_of_le (owned.handed r i at_hand) longer

theorem senders_owned {s : Server H B} (senders : Nat) (owned : Owned s) :
    Owned { s with senders } :=
  around_owned senders s.reqTx s.slots owned (fun slot here _ mem => ⟨slot, here, mem⟩)
    (Nat.le_refl _)

theorem begin_owned {s : Server H B} (sweep : Sweep) (owned : Owned s) (idle : s.sweep = none) :
    Owned { s with sweep := some sweep } := by
  refine swept_owned owned fun r held => ?_
  obtain ⟨all, j, rest, sweeping⟩ := owned.drained r held
  rw [idle] at sweeping
  cases sweeping

theorem step_owned {queueDepth : Nat} {s t : Server H B} {l : Label H B} (owned : Owned s)
    (moved : step queueDepth s l = some t) : Owned t := by
  cases l with
  | registerWorker =>
    simp only [step, Option.ite_none_left_eq_some, Option.some.injEq] at moved
    obtain ⟨-, rfl⟩ := moved
    apply around_owned s.senders s.reqTx _ owned
    · intro slot here r mem
      rcases List.mem_append.mp here with old | new
      · exact ⟨slot, old, mem⟩
      · rw [List.mem_singleton] at new
        subst new
        cases mem
    · simp only [List.length_append]
      omega
  | cloneSender | giveUp =>
    simp only [step, Option.ite_none_right_eq_some, Option.some.injEq] at moved
    obtain ⟨-, rfl⟩ := moved
    exact senders_owned _ owned
  | accept =>
    simp only [step, Option.ite_none_right_eq_some, Option.some.injEq] at moved
    obtain ⟨-, rfl⟩ := moved
    exact senders_owned _ (enter_owned owned (.inl rfl))
  | dispatch i =>
    simp only [step] at moved
    split at moved
    · next slot found =>
      simp only [Option.ite_none_right_eq_some, Option.some.injEq] at moved
      obtain ⟨-, rfl⟩ := moved
      exact enter_owned owned (.inr ⟨i, (List.getElem?_eq_some_iff.mp found).1, rfl⟩)
    · cases moved
  | checkout i | resetSlot i =>
    simp only [step, Option.ite_none_left_eq_some, Option.map_eq_some_iff] at moved
    obtain ⟨-, slot, -, rfl⟩ := moved
    exact put_owned _ _ owned (by simp)
  | take i source =>
    simp only [step, take] at moved
    split at moved
    · next free =>
      split at moved
      · cases moved
      · next r rest front =>
        cases moved
        have to_hand : ∀ j, Place.hand i = .hand j → j < s.slots.length := by
          intro j same
          cases same
          exact free.1
        apply move_owned owned front _ _ _ to_hand <;> cases source <;> simp
    · cases moved
  | admitCtx i =>
    simp only [step, Option.ite_none_left_eq_some, admitCtx] at moved
    obtain ⟨-, moved⟩ := moved
    split at moved
    · next slot r rest found front =>
      cases moved
      have taken : Owned (s.move r (.hand i) (.worker i)) :=
        move_owned owned front (by simp) (by simp) (by simp) (by simp) (by simp)
      apply put_owned _ _ taken
      intro q mem
      rcases List.mem_append.mp mem with old | new
      · exact taken.listed slot (List.mem_of_getElem? found) q old
      · rw [List.mem_singleton] at new
        subst new
        have at_hand := located_mem owned.located (p := .hand i) (t := q) (by simp [front])
        exact ⟨owned.born q _ at_hand, .inr ⟨i, by simp [Server.move]⟩⟩
    · cases moved
  | use r i op =>
    simp only [step, Option.ite_none_right_eq_some, Option.map_eq_some_iff] at moved
    obtain ⟨-, x, used, rfl⟩ := moved
    exact respond_owned owned (use_fresh (owned.fresh r) used) fun answered =>
      use_answered answered used
  | release r i =>
    simp only [step, Option.ite_none_right_eq_some, Option.map_eq_some_iff] at moved
    obtain ⟨held, x, returned, rfl⟩ := moved
    exact dropped_owned owned held returned
  | takeFrame r | hangUp r =>
    cases moved
    exact respond_owned owned (owned.fresh r) id
  | closeQueue =>
    cases moved
    apply around_owned s.senders false _ owned
    · intro slot here r mem
      obtain ⟨old, of_server, rfl⟩ := List.mem_map.mp here
      exact ⟨old, of_server, mem⟩
    · simp
  | abortInflight i =>
    simp only [step, Option.ite_none_right_eq_some, Option.some.injEq] at moved
    obtain ⟨⟨idle, -⟩, rfl⟩ := moved
    exact begin_owned _ owned idle
  | abortAllInflight =>
    simp only [step, Option.ite_none_right_eq_some, Option.some.injEq] at moved
    obtain ⟨idle, rfl⟩ := moved
    exact begin_owned _ owned idle
  | sweep => exact sweepStep_owned owned moved

theorem reachable_owned {lanes : Bool} {queueDepth : Nat} {s : Server H B}
    (reached : Reachable (system H B lanes queueDepth) s) : Owned s := by
  apply reachable_invariant Owned _ _ reached
  · intro s start
    cases start
    exact initial_owned lanes
  · intro s t l owned moved
    exact step_owned owned moved

end KinoShutdown
