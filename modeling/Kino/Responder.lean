import Kino.Transitions
import Kino.Channels

/-!
The response half of a request (ext/kino/src/response.rs). A `Responder` is
shared by the app's request handle, the supervisor and the drop backstop of the
request context. Its operations are given twice: as functions of the shared state,
and as a transition system in which every atomic access of every call is a step
of its own, so that any number of calls interleave with the front-end that waits
for the head and with hyper that takes the frames.
-/
namespace KinoResponder
open Transitions Channels

inductive Response (H : Type) where
  | full (head : H)
  | stream (head : H)
  | plain (status : Nat) (message : String)
  deriving DecidableEq, Repr

inductive FrameResult (B : Type) where
  | data (chunk : B)
  | error (message : String)
  deriving DecidableEq, Repr

variable {H B : Type}

def plainResponse (status : Nat) (message : String) : Response H := .plain status message

def response500 : Response H := plainResponse 500 "Internal Server Error\n"
def response504 : Response H := plainResponse 504 "Gateway Timeout\n"
def abandonedFrame : FrameResult B := .error "Kino: response abandoned mid-stream"

def STREAM_BUFFER : Nat := 8

/-- `headTx` and `bodyTx` say whether the two `Option` senders are present. The
    frame channel is `absent` until a stream head creates it. -/
structure Responder (H B : Type) where
  responded : Bool
  headTx : Bool
  head : Oneshot (Response H)
  bodyTx : Bool
  frames : Chan (FrameResult B) STREAM_BUFFER

def new : Responder H B :=
  ⟨false, true, Oneshot.create _, false, Chan.absent _ _⟩

def claim (r : Responder H B) : Bool × Responder H B :=
  if r.responded then (false, r)
  else (r.headTx, { r with responded := true, headTx := false })

def sendResponse (r : Responder H B) (head : H) : Bool × Responder H B :=
  match claim r with
  | (true, r) => ((r.head.send (.full head)).1, { r with head := (r.head.send (.full head)).2 })
  | (false, r) => (false, r)

/-- Hand the head to the front-end. A stream response nobody waits for is dropped
    with the receiving end of its frame channel inside. -/
def sendStream (r : Responder H B) (head : H) : Responder H B :=
  match r.head.send (.stream head) with
  | (true, c) => { r with head := c }
  | (false, c) => { r with head := c, frames := r.frames.dropReceiver }

/-- `none` as builder is a head the http crate rejects; `none` as result is the
    error it raises, by which time the claim is spent and its sender dropped. -/
def sendStreamHead (r : Responder H B) (builder : Option H) :
    Option Bool × Responder H B :=
  match claim r with
  | (false, r) => (some false, r)
  | (true, r) =>
    match builder with
    | none => (none, { r with head := r.head.dropSender })
    | some head => (some true, sendStream { r with frames := Chan.create _ _, bodyTx := true } head)

def finishStream (r : Responder H B) : Responder H B :=
  if r.bodyTx then { r with bodyTx := false, frames := r.frames.dropSender } else r

def sendAbandoned (r : Responder H B) : Option (Responder H B) :=
  match r.frames.trySend abandonedFrame with
  | (.full, _) => none
  | (_, c) => some { r with frames := c.dropSender }

/-- `none` is a call left waiting for the receiver to take a frame. -/
def respond500IfUnsent (r : Responder H B) : Option (Responder H B) :=
  match claim r with
  | (true, r) => some { r with head := (r.head.send response500).2 }
  | (false, r) => if r.bodyTx then sendAbandoned { r with bodyTx := false } else some r

/-! The calls as sequences of atomic steps. -/

/-- Who calls `claim`, and with what to send. -/
inductive Claimer (H : Type) where
  | response (head : H)
  | streamHead (builder : Option H)
  | backstop
  deriving DecidableEq, Repr

inductive Ret where
  | sent (ok : Bool)
  | unit
  | invalidResponse
  | streamNotOpen
  | interrupted
  deriving DecidableEq, Repr

inductive Pc (H B : Type) where
  | idle
  | swap (c : Claimer H)
  | takeHead (c : Claimer H)
  | holding (c : Claimer H)
  | storeBody (head : H)
  | sendStream (head : H)
  | takeBody
  | sendErr
  | cloneBody (chunk : B)
  | writing (chunk : B)
  | finishing
  | done (r : Ret)
  deriving DecidableEq, Repr

/-- The native calls on one request. `respondSimple` builds its head before it
    claims, `sendHeaders` claims before the builder can fail. -/
inductive Call (H B : Type) where
  | respondSimple (builder : Option H)
  | sendHeaders (builder : Option H)
  | respond500IfUnsent
  | writeChunk (chunk : B)
  | finish
  deriving DecidableEq, Repr

def Call.entry : Call H B → Pc H B
  | .respondSimple none => .done .invalidResponse
  | .respondSimple (some head) => .swap (.response head)
  | .sendHeaders builder => .swap (.streamHead builder)
  | .respond500IfUnsent => .swap .backstop
  | .writeChunk chunk => .cloneBody chunk
  | .finish => .finishing

def Call.accepted : Call H B → List H
  | .respondSimple (some head) => [head]
  | .sendHeaders (some head) => [head]
  | _ => []

/-- `handle_request` after the request was accepted into a queue. -/
inductive Front (H : Type) where
  | waiting
  | answered (r : Response H)
  | gone
  deriving DecidableEq, Repr

/-- `lock` is the owner of `body_tx`'s mutex where it is held across a blocking
    send. `dropper` is the call made by `RequestCtx::drop`. The last four fields
    are history: the first call past `claim`, every send on the head channel with
    its caller, the heads offered, and the frames hyper has taken. -/
structure State (H B : Type) where
  resp : Responder H B
  lock : Option Nat
  pc : Nat → Pc H B
  front : Front H
  dropper : Option Nat
  winner : Option Nat
  heads : List (Nat × Response H)
  offered : List H
  taken : List (FrameResult B)

def initial : State H B :=
  ⟨new, none, fun _ => .idle, .waiting, none, none, [], [], []⟩

def State.goto (s : State H B) (t : Nat) (p : Pc H B) : State H B :=
  { s with pc := Function.update s.pc t p }

def lost : Claimer H → Pc H B
  | .response _ => .done (.sent false)
  | .streamHead _ => .done (.sent false)
  | .backstop => .takeBody

/-- Next step of call `t`; `none` when it waits for a lock or for room. -/
def advance (s : State H B) (t : Nat) : Option (State H B) :=
  match s.pc t with
  | .idle => none
  | .done _ => none
  | .swap c =>
    if s.resp.responded then some (s.goto t (lost c))
    else some ({ s with resp.responded := true, winner := some t }.goto t (.takeHead c))
  | .takeHead c =>
    if s.resp.headTx then some ({ s with resp.headTx := false }.goto t (.holding c))
    else some (s.goto t (lost c))
  | .holding (.response head) =>
    some ({ s with
      resp.head := (s.resp.head.send (.full head)).2
      heads := s.heads ++ [(t, Response.full head)] }.goto t
        (.done (.sent (s.resp.head.send (.full head)).1)))
  | .holding (.streamHead none) =>
    some ({ s with resp.head := s.resp.head.dropSender }.goto t (.done .invalidResponse))
  | .holding (.streamHead (some head)) =>
    some ({ s with resp.frames := Chan.create _ _ }.goto t (.storeBody head))
  | .holding .backstop =>
    some ({ s with
      resp.head := (s.resp.head.send response500).2
      heads := s.heads ++ [(t, response500)] }.goto t (.done .unit))
  | .storeBody head =>
    if s.lock = none then some ({ s with resp.bodyTx := true }.goto t (.sendStream head))
    else none
  | .sendStream head =>
    some ({ s with
      resp := KinoResponder.sendStream s.resp head
      heads := s.heads ++ [(t, Response.stream head)] }.goto t (.done (.sent true)))
  | .takeBody =>
    if s.lock = none then
      if s.resp.bodyTx then
        some ({ s with resp.bodyTx := false, lock := some t }.goto t .sendErr)
      else some (s.goto t (.done .unit))
    else none
  | .sendErr =>
    match sendAbandoned s.resp with
    | none => none
    | some r => some ({ s with resp := r, lock := none }.goto t (.done .unit))
  | .cloneBody chunk =>
    if s.lock = none then
      if s.resp.bodyTx then
        some ({ s with resp.frames := s.resp.frames.cloneSender }.goto t (.writing chunk))
      else some (s.goto t (.done .streamNotOpen))
    else none
  | .writing chunk =>
    match s.resp.frames.trySend (.data chunk) with
    | (.full, _) => some s
    | (_, c) => some ({ s with resp.frames := c.dropSender }.goto t (.done .unit))
  | .finishing =>
    if s.lock = none then some ({ s with resp := finishStream s.resp }.goto t (.done .unit))
    else none

inductive Label (H B : Type) where
  | call (t : Nat) (c : Call H B)
  | step (t : Nat)
  | interrupt (t : Nat)
  | dropCtx (t : Nat)
  | poll
  | timeout
  | clientGone
  | recvFrame
  | dropStream

def dropHeadRx (r : Responder H B) : Responder H B :=
  match r.head.value with
  | some (.stream _) => { r with head := r.head.dropReceiver, frames := r.frames.dropReceiver }
  | _ => { r with head := r.head.dropReceiver }

def step (requestTimeoutMs : Nat) (s : State H B) : Label H B → Option (State H B)
  | .call t c =>
    if s.pc t matches .idle then some ({ s with offered := s.offered ++ c.accepted }.goto t c.entry)
    else none
  | .step t => advance s t
  | .interrupt t =>
    match s.pc t with
    | .writing _ =>
      some ({ s with resp.frames := s.resp.frames.dropSender }.goto t (.done .interrupted))
    | _ => none
  | .dropCtx t =>
    match s.pc t, s.dropper with
    | .idle, none => some ({ s with dropper := some t }.goto t (.swap .backstop))
    | _, _ => none
  | .poll =>
    match s.front, s.resp.head.value with
    | .waiting, some r => some { s with front := .answered r, resp.head := s.resp.head.dropReceiver }
    | .waiting, none =>
      if s.resp.head.sender then none
      else some { s with front := .answered response500, resp.head := s.resp.head.dropReceiver }
    | _, _ => none
  | .timeout =>
    match s.front with
    | .waiting =>
      if 0 < requestTimeoutMs then
        some { s with front := .answered response504, resp := dropHeadRx s.resp }
      else none
    | _ => none
  | .clientGone =>
    match s.front with
    | .waiting => some { s with front := .gone, resp := dropHeadRx s.resp }
    | _ => none
  | .recvFrame =>
    match s.front, s.resp.frames.receiver, s.resp.frames.buf with
    | .answered (.stream _), true, f :: _ =>
      some { s with resp.frames := s.resp.frames.pop, taken := s.taken ++ [f] }
    | _, _, _ => none
  | .dropStream =>
    match s.front with
    | .answered (.stream _) => some { s with resp.frames := s.resp.frames.dropReceiver }
    | _ => none

def system (H B : Type) (requestTimeoutMs : Nat) : System (State H B) (Label H B) :=
  ⟨fun s => s = initial, step requestTimeoutMs⟩

@[simp, grind =] theorem goto_resp (s : State H B) (t : Nat) (p : Pc H B) : (s.goto t p).resp = s.resp := rfl
@[simp, grind =] theorem goto_lock (s : State H B) (t : Nat) (p : Pc H B) : (s.goto t p).lock = s.lock := rfl
@[simp, grind =] theorem goto_front (s : State H B) (t : Nat) (p : Pc H B) :
    (s.goto t p).front = s.front := rfl
@[simp, grind =] theorem goto_dropper (s : State H B) (t : Nat) (p : Pc H B) :
    (s.goto t p).dropper = s.dropper := rfl
@[simp, grind =] theorem goto_winner (s : State H B) (t : Nat) (p : Pc H B) :
    (s.goto t p).winner = s.winner := rfl
@[simp, grind =] theorem goto_heads (s : State H B) (t : Nat) (p : Pc H B) :
    (s.goto t p).heads = s.heads := rfl
@[simp, grind =] theorem goto_offered (s : State H B) (t : Nat) (p : Pc H B) :
    (s.goto t p).offered = s.offered := rfl
@[simp, grind =] theorem goto_taken (s : State H B) (t : Nat) (p : Pc H B) :
    (s.goto t p).taken = s.taken := rfl
@[simp, grind =] theorem goto_pc (s : State H B) (t u : Nat) (p : Pc H B) :
    (s.goto t p).pc u = if u = t then p else s.pc u := by
  simp [State.goto, Function.update_apply]

inductive Advance (s : State H B) (t : Nat) : State H B → Prop where
  | late (c : Claimer H) (at_pc : s.pc t = .swap c) (taken : s.resp.responded = true) :
      Advance s t (s.goto t (lost c))
  | first (c : Claimer H) (at_pc : s.pc t = .swap c) (free : s.resp.responded = false) :
      Advance s t ({ s with resp.responded := true, winner := some t }.goto t (.takeHead c))
  | take (c : Claimer H) (at_pc : s.pc t = .takeHead c) (present : s.resp.headTx = true) :
      Advance s t ({ s with resp.headTx := false }.goto t (.holding c))
  | noSender (c : Claimer H) (at_pc : s.pc t = .takeHead c) (missing : s.resp.headTx = false) :
      Advance s t (s.goto t (lost c))
  | respond (head : H) (at_pc : s.pc t = .holding (.response head)) :
      Advance s t ({ s with
        resp.head := (s.resp.head.send (.full head)).2
        heads := s.heads ++ [(t, Response.full head)] }.goto t
          (.done (.sent (s.resp.head.send (.full head)).1)))
  | canned (at_pc : s.pc t = .holding .backstop) :
      Advance s t ({ s with
        resp.head := (s.resp.head.send response500).2
        heads := s.heads ++ [(t, response500)] }.goto t (.done .unit))
  | reject (at_pc : s.pc t = .holding (.streamHead none)) :
      Advance s t ({ s with resp.head := s.resp.head.dropSender }.goto t (.done .invalidResponse))
  | build (head : H) (at_pc : s.pc t = .holding (.streamHead (some head))) :
      Advance s t ({ s with resp.frames := Chan.create _ _ }.goto t (.storeBody head))
  | store (head : H) (at_pc : s.pc t = .storeBody head) (unlocked : s.lock = none) :
      Advance s t ({ s with resp.bodyTx := true }.goto t (.sendStream head))
  | stream (head : H) (at_pc : s.pc t = .sendStream head) :
      Advance s t ({ s with
        resp := KinoResponder.sendStream s.resp head
        heads := s.heads ++ [(t, Response.stream head)] }.goto t (.done (.sent true)))
  | takeBody (at_pc : s.pc t = .takeBody) (unlocked : s.lock = none)
      (present : s.resp.bodyTx = true) :
      Advance s t ({ s with resp.bodyTx := false, lock := some t }.goto t .sendErr)
  | noBody (at_pc : s.pc t = .takeBody) (unlocked : s.lock = none)
      (missing : s.resp.bodyTx = false) : Advance s t (s.goto t (.done .unit))
  | abandon (r : Responder H B) (at_pc : s.pc t = .sendErr) (sent : sendAbandoned s.resp = some r) :
      Advance s t ({ s with resp := r, lock := none }.goto t (.done .unit))
  | clone (chunk : B) (at_pc : s.pc t = .cloneBody chunk) (unlocked : s.lock = none)
      (present : s.resp.bodyTx = true) :
      Advance s t ({ s with resp.frames := s.resp.frames.cloneSender }.goto t (.writing chunk))
  | notOpen (chunk : B) (at_pc : s.pc t = .cloneBody chunk) (unlocked : s.lock = none)
      (missing : s.resp.bodyTx = false) : Advance s t (s.goto t (.done .streamNotOpen))
  | tick (chunk : B) (at_pc : s.pc t = .writing chunk) (full : s.resp.frames.Blocks) : Advance s t s
  | write (chunk : B) (at_pc : s.pc t = .writing chunk) (room : ¬ s.resp.frames.Blocks) :
      Advance s t ({ s with
        resp.frames := (s.resp.frames.trySend (.data chunk)).2.dropSender }.goto t (.done .unit))
  | finish (at_pc : s.pc t = .finishing) (unlocked : s.lock = none) :
      Advance s t ({ s with resp := finishStream s.resp }.goto t (.done .unit))

theorem advance_cases {s s' : State H B} {t : Nat} (moved : advance s t = some s') :
    Advance s t s' := by
  unfold advance at moved
  split at moved
  all_goals try contradiction
  case h_3 c at_pc =>
    split at moved <;> cases moved
    · exact .late c at_pc ‹_›
    · exact .first c at_pc (by simp_all)
  case h_4 c at_pc =>
    split at moved <;> cases moved
    · exact .take c at_pc ‹_›
    · exact .noSender c at_pc (by simp_all)
  case h_5 head at_pc => cases moved; exact .respond head at_pc
  case h_6 at_pc => cases moved; exact .reject at_pc
  case h_7 head at_pc => cases moved; exact .build head at_pc
  case h_8 at_pc => cases moved; exact .canned at_pc
  case h_9 head at_pc =>
    split at moved <;> cases moved
    exact .store head at_pc ‹_›
  case h_10 head at_pc => cases moved; exact .stream head at_pc
  case h_11 at_pc =>
    split at moved
    · split at moved <;> cases moved
      · exact .takeBody at_pc ‹_› ‹_›
      · exact .noBody at_pc ‹_› (by simp_all)
    · cases moved
  case h_12 at_pc =>
    split at moved <;> cases moved
    exact .abandon _ at_pc ‹_›
  case h_13 chunk at_pc =>
    split at moved
    · split at moved <;> cases moved
      · exact .clone chunk at_pc ‹_› ‹_›
      · exact .notOpen chunk at_pc ‹_› (by simp_all)
    · cases moved
  case h_14 chunk at_pc =>
    have full := Chan.trySend_full_iff s.resp.frames (.data chunk)
    split at moved
    · rename_i eq
      cases moved
      exact .tick chunk at_pc (full.mp (by simp [eq]))
    · rename_i out c other eq
      cases moved
      have room : ¬ s.resp.frames.Blocks := fun blocks => other (by rw [← full.mpr blocks, eq])
      simpa [eq] using Advance.write chunk at_pc room
  case h_15 at_pc =>
    split at moved <;> cases moved
    exact .finish at_pc ‹_›

inductive Move (requestTimeoutMs : Nat) (s : State H B) : Label H B → State H B → Prop where
  | call (t : Nat) (c : Call H B) (idle : s.pc t = .idle) :
      Move requestTimeoutMs s (.call t c)
        ({ s with offered := s.offered ++ c.accepted }.goto t c.entry)
  | step (t : Nat) (s' : State H B) (moved : Advance s t s') : Move requestTimeoutMs s (.step t) s'
  | interrupt (t : Nat) (chunk : B) (at_pc : s.pc t = .writing chunk) :
      Move requestTimeoutMs s (.interrupt t)
        ({ s with resp.frames := s.resp.frames.dropSender }.goto t (.done .interrupted))
  | dropCtx (t : Nat) (idle : s.pc t = .idle) (alive : s.dropper = none) :
      Move requestTimeoutMs s (.dropCtx t) ({ s with dropper := some t }.goto t (.swap .backstop))
  | pollHead (r : Response H) (waiting : s.front = .waiting) (value : s.resp.head.value = some r) :
      Move requestTimeoutMs s .poll
        { s with front := .answered r, resp.head := s.resp.head.dropReceiver }
  | pollClosed (waiting : s.front = .waiting) (value : s.resp.head.value = none)
      (closed : s.resp.head.sender = false) :
      Move requestTimeoutMs s .poll
        { s with front := .answered response500, resp.head := s.resp.head.dropReceiver }
  | timeout (waiting : s.front = .waiting) (limited : 0 < requestTimeoutMs) :
      Move requestTimeoutMs s .timeout
        { s with front := .answered response504, resp := dropHeadRx s.resp }
  | clientGone (waiting : s.front = .waiting) :
      Move requestTimeoutMs s .clientGone { s with front := .gone, resp := dropHeadRx s.resp }
  | recvFrame (head : H) (f : FrameResult B) (rest : List (FrameResult B))
      (streaming : s.front = .answered (.stream head)) (alive : s.resp.frames.receiver = true)
      (queued : s.resp.frames.buf = f :: rest) :
      Move requestTimeoutMs s .recvFrame
        { s with resp.frames := s.resp.frames.pop, taken := s.taken ++ [f] }
  | dropStream (head : H) (streaming : s.front = .answered (.stream head)) :
      Move requestTimeoutMs s .dropStream { s with resp.frames := s.resp.frames.dropReceiver }

theorem step_move {ms : Nat} {s s' : State H B} {l : Label H B} (moved : step ms s l = some s') :
    Move ms s l s' := by
  cases l with
  | step t => exact .step t s' (advance_cases moved)
  | call t c =>
    simp only [step] at moved
    split at moved <;> cases moved
    exact .call t c (by grind)
  | interrupt t =>
    simp only [step] at moved
    split at moved <;> cases moved
    exact .interrupt t _ ‹_›
  | dropCtx t =>
    simp only [step] at moved
    split at moved <;> cases moved
    exact .dropCtx t ‹_› ‹_›
  | poll =>
    simp only [step] at moved
    split at moved
    · cases moved; exact .pollHead _ ‹_› ‹_›
    · split at moved
      · cases moved
      · cases moved; exact .pollClosed ‹_› ‹_› (by simp_all)
    · cases moved
  | timeout =>
    simp only [step] at moved
    split at moved
    · split at moved <;> cases moved
      exact .timeout ‹_› ‹_›
    · cases moved
  | clientGone =>
    simp only [step] at moved
    split at moved <;> cases moved
    exact .clientGone ‹_›
  | recvFrame =>
    simp only [step] at moved
    split at moved <;> cases moved
    exact .recvFrame _ _ _ ‹_› ‹_› ‹_›
  | dropStream =>
    simp only [step] at moved
    split at moved <;> cases moved
    exact .dropStream _ ‹_›

end KinoResponder
