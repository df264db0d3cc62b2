import Kino.Responder
import Kino.Worker

/-!
How a streaming response ends when its body raises. `serve` runs here on a responder, so
that what hyper sees of the frame channel can be read off the state; the client takes
frames, stalls or leaves as a list of reactions has it.
-/
namespace KinoStreamEnd
open Programs Channels KinoResponder KinoWorker

inductive Reaction where
  | takes (n : Nat)
  | leaves
  deriving DecidableEq, Repr

/-- `seen` are the frames hyper has taken; `client` is what the client will do, one
    reaction for each time it is given the chance; `input` are the outcomes of reading
    the request's body. -/
structure World (H B : Type) where
  resp : Responder H B
  seen : List (FrameResult B)
  client : List Reaction
  input : List (Except Exn (Option B))

variable {H B T : Type}

def react (w : World H B) : Reaction → World H B
  | .takes n =>
    { w with
      seen := w.seen ++ w.resp.frames.buf.take n
      resp := { w.resp with frames := w.resp.frames.popMany n } }
  | .leaves => { w with resp := { w.resp with frames := w.resp.frames.dropReceiver } }

/-- A blocking call: tried at once and again after each reaction of the client, until
    it goes through or the client does nothing any more. -/
def await (attempt : Responder H B → Option (Responder H B)) (w : World H B) :
    List Reaction → Outcome Exn Unit × World H B
  | [] =>
    match attempt w.resp with
    | some r => (.ok (), { w with resp := r, client := [] })
    | none => (.stuck, { w with client := [] })
  | m :: more =>
    match attempt w.resp with
    | some r => (.ok (), { w with resp := r, client := m :: more })
    | none => await attempt (react w m) more

def streamNotOpen : Exn := "Kino: response stream not started or already finished"

def sendFrame (chunk : B) (r : Responder H B) : Option (Responder H B) :=
  match r.frames.trySend (.data chunk) with
  | (.full, _) => none
  | (_, c) => some { r with frames := c }

def writeChunk (chunk : B) : Prog Exn (World H B) Unit := fun w =>
  if w.resp.bodyTx then
    match w.client with
    | [] => await (sendFrame chunk) w []
    | m :: more => await (sendFrame chunk) (react w m) more
  else (.raised streamNotOpen, w)

def sendHeaders (head : Except Exn (Option H)) : Prog Exn (World H B) Unit := fun w =>
  match head with
  | .error e => (.raised e, w)
  | .ok builder =>
    match sendStreamHead w.resp builder with
    | (none, r) => (.raised invalidResponse, { w with resp := r })
    | (some _, r) => (.ok (), { w with resp := r })

def sendSimple (head : Except Exn (Option H)) : Prog Exn (World H B) Unit := fun w =>
  match head with
  | .error e => (.raised e, w)
  | .ok none => (.raised invalidResponse, w)
  | .ok (some head) => (.ok (), { w with resp := (sendResponse w.resp head).2 })

def finish : Prog Exn (World H B) Unit :=
  update fun w => { w with resp := finishStream w.resp }

def readInput : Prog Exn (World H B) (Option B) := fun w =>
  match w.input with
  | [] => (.ok none, w)
  | .ok chunk :: rest => (.ok chunk, { w with input := rest })
  | .error e :: rest => (.raised e, { w with input := rest })

def abort : Prog Exn (World H B) Unit := fun w => await respond500IfUnsent w w.client

def native : Native (World H B) H B where
  sendSimple head _ := sendSimple head
  sendHeaders := sendHeaders
  writeChunk := writeChunk
  finish := finish
  readInput := readInput
  abort := abort

def sentFrames (w : World H B) : List (FrameResult B) := w.seen ++ w.resp.frames.buf

def SeesError (w : World H B) : Prop :=
  w.resp.frames.receiver = true →
    w.resp.frames.senders = 0 ∧ (sentFrames w).getLast? = some abandonedFrame

def SeesCleanEnd (w : World H B) : Prop :=
  w.resp.frames.receiver = true ∧ w.resp.frames.senders = 0 ∧
    (sentFrames w).getLast? ≠ some abandonedFrame

/-- A stream whose head is out, with its sender stored and no error in it. -/
structure Open (w : World H B) : Prop where
  responded : w.resp.responded = true
  stored : w.resp.bodyTx = true
  sender : w.resp.frames.senders = 1
  clean : abandonedFrame ∉ sentFrames w

theorem react_sent (w : World H B) (m : Reaction) : sentFrames (react w m) = sentFrames w := by
  cases m with
  | takes n => simp [react, sentFrames, Chan.popMany]
  | leaves => rfl

theorem react_open {w : World H B} (is_open : Open w) (m : Reaction) : Open (react w m) := by
  have same := react_sent w m
  obtain ⟨responded, stored, sender, clean⟩ := is_open
  refine ⟨?_, ?_, ?_, by rw [same]; exact clean⟩ <;> cases m <;> assumption

theorem await_keeps (keep : World H B → Prop) (attempt : Responder H B → Option (Responder H B))
    (client : ∀ w ms, keep w → keep { w with client := ms })
    (reacts : ∀ w m, keep w → keep (react w m))
    (tries : ∀ w r, keep w → attempt w.resp = some r → keep { w with resp := r })
    (w : World H B) (ms : List Reaction) (kept : keep w) : keep (await attempt w ms).2 := by
  induction ms generalizing w with
  | nil =>
    unfold await
    split
    · exact client _ _ (tries w _ kept ‹_›)
    · exact client _ _ kept
  | cons m more ih =>
    unfold await
    split
    · exact client _ _ (tries w _ kept ‹_›)
    · exact ih _ (reacts w m kept)

theorem open_client {w : World H B} (is_open : Open w) (ms : List Reaction) :
    Open { w with client := ms } := by
  obtain ⟨h1, h2, h3, h4⟩ := is_open
  exact ⟨h1, h2, h3, h4⟩

theorem sendFrame_open {w : World H B} {r : Responder H B} {chunk : B} (is_open : Open w)
    (sent : sendFrame chunk w.resp = some r) : Open { w with resp := r } := by
  obtain ⟨responded, stored, sender, clean⟩ := is_open
  unfold sendFrame at sent
  rcases Chan.trySend_cases w.resp.frames (.data chunk) with
    ⟨_, eq⟩ | ⟨_, room, eq⟩ | ⟨_, eq⟩ <;> rw [eq] at sent <;> cases sent
  · exact ⟨responded, stored, sender, clean⟩
  · refine ⟨responded, stored, sender, ?_⟩
    simp only [sentFrames, Chan.push, List.mem_append, not_or, List.mem_singleton] at clean ⊢
    exact ⟨clean.1, clean.2, by simp [abandonedFrame]⟩

theorem writeChunk_open (chunk : B) : Keeps Open (writeChunk chunk : Prog Exn (World H B) Unit) := by
  intro w is_open
  have waited := await_keeps (H := H) Open (sendFrame chunk)
    (fun w ms is_open => open_client is_open ms) (fun w m is_open => react_open is_open m)
    (fun w r is_open sent => sendFrame_open is_open sent)
  unfold writeChunk
  split
  · split
    · exact waited w [] is_open
    · exact waited _ _ (react_open is_open _)
  · exact is_open

theorem readInput_open : Keeps Open (readInput : Prog Exn (World H B) (Option B)) := by
  intro w is_open
  obtain ⟨h1, h2, h3, h4⟩ := is_open
  unfold readInput
  split <;> exact ⟨h1, h2, h3, h4⟩

def OpenUnlessClosed (s : Stream × World H B) : Prop := s.1.writeClosed = false → Open s.2

theorem lift_open {α : Type} {p : Prog Exn (World H B) α} (first : Keeps Open p) :
    Keeps OpenUnlessClosed (lift p) :=
  fun s kept unclosed => first s.2 (kept unclosed)

theorem closeWrite_open : Keeps OpenUnlessClosed (Stream.closeWrite (native (H := H) (B := B))) := by
  intro s kept
  unfold Stream.closeWrite
  split
  · exact kept
  · intro unclosed
    simp [bind, lift] at unclosed

theorem perform_open (a : StreamAct B) :
    Keeps OpenUnlessClosed (Stream.perform (native (H := H)) a) := by
  cases a with
  | read =>
    refine keeps_bind (fun s kept => ?_) fun _ => keeps_pure _ _
    unfold Stream.read
    split
    · exact kept
    · exact lift_open readInput_open s kept
  | write chunk =>
    refine keeps_bind (fun s kept => ?_) fun _ => keeps_pure _ _
    unfold Stream.write
    split
    · exact kept
    · exact lift_open (writeChunk_open chunk) s kept
  | flush => exact keeps_pure _ _
  | closeRead => exact keeps_bind (fun _ kept => kept) fun _ => keeps_pure _ _
  | closeWrite => exact keeps_bind closeWrite_open fun _ => keeps_pure _ _
  | close =>
    refine keeps_bind (keeps_bind (fun _ kept => kept) fun _ => closeWrite_open) fun _ => ?_
    exact keeps_pure _ _
  | closed => exact fun _ kept => kept

/-- The body goes through `body.call(stream)`. -/
def callablePath (reply : Reply H B) : Bool :=
  match reply.call, reply.each with
  | some _, none => true
  | _, _ => false

def bodyRun (reply : Reply H B) : Prog Exn (Stream × World H B) Unit :=
  match reply.call, reply.each with
  | some script, none => script.run (Stream.perform native)
  | _, each => lift ((each.getD noEach).run writeChunk)

theorem bodyRun_open (reply : Reply H B) : Keeps OpenUnlessClosed (bodyRun reply) := by
  unfold bodyRun
  split
  · exact keeps_script perform_open _
  · exact lift_open (keeps_script writeChunk_open _)

structure Unanswered (w : World H B) : Prop where
  responded : w.resp.responded = false
  headTx : w.resp.headTx = true
  seen : w.seen = []

theorem sendHeaders_open {w w' : World H B} {head : Except Exn (Option H)} (fresh : Unanswered w)
    (headed : sendHeaders head w = (.ok (), w')) : Open w' := by
  obtain ⟨responded, headTx, seen⟩ := fresh
  unfold sendHeaders at headed
  rcases head with e | _ | h
  · simp at headed
  · simp [sendStreamHead, claim, responded, headTx] at headed
  · simp only [sendStreamHead, claim, responded, headTx, Bool.false_eq_true, if_false,
      sendStream, Prod.mk.injEq, true_and] at headed
    subst w'
    cases heard : w.resp.head.receiver <;>
      constructor <;>
      simp [Oneshot.send, heard, Chan.create, Chan.dropReceiver, sentFrames, seen]

theorem abort_closed {w : World H B} (responded : w.resp.responded = true)
    (closed : w.resp.bodyTx = false) : abort w = (.ok (), w) := by
  have nothing : respond500IfUnsent w.resp = some w.resp := by
    simp [respond500IfUnsent, claim, responded, closed]
  unfold abort
  cases client : w.client <;> simp [await, nothing, ← client]

theorem respond500_open {w : World H B} (is_open : Open w) :
    (respond500IfUnsent w.resp = none ∧ w.resp.frames.senders ≠ 0) ∨
    ∃ r, respond500IfUnsent w.resp = some r ∧
      ∀ ms, SeesError { w with resp := r, client := ms } := by
  obtain ⟨responded, stored, sender, clean⟩ := is_open
  have called : respond500IfUnsent w.resp = sendAbandoned { w.resp with bodyTx := false } := by
    simp [respond500IfUnsent, claim, responded, stored]
  rw [called]
  unfold sendAbandoned
  rcases Chan.trySend_cases w.resp.frames abandonedFrame with
    ⟨gone, eq⟩ | ⟨_, room, eq⟩ | ⟨_, eq⟩ <;> simp only [eq]
  · right
    exact ⟨_, rfl, fun ms there => by simp [Chan.dropSender, gone] at there⟩
  · right
    refine ⟨_, rfl, fun ms there => ?_⟩
    simp [sentFrames, Chan.dropSender, Chan.push, sender]
  · left
    simp [sender]

theorem sees_error_not_clean {w : World H B} (error : SeesError w) : ¬ SeesCleanEnd w :=
  fun clean => clean.2.2 (error clean.1).2

/-- The abort of an open stream reaches hyper as the error frame, unless the client
    takes nothing any more; and it never ends the stream cleanly. -/
theorem await_abort_open (w : World H B) (ms : List Reaction) (is_open : Open w) :
    let out := await respond500IfUnsent w ms
    (out.1 = .ok () ∧ SeesError out.2) ∨
    (out.1 = .stuck ∧ ¬ SeesCleanEnd out.2 ∧ out.2.client = []) := by
  induction ms generalizing w with
  | nil =>
    simp only [await]
    rcases respond500_open is_open with ⟨blocked, held⟩ | ⟨r, sent, error⟩
    · right
      rw [blocked]
      exact ⟨rfl, fun clean => held clean.2.1, rfl⟩
    · left
      rw [sent]
      exact ⟨rfl, error []⟩
  | cons m more ih =>
    simp only [await]
    rcases respond500_open is_open with ⟨blocked, held⟩ | ⟨r, sent, error⟩
    · rw [blocked]
      exact ih (react w m) (react_open is_open m)
    · left
      rw [sent]
      exact ⟨rfl, error _⟩

theorem deliver_callable {reply : Reply H B} {w0 w1 w : World H B} {st : Stream} {e : Exn}
    (path : callablePath reply = true) (headed : sendHeaders reply.head w0 = (.ok (), w1))
    (raised : bodyRun reply (Stream.new, w1) = (.raised e, st, w))
    (unclosed : st.writeClosed = false) :
    deliverStreaming native reply w0 = (.raised e, { w with resp := finishStream w.resp }) := by
  unfold deliverStreaming deliverStreamingWith
  refine (bind_ok headed).trans ?_
  unfold callablePath at path
  unfold bodyRun at raised
  split at path
  · rename_i script no_each called
    simp only [called, no_each] at raised ⊢
    have closed : Stream.close native (st, w) =
        (.ok (), ⟨true, true⟩, { w with resp := finishStream w.resp }) := by
      simp [Stream.close, Stream.closeRead, Stream.closeWrite, bind, unclosed, lift, native, finish]
    simp only [withObject, ensure, raised, closed]
  · simp at path

/-- The error that comes out of `each` and the `ensure` around it. -/
def raisedWith (close : Close) (e : Exn) : Exn :=
  match close with
  | .raises e' => e'
  | _ => e

theorem deliver_each {reply : Reply H B} {w0 w1 w : World H B} {st : Stream} {e : Exn}
    (path : callablePath reply = false) (headed : sendHeaders reply.head w0 = (.ok (), w1))
    (raised : bodyRun reply (Stream.new, w1) = (.raised e, st, w)) :
    deliverStreaming native reply w0 = (.raised (raisedWith reply.close e), w) := by
  have each : (reply.each.getD noEach).run writeChunk w1 = (.raised e, w) := by
    unfold callablePath at path
    unfold bodyRun at raised
    split at path
    · simp at path
    · simp only [lift, Prod.mk.injEq] at raised
      exact Prod.ext raised.1 raised.2.2
  have unfinished : ((do
      (reply.each.getD noEach).run writeChunk
      finish : Prog Exn (World H B) Unit)) w1 = (.raised e, w) := bind_raised each
  have closed : ensure (do
      (reply.each.getD noEach).run writeChunk
      finish : Prog Exn (World H B) Unit) (closeBody reply.close) w1 =
        (.raised (raisedWith reply.close e), w) := by
    unfold ensure
    rw [unfinished]
    cases reply.close <;> rfl
  unfold deliverStreaming deliverStreamingWith
  refine (bind_ok headed).trans ?_
  cases called : reply.call with
  | none =>
    cases driven : reply.each <;> rw [driven] at closed <;> exact closed
  | some script =>
    cases driven : reply.each with
    | none => simp [callablePath, called, driven] at path
    | some each => rw [driven] at closed; exact closed

/-- A raising delivery leaves it to the abort, if the error can be reported. -/
theorem serve_raised {reply : Reply H B} {w0 w : World H B} {e : Exn} {code : Int}
    (outcomes : Outcomes) (deliver : Except Exn (Option H) → B → Prog Exn (World H B) (Fused T))
    (streaming : reply.toAry = none) (status : reply.status = .ok code)
    (raised : deliverStreaming native reply w0 = (.raised e, w)) :
    serve native (pure reply) outcomes.reports deliver w0 =
      (giveUp native outcomes.reports e : Prog Exn (World H B) (Fused T)) w := by
  unfold serve serveWith
  refine rescue_raised (e := e) ?_
  refine (bind_ok (pure_run reply w0)).trans ?_
  simp only [respond, streaming, status, fromExcept_ok_bind]
  exact bind_raised raised

/-- Hyper sees the error and no clean end, up to a client that takes nothing more, in
    which case the abort is still waiting to be taken. -/
structure AbortSeen (out : Outcome Exn (Fused T) × World H B) : Prop where
  not_clean : ¬ SeesCleanEnd out.2
  error : out.1 ≠ .stuck → SeesError out.2
  waiting : out.1 = .stuck → out.2.client = []

theorem serve_each_seen {w : World H B} (is_open : Open w) (outcomes : Outcomes) (e : Exn) :
    AbortSeen ((giveUp native outcomes.reports e : Prog Exn (World H B) (Fused T)) w) ↔
      (∃ u, outcomes.exception e = .ok u) ∨ w.resp.frames.receiver = false := by
  obtain ⟨responded, stored, sender, clean⟩ := id is_open
  cases reported : outcomes.exception e with
  | ok u =>
    obtain ⟨same, waits⟩ := giveUp_reported (T := T) (native (H := H) (B := B)) reported w
    change _ = (abort w).2 at same
    change _ ↔ (abort w).1 = .stuck at waits
    refine iff_of_true ?_ (.inl ⟨u, rfl⟩)
    rcases await_abort_open w w.client is_open with ⟨ok, error⟩ | ⟨stuck, not_clean, silent⟩
    · have moved : (abort w).1 ≠ .stuck := by
        rw [show (abort w).1 = .ok () from ok]
        nofun
      refine ⟨?_, fun _ => ?_, fun hangs => absurd (waits.mp hangs) moved⟩
      · rw [same]
        exact sees_error_not_clean error
      · rw [same]
        exact error
    · refine ⟨?_, fun moved => absurd (waits.mpr stuck) moved, fun _ => ?_⟩
      · rw [same]
        exact not_clean
      · rw [same]
        exact silent
  | error e' =>
    rw [giveUp_unreported native reported w]
    constructor
    · intro seen
      right
      by_contra there
      have ended := (seen.error nofun (by simpa using there)).1
      simp [sender] at ended
    · rintro (⟨u, reported'⟩ | gone)
      · cases reported'
      · refine ⟨?_, fun _ there => ?_, nofun⟩
        · rintro ⟨there, -⟩
          simp [gone] at there
        · simp [gone] at there

theorem serve_callable_seen {w : World H B} (is_open : Open w) (outcomes : Outcomes) (e : Exn) :
    AbortSeen ((giveUp native outcomes.reports e : Prog Exn (World H B) (Fused T))
      { w with resp := finishStream w.resp }) ↔ w.resp.frames.receiver = false := by
  obtain ⟨responded, stored, sender, clean⟩ := is_open
  have finished : ∀ w', w' = { w with resp := finishStream w.resp } →
      w'.resp.responded = true ∧ w'.resp.bodyTx = false ∧ w'.resp.frames.senders = 0 ∧
      w'.resp.frames.receiver = w.resp.frames.receiver ∧ sentFrames w' = sentFrames w := by
    intro w' same
    subst same
    simp [finishStream, stored, responded, sender, Chan.dropSender, sentFrames]
  obtain ⟨answered, closed, no_sender, same, sent⟩ := finished _ rfl
  have last : (sentFrames { w with resp := finishStream w.resp }).getLast? ≠
      some abandonedFrame := by
    rw [sent]
    intro error
    exact clean (List.mem_of_getLast? error)
  -- the abort finds no sender, so the world is left as it is whether or not it comes to it
  have left : ∃ o, (giveUp native outcomes.reports e : Prog Exn (World H B) (Fused T))
      { w with resp := finishStream w.resp } = (o, { w with resp := finishStream w.resp }) ∧
      o ≠ .stuck := by
    cases reported : outcomes.exception e with
    | error e' => exact ⟨_, giveUp_unreported native reported _, nofun⟩
    | ok u =>
      obtain ⟨state, waits⟩ := giveUp_reported (T := T) (native (H := H) (B := B)) reported
        { w with resp := finishStream w.resp }
      have aborted : native.abort { w with resp := finishStream w.resp } =
          (.ok (), { w with resp := finishStream w.resp }) := abort_closed answered closed
      rw [aborted] at state waits
      exact ⟨_, Prod.ext rfl state, fun hangs => by simpa using waits.mp hangs⟩
  obtain ⟨o, ran, moved⟩ := left
  rw [ran]
  constructor
  · intro seen
    by_contra there
    refine seen.not_clean ⟨?_, no_sender, last⟩
    rw [same]
    simpa using there
  · intro gone
    constructor
    · rintro ⟨there, -⟩
      rw [same, gone] at there
      simp at there
    · intro _ there
      rw [same, gone] at there
      simp at there
    · intro hangs
      exact absurd hangs moved

/-- A body that raises after its head went out, without having closed the write side, is seen
    to fail exactly when it is delivered through `each` and its error can be reported, or when
    nobody is left to see it: a callable body's stream is closed by the `ensure` around it, and
    an error of the report comes before the abort. -/
theorem raised_body_seen_iff {reply : Reply H B} {w0 w1 w : World H B} {st : Stream} {e : Exn}
    {code : Int} (outcomes : Outcomes)
    (deliver : Except Exn (Option H) → B → Prog Exn (World H B) (Fused T))
    (fresh : Unanswered w0) (streaming : reply.toAry = none) (status : reply.status = .ok code)
    (headed : sendHeaders reply.head w0 = (.ok (), w1))
    (raised : bodyRun reply (Stream.new, w1) = (.raised e, st, w))
    (unclosed : st.writeClosed = false) :
    AbortSeen (serve native (pure reply) outcomes.reports deliver w0) ↔
      callablePath reply = false ∧
        (∃ u, outcomes.exception (raisedWith reply.close e) = .ok u) ∨
      w.resp.frames.receiver = false := by
  have is_open : Open w := by
    have kept := bodyRun_open reply (Stream.new, w1) fun _ => sendHeaders_open fresh headed
    rw [raised] at kept
    exact kept unclosed
  cases path : callablePath reply with
  | false =>
    have delivered := deliver_each path headed raised
    rw [serve_raised outcomes deliver streaming status delivered]
    simpa using serve_each_seen is_open outcomes (raisedWith reply.close e)
  | true =>
    have delivered := deliver_callable path headed raised unclosed
    rw [serve_raised outcomes deliver streaming status delivered,
      serve_callable_seen is_open outcomes e]
    simp

def fresh : World Nat String := ⟨new, [], [.takes 1, .takes 1], []⟩

def eachRaises : Reply Nat String :=
  ⟨.ok 200, .ok (some 200), none, some (.act "a" fun _ => .raises "boom"), none, .returns⟩

def callRaises : Reply Nat String :=
  ⟨.ok 200, .ok (some 200), none, none, some (.act (.write "a") fun _ => .raises "boom"), .absent⟩

def noTake : Except Exn (Option Nat) → String → Prog Exn (World Nat String) (Fused Nat) :=
  fun _ _ => pure .notFused

def headed : World Nat String := (sendHeaders (.ok (some 200)) fresh).2

theorem raising_each_aborts :
    AbortSeen (serve native (pure eachRaises) (Outcomes.quiet false).reports noTake fresh) ∧
    sentFrames (serve native (pure eachRaises) (Outcomes.quiet false).reports noTake fresh).2 =
      [.data "a", abandonedFrame] := by
  have raised : bodyRun eachRaises (Stream.new, headed) =
      (.raised "boom", (bodyRun eachRaises (Stream.new, headed)).2) :=
    Prod.ext (by decide +kernel) rfl
  refine ⟨?_, by decide +kernel⟩
  exact (raised_body_seen_iff (Outcomes.quiet false) noTake ⟨rfl, rfl, rfl⟩ rfl rfl rfl raised
    (by decide +kernel)).mpr (.inl ⟨rfl, (), rfl⟩)

/-- The client gets its one chunk and a clean end. -/
theorem raising_call_ends_cleanly :
    let served := serve native (pure callRaises) (Outcomes.quiet false).reports noTake fresh
    ((sendHeaders callRaises.head fresh).1 = .ok () ∧
      (bodyRun callRaises (Stream.new, headed)).1 = .raised "boom" ∧
      (bodyRun callRaises (Stream.new, headed)).2.1.writeClosed = false) ∧
    sentFrames served.2 = [.data "a"] ∧ SeesCleanEnd served.2 ∧ ¬ AbortSeen served := by
  have sent : sentFrames (serve native (pure callRaises) (Outcomes.quiet false).reports noTake
      fresh).2 = [.data "a"] := by
    decide +kernel
  have clean : SeesCleanEnd (serve native (pure callRaises) (Outcomes.quiet false).reports noTake
      fresh).2 := by
    refine ⟨by decide +kernel, by decide +kernel, ?_⟩
    rw [sent]
    decide
  exact ⟨⟨rfl, by decide +kernel, by decide +kernel⟩, sent, clean,
    fun seen => seen.not_clean clean⟩

end KinoStreamEnd
