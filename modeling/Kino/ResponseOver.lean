import Kino.WorkerHooks

/-!
What a request's hooks find when they are called: the response is over. The native calls are
those of the responder (ext/kino/src/response.rs) with a client that takes frames, stalls or
leaves; a body may read, write and close its stream in any order.
-/
namespace KinoResponseOver
open Programs Channels KinoResponder KinoWorker KinoStreamEnd KinoWorkerHooks
variable {W H B T : Type}

structure Tidy (r : Responder H B) : Prop where
  unclaimed : r.responded = false → r.headTx = true ∧ r.bodyTx = false
  claimed : r.responded = true → r.head.sender = false
  stream : r.frames.senders = if r.bodyTx then 1 else 0

structure Over (r : Responder H B) : Prop where
  responded : r.responded = true
  head : r.head.sender = false
  bodyTx : r.bodyTx = false
  frames : r.frames.senders = 0

theorem tidy_new : Tidy (new : Responder H B) := ⟨fun _ => ⟨rfl, rfl⟩, nofun, rfl⟩

theorem tidy_over {r : Responder H B} (tidy : Tidy r) (responded : r.responded = true)
    (closed : r.bodyTx = false) : Over r :=
  ⟨responded, tidy.claimed responded, closed, by simp [tidy.stream, closed]⟩

def Kept (headed : Bool) (w : World H B) : Prop :=
  Tidy w.resp ∧ (headed = true → w.resp.responded = true)

def Unopened (w : World H B) : Prop := Tidy w.resp ∧ w.resp.bodyTx = false
def Done (w : World H B) : Prop := Over w.resp

theorem oneshot_sent {α : Type} (c : Oneshot α) (a : α) : (c.send a).2.sender = false := by
  unfold Oneshot.send
  split <;> rfl

/-- The first claim takes the sender, and any other leaves the responder as it is. -/
theorem claim_tidy {r : Responder H B} (tidy : Tidy r) :
    (r.responded = false ∧ claim r = (true, { r with responded := true, headTx := false })) ∨
    (r.responded = true ∧ claim r = (false, r)) := by
  unfold claim
  cases responded : r.responded with
  | true => exact .inr ⟨rfl, rfl⟩
  | false =>
    have sender := (tidy.unclaimed responded).1
    exact .inl ⟨rfl, by simp [sender]⟩

theorem sendResponse_tidy {r : Responder H B} (tidy : Tidy r) (head : H) :
    Tidy (sendResponse r head).2 ∧ (sendResponse r head).2.responded = true ∧
      (sendResponse r head).2.bodyTx = r.bodyTx := by
  unfold sendResponse
  rcases claim_tidy tidy with ⟨unclaimed, taken⟩ | ⟨claimed, refused⟩
  · rw [taken]
    exact ⟨⟨nofun, fun _ => oneshot_sent _ _, tidy.stream⟩, rfl, rfl⟩
  · rw [refused]
    exact ⟨tidy, claimed, rfl⟩

theorem sendStream_tidy {r : Responder H B} (head : H) (responded : r.responded = true)
    (stored : r.bodyTx = true) (sender : r.frames.senders = 1) :
    Tidy (sendStream r head) ∧ (sendStream r head).responded = true := by
  unfold sendStream Oneshot.send
  split
  · next c sent =>
    split at sent <;> cases sent
    exact ⟨⟨by simp [responded], fun _ => rfl, by simp [stored, sender]⟩, responded⟩
  · next c lost =>
    split at lost <;> cases lost
    exact ⟨⟨by simp [responded], fun _ => rfl, by simp [stored, sender, Chan.dropReceiver]⟩, responded⟩

theorem sendStreamHead_tidy {r : Responder H B} (tidy : Tidy r) (builder : Option H) :
    Tidy (sendStreamHead r builder).2 ∧ (sendStreamHead r builder).2.responded = true := by
  unfold sendStreamHead
  rcases claim_tidy tidy with ⟨unclaimed, taken⟩ | ⟨claimed, refused⟩
  · rw [taken]
    have closed := (tidy.unclaimed unclaimed).2
    cases builder with
    | none => exact ⟨⟨nofun, fun _ => rfl, tidy.stream⟩, rfl⟩
    | some head => exact sendStream_tidy head rfl rfl rfl
  · rw [refused]
    exact ⟨tidy, claimed⟩

theorem finishStream_tidy {r : Responder H B} (tidy : Tidy r) :
    Tidy (finishStream r) ∧ (finishStream r).responded = r.responded ∧
      (finishStream r).bodyTx = false := by
  unfold finishStream
  cases stored : r.bodyTx with
  | false =>
    refine ⟨?_, rfl, stored⟩
    simpa using tidy
  | true =>
    have sender := tidy.stream
    refine ⟨⟨fun unclaimed => ?_, tidy.claimed, ?_⟩, rfl, rfl⟩
    · exact ⟨(tidy.unclaimed unclaimed).1, rfl⟩
    · simp [stored] at sender
      simp [Chan.dropSender, sender]

theorem respond500_over {r r' : Responder H B} (tidy : Tidy r)
    (did : respond500IfUnsent r = some r') : Over r' := by
  unfold respond500IfUnsent at did
  rcases claim_tidy tidy with ⟨unclaimed, taken⟩ | ⟨claimed, refused⟩
  · rw [taken] at did
    cases did
    have closed := (tidy.unclaimed unclaimed).2
    exact ⟨rfl, oneshot_sent _ _, closed, by simp [tidy.stream, closed]⟩
  · rw [refused] at did
    cases stored : r.bodyTx with
    | false =>
      simp only [stored, Bool.false_eq_true, if_false, Option.some.injEq] at did
      subst did
      exact tidy_over tidy claimed stored
    | true =>
      have one : r.frames.senders = 1 := by simp [tidy.stream, stored]
      simp only [stored, if_true, sendAbandoned] at did
      rcases Chan.trySend_cases r.frames (abandonedFrame : FrameResult B) with
        ⟨-, eq⟩ | ⟨-, room, eq⟩ | ⟨-, eq⟩ <;> rw [eq] at did <;> cases did
      · exact ⟨claimed, tidy.claimed claimed, rfl, by simp [Chan.dropSender, one]⟩
      · exact ⟨claimed, tidy.claimed claimed, rfl, by simp [Chan.dropSender, Chan.push, one]⟩

/-! The native calls. -/

section Calls
variable {headed : Bool}

theorem react_kept {w : World H B} (kept : Kept headed w) (m : Reaction) : Kept headed (react w m) := by
  cases m with
  | takes n => exact ⟨⟨kept.1.unclaimed, kept.1.claimed, kept.1.stream⟩, kept.2⟩
  | leaves => exact ⟨⟨kept.1.unclaimed, kept.1.claimed, kept.1.stream⟩, kept.2⟩

theorem sendFrame_kept {w : World H B} {r : Responder H B} {chunk : B} (kept : Kept headed w)
    (sent : sendFrame chunk w.resp = some r) : Kept headed { w with resp := r } := by
  unfold sendFrame at sent
  rcases Chan.trySend_cases w.resp.frames (.data chunk) with
    ⟨-, eq⟩ | ⟨-, room, eq⟩ | ⟨-, eq⟩ <;> rw [eq] at sent <;> cases sent
  · exact kept
  · exact ⟨⟨kept.1.unclaimed, kept.1.claimed, kept.1.stream⟩, kept.2⟩

theorem writeChunk_kept (chunk : B) :
    Keeps (Kept headed) (writeChunk chunk : Prog Exn (World H B) Unit) := by
  intro w kept
  have waited := await_keeps (H := H) (Kept headed) (sendFrame chunk) (fun w ms kept => kept)
    (fun w m kept => react_kept kept m) (fun w r kept sent => sendFrame_kept kept sent)
  unfold writeChunk
  split
  · split
    · exact waited w [] kept
    · exact waited _ _ (react_kept kept _)
  · exact kept

theorem readInput_kept : Keeps (Kept headed) (readInput : Prog Exn (World H B) (Option B)) := by
  intro w kept
  unfold readInput
  split <;> exact kept

theorem finish_kept : Keeps (Kept headed) (finish : Prog Exn (World H B) Unit) := by
  intro w kept
  obtain ⟨tidy, responded, -⟩ := finishStream_tidy kept.1
  exact ⟨tidy, fun claimed => responded.trans (kept.2 claimed)⟩

theorem finish_done : Comes (Kept true) (finish : Prog Exn (World H B) Unit) Done := by
  rintro w a t kept ran
  cases ran
  obtain ⟨tidy, responded, closed⟩ := finishStream_tidy kept.1
  exact tidy_over tidy (responded.trans (kept.2 rfl)) closed

theorem sendHeaders_comes (head : Except Exn (Option H)) :
    Comes (Kept false) (sendHeaders head : Prog Exn (World H B) Unit) (Kept true) := by
  intro w a t kept ran
  cases head with
  | error e => cases ran
  | ok builder =>
    have sent := sendStreamHead_tidy kept.1 builder
    unfold sendHeaders at ran
    dsimp only at ran
    split at ran
    · cases ran
    · next out =>
      cases ran
      rw [out] at sent
      exact ⟨sent.1, fun _ => sent.2⟩

theorem sendHeaders_kept (head : Except Exn (Option H)) :
    Keeps (Kept false) (sendHeaders head : Prog Exn (World H B) Unit) := by
  intro w kept
  cases head with
  | error e => exact kept
  | ok builder =>
    have sent := (sendStreamHead_tidy kept.1 builder).1
    unfold sendHeaders
    dsimp only
    split <;> next out =>
      rw [out] at sent
      exact ⟨sent, nofun⟩

theorem sendSimple_done (head : Except Exn (Option H)) :
    Comes Unopened (sendSimple head : Prog Exn (World H B) Unit) Done := by
  intro w a t unopened ran
  rcases head with e | _ | head
  · cases ran
  · cases ran
  · cases ran
    obtain ⟨tidy, responded, same⟩ := sendResponse_tidy unopened.1 head
    exact tidy_over tidy responded (same.trans unopened.2)

theorem sendSimple_kept (head : Except Exn (Option H)) :
    Keeps (Kept false) (sendSimple head : Prog Exn (World H B) Unit) := by
  intro w kept
  rcases head with e | _ | head
  · exact kept
  · exact kept
  · exact ⟨(sendResponse_tidy kept.1 head).1, nofun⟩

theorem await_over (w : World H B) (ms : List Reaction) (kept : Kept false w) {t : World H B}
    (ran : await respond500IfUnsent w ms = (.ok (), t)) : Done t := by
  induction ms generalizing w with
  | nil =>
    unfold await at ran
    split at ran
    · next did =>
      cases ran
      exact respond500_over kept.1 did
    · cases ran
  | cons m more ih =>
    unfold await at ran
    split at ran
    · next did =>
      cases ran
      exact respond500_over kept.1 did
    · exact ih (react w m) (react_kept kept m) ran

theorem abort_done : Comes (Kept false) (abort : Prog Exn (World H B) Unit) Done := by
  intro w a t kept ran
  exact await_over w w.client kept ran

end Calls

/-! The body. -/

theorem closeBody_done (close : Close) :
    Comes Done (closeBody close : Prog Exn (World H B) Unit) Done :=
  comes_keeps (closeBody_keeps close)

theorem streaming_kept (reply : Reply H B) :
    Keeps (Kept false) (deliverStreamingWith (native (H := H)) closeBody reply) :=
  deliverStreaming_keeps sendHeaders_kept finish_kept readInput_kept writeChunk_kept closeBody_keeps
    reply

def Streams (s : Stream × World H B) : Prop :=
  Kept true s.2 ∧ (s.1.writeClosed = true → s.2.resp.bodyTx = false)

theorem closeWrite_streams : Keeps Streams (Stream.closeWrite (native (H := H) (B := B))) := by
  intro s streams
  unfold Stream.closeWrite
  split
  · exact streams
  · have closed := finishStream_tidy streams.1.1
    exact ⟨finish_kept s.2 streams.1, fun _ => closed.2.2⟩

theorem streams_lift {α : Type} {p : Prog Exn (World H B) α} (kept : Keeps (Kept true) p)
    (closed : Keeps (fun w => w.resp.bodyTx = false) p) : Keeps Streams (lift p) :=
  fun s streams => ⟨kept s.2 streams.1, fun written => closed s.2 (streams.2 written)⟩

theorem writeChunk_closed (chunk : B) :
    Keeps (fun w => w.resp.bodyTx = false) (writeChunk chunk : Prog Exn (World H B) Unit) := by
  intro w closed
  simp only [writeChunk, closed, Bool.false_eq_true, if_false]

theorem readInput_closed :
    Keeps (fun w => w.resp.bodyTx = false) (readInput : Prog Exn (World H B) (Option B)) := by
  intro w closed
  unfold readInput
  split <;> exact closed

theorem perform_streams (a : StreamAct B) : Keeps Streams (Stream.perform (native (H := H)) a) := by
  cases a with
  | read =>
    refine keeps_bind (fun s streams => ?_) fun _ => keeps_pure _ _
    unfold Stream.read
    split
    · exact streams
    · exact streams_lift readInput_kept readInput_closed s streams
  | write chunk =>
    refine keeps_bind (fun s streams => ?_) fun _ => keeps_pure _ _
    unfold Stream.write
    split
    · exact streams
    · exact streams_lift (writeChunk_kept chunk) (writeChunk_closed chunk) s streams
  | flush => exact keeps_pure _ _
  | closeRead => exact keeps_bind (fun _ streams => streams) fun _ => keeps_pure _ _
  | closeWrite => exact keeps_bind closeWrite_streams fun _ => keeps_pure _ _
  | close =>
    refine keeps_bind (keeps_bind (fun _ streams => streams) fun _ => closeWrite_streams) fun _ => ?_
    exact keeps_pure _ _
  | closed => exact fun _ streams => streams

theorem close_done :
    Comes Streams (Stream.close (native (H := H) (B := B))) fun s => Done s.2 := by
  have read_closed : Comes Streams (Stream.closeRead : Prog Exn (Stream × World H B) Unit) Streams :=
    comes_keeps fun _ streams => streams
  refine comes_bind read_closed fun _ => ?_
  intro s a t streams ran
  unfold Stream.closeWrite at ran
  split at ran
  · next written =>
    cases ran
    exact tidy_over streams.1.1 (streams.1.2 rfl) (streams.2 written)
  · cases ran
    exact finish_done s.2 () _ streams.1 rfl

theorem streaming_done (reply : Reply H B) :
    Comes (Kept false) (deliverStreamingWith (native (H := H)) closeBody reply) Done := by
  refine comes_bind (sendHeaders_comes reply.head) fun _ => ?_
  split
  · have driven : ∀ script, Comes (fun s : Stream × World H B => s.1 = Stream.new ∧ Kept true s.2)
        (Script.run (Stream.perform native) script) Streams := fun script =>
      comes_weaken (comes_keeps (keeps_script perform_streams script))
        (fun s fresh => ⟨fresh.2, by simp [fresh.1, Stream.new]⟩) fun s streams => streams
    exact comes_object (comes_ensure (driven _) close_done)
  · refine comes_ensure (comes_bind ?_ fun _ => finish_done) (closeBody_done reply.close)
    exact comes_keeps (keeps_script writeChunk_kept _)

def Elsewhere (next : Prog Exn (World H B) (Fused T)) : Prop :=
  ∀ r, Keeps (fun w => w.resp = r) next

section Serve
variable {next : Prog Exn (World H B) (Fused T)}

def deliver (next : Prog Exn (World H B) (Fused T)) (head : Except Exn (Option H)) (_ : B) :
    Prog Exn (World H B) (Fused T) := do
  sendSimple head
  next

theorem elsewhere_keeps (elsewhere : Elsewhere next) (keep : Responder H B → Prop) :
    Keeps (fun w => keep w.resp) next := by
  intro w kept
  have same := elsewhere w.resp w rfl
  dsimp only at same ⊢
  rwa [same]

theorem elsewhere_kept (elsewhere : Elsewhere next) : Keeps (Kept false) next := fun w kept =>
  elsewhere_keeps elsewhere (fun r => Tidy r ∧ (false = true → r.responded = true)) w kept

theorem answered_kept (elsewhere : Elsewhere next) (completes : Bool) (reply : Reply H B) :
    Keeps (Kept false) (answered native completes (deliver next) reply) := by
  unfold answered respond Outcomes.quiet
  split
  · refine keeps_bind (keeps_fromExcept _ _) fun chunks => ?_
    refine keeps_bind (keeps_fromExcept _ _) fun status => ?_
    cases completes with
    | true =>
      refine keeps_bind (sendSimple_kept reply.head) fun _ => ?_
      refine keeps_bind (closeBody_keeps _) fun _ => ?_
      exact keeps_bind (keeps_pure _ ()) fun _ => keeps_pure _ _
    | false =>
      refine keeps_bind (keeps_bind (sendSimple_kept reply.head) fun _ => ?_) fun result => ?_
      · exact elsewhere_kept elsewhere
      · exact keeps_bind (closeBody_keeps _) fun _ => keeps_pure _ _
  · refine keeps_bind (keeps_fromExcept _ _) fun status => ?_
    refine keeps_bind (streaming_kept reply) fun _ => ?_
    refine keeps_bind ?_ fun _ => keeps_pure _ _
    cases completes <;> exact keeps_pure _ ()

theorem pure_done (result : Fused T) : Comes Done (pure result : Prog Exn (World H B) (Fused T)) Done :=
  comes_keeps (keeps_pure _ result)

theorem fromExcept_comes {α : Type} (pre : World H B → Prop) (x : Except Exn α) :
    Comes pre (fromExcept x : Prog Exn (World H B) α) pre :=
  comes_keeps (keeps_fromExcept _ x)

theorem answered_done (elsewhere : Elsewhere next) (completes : Bool) (reply : Reply H B) :
    Comes Unopened (answered native completes (deliver next) reply) Done := by
  have closed : Comes Done (closeBody reply.close : Prog Exn (World H B) Unit) Done :=
    closeBody_done reply.close
  unfold answered respond Outcomes.quiet
  split
  · refine comes_bind (fromExcept_comes Unopened _) fun chunks => ?_
    refine comes_bind (fromExcept_comes Unopened _) fun status => ?_
    cases completes with
    | true =>
      refine comes_bind (sendSimple_done reply.head) fun _ => comes_bind closed fun _ => ?_
      exact comes_bind (fromExcept_comes Done (.ok ())) fun _ => pure_done .notFused
    | false =>
      have delivered : Comes Unopened (deliver next reply.head chunks) Done :=
        comes_bind (sendSimple_done reply.head) fun _ => comes_keeps (elsewhere_keeps elsewhere Over)
      exact comes_bind delivered fun result => comes_bind closed fun _ => pure_done result
  · refine comes_bind (fromExcept_comes Unopened _) fun status => ?_
    have streamed : Comes Unopened (deliverStreamingWith (native (H := H)) closeBody reply) Done :=
      comes_weaken (streaming_done reply) (fun w unopened => ⟨unopened.1, nofun⟩)
        fun w done => done
    refine comes_bind streamed fun _ => ?_
    refine comes_bind ?_ fun _ => pure_done .notFused
    cases completes <;> exact fromExcept_comes Done (.ok ())

theorem serve_done (elsewhere : Elsewhere next) (x : Except Exn (Reply H B)) (hooks : WorkerHooks W) :
    Comes Unopened (plainServe native (fromExcept x) hooks (deliver next)) Done := by
  intro w r t unopened ran
  have kept : Kept false w := ⟨unopened.1, nofun⟩
  cases first : (fromExcept x >>= answered native hooks.completes (deliver next)) w with
  | mk o u =>
    cases o with
    | ok result =>
      have same : plainServe native (fromExcept x) hooks (deliver next) w = (.ok result, u) :=
        rescue_ok first
      rw [same] at ran
      cases ran
      exact comes_bind (fromExcept_comes Unopened x) (answered_done elsewhere hooks.completes) w _ _
        unopened first
    | raised e =>
      have kept' := keeps_bind (keeps_fromExcept (Kept false) x)
        (answered_kept elsewhere hooks.completes) w kept
      rw [first] at kept'
      have same : plainServe native (fromExcept x) hooks (deliver next) w = (do
          abort
          pure .notFused : Prog Exn (World H B) (Fused T)) u := rescue_raised first
      rw [same] at ran
      exact comes_bind abort_done (fun _ => pure_done .notFused) u r t kept' ran
    | stuck =>
      have same : plainServe native (fromExcept x) hooks (deliver next) w = (.stuck, u) :=
        rescue_stuck first
      rw [same] at ran
      cases ran

/-- Whatever the hooks of a request do, they may hang too, the request's response is as it is
    without them, and over before any of them is called, provided the log takes every line. -/
theorem hooks_find_response_over (vm : Vm W) (log : Log) (hooks : WorkerHooks W) (env : Nat)
    (x : Except Exn (Reply H B)) (takes : log.Takes) (elsewhere : Elsewhere next)
    (a : Aside W (World H B)) (w : World H B) (unopened : Unopened w) {r : Fused T} {t : World H B}
    (done : KinoWorker.serve native (fromExcept x) (Outcomes.quiet hooks.completes).reports
      (deliver next) w = (.ok r, t)) :
    Over t.resp ∧ Follows hooks
      (KinoWorkerHooks.serve native vm log (fromExcept x) hooks env (deliver next) (a, w))
      (.ok r, t) ∧
    ∃ tale,
      (KinoWorkerHooks.serve native vm log (fromExcept x) hooks env (deliver next)
        (a, w)).2.1.events = a.events ++ tale ∧
      Tale vm hooks env t a.world x tale := by
  have plain : plainServe native (fromExcept x) hooks (deliver next) w = (.ok r, t) := done
  have out : Over t.resp := serve_done elsewhere x hooks w r t unopened plain
  have tells := serve_tells takes vm env (s := w) (t := w) (rfl : fromExcept x w = fromExcept x w) a
    (congrArg Prod.fst plain)
  rw [plain] at tells
  exact ⟨out, tells⟩

end Serve

def hanging : WorkerHooks Nat := ⟨none, none, some fun _ _ w => (.stuck, w), false⟩

theorem hanging_hook_delays_nobody :
    let served := KinoWorkerHooks.serve native ⟨id, id, fun _ w => w⟩ patient
      (fromExcept (.ok KinoTakenServed.goodClose)) hanging 7 (deliver (T := Nat) (pure .notFused))
      (⟨0, []⟩, fresh)
    Over served.2.2.resp ∧ served.1 = .stuck := by
  have unopened : Unopened fresh := ⟨tidy_new, rfl⟩
  have elsewhere : Elsewhere (pure .notFused : Prog Exn (World Nat String) (Fused Nat)) :=
    fun r => keeps_pure _ _
  have takes : patient.Takes := ⟨fun _ _ => rfl, fun _ _ => rfl⟩
  obtain ⟨ended, follows, -⟩ := hooks_find_response_over ⟨id, id, fun _ w => w⟩ patient hanging 7
    (.ok KinoTakenServed.goodClose) takes elsewhere ⟨0, []⟩ fresh unopened (r := .notFused) rfl
  dsimp only
  rw [follows.state]
  exact ⟨ended, rfl⟩

end KinoResponseOver
