import Kino.Programs

/-!
The worker's request loop (lib/kino/worker.rb) with the stream object it hands to
streaming bodies (lib/kino/stream.rb). `serve` and `deliver_streaming` are written once
over the native calls of a request, so that the same code runs on the pool below, where
only takes and calls are recorded, and on a responder, where the frames are. What is raised
is a StandardError.
-/
namespace KinoWorker
open Programs

inductive Exn where
  | text (message : String)
  | bytes (message : List UInt8)
  deriving DecidableEq, Repr

instance : Coe String Exn := ⟨.text⟩

/-- Whether the body responds to `close`, and what closing it comes to. -/
inductive Close where
  | absent
  | returns
  | raises (e : Exn)
  deriving DecidableEq, Repr

inductive StreamAct (B : Type) where
  | read
  | write (chunk : B)
  | flush
  | closeRead
  | closeWrite
  | close
  | closed
  deriving DecidableEq, Repr

inductive Value (B : Type) where
  | nil
  | text (chunk : Option B)
  | written
  | flag (b : Bool)
  deriving DecidableEq, Repr

/-- What the app returned. `status` is `status.to_i`. `head` is status and headers as
    `build_head` makes them: an error raised while they are turned into strings, or a
    builder, `none` when the http crate will reject it. `toAry` is the joined body of an
    array-like one, `each` and `call` are what the body does when driven. -/
structure Reply (H B : Type) where
  status : Except Exn Int
  head : Except Exn (Option H)
  toAry : Option (Except Exn B)
  each : Option (Script Exn B Unit)
  call : Option (Script Exn (StreamAct B) (Value B))
  close : Close

structure Native (σ H B : Type) where
  sendSimple : Except Exn (Option H) → B → Prog Exn σ Unit
  sendHeaders : Except Exn (Option H) → Prog Exn σ Unit
  writeChunk : B → Prog Exn σ Unit
  finish : Prog Exn σ Unit
  readInput : Prog Exn σ (Option B)
  abort : Prog Exn σ Unit

/-- What the worker tells others of a request: `HookFire.fire` of the hooks, of which
    after_request_complete may be missing, and `Log.exception`. `Log.error`, which all of them
    come to, raises for a message that cannot be put in a line. -/
structure Reports (σ : Type) where
  afterRequestComplete : Option (Int → Prog Exn σ Unit)
  exception : Exn → Prog Exn σ Unit
  onError : Exn → Prog Exn σ Unit

structure Stream where
  readClosed : Bool
  writeClosed : Bool
  deriving DecidableEq, Repr

variable {σ τ H B T : Type}

def Reports.completes (reports : Reports σ) : Bool := reports.afterRequestComplete.isSome

def Reports.fireAfterRequestComplete (reports : Reports σ) (status : Int) : Prog Exn σ Unit :=
  match reports.afterRequestComplete with
  | some fire => fire status
  | none => pure ()

def Native.lifted (native : Native σ H B) : Native (τ × σ) H B where
  sendSimple head chunks := lift (native.sendSimple head chunks)
  sendHeaders head := lift (native.sendHeaders head)
  writeChunk chunk := lift (native.writeChunk chunk)
  finish := lift native.finish
  readInput := lift native.readInput
  abort := lift native.abort

def Reports.lifted (reports : Reports σ) : Reports (τ × σ) where
  afterRequestComplete := reports.afterRequestComplete.map fun fire status => lift (fire status)
  exception e := lift (reports.exception e)
  onError e := lift (reports.onError e)

structure Outcomes where
  afterRequestComplete : Option (Int → Except Exn Unit)
  exception : Exn → Except Exn Unit
  onError : Exn → Except Exn Unit

def Outcomes.reports (outcomes : Outcomes) : Reports σ where
  afterRequestComplete := outcomes.afterRequestComplete.map fun fire status =>
    fromExcept (fire status)
  exception e := fromExcept (outcomes.exception e)
  onError e := fromExcept (outcomes.onError e)

def Outcomes.completes (outcomes : Outcomes) : Bool := outcomes.afterRequestComplete.isSome

def Outcomes.quiet (hook : Bool) : Outcomes where
  afterRequestComplete := if hook then some fun _ => .ok () else none
  exception _ := .ok ()
  onError _ := .ok ()

def Stream.new : Stream := ⟨false, false⟩

def Stream.closeRead : Prog Exn (Stream × σ) Unit :=
  update fun s => ({ s.1 with readClosed := true }, s.2)

def Stream.closeWrite (native : Native σ H B) : Prog Exn (Stream × σ) Unit := fun s =>
  if s.1.writeClosed then (.ok (), s)
  else
    (do
      update fun s => ({ s.1 with writeClosed := true }, s.2)
      lift native.finish : Prog Exn (Stream × σ) Unit) s

def Stream.close (native : Native σ H B) : Prog Exn (Stream × σ) Unit := do
  Stream.closeRead
  Stream.closeWrite native

def Stream.read (native : Native σ H B) : Prog Exn (Stream × σ) (Option B) := fun s =>
  if s.1.readClosed then (.raised "stream is closed for reading", s)
  else lift native.readInput s

def Stream.write (native : Native σ H B) (chunk : B) : Prog Exn (Stream × σ) Unit := fun s =>
  if s.1.writeClosed then (.raised "stream is closed for writing", s)
  else lift (native.writeChunk chunk) s

def Stream.perform (native : Native σ H B) : StreamAct B → Prog Exn (Stream × σ) (Value B)
  | .read => do
    let chunk ← Stream.read native
    pure (.text chunk)
  | .write chunk => do
    Stream.write native chunk
    pure .written
  | .flush => pure .nil
  | .closeRead => do
    Stream.closeRead
    pure .nil
  | .closeWrite => do
    Stream.closeWrite native
    pure .nil
  | .close => do
    Stream.close native
    pure .nil
  | .closed => fun s => (.ok (.flag (s.1.readClosed && s.1.writeClosed)), s)

def closeBody : Close → Prog Exn σ Unit
  | .absent | .returns => pure ()
  | .raises e => raise e

def noEach : Script Exn B Unit := .raises "undefined method 'each'"

def deliverStreamingWith (native : Native σ H B) (close : Close → Prog Exn σ Unit)
    (reply : Reply H B) : Prog Exn σ Unit := do
  native.sendHeaders reply.head
  match reply.call, reply.each with
  | some script, none =>
    withObject Stream.new
      (ensure (script.run (Stream.perform native)) (Stream.close native))
  | _, each =>
    ensure (do
      (each.getD noEach).run native.writeChunk
      native.finish) (close reply.close)

def deliverStreaming (native : Native σ H B) (reply : Reply H B) : Prog Exn σ Unit :=
  deliverStreamingWith native closeBody reply

inductive Fused (T : Type) where
  | notFused
  | next (t : Option T)
  deriving DecidableEq, Repr

/-- The part of `serve` that is rescued, once the app has answered. -/
def respond (native : Native σ H B) (close : Close → Prog Exn σ Unit) (reports : Reports σ)
    (deliver : Except Exn (Option H) → B → Prog Exn σ (Fused T)) (reply : Reply H B) :
    Prog Exn σ (Fused T) :=
  match reply.toAry with
  | some joined => do
    let chunks ← fromExcept joined
    let status ← fromExcept reply.status
    match reports.afterRequestComplete with
    | some fire =>
      native.sendSimple reply.head chunks
      close reply.close
      fire status
      pure .notFused
    | none =>
      let result ← deliver reply.head chunks
      close reply.close
      pure result
  | none => do
    let status ← fromExcept reply.status
    deliverStreamingWith native close reply
    reports.fireAfterRequestComplete status
    pure .notFused

/-- The rescue clause of `serve`. The report comes before the abort, and nothing rescues an
    error of the report itself. -/
def giveUp (native : Native σ H B) (reports : Reports σ) (e : Exn) : Prog Exn σ (Fused T) := do
  reports.exception e
  native.abort
  reports.onError e
  pure .notFused

def serveWith (native : Native σ H B) (close : Close → Prog Exn σ Unit)
    (call : Prog Exn σ (Reply H B)) (reports : Reports σ)
    (deliver : Except Exn (Option H) → B → Prog Exn σ (Fused T)) : Prog Exn σ (Fused T) :=
  rescue (do
      let reply ← call
      respond native close reports deliver reply)
    (giveUp native reports)

def serve (native : Native σ H B) (call : Prog Exn σ (Reply H B)) (reports : Reports σ)
    (deliver : Except Exn (Option H) → B → Prog Exn σ (Fused T)) : Prog Exn σ (Fused T) :=
  serveWith native closeBody call reports deliver

/-- Requests waiting in the order of their queue, and the history of takes and calls.
    `waiting k` is how many more are already queued behind the first one when the k-th
    take is made. -/
structure Pool where
  queue : List Nat
  waiting : Nat → Nat
  takes : Nat
  taken : List Nat
  called : List Nat

def Pool.start (queue : List Nat) (waiting : Nat → Nat) : Pool := ⟨queue, waiting, 0, [], []⟩

/-- `take_batch`: wait for one request, then take what is there, up to `max`. A closed
    and drained queue gives nil. -/
def takeBatch (max : Nat) : Prog Exn Pool (Option (List Nat)) := fun s =>
  match s.queue with
  | [] => (.ok none, s)
  | r :: rest =>
    let more := min (max - 1) (s.waiting s.takes)
    let batch := r :: rest.take more
    (.ok (some batch), { s with
      queue := rest.drop more, takes := s.takes + 1, taken := s.taken ++ batch })

def takeOne : Prog Exn Pool (Option Nat) := fun s =>
  match s.queue with
  | [] => (.ok none, s)
  | r :: rest =>
    (.ok (some r), { s with queue := rest, takes := s.takes + 1, taken := s.taken ++ [r] })

def invalidResponse : Exn := "invalid response: "

def respondSimple (head : Except Exn (Option H)) : Prog Exn σ Unit :=
  match head with
  | .error e => raise e
  | .ok none => raise invalidResponse
  | .ok (some _) => pure ()

/-- What a streaming body meets at the other end: writes and reads may be refused, by a
    stream that is not open or a client that has gone. -/
structure Client (B : Type) where
  write : B → Except Exn Unit
  read : Except Exn (Option B)

/-- The handle of a request as far as the pool goes: a head can be refused, a write or a
    read can fail, and nothing changes the pool. -/
def poolNative (client : Client B) : Native σ H B where
  sendSimple head _ := respondSimple head
  sendHeaders head := respondSimple head
  writeChunk chunk := fromExcept (client.write chunk)
  finish := pure ()
  readInput := fromExcept client.read
  abort := pure ()

abbrev App (H B : Type) := Nat → Except Exn (Reply H B)

def callApp (app : App H B) (env : Nat) : Prog Exn Pool (Reply H B) := do
  update fun s => { s with called := s.called ++ [env] }
  fromExcept (app env)

structure Hooks where
  afterWorkerBoot : Except Exn Unit
  afterRequestComplete : Option (Nat → Int → Except Exn Unit)
  exception : Nat → Exn → Except Exn Unit
  onError : Nat → Exn → Except Exn Unit

def Hooks.completes (hooks : Hooks) : Bool := hooks.afterRequestComplete.isSome

def Hooks.outcomes (hooks : Hooks) (env : Nat) : Outcomes where
  afterRequestComplete := hooks.afterRequestComplete.map fun fire => fire env
  exception := hooks.exception env
  onError := hooks.onError env

def Hooks.quiet (hook : Bool) : Hooks where
  afterWorkerBoot := .ok ()
  afterRequestComplete := if hook then some fun _ _ => .ok () else none
  exception _ _ := .ok ()
  onError _ _ := .ok ()

/-- A worker as its loop sees it: how a request is served, with a take for its delivery to be
    fused with, and how a take is made besides. -/
structure Serving (σ : Type) where
  serve : {T : Type} → Nat → Prog Exn Pool (Fused T) → Prog Exn σ (Fused T)
  take : {α : Type} → Prog Exn Pool α → Prog Exn σ α

def handleOne (worker : Serving σ) (env : Nat) : Prog Exn σ (Option Nat) := do
  let result ← worker.serve env do
    let next ← takeOne
    pure (.next next)
  match result with
  | .notFused => worker.take takeOne
  | .next next => pure next

/-- `each_with_index` over the batch from `index` on, and the take after it. -/
def processFrom (worker : Serving σ) (batchSize size : Nat) :
    Nat → List Nat → Prog Exn σ (Option (List Nat))
  | _, [] => worker.take (takeBatch batchSize)
  | index, env :: rest => do
    let last := index = size - 1
    let result ← worker.serve env do
      if last then
        let next ← takeBatch batchSize
        pure (.next next)
      else pure .notFused
    match result with
    | .next next => if last then pure next else processFrom worker batchSize size (index + 1) rest
    | .notFused => processFrom worker batchSize size (index + 1) rest

def process (worker : Serving σ) (batchSize : Nat) (batch : List Nat) :
    Prog Exn σ (Option (List Nat)) :=
  processFrom worker batchSize batch.length 0 batch

/-- `Worker.run`; the fuel bounds the loop and is enough when it exceeds the queue. -/
def run (worker : Serving σ) (boot : Prog Exn σ Unit) (batchSize fuel : Nat) : Prog Exn σ Unit := do
  boot
  if batchSize ≤ 1 then
    let env ← worker.take takeOne
    loop (handleOne worker) fuel env
  else
    let batch ← worker.take (takeBatch batchSize)
    loop (process worker batchSize) fuel batch

def pooled (app : App H B) (clients : Nat → Client B) (hooks : Hooks) : Serving Pool where
  serve env next :=
    serve (poolNative (clients env)) (callApp app env) (hooks.outcomes env).reports fun head _ => do
      respondSimple head
      next
  take p := p

def runPool (app : App H B) (clients : Nat → Client B) (hooks : Hooks) (batchSize fuel : Nat) :
    Prog Exn Pool Unit :=
  run (pooled app clients hooks) (fromExcept hooks.afterWorkerBoot) batchSize fuel

section Delivery
variable {native : Native σ H B} {keep : σ → Prop}

/-- What the native calls of a delivery keep, the stream object built on them keeps. -/
theorem closeWrite_keeps (finish : Keeps keep native.finish) :
    Keeps (fun s => keep s.2) (Stream.closeWrite native) := by
  intro s kept
  unfold Stream.closeWrite
  split
  · exact kept
  · exact keeps_bind (fun _ kept => kept) (fun _ => keeps_lift finish) s kept

theorem close_keeps (finish : Keeps keep native.finish) :
    Keeps (fun s => keep s.2) (Stream.close native) :=
  keeps_bind (fun _ kept => kept) fun _ => closeWrite_keeps finish

theorem perform_keeps (native : Native σ H B) (keep : σ → Prop) (finish : Keeps keep native.finish)
    (read : Keeps keep native.readInput)
    (write : ∀ chunk, Keeps keep (native.writeChunk chunk)) (a : StreamAct B) :
    Keeps (fun s => keep s.2) (Stream.perform native a) := by
  cases a with
  | read =>
    refine keeps_bind (fun s kept => ?_) fun _ => keeps_pure _ _
    unfold Stream.read
    split
    · exact kept
    · exact keeps_lift read s kept
  | write chunk =>
    refine keeps_bind (fun s kept => ?_) fun _ => keeps_pure _ _
    unfold Stream.write
    split
    · exact kept
    · exact keeps_lift (write chunk) s kept
  | flush => exact keeps_pure _ _
  | closeRead => exact keeps_bind (fun _ kept => kept) fun _ => keeps_pure _ _
  | closeWrite => exact keeps_bind (closeWrite_keeps finish) fun _ => keeps_pure _ _
  | close => exact keeps_bind (close_keeps finish) fun _ => keeps_pure _ _
  | closed => exact fun _ kept => kept

theorem closeWrite_ends (finish : Ends native.finish) : Ends (Stream.closeWrite native) := by
  intro s
  unfold Stream.closeWrite
  split
  · simp
  · exact ends_bind (ends_update _) (fun _ => ends_lift finish) s

theorem close_ends (finish : Ends native.finish) : Ends (Stream.close native) :=
  ends_bind (ends_update _) fun _ => closeWrite_ends finish

theorem perform_ends (native : Native σ H B) (finish : Ends native.finish) (read : Ends native.readInput)
    (write : ∀ chunk, Ends (native.writeChunk chunk)) (a : StreamAct B) :
    Ends (Stream.perform native a) := by
  cases a with
  | read =>
    refine ends_bind (fun s => ?_) fun _ => ends_pure _
    unfold Stream.read
    split
    · simp
    · exact ends_lift read s
  | write chunk =>
    refine ends_bind (fun s => ?_) fun _ => ends_pure _
    unfold Stream.write
    split
    · simp
    · exact ends_lift (write chunk) s
  | flush => exact ends_pure _
  | closeRead => exact ends_bind (ends_update _) fun _ => ends_pure _
  | closeWrite => exact ends_bind (closeWrite_ends finish) fun _ => ends_pure _
  | close => exact ends_bind (close_ends finish) fun _ => ends_pure _
  | closed => exact fun s => by simp [Stream.perform]

theorem closeBody_keeps (c : Close) : Keeps keep (closeBody c : Prog Exn σ Unit) := by
  cases c with
  | absent => exact keeps_pure keep ()
  | returns => exact keeps_pure keep ()
  | raises e => exact keeps_raise keep e

theorem closeBody_ends (c : Close) : Ends (closeBody c : Prog Exn σ Unit) := by
  cases c with
  | absent => exact ends_pure ()
  | returns => exact ends_pure ()
  | raises e => exact ends_raise e

theorem deliverStreaming_keeps {close : Close → Prog Exn σ Unit}
    (headers : ∀ head, Keeps keep (native.sendHeaders head)) (finish : Keeps keep native.finish)
    (read : Keeps keep native.readInput) (write : ∀ chunk, Keeps keep (native.writeChunk chunk))
    (closing : ∀ c, Keeps keep (close c)) (reply : Reply H B) :
    Keeps keep (deliverStreamingWith native close reply) := by
  refine keeps_bind (headers reply.head) fun _ => ?_
  split
  · have quiet := perform_keeps native keep finish read write
    exact keeps_object (keeps_ensure (keeps_script quiet _) (close_keeps finish))
  · refine keeps_ensure (keeps_bind ?_ fun _ => finish) (closing _)
    exact keeps_script write _

/-- An error that cannot be reported leaves the request as it was. -/
theorem giveUp_unreported (native : Native σ H B) {outcomes : Outcomes} {e e' : Exn}
    (unreported : outcomes.exception e = .error e') (s : σ) :
    (giveUp native outcomes.reports e : Prog Exn σ (Fused T)) s = (.raised e', s) := by
  simp only [giveUp, Outcomes.reports, unreported, fromExcept_error_bind]

/-- What follows the abort does not touch the request. -/
theorem giveUp_reported (native : Native σ H B) {outcomes : Outcomes} {e : Exn} {u : Unit}
    (reported : outcomes.exception e = .ok u) (s : σ) :
    ((giveUp native outcomes.reports e : Prog Exn σ (Fused T)) s).2 = (native.abort s).2 ∧
      (((giveUp native outcomes.reports e : Prog Exn σ (Fused T)) s).1 = .stuck ↔
        (native.abort s).1 = .stuck) := by
  have after : (giveUp native outcomes.reports e : Prog Exn σ (Fused T)) s = (do
      native.abort
      fromExcept (outcomes.onError e)
      pure .notFused : Prog Exn σ (Fused T)) s := by
    simp only [giveUp, Outcomes.reports, reported, fromExcept_ok_bind]
  rw [after]
  cases aborted : native.abort s with
  | mk o t =>
    cases o with
    | raised e' => simp [bind_raised aborted]
    | stuck => simp [bind, aborted]
    | ok a =>
      rw [bind_ok aborted]
      cases outcomes.onError e <;> simp [fromExcept, bind]

end Delivery

section Erasure
variable {view : τ → σ} {native' : Native τ H B} {native : Native σ H B}

structure Erasing (view : τ → σ) (native' : Native τ H B) (native : Native σ H B) : Prop where
  sendSimple : ∀ head chunks, Erases view (native'.sendSimple head chunks)
    (native.sendSimple head chunks)
  sendHeaders : ∀ head, Erases view (native'.sendHeaders head) (native.sendHeaders head)
  writeChunk : ∀ chunk, Erases view (native'.writeChunk chunk) (native.writeChunk chunk)
  finish : Erases view native'.finish native.finish
  readInput : Erases view native'.readInput native.readInput
  abort : Erases view native'.abort native.abort

theorem closeWrite_erases (erasing : Erasing view native' native) :
    Erases (fun s : Stream × τ => (s.1, view s.2)) (Stream.closeWrite native')
      (Stream.closeWrite native) := by
  intro s
  unfold Stream.closeWrite
  cases closed : s.1.writeClosed with
  | true => rfl
  | false =>
    have marked : Erases (fun s : Stream × τ => (s.1, view s.2))
        (update fun s => ({ s.1 with writeClosed := true }, s.2) : Prog Exn (Stream × τ) Unit)
        (update fun s => ({ s.1 with writeClosed := true }, s.2) : Prog Exn (Stream × σ) Unit) :=
      erases_update fun _ => rfl
    exact erases_bind marked (fun _ => erases_beside erasing.finish) s

theorem closeRead_erases :
    Erases (fun s : Stream × τ => (s.1, view s.2)) Stream.closeRead Stream.closeRead :=
  erases_update fun _ => rfl

theorem close_erases (erasing : Erasing view native' native) :
    Erases (fun s : Stream × τ => (s.1, view s.2)) (Stream.close native') (Stream.close native) :=
  erases_bind closeRead_erases fun _ => closeWrite_erases erasing

theorem perform_erases (erasing : Erasing view native' native) (a : StreamAct B) :
    Erases (fun s : Stream × τ => (s.1, view s.2)) (Stream.perform native' a)
      (Stream.perform native a) := by
  cases a with
  | read =>
    have reads : Erases (fun s : Stream × τ => (s.1, view s.2)) (Stream.read native')
        (Stream.read native) := by
      intro s
      unfold Stream.read
      cases closed : s.1.readClosed with
      | true => rfl
      | false => exact erases_beside erasing.readInput s
    exact erases_bind reads fun chunk => erases_pure _
  | write chunk =>
    have writes : Erases (fun s : Stream × τ => (s.1, view s.2)) (Stream.write native' chunk)
        (Stream.write native chunk) := by
      intro s
      unfold Stream.write
      cases closed : s.1.writeClosed with
      | true => rfl
      | false => exact erases_beside (erasing.writeChunk chunk) s
    exact erases_bind writes fun _ => erases_pure _
  | flush => exact erases_pure _
  | closeRead => exact erases_bind closeRead_erases fun _ => erases_pure _
  | closeWrite => exact erases_bind (closeWrite_erases erasing) fun _ => erases_pure _
  | close => exact erases_bind (close_erases erasing) fun _ => erases_pure _
  | closed => exact fun _ => rfl

theorem deliverStreaming_erases (erasing : Erasing view native' native)
    {close' : Close → Prog Exn τ Unit} {close : Close → Prog Exn σ Unit}
    (closing : ∀ c, Erases view (close' c) (close c)) (reply : Reply H B) :
    Erases view (deliverStreamingWith native' close' reply)
      (deliverStreamingWith native close reply) := by
  apply erases_bind (erasing.sendHeaders reply.head)
  intro _
  have driven : ∀ each : Option (Script Exn B Unit), Erases view
      (ensure (do (each.getD noEach).run native'.writeChunk; native'.finish) (close' reply.close))
      (ensure (do (each.getD noEach).run native.writeChunk; native.finish) (close reply.close)) := by
    intro each
    apply erases_ensure
    · exact erases_bind (erases_script erasing.writeChunk _) fun _ => erasing.finish
    · exact closing reply.close
  cases reply.call with
  | none => exact driven reply.each
  | some script =>
    cases reply.each with
    | some each => exact driven (some each)
    | none =>
      apply erases_object
      apply erases_ensure
      · exact erases_script (perform_erases erasing) script
      · exact close_erases erasing

theorem erases_closeBody (c : Close) :
    Erases view (closeBody c : Prog Exn τ Unit) (closeBody c : Prog Exn σ Unit) := by
  cases c with
  | absent => exact erases_pure ()
  | returns => exact erases_pure ()
  | raises e => exact erases_raise e

structure Telling (view : τ → σ) (reports' : Reports τ) (reports : Reports σ) : Prop where
  missing : reports'.afterRequestComplete = none ↔ reports.afterRequestComplete = none
  complete : ∀ fire' ∈ reports'.afterRequestComplete, ∀ fire ∈ reports.afterRequestComplete,
    ∀ status, Erases view (fire' status) (fire status)
  exception : ∀ e, Erases view (reports'.exception e) (reports.exception e)
  onError : ∀ e, Erases view (reports'.onError e) (reports.onError e)

theorem respond_erases (erasing : Erasing view native' native) {reports' : Reports τ}
    {reports : Reports σ} (telling : Telling view reports' reports)
    {close' : Close → Prog Exn τ Unit} {close : Close → Prog Exn σ Unit}
    (closing : ∀ c, Erases view (close' c) (close c))
    {deliver' : Except Exn (Option H) → B → Prog Exn τ (Fused T)}
    {deliver : Except Exn (Option H) → B → Prog Exn σ (Fused T)}
    (delivers : ∀ head chunks, Erases view (deliver' head chunks) (deliver head chunks))
    (reply : Reply H B) :
    Erases view (respond native' close' reports' deliver' reply)
      (respond native close reports deliver reply) := by
  unfold respond
  have complete := telling.complete
  cases reply.toAry with
  | some joined =>
    apply erases_bind (erases_fromExcept joined)
    intro chunks
    apply erases_bind (erases_fromExcept reply.status)
    intro status
    cases set' : reports'.afterRequestComplete with
    | none =>
      rw [telling.missing.mp set']
      apply erases_bind (delivers reply.head chunks)
      intro result
      exact erases_bind (closing reply.close) fun _ => erases_pure _
    | some fire' =>
      cases set : reports.afterRequestComplete with
      | none => simp [telling.missing.mpr set] at set'
      | some fire =>
        apply erases_bind (erasing.sendSimple reply.head chunks)
        intro _
        apply erases_bind (closing reply.close)
        intro _
        exact erases_bind (complete fire' set' fire set status) fun _ => erases_pure _
  | none =>
    apply erases_bind (erases_fromExcept reply.status)
    intro status
    apply erases_bind (deliverStreaming_erases erasing closing reply)
    intro _
    refine erases_bind ?_ fun _ => erases_pure _
    unfold Reports.fireAfterRequestComplete
    cases set' : reports'.afterRequestComplete with
    | none =>
      rw [telling.missing.mp set']
      exact erases_pure ()
    | some fire' =>
      cases set : reports.afterRequestComplete with
      | none => simp [telling.missing.mpr set] at set'
      | some fire => exact complete fire' set' fire set status

theorem serve_erases (erasing : Erasing view native' native) {reports' : Reports τ}
    {reports : Reports σ} (telling : Telling view reports' reports)
    {close' : Close → Prog Exn τ Unit} {close : Close → Prog Exn σ Unit}
    (closing : ∀ c, Erases view (close' c) (close c)) {call' : Prog Exn τ (Reply H B)}
    {call : Prog Exn σ (Reply H B)} (calls : Erases view call' call)
    {deliver' : Except Exn (Option H) → B → Prog Exn τ (Fused T)}
    {deliver : Except Exn (Option H) → B → Prog Exn σ (Fused T)}
    (delivers : ∀ head chunks, Erases view (deliver' head chunks) (deliver head chunks)) :
    Erases view (serveWith native' close' call' reports' deliver')
      (serveWith native close call reports deliver) := by
  apply erases_rescue
  · apply erases_bind calls
    intro reply
    exact respond_erases erasing telling closing delivers reply
  · intro e
    apply erases_bind (telling.exception e)
    intro _
    apply erases_bind erasing.abort
    intro _
    exact erases_bind (telling.onError e) fun _ => erases_pure _

theorem lifted_erasing (native : Native σ H B) :
    Erasing Prod.snd (native.lifted : Native (τ × σ) H B) native := by
  constructor
  · exact fun head chunks => erases_lift (native.sendSimple head chunks)
  · exact fun head => erases_lift (native.sendHeaders head)
  · exact fun chunk => erases_lift (native.writeChunk chunk)
  · exact erases_lift native.finish
  · exact erases_lift native.readInput
  · exact erases_lift native.abort

theorem lifted_telling (reports : Reports σ) :
    Telling Prod.snd (reports.lifted : Reports (τ × σ)) reports := by
  constructor
  · simp [Reports.lifted]
  · intro fire' set' fire set status
    simp only [Reports.lifted, Option.mem_def, Option.map_eq_some_iff] at set set'
    obtain ⟨fire'', set'', rfl⟩ := set'
    rw [set] at set''
    cases set''
    exact erases_lift (fire status)
  · exact fun e => erases_lift (reports.exception e)
  · exact fun e => erases_lift (reports.onError e)

theorem deliverStreaming_lifted (native : Native σ H B) (reply : Reply H B) :
    deliverStreamingWith (native.lifted : Native (τ × σ) H B) closeBody reply =
      lift (deliverStreamingWith native closeBody reply) := by
  refine lift_of (deliverStreaming_erases (lifted_erasing native) erases_closeBody reply) ?_
  intro a
  exact deliverStreaming_keeps (fun head s kept => kept) (fun s kept => kept)
    (fun s kept => kept) (fun chunk s kept => kept) closeBody_keeps reply

theorem closeBody_lifted (c : Close) :
    (closeBody c : Prog Exn (τ × σ) Unit) = lift (closeBody c) := by
  cases c <;> rfl

end Erasure

end KinoWorker
