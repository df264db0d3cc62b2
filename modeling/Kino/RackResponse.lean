import Kino.StreamEnd
import Kino.HeaderEnv

/-!
From what a Rack app returns to what hyper is given to send: `build_head` and `respond_simple`
(ext/kino/src/request.rs), `join_chunks` (lib/kino/worker.rb), and `branded` with the answer of
handle_request (ext/kino/src/server.rs), around `serve` and the responder. `room` is the
limit the http crate sets to its header map.
-/
namespace KinoRackResponse
open Programs Channels KinoResponder KinoWorker KinoStreamEnd
open KinoHeaderEnv (HeaderName nameChar ascii)
open KinoEnvStrings (Bytes)

/-! The http crate. -/

def lowered (b : UInt8) : Char := (Char.ofNat b.toNat).toLower

def nameText (bytes : Bytes) : String := String.ofList (bytes.map lowered)

def maxHeaderNameLen : Nat := 65535

/-- `HeaderName::from_bytes`. -/
def headerName (bytes : Bytes) : Option HeaderName :=
  if whole : nameText bytes ≠ "" ∧ (nameText bytes).toList.all nameChar = true ∧
      bytes.length ≤ maxHeaderNameLen then
    some ⟨nameText bytes, whole.1, whole.2.1⟩
  else none

def valueByte (b : UInt8) : Bool := decide (32 ≤ b.toNat ∧ b.toNat ≠ 127 ∨ b.toNat = 9)

abbrev HeaderValue := { bytes : Bytes // bytes.all valueByte = true }

def headerValue (bytes : Bytes) : Option HeaderValue :=
  if whole : bytes.all valueByte = true then some ⟨bytes, whole⟩ else none

/-- `headers` are in the order in which they were appended. -/
structure Head where
  status : Nat
  headers : List (HeaderName × HeaderValue)
  deriving DecidableEq

/-- `Response::builder().status(status)`; `none` is a builder that has refused something. -/
def builder (status : UInt16) : Option Head :=
  if 100 ≤ status.toNat ∧ status.toNat ≤ 999 then some ⟨status.toNat, []⟩ else none

/-! The app's reply. -/

/-- A Ruby object as `coerce_str` meets it: a String, or anything else with what `to_s` on it
    comes to. -/
inductive Item where
  | string (bytes : Bytes)
  | other (toS : Except Exn Bytes)

def coerceStr : Item → Except Exn Bytes
  | .string bytes => .ok bytes
  | .other toS => toS

inductive Field where
  | one (item : Item)
  | array (items : List Item)

inductive Body where
  | array (toAry : Except Exn (List (Except Exn Bytes)))
  | enumerable (each : Script Exn Bytes Unit)
  | callable (call : Script Exn (StreamAct Bytes) (Value Bytes))

/-- `status` is `status.to_i` as a u16, `headers` the entries of the Hash in its order. -/
structure RackReply where
  status : Except Exn UInt16
  headers : List (Item × Field)
  body : Body
  close : Close

def joinChunks : List (Except Exn Bytes) → Except Exn Bytes
  | [] => .ok []
  | [chunk] => chunk
  | chunks => chunks.foldlM (fun joined chunk => do
      let bytes ← chunk
      pure (joined ++ bytes)) []

section Room
variable (room : List (HeaderName × HeaderValue) → Bool)

/-- `Builder::header`: it appends, and keeps the first refusal. -/
def header (b : Option Head) (name value : Bytes) : Option Head := do
  let head ← b
  let name ← headerName name
  let value ← headerValue value
  if room head.headers then some { head with headers := head.headers ++ [(name, value)] } else none

def take (b : Option Head) (entry : Item × Field) : Except Exn (Option Head) := do
  let name ← coerceStr entry.1
  match entry.2 with
  | .array items => items.foldlM (fun b item => do
      let value ← coerceStr item
      pure (header room b name value)) b
  | .one item => do
    let value ← coerceStr item
    pure (header room b name value)

def buildHead (status : UInt16) (headers : List (Item × Field)) : Except Exn (Option Head) :=
  headers.foldlM (take room) (builder status)

structure HyperResponse where
  head : Head
  full : Bytes
  deriving DecidableEq

def RackReply.toReply (r : RackReply) : Reply HyperResponse Bytes where
  status := r.status.map fun status => (status.toNat : Int)
  head := do
    let status ← r.status
    let built ← buildHead room status r.headers
    pure (built.map fun head => ⟨head, []⟩)
  toAry := match r.body with
    | .array toAry => some (do
        let chunks ← toAry
        joinChunks chunks)
    | _ => none
  each := match r.body with
    | .enumerable each => some each
    | _ => none
  call := match r.body with
    | .callable call => some call
    | _ => none
  close := r.close

def withBody (chunks : Bytes) (head : Except Exn (Option HyperResponse)) :
    Except Exn (Option HyperResponse) :=
  head.map fun built => built.map fun response => { response with full := chunks }

def respondSimple (head : Except Exn (Option HyperResponse)) (chunks : Bytes) :
    Prog Exn (World HyperResponse Bytes) Unit :=
  sendSimple (withBody chunks head)

def calls : Native (World HyperResponse Bytes) HyperResponse Bytes :=
  { native with sendSimple := respondSimple }

/-! What the client gets. -/

structure Answer where
  status : Nat
  headers : HeaderName → List Bytes
  body : Bytes

def getAll (headers : List (HeaderName × HeaderValue)) (name : HeaderName) : List Bytes :=
  (headers.filter fun h => h.1 = name).map fun h => h.2.val

def serverName : HeaderName := ⟨"server", by decide, by decide⟩

def branded (headers : HeaderName → List Bytes) (name : HeaderName) : List Bytes :=
  if name = serverName ∧ headers name = [] then [ascii "Kino"] else headers name

def contentType : HeaderName := ⟨"content-type", by decide, by decide⟩

def plainAnswer (status : Nat) (message : String) : Answer :=
  ⟨status, branded fun name => if name = contentType then [ascii "text/plain"] else [],
    ascii message⟩

def frameBytes : FrameResult Bytes → Bytes
  | .data chunk => chunk
  | .error _ => []

def answer (w : World HyperResponse Bytes) : Option Answer :=
  match w.resp.head.value with
  | some (.full response) =>
    some ⟨response.head.status, branded (getAll response.head.headers), response.full⟩
  | some (.stream response) =>
    if w.resp.frames.senders = 0 ∧ (sentFrames w).getLast? ≠ some abandonedFrame then
      some ⟨response.head.status, branded (getAll response.head.headers),
        (sentFrames w).flatMap frameBytes⟩
    else none
  | some (.plain status message) => some (plainAnswer status message)
  | none => if w.resp.head.sender then none else some (plainAnswer 500 "Internal Server Error\n")

/-! What a reply means, without builder and responder. -/

def listed : Field → List Item
  | .one item => [item]
  | .array items => items

def pairsOf (entry : Item × Field) : Except Exn (List (Bytes × Bytes)) := do
  let name ← coerceStr entry.1
  let values ← (listed entry.2).mapM coerceStr
  pure (values.map fun value => (name, value))

def pairs (headers : List (Item × Field)) : Except Exn (List (Bytes × Bytes)) := do
  let all ← headers.mapM pairsOf
  pure all.flatten

def parsed (pair : Bytes × Bytes) : Option (HeaderName × HeaderValue) := do
  let name ← headerName pair.1
  let value ← headerValue pair.2
  pure (name, value)

def fits : List (HeaderName × HeaderValue) → List (HeaderName × HeaderValue) → Bool
  | _, [] => true
  | before, h :: rest => room before && fits (before ++ [h]) rest

def meant (r : RackReply) : Option Head := do
  let status ← r.status.toOption
  let all ← (pairs r.headers).toOption
  let headers ← all.mapM parsed
  if 100 ≤ status.toNat ∧ status.toNat ≤ 999 ∧ fits room [] headers = true then
    some ⟨status.toNat, headers⟩
  else none

theorem items_fold (name : Bytes) (items : List Item) (b : Option Head) :
    (items.foldlM (fun b item => do
      let value ← coerceStr item
      pure (header room b name value)) b : Except Exn (Option Head)) =
    (items.mapM coerceStr).map fun values => values.foldl (fun b value => header room b name value) b := by
  induction items generalizing b with
  | nil => rfl
  | cons item items ih =>
    rw [List.foldlM_cons, List.mapM_cons]
    cases value : coerceStr item with
    | error e => rfl
    | ok bytes =>
      have rest := ih (header room b name bytes)
      simp only [bind, Except.bind, pure, Except.pure] at rest ⊢
      rw [rest]
      cases items.mapM coerceStr <;> rfl

theorem take_pairs (entry : Item × Field) (b : Option Head) :
    take room b entry = (pairsOf entry).map fun ps =>
      ps.foldl (fun b pair => header room b pair.1 pair.2) b := by
  unfold take pairsOf
  cases coerceStr entry.1 with
  | error e => rfl
  | ok name =>
    have folded := items_fold room name (listed entry.2) b
    cases field : entry.2 with
    | one item =>
      simp only [listed, bind, Except.bind, pure, Except.pure, List.mapM_cons, List.mapM_nil]
      cases coerceStr item <;> rfl
    | array items =>
      rw [field] at folded
      refine folded.trans ?_
      simp only [listed, bind, Except.bind, pure, Except.pure]
      cases items.mapM coerceStr with
      | error e => rfl
      | ok values => simp [Except.map, List.foldl_map]

theorem buildHead_pairs (headers : List (Item × Field)) (b : Option Head) :
    headers.foldlM (take room) b = (pairs headers).map fun ps =>
      ps.foldl (fun b pair => header room b pair.1 pair.2) b := by
  induction headers generalizing b with
  | nil => rfl
  | cons entry headers ih =>
    rw [List.foldlM_cons, take_pairs]
    unfold pairs
    rw [List.mapM_cons]
    cases pairsOf entry with
    | error e => rfl
    | ok first =>
      have rest := ih (first.foldl (fun b pair => header room b pair.1 pair.2) b)
      unfold pairs at rest
      simp only [bind, Except.bind, pure, Except.pure, Except.map] at rest ⊢
      rw [rest]
      cases headers.mapM pairsOf with
      | error e => rfl
      | ok more => simp [List.foldl_append]

theorem header_refused (ps : List (Bytes × Bytes)) :
    ps.foldl (fun b pair => header room b pair.1 pair.2) none = none := by
  induction ps with
  | nil => rfl
  | cons pair ps ih => exact ih

theorem header_parsed (head : Head) (pair : Bytes × Bytes) :
    header room (some head) pair.1 pair.2 = (parsed pair).bind fun h =>
      if room head.headers then some { head with headers := head.headers ++ [h] } else none := by
  unfold header parsed
  cases headerName pair.1 with
  | none => rfl
  | some name => cases headerValue pair.2 <;> rfl

theorem header_fold (ps : List (Bytes × Bytes)) (status : Nat)
    (before : List (HeaderName × HeaderValue)) :
    ps.foldl (fun b pair => header room b pair.1 pair.2) (some ⟨status, before⟩) =
      (ps.mapM parsed).bind fun headers =>
        if fits room before headers then some ⟨status, before ++ headers⟩ else none := by
  induction ps generalizing before with
  | nil => simp [fits]
  | cons pair ps ih =>
    rw [List.foldl_cons, List.mapM_cons, header_parsed]
    cases parsed pair with
    | none => exact header_refused room ps
    | some h =>
      cases taken : room before with
      | false =>
        simp only [Option.bind_some, Bool.false_eq_true, if_false, header_refused]
        cases ps.mapM parsed <;> simp [fits, taken]
      | true =>
        simp only [Option.bind_some, if_true, ih]
        cases ps.mapM parsed <;> simp [fits, taken]

theorem head_meant (r : RackReply) :
    (r.toReply room).head.toOption.join = (meant room r).map fun head => ⟨head, []⟩ := by
  unfold RackReply.toReply meant buildHead
  cases r.status with
  | error e => rfl
  | ok status =>
    simp only [bind, Except.bind, Except.toOption, Option.bind_some, pure, Except.pure]
    rw [buildHead_pairs]
    cases pairs r.headers with
    | error e => rfl
    | ok ps =>
      simp only [Except.map, Option.bind_some, Option.join_some]
      unfold builder
      by_cases valid : 100 ≤ status.toNat ∧ status.toNat ≤ 999
      · rw [if_pos valid, header_fold]
        cases ps.mapM parsed with
        | none => rfl
        | some headers => simp [valid]
      · rw [if_neg valid, header_refused]
        cases ps.mapM parsed with
        | none => rfl
        | some headers =>
          have refused : ¬ (100 ≤ status.toNat ∧ status.toNat ≤ 999 ∧
              fits room [] headers = true) := fun all => valid ⟨all.1, all.2.1⟩
          simp only [Option.bind_some, if_neg refused]

/-! The reply through the worker and the responder. -/

def errorAnswer : Answer := plainAnswer 500 "Internal Server Error\n"

def answerOf : Option Head → Bytes → Answer
  | some head, body => ⟨head.status, branded (getAll head.headers), body⟩
  | none, _ => errorAnswer

structure Waiting (w : World HyperResponse Bytes) : Prop where
  resp : w.resp = new
  seen : w.seen = []

variable {T : Type} {w w1 : World HyperResponse Bytes}

theorem abort_waiting (waiting : Waiting w) : answer (abort w).2 = some errorAnswer := by
  have tried : respond500IfUnsent w.resp =
      some { w.resp with responded := true, headTx := false, head := ⟨some response500, false, true⟩ } := by
    rw [waiting.resp]
    rfl
  have aborted : abort w = (.ok (), { w with
      resp := { w.resp with
        responded := true, headTx := false, head := ⟨some response500, false, true⟩ } }) := by
    unfold abort
    cases w.client <;> simp [await, tried]
  rw [aborted]
  rfl

/-- The log takes the message of every error. -/
def Told (outcomes : Outcomes) : Prop := ∀ e, ∃ u, outcomes.exception e = .ok u

variable {outcomes : Outcomes}

theorem giveUp_answers (told : Told outcomes) (e : Exn) {given : Answer}
    (answered : answer (abort w).2 = some given) :
    answer (giveUp (T := T) calls outcomes.reports e w).2 = some given := by
  obtain ⟨u, reported⟩ := told e
  rw [(giveUp_reported calls reported w).1]
  exact answered

theorem giveUp_waiting (told : Told outcomes) (e : Exn) (waiting : Waiting w) :
    answer (giveUp (T := T) calls outcomes.reports e w).2 = some errorAnswer :=
  giveUp_answers told e (abort_waiting waiting)

theorem rescue_waiting {p : Prog Exn (World HyperResponse Bytes) (Fused T)} {e : Exn}
    (told : Told outcomes) (raised : p w = (.raised e, w)) (waiting : Waiting w) :
    answer (rescue p (giveUp calls outcomes.reports) w).2 = some errorAnswer := by
  rw [rescue_raised raised]
  exact giveUp_waiting told e waiting

theorem rescue_leaves {p : Prog Exn (World HyperResponse Bytes) (Fused T)} (left : (p w).2 = w1)
    (responded : w1.resp.responded = true) (closed : w1.resp.bodyTx = false) :
    (rescue p (giveUp calls outcomes.reports) w).2 = w1 := by
  have nothing : ∀ e : Exn, (giveUp (T := T) calls outcomes.reports e w1).2 = w1 := by
    intro e
    cases reported : outcomes.exception e with
    | error e' => rw [giveUp_unreported calls reported w1]
    | ok u =>
      have aborted : calls.abort w1 = (.ok (), w1) := abort_closed responded closed
      rw [(giveUp_reported calls reported w1).1, aborted]
  have out : p w = ((p w).1, w1) := Prod.ext rfl left
  unfold rescue
  rw [out]
  cases (p w).1 with
  | ok t => rfl
  | raised e => exact nothing e
  | stuck => rfl

theorem rescue_same {p q : Prog Exn (World HyperResponse Bytes) (Fused T)} (same : p w = q w) :
    rescue p (giveUp calls outcomes.reports) w = rescue q (giveUp calls outcomes.reports) w := by
  unfold rescue
  rw [same]

/-- What the caller of `serve` does with a complete body: it responds, and then `next`. -/
def deliver (next : Prog Exn (World HyperResponse Bytes) (Fused T))
    (head : Except Exn (Option HyperResponse)) (chunks : Bytes) :
    Prog Exn (World HyperResponse Bytes) (Fused T) := do
  calls.sendSimple head chunks
  next

theorem respondSimple_out {head : Except Exn (Option HyperResponse)} {response : HyperResponse}
    (waiting : Waiting w) (built : head.toOption.join = some response) (chunks : Bytes) :
    respondSimple head chunks w = (.ok (), { w with
      resp := { w.resp with
        responded := true, headTx := false
        head := ⟨some (.full { response with full := chunks }), false, true⟩ } }) := by
  have whole : head = .ok (some response) := by
    cases head with
    | error e => cases built
    | ok out => exact congrArg Except.ok built
  rw [whole]
  unfold respondSimple sendSimple withBody
  simp only [Except.map, Option.map_some]
  rw [waiting.resp]
  rfl

theorem respondSimple_raises {head : Except Exn (Option HyperResponse)}
    (refused : head.toOption.join = none) (chunks : Bytes) (w : World HyperResponse Bytes) :
    ∃ e, respondSimple head chunks w = (.raised e, w) := by
  cases head with
  | error e => exact ⟨e, rfl⟩
  | ok out =>
    cases out with
    | none => exact ⟨_, rfl⟩
    | some response => cases refused

def Leaves {α : Type} (p : Prog Exn (World HyperResponse Bytes) α) : Prop :=
  ∀ w, Keeps (fun v => v = w) p

theorem closeBody_leaves (close : Close) : Leaves (closeBody close) := by
  intro w v same
  cases close <;> exact same

theorem fromExcept_leaves {α : Type} (x : Except Exn α) : Leaves (fromExcept x) :=
  fun _ => keeps_fromExcept _ x

/-- What `serve` does with an array body that was joined. -/
def complete (r : Reply HyperResponse Bytes) (outcomes : Outcomes) (code : Int)
    (next : Prog Exn (World HyperResponse Bytes) (Fused T)) (chunks : Bytes) :
    Prog Exn (World HyperResponse Bytes) (Fused T) :=
  match outcomes.afterRequestComplete with
  | some fire => do
    calls.sendSimple r.head chunks
    closeBody r.close
    fromExcept (fire code)
    pure .notFused
  | none => do
    let result ← deliver next r.head chunks
    closeBody r.close
    pure result

theorem complete_out {r : Reply HyperResponse Bytes} {code : Int}
    {next : Prog Exn (World HyperResponse Bytes) (Fused T)} {chunks : Bytes}
    (untouched : Leaves next) (sent : respondSimple r.head chunks w = (.ok (), w1)) :
    (complete r outcomes code next chunks w).2 = w1 := by
  unfold complete
  cases outcomes.afterRequestComplete with
  | some fire =>
    dsimp only
    rw [bind_ok (p := calls.sendSimple r.head chunks) sent]
    refine keeps_bind (closeBody_leaves r.close w1) (fun _ => ?_) w1 rfl
    exact keeps_bind (fromExcept_leaves (fire code) w1) fun _ => keeps_pure _ _
  | none =>
    have sent_first : deliver next r.head chunks w = next w1 :=
      bind_ok (p := calls.sendSimple r.head chunks) sent
    dsimp only
    rw [bind_same sent_first]
    exact keeps_bind (untouched w1)
      (fun _ => keeps_bind (closeBody_leaves r.close w1) fun _ => keeps_pure _ _) w1 rfl

theorem complete_raises {r : Reply HyperResponse Bytes} {code : Int}
    {next : Prog Exn (World HyperResponse Bytes) (Fused T)} {chunks : Bytes} {e : Exn}
    (refused : respondSimple r.head chunks w = (.raised e, w)) :
    complete r outcomes code next chunks w = (.raised e, w) := by
  unfold complete
  cases outcomes.afterRequestComplete with
  | some fire => exact bind_raised (p := calls.sendSimple r.head chunks) refused
  | none =>
    apply bind_raised
    exact bind_raised (p := calls.sendSimple r.head chunks) refused

theorem respond_complete {r : Reply HyperResponse Bytes} {code : Int} {chunks : Bytes}
    (joined : r.toAry = some (.ok chunks)) (status : r.status = .ok code)
    (next : Prog Exn (World HyperResponse Bytes) (Fused T)) :
    respond calls closeBody outcomes.reports (deliver next) r =
      complete r outcomes code next chunks := by
  unfold respond complete Outcomes.reports
  simp only [joined, status, ok_then]
  cases outcomes.afterRequestComplete <;> rfl

theorem serve_rescues (r : Reply HyperResponse Bytes)
    (next : Prog Exn (World HyperResponse Bytes) (Fused T)) :
    serve calls (pure r) outcomes.reports (deliver next) w =
      rescue (respond calls closeBody outcomes.reports (deliver next) r)
        (giveUp calls outcomes.reports) w :=
  rescue_same (bind_ok (pure_run _ w))

section Reply
variable {room} {r : RackReply}

variable (room) in
theorem status_refused {e : Exn} (status : r.status = .error e) :
    (r.toReply room).status = .error e ∧ meant room r = none := by
  simp only [RackReply.toReply, meant, status]
  exact ⟨rfl, rfl⟩

theorem status_accepted {code : UInt16} (status : r.status = .ok code) :
    (r.toReply room).status = .ok (code.toNat : Int) := by
  simp only [RackReply.toReply, status]
  rfl

theorem not_built (built : (r.toReply room).head.toOption.join = none) : meant room r = none := by
  rw [head_meant] at built
  simpa using built

theorem built_meant {response : HyperResponse}
    (built : (r.toReply room).head.toOption.join = some response) :
    ∃ head, meant room r = some head ∧ response = ⟨head, []⟩ := by
  rw [head_meant] at built
  obtain ⟨head, found, same⟩ := Option.map_eq_some_iff.mp built
  exact ⟨head, found, same.symm⟩

end Reply

theorem array_answer (r : RackReply) {toAry : Except Exn (List (Except Exn Bytes))}
    (body : r.body = .array toAry) (told : Told outcomes)
    {next : Prog Exn (World HyperResponse Bytes) (Fused T)} (untouched : Leaves next)
    (waiting : Waiting w) :
    answer (serve calls (pure (r.toReply room)) outcomes.reports (deliver next) w).2 =
      some (match toAry.bind joinChunks with
        | .ok bytes => answerOf (meant room r) bytes
        | .error _ => errorAnswer) := by
  have joining : (r.toReply room).toAry = some (toAry.bind joinChunks) := by
    simp only [RackReply.toReply, body]
    rfl
  rw [serve_rescues]
  cases joined : toAry.bind joinChunks with
  | error e =>
    have raised : respond calls closeBody outcomes.reports (deliver next) (r.toReply room) w =
        (.raised e, w) := by
      unfold respond
      simp only [joining, joined, error_then, raise_run]
    exact rescue_waiting told raised waiting
  | ok bytes =>
    rw [joined] at joining
    cases status : r.status with
    | error e =>
      obtain ⟨refused, nothing⟩ := status_refused room status
      have raised : respond calls closeBody outcomes.reports (deliver next) (r.toReply room) w =
          (.raised e, w) := by
        unfold respond
        simp only [joining, refused, ok_then, error_then, raise_run]
      rw [nothing]
      exact rescue_waiting told raised waiting
    | ok code =>
      rw [respond_complete joining (status_accepted status)]
      cases built : (r.toReply room).head.toOption.join with
      | none =>
        obtain ⟨e, refused⟩ := respondSimple_raises built bytes w
        rw [not_built built]
        exact rescue_waiting told (complete_raises refused) waiting
      | some response =>
        obtain ⟨head, found, rfl⟩ := built_meant built
        have out := respondSimple_out waiting built bytes
        rw [rescue_leaves (complete_out untouched out) rfl (by rw [waiting.resp]; rfl), found]
        rfl

/-! The same chunks from an enumerable body. -/

/-- `each` over the chunks; what a write raises ends it. -/
def yields : List Bytes → Script Exn Bytes Unit
  | [] => .done
  | chunk :: rest => .act chunk fun
    | .ok _ => yields rest
    | .error e => .raises e

/-- The client never leaves. -/
def Patient (client : List Reaction) : Prop := ∀ m ∈ client, m ≠ .leaves

structure Streaming (response : HyperResponse) (sent : List (FrameResult Bytes))
    (w : World HyperResponse Bytes) : Prop where
  is_open : Open w
  receiver : w.resp.frames.receiver = true
  value : w.resp.head.value = some (.stream response)
  frames : sentFrames w = sent

variable {response : HyperResponse} {sent : List (FrameResult Bytes)}

theorem streaming_takes (streaming : Streaming response sent w) (n : Nat) :
    Streaming response sent (react w (.takes n)) where
  is_open := react_open streaming.is_open _
  receiver := streaming.receiver
  value := streaming.value
  frames := by rw [react_sent, streaming.frames]

theorem sendFrame_streaming {chunk : Bytes} {resp : Responder HyperResponse Bytes}
    (streaming : Streaming response sent w) (went : sendFrame chunk w.resp = some resp) :
    Streaming response (sent ++ [.data chunk]) { w with resp } := by
  have is_open := sendFrame_open streaming.is_open went
  have frames := streaming.frames
  have there := streaming.receiver
  unfold sendFrame at went
  rcases Chan.trySend_cases w.resp.frames (.data chunk) with
    ⟨gone, _⟩ | ⟨_, space, eq⟩ | ⟨_, eq⟩
  · rw [there] at gone
    cases gone
  · rw [eq] at went
    cases went
    refine ⟨is_open, there, streaming.value, ?_⟩
    rw [← frames]
    simp [sentFrames, Chan.push]
  · rw [eq] at went
    cases went

theorem await_streaming {chunk : Bytes} (ms : List Reaction) (patient : Patient ms)
    (streaming : Streaming response sent w) :
    ((await (sendFrame chunk) w ms).1 = .ok () ∧
      Streaming response (sent ++ [.data chunk]) (await (sendFrame chunk) w ms).2 ∧
      Patient (await (sendFrame chunk) w ms).2.client) ∨
    (await (sendFrame chunk) w ms).1 = .stuck := by
  induction ms generalizing w with
  | nil =>
    unfold await
    cases went : sendFrame chunk w.resp with
    | none => exact .inr rfl
    | some resp =>
      obtain ⟨is_open, there, value, frames⟩ := sendFrame_streaming streaming went
      exact .inl ⟨rfl, ⟨open_client is_open [], there, value, frames⟩, patient⟩
  | cons m more ih =>
    unfold await
    cases went : sendFrame chunk w.resp with
    | none =>
      cases m with
      | takes n =>
        exact ih (fun m later => patient m (List.mem_cons_of_mem _ later))
          (streaming_takes streaming n)
      | leaves => exact absurd rfl (patient .leaves List.mem_cons_self)
    | some resp =>
      obtain ⟨is_open, there, value, frames⟩ := sendFrame_streaming streaming went
      exact .inl ⟨rfl, ⟨open_client is_open _, there, value, frames⟩, patient⟩

theorem writeChunk_streaming (chunk : Bytes) (patient : Patient w.client)
    (streaming : Streaming response sent w) :
    ((writeChunk chunk w).1 = .ok () ∧
      Streaming response (sent ++ [.data chunk]) (writeChunk chunk w).2 ∧
      Patient (writeChunk chunk w).2.client) ∨
    (writeChunk chunk w).1 = .stuck := by
  unfold writeChunk
  rw [if_pos streaming.is_open.stored]
  cases client : w.client with
  | nil => exact await_streaming [] nofun streaming
  | cons m more =>
    rw [client] at patient
    cases m with
    | takes n =>
      exact await_streaming more (fun m later => patient m (List.mem_cons_of_mem _ later))
        (streaming_takes streaming n)
    | leaves => exact absurd rfl (patient .leaves List.mem_cons_self)

theorem yields_streaming (chunks : List Bytes) (patient : Patient w.client)
    (streaming : Streaming response sent w) :
    (((yields chunks).run writeChunk w).1 = .ok () ∧
      Streaming response (sent ++ chunks.map .data) ((yields chunks).run writeChunk w).2) ∨
    ((yields chunks).run writeChunk w).1 = .stuck := by
  induction chunks generalizing w sent with
  | nil =>
    refine .inl ⟨rfl, ?_⟩
    rw [List.map_nil, List.append_nil]
    exact streaming
  | cons chunk rest ih =>
    rcases writeChunk_streaming chunk patient streaming with ⟨ok, later, still⟩ | stuck
    · have wrote : writeChunk chunk w = (.ok (), (writeChunk chunk w).2) := Prod.ext ok rfl
      have run : (yields (chunk :: rest)).run writeChunk w =
          (yields rest).run writeChunk (writeChunk chunk w).2 := by
        simp only [yields, Script.run]
        rw [wrote]
      rw [run, List.map_cons, ← List.singleton_append, ← List.append_assoc]
      exact ih still later
    · right
      have waits : writeChunk chunk w = (.stuck, (writeChunk chunk w).2) := Prod.ext stuck rfl
      simp only [yields, Script.run]
      rw [waits]

/-- The body of `deliver_streaming` for an enumerable body, once the head is out. -/
def driven (chunks : List Bytes) : Prog Exn (World HyperResponse Bytes) Unit := do
  (yields chunks).run writeChunk
  finish

structure Ended (response : HyperResponse) (sent : List (FrameResult Bytes))
    (w : World HyperResponse Bytes) : Prop where
  responded : w.resp.responded = true
  closed : w.resp.bodyTx = false
  answered : answer w = some ⟨response.head.status, branded (getAll response.head.headers),
    sent.flatMap frameBytes⟩

theorem finish_ended (streaming : Streaming response sent w) :
    Ended response sent { w with resp := finishStream w.resp } := by
  obtain ⟨⟨responded, stored, sender, clean⟩, there, value, frames⟩ := streaming
  have last : (sentFrames w).getLast? ≠ some abandonedFrame := by
    intro error
    exact clean (List.mem_of_getLast? error)
  have same : sentFrames { w with resp := finishStream w.resp } = sentFrames w := by
    simp [sentFrames, finishStream, stored, Chan.dropSender]
  refine ⟨?_, ?_, ?_⟩
  · simp [finishStream, stored, responded]
  · simp [finishStream, stored]
  · have no_sender : (finishStream w.resp).frames.senders = 0 := by
      simp [finishStream, stored, Chan.dropSender, sender]
    have head : (finishStream w.resp).head.value = some (.stream response) := by
      simp [finishStream, stored, value]
    unfold answer
    simp only [head, no_sender, same, frames] at last ⊢
    rw [if_pos ⟨trivial, frames ▸ last⟩]

theorem driven_ended (chunks : List Bytes) (patient : Patient w.client)
    (streaming : Streaming response [] w) :
    ((driven chunks w).1 = .ok () ∧
      Ended response (chunks.map .data) (driven chunks w).2) ∨ (driven chunks w).1 = .stuck := by
  unfold driven
  rcases yields_streaming chunks patient streaming with ⟨ok, later⟩ | stuck
  · have ran : (yields chunks).run writeChunk w = (.ok (), ((yields chunks).run writeChunk w).2) :=
      Prod.ext ok rfl
    rw [bind_ok ran]
    rw [List.nil_append] at later
    exact .inl ⟨rfl, finish_ended later⟩
  · have waits : (yields chunks).run writeChunk w =
        (.stuck, ((yields chunks).run writeChunk w).2) := Prod.ext stuck rfl
    right
    simp only [bind]
    rw [waits]

theorem ensure_ended {close : Close} {p : Prog Exn (World HyperResponse Bytes) Unit}
    (moved : (ensure p (closeBody close) w).1 ≠ .stuck) :
    (p w).1 ≠ .stuck ∧ (ensure p (closeBody close) w).2 = (p w).2 := by
  unfold ensure at moved ⊢
  cases out : p w with
  | mk o t =>
    rw [out] at moved
    cases o with
    | stuck => exact absurd rfl moved
    | ok a =>
      refine ⟨nofun, ?_⟩
      cases close <;> rfl
    | raised e =>
      refine ⟨nofun, ?_⟩
      cases close <;> rfl

theorem sendHeaders_streaming (response : HyperResponse) (waiting : Waiting w) :
    ∃ w1, sendHeaders (.ok (some response)) w = (.ok (), w1) ∧ Streaming response [] w1 ∧
      w1.client = w.client := by
  have fresh : Unanswered w := by
    refine ⟨?_, ?_, waiting.seen⟩
    · rw [waiting.resp]
      rfl
    · rw [waiting.resp]
      rfl
  have headed : sendHeaders (.ok (some response)) w =
      (.ok (), (sendHeaders (.ok (some response)) w).2) := by
    unfold sendHeaders
    rw [waiting.resp]
    rfl
  refine ⟨_, headed, ⟨sendHeaders_open fresh headed, ?_, ?_, ?_⟩, ?_⟩
  · unfold sendHeaders
    rw [waiting.resp]
    rfl
  · unfold sendHeaders
    rw [waiting.resp]
    rfl
  · unfold sendHeaders sentFrames
    rw [waiting.resp]
    exact waiting.seen.symm ▸ rfl
  · unfold sendHeaders
    rw [waiting.resp]
    rfl

theorem sendHeaders_refused {head : Except Exn (Option HyperResponse)} (waiting : Waiting w)
    (refused : head.toOption.join = none) :
    ∃ e w1, sendHeaders head w = (.raised e, w1) ∧ answer (abort w1).2 = some errorAnswer := by
  cases head with
  | error e => exact ⟨e, w, rfl, abort_waiting waiting⟩
  | ok out =>
    cases out with
    | some response => cases refused
    | none =>
      let w1 : World HyperResponse Bytes := { w with resp := (sendStreamHead new none).2 }
      have raised : sendHeaders (.ok none) w = (.raised invalidResponse, w1) := by
        unfold sendHeaders
        rw [waiting.resp]
        rfl
      have aborted : abort w1 = (.ok (), w1) := abort_closed rfl rfl
      refine ⟨_, w1, raised, ?_⟩
      rw [aborted]
      rfl

theorem delivered_ended {reply : Reply HyperResponse Bytes} {chunks : List Bytes}
    (each : reply.each = some (yields chunks)) (no_call : reply.call = none)
    (whole : reply.head = .ok (some response)) (waiting : Waiting w) (patient : Patient w.client)
    (moved : (deliverStreamingWith calls closeBody reply w).1 ≠ .stuck) :
    Ended response (chunks.map .data) (deliverStreamingWith calls closeBody reply w).2 := by
  obtain ⟨w1, headed, streaming, same⟩ := sendHeaders_streaming response waiting
  have delivered : deliverStreamingWith calls closeBody reply w =
      ensure (driven chunks) (closeBody reply.close) w1 := by
    unfold deliverStreamingWith
    rw [whole]
    refine (bind_ok (p := calls.sendHeaders (.ok (some response))) headed).trans ?_
    simp only [no_call, each]
    rfl
  rw [delivered] at moved ⊢
  obtain ⟨drove, left⟩ := ensure_ended moved
  rw [left]
  rcases driven_ended chunks (same ▸ patient) streaming with ⟨_, ended⟩ | stuck
  · exact ended
  · exact absurd stuck drove

theorem then_leaves {p : Prog Exn (World HyperResponse Bytes) Unit}
    {q : Prog Exn (World HyperResponse Bytes) (Fused T)} (leaves : Leaves q) :
    ((p >>= fun _ => q) w).2 = (p w).2 := by
  cases ran : p w with
  | mk o t =>
    cases o with
    | ok a =>
      rw [bind_ok ran]
      exact leaves t t rfl
    | raised e => rw [bind_raised ran]
    | stuck => rw [bind_stuck ran]

theorem completed_leaves (code : Int) : Leaves (do
    outcomes.reports.fireAfterRequestComplete code
    pure .notFused : Prog Exn (World HyperResponse Bytes) (Fused T)) := by
  intro w
  refine keeps_bind ?_ fun _ => keeps_pure _ _
  unfold Reports.fireAfterRequestComplete Outcomes.reports
  cases outcomes.afterRequestComplete with
  | none => exact keeps_pure _ ()
  | some fire => exact fromExcept_leaves _ w

theorem stream_answer (r : RackReply) {chunks : List Bytes}
    (body : r.body = .enumerable (yields chunks)) (told : Told outcomes)
    {next : Prog Exn (World HyperResponse Bytes) (Fused T)} (waiting : Waiting w)
    (patient : Patient w.client)
    (moved : (serve calls (pure (r.toReply room)) outcomes.reports (deliver next) w).1 ≠ .stuck) :
    answer (serve calls (pure (r.toReply room)) outcomes.reports (deliver next) w).2 =
      some (answerOf (meant room r) chunks.flatten) := by
  have streams : (r.toReply room).toAry = none := by simp only [RackReply.toReply, body]
  have each : (r.toReply room).each = some (yields chunks) := by
    simp only [RackReply.toReply, body]
  have no_call : (r.toReply room).call = none := by simp only [RackReply.toReply, body]
  rw [serve_rescues] at moved ⊢
  cases status : r.status with
  | error e =>
    obtain ⟨refused, nothing⟩ := status_refused room status
    have raised : respond calls closeBody outcomes.reports (deliver next) (r.toReply room) w =
        (.raised e, w) := by
      unfold respond
      simp only [streams, refused, error_then, raise_run]
    rw [nothing]
    exact rescue_waiting told raised waiting
  | ok code =>
    have responding : respond calls closeBody outcomes.reports (deliver next) (r.toReply room) = (do
        deliverStreamingWith calls closeBody (r.toReply room)
        outcomes.reports.fireAfterRequestComplete (code.toNat : Int)
        pure .notFused) := by
      unfold respond
      simp only [streams, status_accepted status, ok_then]
    rw [responding] at moved ⊢
    cases built : (r.toReply room).head.toOption.join with
    | none =>
      obtain ⟨e, w1, refused, answered⟩ := sendHeaders_refused waiting built
      have raised : deliverStreamingWith calls closeBody (r.toReply room) w = (.raised e, w1) := by
        unfold deliverStreamingWith
        exact bind_raised (p := calls.sendHeaders (r.toReply room).head) refused
      rw [rescue_raised (bind_raised raised), not_built built]
      exact giveUp_answers told e answered
    | some response =>
      have whole : (r.toReply room).head = .ok (some response) := by
        cases head : (r.toReply room).head with
        | error e => simp [head, Except.toOption] at built
        | ok out =>
          rw [head] at built
          exact congrArg Except.ok built
      have not_stuck : (deliverStreamingWith calls closeBody (r.toReply room) w).1 ≠ .stuck := by
        intro stuck
        have waits : deliverStreamingWith calls closeBody (r.toReply room) w =
            (.stuck, (deliverStreamingWith calls closeBody (r.toReply room) w).2) :=
          Prod.ext stuck rfl
        apply moved
        rw [rescue_stuck (bind_stuck waits)]
      have ended := delivered_ended each no_call whole waiting patient not_stuck
      have bytes : (chunks.map FrameResult.data).flatMap frameBytes = chunks.flatten := by
        rw [List.flatMap_map]
        exact List.flatMap_id
      obtain ⟨head, found, rfl⟩ := built_meant built
      rw [rescue_leaves (then_leaves (completed_leaves _)) ended.responded ended.closed,
        ended.answered, bytes, found]
      rfl

theorem foldlM_ok (chunks : List Bytes) (joined : Bytes) :
    (chunks.map Except.ok).foldlM (fun joined chunk => do
      let bytes ← chunk
      pure (joined ++ bytes)) joined = (.ok (joined ++ chunks.flatten) : Except Exn Bytes) := by
  induction chunks generalizing joined with
  | nil => simp [pure, Except.pure]
  | cons chunk rest ih =>
    rw [List.map_cons, List.foldlM_cons]
    refine (ih (joined ++ chunk)).trans ?_
    rw [List.append_assoc, List.flatten_cons]

theorem joinChunks_ok (chunks : List Bytes) :
    joinChunks (chunks.map .ok) = .ok chunks.flatten := by
  cases chunks with
  | nil => rfl
  | cons chunk rest =>
    cases rest with
    | nil => simp [joinChunks]
    | cons next rest => exact foldlM_ok (chunk :: next :: rest) []

theorem value_clean (v : HeaderValue) {b : UInt8} (inside : b ∈ v.val) :
    b ≠ 10 ∧ b ≠ 13 ∧ b ≠ 0 := by
  have good := List.all_eq_true.mp v.property b inside
  refine ⟨?_, ?_, ?_⟩ <;> rintro rfl <;> revert good <;> decide

/-- What hyper is given to send is what the reply means, whichever way the body takes: joined
    into one response by an array body, or chunk by chunk from an enumerable one. A reply that
    means nothing is answered with a 500, once its error has been logged. -/
theorem rack_response (r : RackReply) (chunks : List Bytes) (told : Told outcomes)
    {next : Prog Exn (World HyperResponse Bytes) (Fused T)} (untouched : Leaves next)
    (waiting : Waiting w) :
    answer (serve calls (pure (RackReply.toReply room
      { r with body := .array (.ok (chunks.map .ok)) })) outcomes.reports (deliver next) w).2 =
        some (answerOf (meant room r) chunks.flatten) ∧
    (Patient w.client →
      (serve calls (pure (RackReply.toReply room
        { r with body := .enumerable (yields chunks) })) outcomes.reports (deliver next) w).1 ≠
          .stuck →
      answer (serve calls (pure (RackReply.toReply room
        { r with body := .enumerable (yields chunks) })) outcomes.reports (deliver next) w).2 =
          some (answerOf (meant room r) chunks.flatten)) ∧
    ∀ head, meant room r = some head → 100 ≤ head.status ∧ head.status ≤ 999 ∧
      ∀ h ∈ head.headers, ∀ b ∈ h.2.val, b ≠ 10 ∧ b ≠ 13 ∧ b ≠ 0 := by
  refine ⟨?_, ?_, ?_⟩
  · have answered := array_answer room { r with body := .array (.ok (chunks.map .ok)) } rfl told
      untouched waiting
    have joined : (Except.ok (chunks.map .ok) : Except Exn _).bind joinChunks =
        .ok chunks.flatten := joinChunks_ok chunks
    rw [joined] at answered
    exact answered
  · intro patient moved
    exact stream_answer room { r with body := .enumerable (yields chunks) } rfl told waiting
      patient moved
  · intro head found
    simp only [meant, Option.bind_eq_bind, Option.bind_eq_some_iff] at found
    obtain ⟨status, _, all, _, headers, _, last⟩ := found
    split at last
    · next valid =>
      cases last
      exact ⟨valid.1, valid.2.1, fun h _ b inside => value_clean h.2 inside⟩
    · cases last

end Room

def greeting : RackReply :=
  ⟨.ok 200, [(.string (ascii "X-A"), .array [.string (ascii "1"), .other (.ok (ascii "2"))])],
    .enumerable (yields []), .returns⟩

def asked : World HyperResponse Bytes := ⟨new, [], [.takes 1, .takes 1], []⟩

theorem greeting_answered :
    answer (serve calls (pure (RackReply.toReply (fun _ => true)
      { greeting with body := .enumerable (yields [ascii "he", ascii "llo"]) }))
        (Outcomes.quiet false).reports
        (deliver (T := Nat) (pure .notFused)) asked).2 =
      some (answerOf (meant (fun _ => true) greeting) (ascii "hello")) ∧
    (meant (fun _ => true) greeting).map (fun head => head.headers.map fun h => h.2.val) =
      some [ascii "1", ascii "2"] := by
  have moved : (serve calls (pure (RackReply.toReply (fun _ => true)
      { greeting with body := .enumerable (yields [ascii "he", ascii "llo"]) }))
        (Outcomes.quiet false).reports
        (deliver (T := Nat) (pure .notFused)) asked).1 ≠ .stuck := by
    decide +kernel
  have patient : Patient asked.client := by
    intro m here
    simp only [asked, List.mem_cons, List.not_mem_nil, or_false, or_self] at here
    rw [here]
    exact nofun
  have untouched : Leaves (pure .notFused : Prog Exn (World HyperResponse Bytes) (Fused Nat)) :=
    fun _ => keeps_pure _ _
  have told : Told (Outcomes.quiet false) := fun _ => ⟨(), rfl⟩
  have answered := (rack_response (fun _ => true) greeting [ascii "he", ascii "llo"] told
    untouched ⟨rfl, rfl⟩).2.1 patient moved
  exact ⟨answered, by decide +kernel⟩

end KinoRackResponse
