import Kino.RequestBody
import Kino.Responder

/-!
The interrupt flag of a worker's slot, as the `read_body` and `write_chunk` calls of one
request see it (ext/kino/src/request.rs). Both block in `interruptible` (ext/kino/src/gvl.rs),
which reads the flag before every bounded attempt; the VM's unblock function and
`interrupt_all_workers` raise it, and nothing lowers it until the worker's next take.
-/
namespace KinoStickyInterrupt
open Transitions Channels KinoRequestBody KinoResponder
variable {H B : Type}

def interruptedError : String := "Kino: request interrupted during shutdown"
def streamNotOpenError : String := "Kino: response stream not started or already finished"

/-- The app's thread. In the loop of `interruptible`, `none` is the attempt of `read_body`
    and `some chunk` that of `write_chunk`; `reading` is a `read_body` past its loop. -/
inductive Thread (B : Type) where
  | idle
  | checking (chunk : Option B)
  | attempting (chunk : Option B)
  | reading
  deriving DecidableEq, Repr

inductive Result where
  | read (r : ReadResult)
  | wrote
  | raised (message : String)
  deriving DecidableEq, Repr

def Result.message : Result → Option String
  | .read (.raised message) => some message
  | .raised message => some message
  | .read (.chunk _) | .read .eof | .wrote => none

/-- A finished call: whether the unblock function raised the flag while it ran, and whether
    `interrupt_all_workers` had run. -/
structure Finished where
  result : Result
  raised : Bool
  kicked : Bool
  deriving DecidableEq, Repr

/-- `raised` is about the call in progress. -/
structure State (H B : Type) where
  body : KinoRequestBody.State
  resp : Responder H B
  flag : Bool
  kicked : Bool
  thread : Thread B
  raised : Bool
  finished : List Finished

inductive Label (H B : Type) where
  | readBody (maxLen : Nat)
  | writeChunk (chunk : B)
  | run
  | interrupt
  | interruptAll
  | forward
  | others (resp : Responder H B)

def State.finish (s : State H B) (result : Result) : State H B :=
  { s with thread := .idle, finished := s.finished ++ [⟨result, s.raised, s.kicked⟩] }

/-- Where `read_body` is once its body has made a step: back in its loop, past it, or done
    with the last result. -/
def State.afterRead (s : State H B) : State H B :=
  match s.body.reader, s.body.results.getLast? with
  | .receiving _, _ => { s with thread := .checking none }
  | .idle, some done => s.finish (.read done.result)
  | _, _ => { s with thread := .reading }

def advance (s : State H B) : Option (State H B) :=
  match s.thread with
  | .idle => none
  | .checking none =>
    if s.flag then
      some ({ s with body := { s.body with reader := .idle } }.finish (.raised interruptedError))
    else some { s with thread := .attempting none }
  | .checking (some chunk) =>
    if s.flag then
      some ({ s with resp.frames := s.resp.frames.dropSender }.finish (.raised interruptedError))
    else some { s with thread := .attempting (some chunk) }
  | .attempting none =>
    match work s.body with
    | none => some { s with thread := .checking none }
    | some body => some { s with body := body }.afterRead
  | .attempting (some chunk) =>
    match s.resp.frames.trySend (.data chunk) with
    | (.full, _) => some { s with thread := .checking (some chunk) }
    | (_, c) => some ({ s with resp.frames := c.dropSender }.finish .wrote)
  | .reading =>
    match work s.body with
    | none => none
    | some body => some { s with body := body }.afterRead

def step (cfg : Config) (s : State H B) : Label H B → Option (State H B)
  | .readBody maxLen =>
    match s.thread with
    | .idle => do
      let body ← beginRead cfg s.body maxLen
      pure { s with body := body, raised := false }.afterRead
    | _ => none
  | .writeChunk chunk =>
    match s.thread with
    | .idle =>
      if s.resp.bodyTx then
        some { s with
          resp.frames := s.resp.frames.cloneSender, thread := .checking (some chunk), raised := false }
      else some ({ s with raised := false }.finish (.raised streamNotOpenError))
    | _ => none
  | .run => advance s
  | .interrupt => some { s with flag := true, raised := true }
  | .interruptAll => some { s with flag := true, kicked := true }
  | .forward => do
    let body ← KinoRequestBody.forward cfg s.body
    pure { s with body := body }
  | .others resp => some { s with resp := resp }

/-- The request as the app gets it: a body not yet read, a response not yet started, and the
    flag as the requests before it have left it. -/
def Starts (cfg : Config) (s : State H B) : Prop :=
  Reachable (KinoRequestBody.system cfg) s.body ∧ s.body.reader = .idle ∧ s.body.results = [] ∧
    s.thread = .idle ∧ s.finished = []

def system (H B : Type) (cfg : Config) : System (State H B) (Label H B) :=
  ⟨Starts cfg, step cfg⟩

/-- No call comes to block with the flag up from before it began. -/
def fresh (cfg : Config) (s : State H B) : Label H B → Bool
  | .readBody _ => !s.flag || s.kicked || s.body.leftover.isSome || cfg.endStream
  | .writeChunk _ => !s.flag || s.kicked || !s.resp.bodyTx
  | _ => true

def Plain (b : KinoRequestBody.State) : Prop :=
  ∀ d ∈ b.results, d.result ≠ .raised interruptedError

theorem finish_plain {b : KinoRequestBody.State} {r : ReadResult} (plain : Plain b)
    (other : r ≠ .raised interruptedError) : Plain (b.finish r) := by
  intro d here
  rcases List.mem_append.mp here with before | last
  · exact plain d before
  · rw [List.mem_singleton] at last
    rw [last]
    exact other

theorem gotChunk_plain {b : KinoRequestBody.State} (plain : Plain b) (maxLen : Nat)
    (bytes : Bytes) : Plain (gotChunk b maxLen bytes) := by
  unfold gotChunk
  split
  · exact finish_plain plain (by simp)
  · exact plain

theorem verdict_other (why : Option BodyAbandon) : verdict why ≠ .raised interruptedError := by
  cases why with
  | none => simp [verdict]
  | some why =>
    cases why with
    | oversize => decide
    | timedOut => decide

theorem body_plain {cfg : Config} {b b' : KinoRequestBody.State} {l : KinoRequestBody.Label}
    (plain : Plain b) (moved : Move cfg b l b') : Plain b' := by
  cases moved with
  | recv maxLen bytes =>
    apply gotChunk_plain
    exact plain
  | readLeftover n bytes =>
    apply gotChunk_plain
    exact plain
  | judge => exact finish_plain plain (verdict_other _)
  | drained => exact finish_plain plain (by simp)
  | readBodyless => exact finish_plain plain (by simp)
  | _ => exact plain

theorem gotChunk_past (b : KinoRequestBody.State) (maxLen : Nat) (bytes : Bytes) (m : Nat) :
    (gotChunk b maxLen bytes).reader ≠ .receiving m := by
  unfold gotChunk
  split
  · simp [KinoRequestBody.State.finish]
  · simp

theorem work_past {cfg : Config} {b b' : KinoRequestBody.State} (moved : Move cfg b .work b')
    (m : Nat) : b'.reader ≠ .receiving m := by
  cases moved with
  | recv maxLen bytes => exact gotChunk_past _ maxLen bytes m
  | secondRead | sawEnd | judge | drainPart | drainWhole | drained =>
    simp [KinoRequestBody.State.finish]

/-- A call that comes to its loop has no leftover to return and a body to wait for. -/
theorem begin_receiving {cfg : Config} {b b' : KinoRequestBody.State} {n m : Nat}
    (moved : beginRead cfg b n = some b') (waits : b'.reader = .receiving m) :
    b.leftover = none ∧ cfg.endStream = false := by
  have move : Move cfg b (.read n) b' := step_move (l := .read n) moved
  cases move with
  | readLeftover _ bytes _ kept => exact absurd waits (gotChunk_past _ _ bytes m)
  | readBodyless => simp [KinoRequestBody.State.finish] at waits
  | readNext _ _ none_left body => exact ⟨none_left, body⟩

def Thread.looping : Thread B → Bool
  | .checking _ | .attempting _ => true
  | .idle | .reading => false

def Finished.Due (f : Finished) : Prop :=
  f.result.message = some interruptedError → f.raised = true ∨ f.kicked = true

structure Invariant (s : State H B) : Prop where
  plain : Plain s.body
  loop : s.thread.looping = true → s.flag = true → s.raised = true ∨ s.kicked = true
  due : ∀ f ∈ s.finished, f.Due

theorem finish_inv {s : State H B} {result : Result} (inv : Invariant s)
    (due : result.message = some interruptedError → s.raised = true ∨ s.kicked = true) :
    Invariant (s.finish result) := by
  constructor
  · exact inv.plain
  · intro looping
    cases looping
  · intro f here
    rcases List.mem_append.mp here with before | last
    · exact inv.due f before
    · rw [List.mem_singleton] at last
      rw [last]
      exact due

theorem afterRead_inv {s : State H B} (plain : Plain s.body) (due : ∀ f ∈ s.finished, f.Due)
    (new : ∀ m, s.body.reader = .receiving m → s.flag = true → s.raised = true ∨ s.kicked = true) :
    Invariant s.afterRead := by
  unfold State.afterRead
  split
  · next m waits =>
    constructor
    · exact plain
    · intro _
      exact new m waits
    · exact due
  · next done _ last =>
    constructor
    · exact plain
    · intro looping
      cases looping
    · intro f here
      rcases List.mem_append.mp here with before | here
      · exact due f before
      · rw [List.mem_singleton] at here
        rw [here]
        intro failed
        have other := plain done (List.mem_of_getLast? last)
        cases result : done.result with
        | chunk bytes => simp [Result.message, result] at failed
        | eof => simp [Result.message, result] at failed
        | raised message =>
          simp only [Result.message, result, Option.some.injEq] at failed
          rw [result, failed] at other
          exact absurd rfl other
  · constructor
    · exact plain
    · intro looping
      cases looping
    · exact due

theorem advance_inv (cfg : Config) {s s' : State H B} (inv : Invariant s)
    (moved : advance s = some s') : Invariant s' := by
  have worked : ∀ body, work s.body = some body → Invariant ({ s with body := body }).afterRead := by
    intro body moved
    have move : Move cfg s.body .work body := work_move moved
    apply afterRead_inv
    · exact body_plain inv.plain move
    · exact inv.due
    · intro m waits
      exact absurd waits (work_past move m)
  have loop := inv.loop
  unfold advance at moved
  cases thread : s.thread with
  | idle => simp [thread] at moved
  | checking chunk =>
    rw [thread] at loop
    cases chunk with
    | none | some chunk =>
      simp only [thread] at moved
      split at moved
      · next up =>
        cases moved
        apply finish_inv
        · exact ⟨inv.plain, fun _ => loop rfl, inv.due⟩
        · intro _
          exact loop rfl up
      · cases moved
        exact ⟨inv.plain, fun _ => loop rfl, inv.due⟩
  | attempting chunk =>
    rw [thread] at loop
    cases chunk with
    | none =>
      simp only [thread] at moved
      split at moved
      · cases moved
        exact ⟨inv.plain, fun _ => loop rfl, inv.due⟩
      · next body worked' =>
        cases moved
        exact worked body worked'
    | some chunk =>
      simp only [thread] at moved
      split at moved
      · cases moved
        exact ⟨inv.plain, fun _ => loop rfl, inv.due⟩
      · next c _ _ =>
        cases moved
        apply finish_inv
        · exact ⟨inv.plain, fun _ => loop rfl, inv.due⟩
        · intro written
          cases written
  | reading =>
    simp only [thread] at moved
    split at moved
    · cases moved
    · next body worked' =>
      cases moved
      exact worked body worked'

theorem step_inv {cfg : Config} {s s' : State H B} {l : Label H B} (inv : Invariant s)
    (new : fresh cfg s l = true) (moved : step cfg s l = some s') : Invariant s' := by
  cases l with
  | readBody n =>
    simp only [step] at moved
    split at moved
    · obtain ⟨body, began, kept⟩ := Option.bind_eq_some_iff.mp moved
      cases kept
      have move : Move cfg s.body (.read n) body := step_move (l := .read n) began
      apply afterRead_inv
      · exact body_plain inv.plain move
      · exact inv.due
      · intro m waits up
        obtain ⟨none_left, body⟩ := begin_receiving began waits
        right
        change s.flag = true at up
        simpa [fresh, up, none_left, body] using new
    · cases moved
  | writeChunk chunk =>
    simp only [step] at moved
    split at moved
    · split at moved
      · next present =>
        cases moved
        constructor
        · exact inv.plain
        · intro _ up
          right
          change s.flag = true at up
          simpa [fresh, up, present] using new
        · exact inv.due
      · next idle missing =>
        cases moved
        have began : Invariant { s with raised := false } := by
          constructor
          · exact inv.plain
          · intro looping
            rw [idle] at looping
            cases looping
          · exact inv.due
        apply finish_inv began
        intro failed
        exact absurd failed (by decide)
    · cases moved
  | run => exact advance_inv cfg inv moved
  | interrupt =>
    cases moved
    exact ⟨inv.plain, fun _ _ => .inl rfl, inv.due⟩
  | interruptAll =>
    cases moved
    exact ⟨inv.plain, fun _ _ => .inr rfl, inv.due⟩
  | forward =>
    simp only [step] at moved
    obtain ⟨body, forwarded, kept⟩ := Option.bind_eq_some_iff.mp moved
    cases kept
    have move : Move cfg s.body .forward body := forward_move forwarded
    exact ⟨body_plain inv.plain move, inv.loop, inv.due⟩
  | others resp =>
    cases moved
    exact ⟨inv.plain, inv.loop, inv.due⟩

theorem reachable_inv {cfg : Config} {s : State H B}
    (reached : ReachableBy (system H B cfg) (fun s l => fresh cfg s l = true) s) : Invariant s := by
  apply invariant Invariant ?_ ?_ reached
  · rintro s ⟨_, _, unread, idle, uncalled⟩
    constructor
    · intro d here
      rw [unread] at here
      cases here
    · intro looping
      rw [idle] at looping
      cases looping
    · intro f here
      rw [uncalled] at here
      cases here
  · intro s s' l inv new moved
    exact step_inv inv new moved

theorem stale_flag_fails {cfg : Config} {s : State H B} {l : Label H B} (idle : s.thread = .idle)
    (at_rest : s.body.reader = .idle) (stale : fresh cfg s l = false) :
    ∃ s', run (system H B cfg) s [l, .run] = some s' ∧
      s'.finished = s.finished ++ [⟨.raised interruptedError, false, false⟩] := by
  cases l with
  | run | interrupt | interruptAll | forward | others => cases stale
  | readBody n =>
    simp only [fresh, Bool.or_eq_false_iff, Bool.not_eq_false'] at stale
    obtain ⟨⟨⟨up, calm⟩, none_left⟩, body⟩ := stale
    have none_left : s.body.leftover = none := by simpa using none_left
    refine ⟨_, by
      simp [run, system, step, idle, beginRead, at_rest, none_left, body, State.afterRead, advance, up]
      rfl, ?_⟩
    simp [State.finish, calm]
  | writeChunk chunk =>
    simp only [fresh, Bool.or_eq_false_iff, Bool.not_eq_false'] at stale
    obtain ⟨⟨up, calm⟩, present⟩ := stale
    refine ⟨_, by
      simp [run, system, step, idle, present, advance, up]
      rfl, ?_⟩
    simp [State.finish, calm]

theorem open_end : false = true → ([] : List Frame) = [] ∧ Ending.clean = .clean := nofun

def slowBody : Config := ⟨[], .clean, 0, false, open_end⟩

def slowBodyAtRest : KinoRequestBody.State :=
  { initial slowBody with reader := .idle, nullInput := false }

def slowRequest : State Nat Nat where
  body := slowBodyAtRest
  resp := (sendStreamHead new (some 200)).2
  flag := false
  kicked := false
  thread := .idle
  raised := false
  finished := []

theorem slow_request_starts : Starts slowBody slowRequest := by
  have ran : run (KinoRequestBody.system slowBody) (initial slowBody) [.bodyPossible, .work] =
      some slowBodyAtRest := rfl
  exact ⟨reachable_run (.start rfl) ran, rfl, rfl, rfl, rfl⟩

/-- A timeout expires in a `read_body`, which fails as it should. -/
def timedOutRead : List (Label Nat Nat) := [.readBody 1, .run, .run, .interrupt, .run]

def timedOutState : State Nat Nat := (runBy (system Nat Nat slowBody) (fresh slowBody) slowRequest
  timedOutRead).getD slowRequest

end KinoStickyInterrupt
