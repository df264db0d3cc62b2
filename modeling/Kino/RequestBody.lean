import Kino.Transitions
import Kino.Channels

/-!
The request body on its way to the app: the forwarder task of `handle_request`
(ext/kino/src/server.rs), the choice between `NullInput` and `Input` made by
`body_possible`, and `read_body` (ext/kino/src/request.rs). Forwarder and worker
share the bounded channel and the abandonment flag, and every access to either is a
step of its own.
-/
namespace KinoRequestBody
open Transitions Channels

abbrev Bytes := List UInt8

/-- What hyper's body yields. Trailers carry no data and are dropped. -/
inductive Frame where
  | data (bytes : Bytes)
  | trailers
  deriving DecidableEq, Repr

/-- How the body ends after its last frame: cleanly, with an error reported by
    hyper, or with a client that stays silent past the idle deadline. -/
inductive Ending where
  | clean
  | bodyError
  | stalled
  deriving DecidableEq, Repr

inductive BodyAbandon where
  | oversize
  | timedOut
  deriving DecidableEq, Repr

/-- One accepted request. `endStream` is hyper's word that no frame will come, in
    which case there is neither a channel nor a forwarder; `maxBody` 0 is no cap. -/
structure Config where
  frames : List Frame
  ending : Ending
  maxBody : Nat
  endStream : Bool
  ended : endStream = true → frames = [] ∧ ending = .clean

def dataOf : List Frame → List Bytes
  | [] => []
  | .data bytes :: rest => bytes :: dataOf rest
  | .trailers :: rest => dataOf rest

def Config.data (cfg : Config) : List Bytes := dataOf cfg.frames
def Config.bytes (cfg : Config) : Bytes := cfg.data.flatten

def Config.Within (cfg : Config) : Prop := cfg.maxBody = 0 ∨ cfg.bytes.length ≤ cfg.maxBody

instance (cfg : Config) : Decidable cfg.Within := inferInstanceAs (Decidable (_ ∨ _))

def bodyTooLargeError : String := "Kino: request body exceeded max_body_size"
def bodyTimeoutError : String := "Kino: request body read timed out"

inductive Forwarder where
  | pulling
  | sending (bytes : Bytes)
  | abandoning (why : BodyAbandon)
  | closing
  | done
  deriving DecidableEq, Repr

/-- The worker: the request still queued, between the two reads of `body_possible`,
    admitted with no call under way, or inside `read_body`. -/
inductive Reader where
  | queued
  | sawEmpty
  | idle
  | receiving (maxLen : Nat)
  | disconnected (maxLen : Nat)
  | draining (maxLen : Nat) (out : Bytes)
  | gone
  deriving DecidableEq, Repr

inductive ReadResult where
  | chunk (bytes : Bytes)
  | eof
  | raised (message : String)
  deriving DecidableEq, Repr

structure Done where
  maxLen : Nat
  takenBefore : List Bytes
  result : ReadResult
  deriving DecidableEq, Repr

/-- `asked`, `before`, `taken`, `discarded` and `results` are history: the argument of
    the call under way and the frames taken when it began, all frames taken off the
    channel, the frame pulled but never sent, and the finished calls. -/
structure State where
  incoming : List Frame
  fwd : Forwarder
  total : Nat
  chan : Chan Bytes 8
  abandoned : Option BodyAbandon
  reader : Reader
  leftover : Option Bytes
  nullInput : Bool
  asked : Nat
  before : List Bytes
  taken : List Bytes
  discarded : List Bytes
  results : List Done

def initial (cfg : Config) : State where
  incoming := cfg.frames
  fwd := if cfg.endStream then .done else .pulling
  total := 0
  chan := if cfg.endStream then Chan.absent _ _ else Chan.create _ _
  abandoned := none
  reader := .queued
  leftover := none
  nullInput := false
  asked := 0
  before := []
  taken := []
  discarded := []
  results := []

/-- One step of the forwarder task; `none` when it waits for room in the channel. -/
def forward (cfg : Config) (s : State) : Option State :=
  match s.fwd with
  | .pulling =>
    match s.incoming with
    | .data bytes :: rest =>
      let total := s.total + bytes.length
      if 0 < cfg.maxBody ∧ cfg.maxBody < total then
        some { s with incoming := rest, total := total, fwd := .abandoning .oversize,
                      discarded := [bytes] }
      else some { s with incoming := rest, total := total, fwd := .sending bytes }
    | .trailers :: rest => some { s with incoming := rest }
    | [] =>
      match cfg.ending with
      -- body error or clean EOF
      | .clean | .bodyError => some { s with fwd := .closing }
      | .stalled => some { s with fwd := .abandoning .timedOut }
  | .sending bytes =>
    match s.chan.trySend bytes with
    | (.sent, c) => some { s with chan := c, fwd := .pulling }
    | (.full, _) => none
    | (.disconnected, _) => some { s with fwd := .closing, discarded := [bytes] }
  | .abandoning why => some { s with abandoned := some why, fwd := .closing }
  | .closing => some { s with chan := s.chan.dropSender, fwd := .done }
  | .done => none

def State.finish (s : State) (result : ReadResult) : State :=
  { s with reader := .idle, results := s.results ++ [⟨s.asked, s.before, result⟩] }

def gotChunk (s : State) (maxLen : Nat) (bytes : Bytes) : State :=
  if maxLen < bytes.length then
    { s with leftover := some (bytes.drop maxLen) }.finish (.chunk (bytes.take maxLen))
  else { s with reader := .draining maxLen bytes }

/-- One step of the worker inside `body_possible` or `read_body`; `none` when it
    waits for a frame. -/
def work (s : State) : Option State :=
  match s.reader with
  | .sawEmpty => some { s with nullInput := s.chan.senders = 0, reader := .idle }
  | .receiving maxLen =>
    match s.chan.tryRecv with
    | (.item bytes, c) => some (gotChunk { s with chan := c, taken := s.taken ++ [bytes] } maxLen bytes)
    | (.disconnected, _) => some { s with reader := .disconnected maxLen }
    | (.empty, _) => none
  | .disconnected _ =>
    match s.abandoned with
    | some .oversize => some (s.finish (.raised bodyTooLargeError))
    | some .timedOut => some (s.finish (.raised bodyTimeoutError))
    | none => some (s.finish .eof)
  | .draining maxLen out =>
    if out.length < maxLen then
      match s.chan.tryRecv with
      | (.item more, c) =>
        let room := maxLen - out.length
        let s := { s with chan := c, taken := s.taken ++ [more] }
        if room < more.length then
          some { s with leftover := some (more.drop room),
                        reader := .draining maxLen (out ++ more.take room) }
        else some { s with reader := .draining maxLen (out ++ more) }
      | _ => some (s.finish (.chunk out))
    else some (s.finish (.chunk out))
  | _ => none

inductive Label where
  | forward
  | work
  | bodyPossible
  | read (maxLen : Nat)
  | dropCtx
  deriving DecidableEq, Repr

/-- The first read of `body_possible`: no channel at all settles it, a
    waiting frame settles it, and an empty channel leads to the second read. -/
def bodyPossible (cfg : Config) (s : State) : Option State :=
  match s.reader with
  | .queued =>
    if cfg.endStream then some { s with nullInput := true, reader := .idle }
    else if s.chan.buf = [] then some { s with reader := .sawEmpty }
    else some { s with reader := .idle }
  | _ => none

/-- The start of a `read_body` call, with `max_len.max(1)` as its limit. -/
def beginRead (cfg : Config) (s : State) (maxLen : Nat) : Option State :=
  match s.reader with
  | .idle =>
    let s := { s with asked := maxLen, before := s.taken }
    match s.leftover with
    | some bytes => some (gotChunk { s with leftover := none } (max maxLen 1) bytes)
    | none =>
      if cfg.endStream then some (s.finish .eof)
      else some { s with reader := .receiving (max maxLen 1) }
  | _ => none

def step (cfg : Config) (s : State) : Label → Option State
  | .forward => forward cfg s
  | .work => work s
  | .bodyPossible => bodyPossible cfg s
  | .read maxLen => beginRead cfg s maxLen
  | .dropCtx =>
    match s.reader with
    | .queued | .idle => some { s with reader := .gone, chan := s.chan.dropReceiver }
    | _ => none

def system (cfg : Config) : System State Label := ⟨fun s => s = initial cfg, step cfg⟩

/-- What `read_body` makes of a disconnected channel. -/
def verdict : Option BodyAbandon → ReadResult
  | some .oversize => .raised bodyTooLargeError
  | some .timedOut => .raised bodyTimeoutError
  | none => .eof

inductive Move (cfg : Config) (s : State) : Label → State → Prop where
  | refuse (bytes : Bytes) (rest : List Frame) (at_fwd : s.fwd = .pulling)
      (next : s.incoming = .data bytes :: rest)
      (exceeds : 0 < cfg.maxBody ∧ cfg.maxBody < s.total + bytes.length) :
      Move cfg s .forward { s with
        incoming := rest, total := s.total + bytes.length, fwd := .abandoning .oversize,
        discarded := [bytes] }
  | pull (bytes : Bytes) (rest : List Frame) (at_fwd : s.fwd = .pulling)
      (next : s.incoming = .data bytes :: rest)
      (under : ¬ (0 < cfg.maxBody ∧ cfg.maxBody < s.total + bytes.length)) :
      Move cfg s .forward { s with
        incoming := rest, total := s.total + bytes.length, fwd := .sending bytes }
  | skip (rest : List Frame) (at_fwd : s.fwd = .pulling) (next : s.incoming = .trailers :: rest) :
      Move cfg s .forward { s with incoming := rest }
  | bodyEnd (at_fwd : s.fwd = .pulling) (next : s.incoming = []) (ending : cfg.ending ≠ .stalled) :
      Move cfg s .forward { s with fwd := .closing }
  | stall (at_fwd : s.fwd = .pulling) (next : s.incoming = []) (ending : cfg.ending = .stalled) :
      Move cfg s .forward { s with fwd := .abandoning .timedOut }
  | send (bytes : Bytes) (at_fwd : s.fwd = .sending bytes) (room : s.chan.buf.length < 8)
      (alive : s.chan.receiver = true) :
      Move cfg s .forward { s with chan := s.chan.push bytes room, fwd := .pulling }
  | unsent (bytes : Bytes) (at_fwd : s.fwd = .sending bytes) (alive : s.chan.receiver = false) :
      Move cfg s .forward { s with fwd := .closing, discarded := [bytes] }
  | flag (why : BodyAbandon) (at_fwd : s.fwd = .abandoning why) :
      Move cfg s .forward { s with abandoned := some why, fwd := .closing }
  | close (at_fwd : s.fwd = .closing) :
      Move cfg s .forward { s with chan := s.chan.dropSender, fwd := .done }
  | secondRead (at_reader : s.reader = .sawEmpty) :
      Move cfg s .work { s with nullInput := decide (s.chan.senders = 0), reader := .idle }
  | recv (maxLen : Nat) (bytes : Bytes) (rest : List Bytes) (at_reader : s.reader = .receiving maxLen)
      (queued : s.chan.buf = bytes :: rest) :
      Move cfg s .work (gotChunk { s with chan := s.chan.pop, taken := s.taken ++ [bytes] } maxLen bytes)
  | sawEnd (maxLen : Nat) (at_reader : s.reader = .receiving maxLen) (drained : s.chan.buf = [])
      (closed : s.chan.senders = 0) : Move cfg s .work { s with reader := .disconnected maxLen }
  | judge (maxLen : Nat) (at_reader : s.reader = .disconnected maxLen) :
      Move cfg s .work (s.finish (verdict s.abandoned))
  | drainPart (maxLen : Nat) (out more : Bytes) (rest : List Bytes)
      (at_reader : s.reader = .draining maxLen out) (short : out.length < maxLen)
      (queued : s.chan.buf = more :: rest) (long : maxLen - out.length < more.length) :
      Move cfg s .work { s with
        chan := s.chan.pop, taken := s.taken ++ [more],
        leftover := some (more.drop (maxLen - out.length)),
        reader := .draining maxLen (out ++ more.take (maxLen - out.length)) }
  | drainWhole (maxLen : Nat) (out more : Bytes) (rest : List Bytes)
      (at_reader : s.reader = .draining maxLen out) (short : out.length < maxLen)
      (queued : s.chan.buf = more :: rest) (fits : more.length ≤ maxLen - out.length) :
      Move cfg s .work { s with
        chan := s.chan.pop, taken := s.taken ++ [more], reader := .draining maxLen (out ++ more) }
  | drained (maxLen : Nat) (out : Bytes) (at_reader : s.reader = .draining maxLen out) :
      Move cfg s .work (s.finish (.chunk out))
  | bodyless (at_reader : s.reader = .queued) (ended : cfg.endStream = true) :
      Move cfg s .bodyPossible { s with nullInput := true, reader := .idle }
  | firstReadEmpty (at_reader : s.reader = .queued) (body : cfg.endStream = false)
      (empty : s.chan.buf = []) : Move cfg s .bodyPossible { s with reader := .sawEmpty }
  | firstReadFull (at_reader : s.reader = .queued) (body : cfg.endStream = false)
      (waiting : s.chan.buf ≠ []) : Move cfg s .bodyPossible { s with reader := .idle }
  | readLeftover (n : Nat) (bytes : Bytes) (at_reader : s.reader = .idle)
      (kept : s.leftover = some bytes) :
      Move cfg s (.read n)
        (gotChunk { s with asked := n, before := s.taken, leftover := none } (max n 1) bytes)
  | readBodyless (n : Nat) (at_reader : s.reader = .idle) (none_left : s.leftover = none)
      (ended : cfg.endStream = true) :
      Move cfg s (.read n) ({ s with asked := n, before := s.taken }.finish .eof)
  | readNext (n : Nat) (at_reader : s.reader = .idle) (none_left : s.leftover = none)
      (body : cfg.endStream = false) :
      Move cfg s (.read n) { s with asked := n, before := s.taken, reader := .receiving (max n 1) }
  | dropCtx (at_reader : s.reader = .queued ∨ s.reader = .idle) :
      Move cfg s .dropCtx { s with reader := .gone, chan := s.chan.dropReceiver }

theorem forward_move {cfg : Config} {s s' : State} (moved : forward cfg s = some s') :
    Move cfg s .forward s' := by
  unfold forward at moved
  split at moved
  case h_1 at_fwd =>
    split at moved
    · rename_i bytes rest next
      dsimp only at moved
      split at moved <;> cases moved
      · exact .refuse bytes rest at_fwd next ‹_›
      · exact .pull bytes rest at_fwd next ‹_›
    · cases moved; exact .skip _ at_fwd ‹_›
    · split at moved <;> cases moved
      · exact .bodyEnd at_fwd ‹_› (by simp [*])
      · exact .bodyEnd at_fwd ‹_› (by simp [*])
      · exact .stall at_fwd ‹_› ‹_›
  case h_2 bytes at_fwd =>
    rcases Chan.trySend_cases s.chan bytes with ⟨gone, eq⟩ | ⟨alive, room, eq⟩ | ⟨_, eq⟩ <;>
      simp only [eq] at moved <;> cases moved
    · exact .unsent bytes at_fwd gone
    · exact .send bytes at_fwd room alive
  case h_3 why at_fwd => cases moved; exact .flag why at_fwd
  case h_4 at_fwd => cases moved; exact .close at_fwd
  case h_5 => cases moved

theorem work_move {cfg : Config} {s s' : State} (moved : work s = some s') :
    Move cfg s .work s' := by
  unfold work at moved
  split at moved
  case h_1 at_reader => cases moved; exact .secondRead at_reader
  case h_2 maxLen at_reader =>
    rcases Chan.tryRecv_cases s.chan with ⟨bytes, rest, queued, eq⟩ | ⟨empty, gone, eq⟩ | ⟨_, _, eq⟩ <;>
      simp only [eq] at moved <;> cases moved
    · exact .recv maxLen bytes rest at_reader queued
    · exact .sawEnd maxLen at_reader empty gone
  case h_3 maxLen at_reader =>
    have judged : Move cfg s .work _ := .judge maxLen at_reader
    split at moved <;> cases moved <;> simpa [verdict, *] using judged
  case h_4 maxLen out at_reader =>
    split at moved
    · rename_i short
      rcases Chan.tryRecv_cases s.chan with ⟨more, rest, queued, eq⟩ | ⟨_, _, eq⟩ | ⟨_, _, eq⟩ <;>
        simp only [eq] at moved
      · split at moved <;> cases moved
        · exact .drainPart maxLen out more rest at_reader short queued ‹_›
        · exact .drainWhole maxLen out more rest at_reader short queued (by omega)
      · cases moved; exact .drained maxLen out at_reader
      · cases moved; exact .drained maxLen out at_reader
    · cases moved; exact .drained maxLen out at_reader
  case h_5 => cases moved

theorem step_move {cfg : Config} {s s' : State} {l : Label} (moved : step cfg s l = some s') :
    Move cfg s l s' := by
  cases l with
  | forward => exact forward_move moved
  | work => exact work_move moved
  | bodyPossible =>
    simp only [step, bodyPossible] at moved
    split at moved
    · split at moved
      · cases moved; exact .bodyless ‹_› ‹_›
      · split at moved <;> cases moved
        · exact .firstReadEmpty ‹_› (by simp_all) ‹_›
        · exact .firstReadFull ‹_› (by simp_all) ‹_›
    · cases moved
  | read n =>
    simp only [step, beginRead] at moved
    split at moved
    · split at moved
      · cases moved; exact .readLeftover n _ ‹_› ‹_›
      · split at moved <;> cases moved
        · exact .readBodyless n ‹_› ‹_› ‹_›
        · exact .readNext n ‹_› ‹_› (by simp_all)
    · cases moved
  | dropCtx =>
    simp only [step] at moved
    split at moved <;> cases moved
    · exact .dropCtx (.inl ‹_›)
    · exact .dropCtx (.inr ‹_›)

end KinoRequestBody
