import Kino.Transitions
import Kino.Channels

/-!
The access log's sink (ext/kino/src/logsink.rs): `write_line` on a bounded channel, the flusher
thread, and `Server#shutdown` with `shutdown_runtime`. The sink and its one sender live in the
server's `Arc`, which the registry, the request tasks and `shutdown_runtime` hold. Nobody
waits for the flusher. A write to the output may stop short, and its error is ignored.
-/
namespace KinoLogSink
open Transitions Channels

abbrev Bytes := List UInt8

def channelCap : Nat := 8192

def newline : Bytes := [10]

/-- The flusher thread: `line` and `lineEnd` are the two writes of `put`, after which
    `draining` tries for another line; `closing` has found every sender gone. -/
inductive Flusher where
  | receiving
  | line (text : Bytes)
  | lineEnd
  | draining
  | flushing
  | closing
  | exited
  deriving DecidableEq, Repr

/-- `Server#shutdown`: `stopping` is in `shutdown_runtime` with the server taken from the
    registry, `stopped` has dropped it and stops the control thread. -/
inductive Shutdown where
  | running
  | stopping
  | stopped
  | returned
  deriving DecidableEq, Repr

/-- `tasks` counts the references of request tasks and other callers; `accepted` are the
    lines whose `try_send` succeeded. -/
structure State where
  chan : Chan Bytes channelCap
  tasks : Nat
  registered : Bool
  flusher : Flusher
  out : Bytes
  shutdown : Shutdown
  accepted : List Bytes

inductive Label where
  | take
  | release
  | writeLine (text : Bytes)
  | flush (bytes : Nat)
  | shutdown
  deriving DecidableEq, Repr

def State.unreferenced (s : State) : State :=
  if s.tasks = 0 ∧ s.registered = false ∧ s.shutdown ≠ .stopping then
    { s with chan := s.chan.dropSender }
  else s

def writeLine (s : State) (text : Bytes) : State :=
  match s.chan.trySend text with
  | (.sent, chan) => { s with chan := chan, accepted := s.accepted ++ [text] }
  | _ => s

def flush (s : State) (bytes : Nat) : Option State :=
  match s.flusher with
  | .receiving =>
    match s.chan.tryRecv with
    | (.item text, chan) => some { s with chan := chan, flusher := .line text }
    | (.disconnected, _) => some { s with flusher := .closing }
    | (.empty, _) => none
  | .line text => some { s with out := s.out ++ text.take bytes, flusher := .lineEnd }
  | .lineEnd => some { s with out := s.out ++ newline.take bytes, flusher := .draining }
  | .draining =>
    match s.chan.tryRecv with
    | (.item text, chan) => some { s with chan := chan, flusher := .line text }
    | _ => some { s with flusher := .flushing }
  | .flushing => some { s with flusher := .receiving }
  | .closing => some { s with chan := s.chan.dropReceiver, flusher := .exited }
  | .exited => none

def step (s : State) : Label → Option State
  | .take => if 0 < s.tasks ∨ s.registered = true then some { s with tasks := s.tasks + 1 } else none
  | .release => if 0 < s.tasks then some { s with tasks := s.tasks - 1 }.unreferenced else none
  | .writeLine text => if 0 < s.tasks then some (writeLine s text) else none
  | .flush bytes => flush s bytes
  | .shutdown =>
    match s.shutdown with
    | .running => some { s with registered := false, shutdown := .stopping }
    | .stopping => some { s with shutdown := .stopped }.unreferenced
    | .stopped => some { s with shutdown := .returned }
    | .returned => none

def initial : State where
  chan := Chan.create Bytes channelCap
  tasks := 0
  registered := true
  flusher := .receiving
  out := []
  shutdown := .running
  accepted := []

def system : System State Label where
  start s := s = initial
  step := step

def render (lines : List Bytes) : Bytes := lines.flatMap (· ++ newline)

def inHand : Flusher → Bytes
  | .line text => text ++ newline
  | .lineEnd => newline
  | _ => []

/-- Shutdown returns when the channel is empty and the flusher has put every line it took; no
    thread queues a line after that, and no write stops short. -/
def drained (s : State) : Label → Bool
  | .shutdown => s.shutdown ≠ .stopped || s.chan.buf = [] && inHand s.flusher = []
  | .writeLine _ => s.shutdown ≠ .returned
  | .flush bytes =>
    match s.flusher with
    | .line text => text.length ≤ bytes
    | .lineEnd => 1 ≤ bytes
    | _ => true
  | _ => true

@[simp] theorem render_nil : render [] = [] := rfl

@[simp] theorem render_cons (text : Bytes) (lines : List Bytes) :
    render (text :: lines) = text ++ newline ++ render lines := rfl

@[simp] theorem render_append (lines more : List Bytes) :
    render (lines ++ more) = render lines ++ render more := List.flatMap_append

/-- Every accepted line is out, in the flusher's hand or in the channel, in this order; and
    nothing is left once shutdown has returned. -/
structure LogInv (s : State) : Prop where
  accounted : s.out ++ inHand s.flusher ++ render s.chan.buf = render s.accepted
  returned : s.shutdown = .returned → s.chan.buf = [] ∧ inHand s.flusher = []

theorem unreferenced_inv {s : State} (inv : LogInv s) : LogInv s.unreferenced := by
  unfold State.unreferenced
  split
  · exact ⟨inv.accounted, inv.returned⟩
  · exact inv

theorem receive_inv {s : State} {text : Bytes} {chan : Chan Bytes channelCap} (inv : LogInv s)
    (free : inHand s.flusher = []) (received : s.chan.tryRecv = (.item text, chan)) :
    LogInv { s with chan := chan, flusher := .line text } := by
  have taken : s.chan.buf = text :: chan.buf := by
    unfold Chan.tryRecv at received
    split at received
    · next rest buf =>
      cases received
      simp [buf, Chan.pop]
    · split at received <;> cases received
  constructor
  · have whole := inv.accounted
    rw [free, taken, render_cons, List.append_nil] at whole
    simp only [inHand]
    rw [← whole]
    simp only [List.append_assoc]
  · intro back
    have none_left := (inv.returned back).1
    rw [taken] at none_left
    cases none_left

theorem idle_inv {s s' : State} (inv : LogInv s) (free : inHand s.flusher = [])
    (free' : inHand s'.flusher = []) (buf : s'.chan.buf = s.chan.buf) (out : s'.out = s.out)
    (accepted : s'.accepted = s.accepted) (shutdown : s'.shutdown = s.shutdown) : LogInv s' := by
  constructor
  · rw [free', buf, out, accepted]
    have whole := inv.accounted
    rw [free] at whole
    exact whole
  · intro back
    rw [shutdown] at back
    rw [buf]
    exact ⟨(inv.returned back).1, free'⟩

theorem flush_inv {s s' : State} {bytes : Nat} (inv : LogInv s)
    (whole : drained s (.flush bytes) = true) (moved : flush s bytes = some s') : LogInv s' := by
  unfold flush at moved
  cases at_pc : s.flusher with
  | receiving =>
    have free : inHand s.flusher = [] := by rw [at_pc]; rfl
    simp only [at_pc] at moved
    split at moved
    · next received => cases moved; exact receive_inv inv free received
    · cases moved; exact idle_inv inv free rfl rfl rfl rfl rfl
    · cases moved
  | line text =>
    simp only [at_pc] at moved
    cases moved
    simp only [drained, at_pc, decide_eq_true_eq] at whole
    constructor
    · have before := inv.accounted
      simp only [at_pc, inHand] at before ⊢
      rw [List.take_of_length_le whole, ← before]
      simp only [List.append_assoc]
    · intro back
      have nothing := (inv.returned back).2
      rw [at_pc] at nothing
      simp [inHand, newline] at nothing
  | lineEnd =>
    simp only [at_pc] at moved
    cases moved
    simp only [drained, at_pc, decide_eq_true_eq] at whole
    constructor
    · have before := inv.accounted
      simp only [at_pc, inHand] at before ⊢
      rw [List.take_of_length_le whole, ← before]
      simp only [List.append_assoc, List.nil_append]
    · intro back
      have nothing := (inv.returned back).2
      rw [at_pc] at nothing
      cases nothing
  | draining =>
    have free : inHand s.flusher = [] := by rw [at_pc]; rfl
    simp only [at_pc] at moved
    split at moved
    · next received => cases moved; exact receive_inv inv free received
    · cases moved; exact idle_inv inv free rfl rfl rfl rfl rfl
  | flushing | closing =>
    have free : inHand s.flusher = [] := by rw [at_pc]; rfl
    simp only [at_pc] at moved
    cases moved
    exact idle_inv inv free rfl rfl rfl rfl rfl
  | exited =>
    simp only [at_pc] at moved
    cases moved

theorem writeLine_inv {s : State} {text : Bytes} (inv : LogInv s)
    (before : s.shutdown ≠ .returned) : LogInv (writeLine s text) := by
  unfold writeLine
  rcases s.chan.trySend_cases text with ⟨_, sent⟩ | ⟨_, room, sent⟩ | ⟨_, sent⟩
  · rw [sent]
    exact inv
  · rw [sent]
    constructor
    · have whole := inv.accounted
      simp only [Chan.push, render_append, ← List.append_assoc]
      rw [whole]
    · intro back
      exact absurd back before
  · rw [sent]
    exact inv

theorem step_inv {s s' : State} {l : Label} (inv : LogInv s) (whole : drained s l = true)
    (moved : step s l = some s') : LogInv s' := by
  cases l with
  | take =>
    simp only [step] at moved
    split at moved
    · cases moved; exact ⟨inv.accounted, inv.returned⟩
    · cases moved
  | release =>
    simp only [step] at moved
    split at moved
    · cases moved; exact unreferenced_inv ⟨inv.accounted, inv.returned⟩
    · cases moved
  | writeLine text =>
    simp only [step] at moved
    split at moved
    · cases moved; exact writeLine_inv inv (by simpa [drained] using whole)
    · cases moved
  | flush bytes => exact flush_inv inv whole moved
  | shutdown =>
    simp only [step] at moved
    split at moved
    · cases moved; exact ⟨inv.accounted, by simp⟩
    · cases moved; exact unreferenced_inv ⟨inv.accounted, by simp⟩
    · next at_pc =>
      cases moved
      simp only [drained, at_pc, ne_eq, not_true_eq_false, decide_false, Bool.false_or,
        Bool.and_eq_true, decide_eq_true_eq] at whole
      exact ⟨inv.accounted, fun _ => whole⟩
    · cases moved

/-- Once shutdown has returned, every accepted line is out, once, in order and with its
    newline. -/
theorem log_drained {s : State} (reached : ReachableBy system (fun s l => drained s l = true) s)
    (back : s.shutdown = .returned) : s.out = render s.accepted := by
  have inv : LogInv s := by
    refine invariant LogInv ?_ (fun _ _ _ => step_inv) reached
    rintro s rfl
    exact ⟨rfl, by simp [initial]⟩
  obtain ⟨none_queued, none_held⟩ := inv.returned back
  have whole := inv.accounted
  rw [none_queued, none_held, render_nil, List.append_nil, List.append_nil] at whole
  exact whole

def twoLines : List Label :=
  [.take, .writeLine [97], .writeLine [98], .flush 0, .flush 1, .flush 1, .flush 0, .flush 1, .flush 1,
    .release, .shutdown, .shutdown, .shutdown]

theorem two_lines_drained :
    ∃ s, runBy system drained initial twoLines = some s ∧ s.shutdown = .returned ∧
      s.out = render s.accepted := by
  have ran : runBy system drained initial twoLines = some _ := rfl
  refine ⟨_, ran, rfl, ?_⟩
  exact log_drained (reachable_runBy (fun _ _ passed => passed) (.start rfl) ran) rfl

/-- One line is queued, and shutdown is back before the flusher has run. -/
theorem shutdown_leaves_line :
    ¬∀ s, Reachable system s → s.shutdown = .returned → s.out = render s.accepted := by
  intro written
  have ran : run system initial
      [.take, .writeLine [97], .release, .shutdown, .shutdown, .shutdown] = some _ := rfl
  have out := written _ (reachable_run (.start rfl) ran) rfl
  exact absurd out (by decide)

end KinoLogSink
