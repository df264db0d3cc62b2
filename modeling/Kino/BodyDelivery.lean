import Kino.RequestBody

/-!
What the strings returned by `read_body` are, and what ends them. The forwarder
moves whole frames into the channel in order; the reader cuts them anew. Both
keep one equation: the frames taken, queued, in the forwarder's hand, discarded
and still to come are the frames of the body.
-/
namespace KinoBodyDelivery
open Transitions Channels KinoRequestBody

def inHand : Forwarder → List Bytes
  | .sending bytes => [bytes]
  | _ => []

def passed (s : State) : List Bytes := s.taken ++ s.chan.buf

def Over (cfg : Config) (s : State) : Prop := 0 < cfg.maxBody ∧ cfg.maxBody < s.total

def AtEnd (s : State) : Prop := s.discarded = [] ∧ s.incoming = []

def Closed (cfg : Config) (s : State) : Prop :=
  match s.abandoned with
  | some .oversize => Over cfg s
  | some .timedOut => AtEnd s ∧ cfg.ending = .stalled
  | none => s.reader = .gone ∨ (AtEnd s ∧ cfg.ending ≠ .stalled)

def Phase (cfg : Config) (s : State) : Prop :=
  match s.fwd with
  | .pulling | .sending _ => s.discarded = [] ∧ s.abandoned = none
  | .abandoning .oversize => s.abandoned = none ∧ Over cfg s
  | .abandoning .timedOut => s.abandoned = none ∧ AtEnd s ∧ cfg.ending = .stalled
  | .closing | .done => Closed cfg s

structure FlowInv (cfg : Config) (s : State) : Prop where
  sender : s.chan.senders = if s.fwd = .done then 0 else 1
  receiver : cfg.endStream = false → s.chan.receiver = false → s.reader = .gone
  flow : cfg.data = passed s ++ inHand s.fwd ++ s.discarded ++ dataOf s.incoming
  total : s.total = (passed s ++ inHand s.fwd ++ s.discarded).flatten.length
  capped : 0 < cfg.maxBody → (passed s ++ inHand s.fwd).flatten.length ≤ cfg.maxBody
  phase : Phase cfg s
  bodyless : cfg.endStream = true → s.fwd = .done

theorem initial_flow_inv (cfg : Config) : FlowInv cfg (initial cfg) := by
  cases ended : cfg.endStream with
  | true =>
    obtain ⟨frames, ending⟩ := cfg.ended ended
    constructor <;>
      simp [initial, ended, passed, inHand, Chan.absent, Config.data, Phase, Closed, AtEnd, frames,
        ending, dataOf]
  | false =>
    constructor <;>
      simp [initial, ended, passed, inHand, Chan.create, Config.data, Phase]

/-- The part of the state only the forwarder changes, and the one sequence the
    reader leaves as it is when it takes a frame. -/
structure SameFlow (s s' : State) : Prop where
  incoming : s'.incoming = s.incoming
  fwd : s'.fwd = s.fwd
  total : s'.total = s.total
  abandoned : s'.abandoned = s.abandoned
  discarded : s'.discarded = s.discarded
  passed : passed s' = passed s
  senders : s'.chan.senders = s.chan.senders
  receiver : s'.chan.receiver = s.chan.receiver ∨ s'.reader = .gone
  gone : s.reader = .gone → s'.reader = .gone

theorem same_flow_inv {cfg : Config} {s s' : State} (inv : FlowInv cfg s) (same : SameFlow s s') :
    FlowInv cfg s' := by
  obtain ⟨e1, e2, e3, e4, e5, e6, e7, receiver, gone⟩ := same
  constructor
  · rw [e7, e2]; exact inv.sender
  · intro body dead
    rcases receiver with same | left
    · exact gone (inv.receiver body (same ▸ dead))
    · exact left
  · rw [e6, e2, e5, e1]; exact inv.flow
  · rw [e3, e6, e2, e5]; exact inv.total
  · rw [e6, e2]; exact inv.capped
  · have phase := inv.phase
    unfold Phase Closed Over AtEnd at phase ⊢
    rw [e1, e2, e3, e4, e5]
    grind
  · rw [e2]; exact inv.bodyless

theorem gotChunk_same_flow {s : State} {maxLen : Nat} {bytes : Bytes} (present : s.reader ≠ .gone) :
    SameFlow s (gotChunk s maxLen bytes) := by
  unfold gotChunk
  split <;> constructor <;> simp [State.finish, passed, present]

theorem pop_passed {s : State} {bytes : Bytes} {rest : List Bytes} (queued : s.chan.buf = bytes :: rest) :
    (s.taken ++ [bytes]) ++ s.chan.pop.buf = passed s := by
  simp [passed, queued, Chan.pop]

theorem take_same_flow {s : State} {bytes : Bytes} {rest : List Bytes}
    (queued : s.chan.buf = bytes :: rest) :
    SameFlow s { s with chan := s.chan.pop, taken := s.taken ++ [bytes] } :=
  ⟨rfl, rfl, rfl, rfl, rfl, pop_passed queued, rfl, .inl rfl, id⟩

theorem SameFlow.trans {a b c : State} (first : SameFlow a b) (second : SameFlow b c) :
    SameFlow a c := by
  obtain ⟨a1, a2, a3, a4, a5, a6, a7, a8, a9⟩ := first
  obtain ⟨b1, b2, b3, b4, b5, b6, b7, b8, b9⟩ := second
  refine ⟨b1.trans a1, b2.trans a2, b3.trans a3, b4.trans a4, b5.trans a5, b6.trans a6,
    b7.trans a7, ?_, b9 ∘ a9⟩
  rcases b8 with same | left
  · exact a8.imp same.trans b9
  · exact .inr left

/-- A step of a forwarder that goes on running leaves the two ends of the channel alone. -/
theorem running_flow_inv {cfg : Config} {s s' : State} (inv : FlowInv cfg s)
    (running : s.fwd ≠ .done) (still : s'.fwd ≠ .done)
    (senders : s'.chan.senders = s.chan.senders) (receiver : s'.chan.receiver = s.chan.receiver)
    (reader : s'.reader = s.reader)
    (flow : cfg.data = passed s' ++ inHand s'.fwd ++ s'.discarded ++ dataOf s'.incoming)
    (total : s'.total = (passed s' ++ inHand s'.fwd ++ s'.discarded).flatten.length)
    (capped : 0 < cfg.maxBody → (passed s' ++ inHand s'.fwd).flatten.length ≤ cfg.maxBody)
    (phase : Phase cfg s') : FlowInv cfg s' := by
  refine ⟨?_, ?_, flow, total, capped, phase, ?_⟩
  · rw [senders, inv.sender, if_neg running, if_neg still]
  · rw [receiver, reader]
    exact inv.receiver
  · intro ended
    exact absurd (inv.bodyless ended) running

theorem turn_flow_inv {cfg : Config} {s : State} {f : Forwarder} {flag : Option BodyAbandon}
    (inv : FlowInv cfg s) (running : s.fwd ≠ .done) (still : f ≠ .done)
    (hand : inHand f = inHand s.fwd) (phase : Phase cfg { s with fwd := f, abandoned := flag }) :
    FlowInv cfg { s with fwd := f, abandoned := flag } := by
  refine running_flow_inv inv running still rfl rfl rfl ?_ ?_ ?_ phase
  · rw [hand]
    exact inv.flow
  · rw [hand]
    exact inv.total
  · rw [hand]
    exact inv.capped

theorem step_flow_inv {cfg : Config} {s s' : State} {l : Label} (inv : FlowInv cfg s)
    (moved : Move cfg s l s') : FlowInv cfg s' := by
  have phase := inv.phase
  have flow := inv.flow
  have total := inv.total
  have capped := inv.capped
  cases moved with
  | refuse bytes rest at_fwd next exceeds =>
    simp only [Phase, at_fwd] at phase
    simp only [at_fwd, next, inHand, phase.1, dataOf] at flow total capped
    refine running_flow_inv inv (by simp [at_fwd]) (by simp) rfl rfl rfl ?_ ?_ ?_ ?_
    · simpa [passed, inHand] using flow
    · simp [passed, inHand] at total ⊢
      omega
    · simpa [passed, inHand] using capped
    · exact ⟨phase.2, exceeds⟩
  | pull bytes rest at_fwd next under =>
    simp only [Phase, at_fwd] at phase
    simp only [at_fwd, next, inHand, phase.1, dataOf] at flow total
    refine running_flow_inv inv (by simp [at_fwd]) (by simp) rfl rfl rfl ?_ ?_ ?_ ?_
    · simpa [passed, inHand, phase.1] using flow
    · simp [passed, inHand, phase.1] at total ⊢
      omega
    · intro limited
      simp [passed, inHand] at total ⊢
      omega
    · exact phase
  | skip rest at_fwd next =>
    simp only [next, dataOf] at flow
    refine ⟨inv.sender, inv.receiver, flow, inv.total, inv.capped, ?_, inv.bodyless⟩
    simpa only [Phase, at_fwd] using phase
  | bodyEnd at_fwd next ending =>
    simp only [Phase, at_fwd] at phase
    refine turn_flow_inv inv (by simp [at_fwd]) (by simp) (by simp [at_fwd, inHand]) ?_
    simp [Phase, Closed, phase.2, AtEnd, phase.1, next, ending]
  | stall at_fwd next ending =>
    simp only [Phase, at_fwd] at phase
    refine turn_flow_inv inv (by simp [at_fwd]) (by simp) (by simp [at_fwd, inHand]) ?_
    simp [Phase, phase.2, AtEnd, phase.1, next, ending]
  | send bytes at_fwd room alive =>
    simp only [Phase, at_fwd] at phase
    simp only [at_fwd, inHand] at flow total capped
    refine running_flow_inv inv (by simp [at_fwd]) (by simp) rfl rfl rfl ?_ ?_ ?_ ?_
    · simpa [passed, inHand, Chan.push] using flow
    · simpa [passed, inHand, Chan.push] using total
    · simpa [passed, inHand, Chan.push] using capped
    · exact phase
  | unsent bytes at_fwd dead =>
    simp only [Phase, at_fwd] at phase
    simp only [at_fwd, inHand, phase.1] at flow total capped
    have body : cfg.endStream = false := by
      by_contra ended
      simpa [at_fwd] using inv.bodyless (by simpa using ended)
    refine running_flow_inv inv (by simp [at_fwd]) (by simp) rfl rfl rfl ?_ ?_ ?_ ?_
    · simpa [passed, inHand] using flow
    · simpa [passed, inHand] using total
    · intro limited
      have within := capped limited
      simp [passed, inHand] at within ⊢
      omega
    · simp [Phase, Closed, phase.2, inv.receiver body dead]
  | flag why at_fwd =>
    simp only [Phase, at_fwd] at phase
    refine turn_flow_inv inv (by simp [at_fwd]) (by simp) (by simp [at_fwd, inHand]) ?_
    cases why <;> simp only [Phase, Closed] <;> exact phase.2
  | close at_fwd =>
    have sender := inv.sender
    simp only [Phase, at_fwd] at phase
    simp only [at_fwd, inHand] at flow total capped
    exact ⟨by simp [Chan.dropSender, sender, at_fwd], inv.receiver, flow, total, capped, phase,
      fun _ => rfl⟩
  | recv maxLen bytes rest at_reader queued =>
    exact same_flow_inv inv ((take_same_flow queued).trans (gotChunk_same_flow (by simp [at_reader])))
  | drainPart maxLen out more rest at_reader short queued =>
    refine same_flow_inv inv ((take_same_flow queued).trans ?_)
    constructor <;> simp [passed, at_reader]
  | drainWhole maxLen out more rest at_reader short queued =>
    refine same_flow_inv inv ((take_same_flow queued).trans ?_)
    constructor <;> simp [passed, at_reader]
  | readLeftover n bytes at_reader =>
    refine same_flow_inv inv (SameFlow.trans ?_ (gotChunk_same_flow (by simp [at_reader])))
    constructor <;> simp [passed, at_reader]
  | dropCtx at_reader =>
    refine same_flow_inv inv ?_
    constructor <;> simp [passed, Chan.dropReceiver]
  | _ =>
    refine same_flow_inv inv ?_
    constructor <;> simp_all [passed, State.finish]

theorem reachable_flow_inv {cfg : Config} {s : State} (reached : Reachable (system cfg) s) :
    FlowInv cfg s :=
  reachable_invariant (FlowInv cfg) (by rintro s rfl; exact initial_flow_inv cfg)
    (fun _ _ _ inv moved => step_flow_inv inv (step_move moved)) reached

def chunkOf : ReadResult → Bytes
  | .chunk bytes => bytes
  | _ => []

/-- Every byte the finished calls have handed to the app, in order. -/
def returned (results : List Done) : Bytes := results.flatMap fun e => chunkOf e.result

@[simp] theorem returned_append (results : List Done) (e : Done) :
    returned (results ++ [e]) = returned results ++ chunkOf e.result := by
  simp [returned]

def inReader : Reader → Bytes
  | .draining _ out => out
  | _ => []

def InCall (s : State) : Prop :=
  match s.reader with
  | .receiving maxLen => maxLen = max s.asked 1 ∧ s.leftover = none ∧ s.before = s.taken
  | .disconnected _ => s.leftover = none ∧ s.before = s.taken ∧ s.chan.buf = [] ∧ s.fwd = .done
  | .draining maxLen out => maxLen = max s.asked 1 ∧ out.length ≤ maxLen ∧
      (s.leftover ≠ none → out.length = maxLen) ∧ (s.before.length < s.taken.length ∨ out ≠ []) ∧
      (out = [] → [] ∈ s.taken)
  | _ => True

structure ReadInv (s : State) : Prop where
  bytes : returned s.results ++ inReader s.reader ++ s.leftover.getD [] = s.taken.flatten
  nonempty : ∀ b, s.leftover = some b → b ≠ []
  call : InCall s

theorem initial_read_inv (cfg : Config) : ReadInv (initial cfg) := by
  constructor <;> simp [initial, returned, inReader, InCall]

theorem forward_keeps_reader {cfg : Config} {s s' : State} (moved : Move cfg s .forward s') :
    s'.reader = s.reader ∧ s'.leftover = s.leftover ∧ s'.taken = s.taken ∧ s'.before = s.before ∧
    s'.asked = s.asked ∧ s'.results = s.results ∧ s.fwd ≠ .done := by
  cases moved <;> simp_all

theorem gotChunk_read_inv {s : State} {bytes : Bytes} (none_left : s.leftover = none)
    (held : returned s.results ++ bytes = s.taken.flatten)
    (fresh : s.before.length < s.taken.length ∨ bytes ≠ []) (empty : bytes = [] → [] ∈ s.taken) :
    ReadInv (gotChunk s (max s.asked 1) bytes) := by
  unfold gotChunk
  split
  · rename_i long
    constructor
    · simpa [State.finish, chunkOf, inReader] using held
    · intro b eq
      simp only [State.finish, Option.some.injEq] at eq
      subst b
      simp only [ne_eq, List.drop_eq_nil_iff]
      omega
    · trivial
  · rename_i short
    constructor
    · simpa [inReader, none_left] using held
    · intro b eq; simp [none_left] at eq
    · exact ⟨rfl, by omega, by simp [none_left], fresh, empty⟩

theorem step_read_inv {cfg : Config} {s s' : State} {l : Label} (flow : FlowInv cfg s)
    (inv : ReadInv s) (moved : Move cfg s l s') : ReadInv s' := by
  have call := inv.call
  have bytes_eq := inv.bytes
  cases l with
  | forward =>
    obtain ⟨e1, e2, e3, e4, e5, e6, running⟩ := forward_keeps_reader moved
    refine ⟨by rw [e1, e2, e3, e6]; exact inv.bytes, by rw [e2]; exact inv.nonempty, ?_⟩
    unfold InCall at call ⊢
    rw [e1, e2, e3, e4, e5]
    cases at_reader : s.reader with
    | disconnected maxLen =>
      simp only [at_reader] at call
      exact absurd call.2.2.2 running
    | receiving | draining => simpa only [at_reader] using call
    | queued | sawEmpty | idle | gone => trivial
  | work =>
    cases moved with
    | secondRead at_reader =>
      refine ⟨?_, inv.nonempty, trivial⟩
      simpa [inReader, at_reader] using bytes_eq
    | recv maxLen bytes rest at_reader queued =>
      simp only [InCall, at_reader] at call
      obtain ⟨rfl, none_left, before⟩ := call
      refine gotChunk_read_inv none_left ?_ (.inl (by simp [before])) (by simp_all)
      simpa [at_reader, inReader, none_left] using bytes_eq
    | sawEnd maxLen at_reader drained closed =>
      simp only [InCall, at_reader] at call
      have done : s.fwd = .done := by
        by_contra running
        have := flow.sender
        simp [running, closed] at this
      refine ⟨?_, inv.nonempty, ⟨call.2.1, call.2.2, drained, done⟩⟩
      simpa [inReader, at_reader] using bytes_eq
    | judge maxLen at_reader =>
      have nothing : chunkOf (verdict s.abandoned) = [] := by
        rcases s.abandoned with _ | _ | _ <;> rfl
      refine ⟨?_, inv.nonempty, trivial⟩
      simpa [State.finish, nothing, inReader, at_reader] using bytes_eq
    | drainPart maxLen out more rest at_reader short queued long =>
      simp only [InCall, at_reader] at call
      obtain ⟨limit, -, kept, -⟩ := call
      have none_left : s.leftover = none := by
        by_contra some_left
        have := kept some_left
        omega
      have some_bytes : out ++ more.take (maxLen - out.length) ≠ [] := by
        intro empty
        simp only [List.append_eq_nil_iff, List.take_eq_nil_iff] at empty
        rcases empty.2 with h | h
        · omega
        · simp [h] at long
      refine ⟨?_, ?_, limit, ?_, ?_, .inr some_bytes, fun empty => absurd empty some_bytes⟩
      · simp only [at_reader, inReader, none_left, Option.getD_none, List.append_nil] at bytes_eq
        simp [inReader, ← bytes_eq]
      · intro b eq
        simp only [Option.some.injEq] at eq
        subst b
        simp [long]
      · simp; omega
      · intro _; simp; omega
    | drainWhole maxLen out more rest at_reader short queued fits =>
      simp only [InCall, at_reader] at call
      obtain ⟨limit, -, kept, fresh, empty⟩ := call
      have none_left : s.leftover = none := by
        by_contra some_left
        have := kept some_left
        omega
      refine ⟨?_, inv.nonempty, limit, ?_, ?_, ?_, ?_⟩
      · simp only [at_reader, inReader, none_left, Option.getD_none, List.append_nil] at bytes_eq
        simp [inReader, none_left, ← bytes_eq]
      · simp; omega
      · simp [none_left]
      · rcases fresh with h | h
        · left; simp; omega
        · right; simp [h]
      · intro none_out
        simp only [List.append_eq_nil_iff] at none_out
        simp [empty none_out.1]
    | drained maxLen out at_reader =>
      refine ⟨?_, inv.nonempty, trivial⟩
      simpa [State.finish, chunkOf, inReader, at_reader] using bytes_eq
  | bodyPossible =>
    cases moved with
    | bodyless at_reader | firstReadEmpty at_reader | firstReadFull at_reader =>
      refine ⟨?_, inv.nonempty, trivial⟩
      simpa [inReader, at_reader] using bytes_eq
  | read n =>
    cases moved with
    | readLeftover _ bytes at_reader kept =>
      have some_bytes := inv.nonempty bytes kept
      refine gotChunk_read_inv rfl ?_ (.inr some_bytes) (fun empty => absurd empty some_bytes)
      simpa [at_reader, inReader, kept] using bytes_eq
    | readBodyless _ at_reader none_left =>
      refine ⟨?_, inv.nonempty, trivial⟩
      simpa [State.finish, chunkOf, inReader, at_reader] using bytes_eq
    | readNext _ at_reader none_left =>
      refine ⟨?_, inv.nonempty, rfl, none_left, rfl⟩
      simpa [inReader, at_reader] using bytes_eq
  | dropCtx =>
    cases moved with
    | dropCtx at_reader =>
      refine ⟨?_, inv.nonempty, trivial⟩
      rcases at_reader with h | h <;> simpa [inReader, h] using bytes_eq

theorem reachable_read_inv {cfg : Config} {s : State} (reached : Reachable (system cfg) s) :
    FlowInv cfg s ∧ ReadInv s := by
  refine reachable_invariant (fun s => FlowInv cfg s ∧ ReadInv s) ?_ ?_ reached
  · rintro s rfl
    exact ⟨initial_flow_inv cfg, initial_read_inv cfg⟩
  · rintro s t l ⟨flow, read⟩ moved
    exact ⟨step_flow_inv flow (step_move moved), step_read_inv flow read (step_move moved)⟩

theorem passed_in_order {cfg : Config} {s : State} (flow : FlowInv cfg s) : passed s <+: cfg.data := by
  rw [flow.flow]
  exact ⟨inHand s.fwd ++ s.discarded ++ dataOf s.incoming, by simp⟩

theorem taken_in_order {cfg : Config} {s : State} (flow : FlowInv cfg s) : s.taken <+: cfg.data :=
  List.IsPrefix.trans ⟨s.chan.buf, rfl⟩ (passed_in_order flow)

theorem flatten_in_order {xs ys : List Bytes} (h : xs <+: ys) : xs.flatten <+: ys.flatten := by
  obtain ⟨rest, rfl⟩ := h
  exact ⟨rest.flatten, by simp⟩

theorem returned_in_order {cfg : Config} {s : State} (flow : FlowInv cfg s) (read : ReadInv s) :
    returned s.results ++ inReader s.reader ++ s.leftover.getD [] <+: cfg.bytes := by
  rw [read.bytes]
  exact flatten_in_order (taken_in_order flow)

theorem over_not_within {cfg : Config} {s : State} (flow : FlowInv cfg s) (exceeds : Over cfg s) :
    ¬ cfg.Within := by
  have total := flow.total
  have bytes : cfg.bytes.length = s.total + (dataOf s.incoming).flatten.length := by
    rw [Config.bytes, flow.flow, total]
    simp
    omega
  unfold Config.Within
  unfold Over at exceeds
  omega

theorem ended_all_passed {cfg : Config} {s : State} (flow : FlowInv cfg s) (done : s.fwd = .done)
    (ended : AtEnd s) : passed s = cfg.data ∧ cfg.Within := by
  have eq := flow.flow
  simp only [done, inHand, ended.1, ended.2, dataOf, List.append_nil] at eq
  refine ⟨eq.symm, ?_⟩
  have capped := flow.capped
  simp only [done, inHand, List.append_nil, ← eq] at capped
  unfold Config.Within Config.bytes
  omega

structure DoneOk (cfg : Config) (pre : List Done) (e : Done) : Prop where
  short : ∀ b, e.result = .chunk b → b.length ≤ max e.maxLen 1
  fresh : ∀ b, e.result = .chunk b →
    e.takenBefore.length < cfg.data.length ∨ (returned pre).length < cfg.bytes.length
  nonempty : e.result = .chunk [] → [] ∈ cfg.data
  eof : e.result = .eof → e.takenBefore = cfg.data ∧ returned pre = cfg.bytes ∧ cfg.Within ∧
    cfg.ending ≠ .stalled
  raised : ∀ m, e.result = .raised m → (m = bodyTooLargeError ∧ ¬ cfg.Within) ∨
    (m = bodyTimeoutError ∧ cfg.Within ∧ cfg.ending = .stalled ∧ returned pre = cfg.bytes)

def HistoryOk (cfg : Config) (results : List Done) : Prop :=
  ∀ pre e post, results = pre ++ e :: post → DoneOk cfg pre e

theorem history_append {cfg : Config} {results : List Done} {e : Done}
    (history : HistoryOk cfg results) (ok : DoneOk cfg results e) :
    HistoryOk cfg (results ++ [e]) := by
  intro pre f post eq
  rcases List.eq_nil_or_concat post with rfl | ⟨init, last, rfl⟩
  · obtain ⟨rfl, same⟩ := List.append_inj' eq rfl
    cases same
    exact ok
  · have split : results ++ [e] = (pre ++ f :: init) ++ [last] := by simpa using eq
    obtain ⟨rfl, -⟩ := List.append_inj' split rfl
    exact history pre f init rfl

theorem chunk_ok {cfg : Config} {pre : List Done} {n : Nat} {before : List Bytes} {b : Bytes}
    (short : b.length ≤ max n 1)
    (fresh : before.length < cfg.data.length ∨ (returned pre).length < cfg.bytes.length)
    (nonempty : b = [] → [] ∈ cfg.data) :
    DoneOk cfg pre ⟨n, before, .chunk b⟩ := by
  constructor <;> simp_all

theorem verdict_ok {cfg : Config} {s : State} {n : Nat} (flow : FlowInv cfg s) (read : ReadInv s)
    (at_reader : s.reader = .disconnected n) :
    DoneOk cfg s.results ⟨s.asked, s.before, verdict s.abandoned⟩ := by
  have call := read.call
  simp only [InCall, at_reader] at call
  obtain ⟨none_left, before, drained, done⟩ := call
  have phase := flow.phase
  simp only [Phase, done, Closed] at phase
  have all : AtEnd s → s.before = cfg.data ∧ returned s.results = cfg.bytes ∧ cfg.Within := by
    intro ended
    obtain ⟨eq, within⟩ := ended_all_passed flow done ended
    simp only [passed, drained, List.append_nil] at eq
    have bytes := read.bytes
    simp only [at_reader, inReader, none_left, Option.getD_none, List.append_nil] at bytes
    exact ⟨before.trans eq, by rw [bytes, eq]; rfl, within⟩
  cases flag : s.abandoned with
  | none =>
    simp only [flag, at_reader, reduceCtorEq, false_or] at phase
    obtain ⟨e1, e2, e3⟩ := all phase.1
    constructor <;> simp_all [verdict]
  | some why =>
    cases why with
    | oversize =>
      simp only [flag] at phase
      have := over_not_within flow phase
      constructor <;> simp_all [verdict]
    | timedOut =>
      simp only [flag] at phase
      obtain ⟨e1, e2, e3⟩ := all phase.1
      constructor <;> simp_all [verdict]

theorem gotChunk_history {cfg : Config} {s : State} {bytes : Bytes}
    (history : HistoryOk cfg s.results)
    (fresh : s.before.length < cfg.data.length ∨ (returned s.results).length < cfg.bytes.length) :
    HistoryOk cfg (gotChunk s (max s.asked 1) bytes).results := by
  unfold gotChunk
  split
  · rename_i long
    refine history_append history (chunk_ok (by simp; omega) fresh ?_)
    intro empty
    rcases List.take_eq_nil_iff.mp empty with h | h
    · omega
    · simp [h] at long
  · exact history

theorem step_history {cfg : Config} {s s' : State} {l : Label} (flow : FlowInv cfg s)
    (read : ReadInv s) (history : HistoryOk cfg s.results) (moved : Move cfg s l s') :
    HistoryOk cfg s'.results := by
  have call := read.call
  have in_body := (returned_in_order flow read).length_le
  cases moved with
  | recv maxLen bytes rest at_reader queued =>
    simp only [InCall, at_reader] at call
    obtain ⟨rfl, -, before⟩ := call
    refine gotChunk_history history (.inl ?_)
    have taken := (passed_in_order flow).length_le
    simp only [passed, queued, List.length_append, List.length_cons] at taken
    rw [before]
    omega
  | readLeftover n bytes at_reader kept =>
    refine gotChunk_history history (.inr ?_)
    show (returned s.results).length < _
    have some_bytes := List.length_pos_iff.mpr (read.nonempty bytes kept)
    simp only [kept, Option.getD_some, List.length_append] at in_body
    omega
  | drained maxLen out at_reader =>
    simp only [InCall, at_reader] at call
    obtain ⟨rfl, short, -, fresh, empty⟩ := call
    refine history_append history
      (chunk_ok short ?_ fun none_out => (taken_in_order flow).subset (empty none_out))
    rcases fresh with older | some_bytes
    · left
      have taken := (taken_in_order flow).length_le
      omega
    · right
      have some_bytes := List.length_pos_iff.mpr some_bytes
      simp only [at_reader, inReader, List.length_append] at in_body
      omega
  | judge maxLen at_reader => exact history_append history (verdict_ok flow read at_reader)
  | readBodyless n at_reader none_left ended =>
    obtain ⟨frames, ending⟩ := cfg.ended ended
    have no_data : cfg.data = [] := by simp [Config.data, frames, dataOf]
    have no_bytes : cfg.bytes = [] := by simp [Config.bytes, no_data]
    have taken : s.taken = [] := by simpa [no_data] using taken_in_order flow
    have nothing : returned s.results = [] := by
      simpa [no_bytes, at_reader, inReader, none_left] using returned_in_order flow read
    refine history_append history ?_
    constructor <;> simp [taken, no_data, no_bytes, nothing, ending, Config.Within]
  | _ => exact history

def NotChunk (r : ReadResult) : Prop := ∀ b, r ≠ .chunk b

structure Ended (s : State) (r : ReadResult) : Prop where
  done : s.fwd = .done
  drained : s.chan.buf = []
  none_left : s.leftover = none
  verdict : verdict s.abandoned = r
  no_drain : ∀ n out, s.reader ≠ .draining n out

structure EndInv (s : State) : Prop where
  ended : ∀ e ∈ s.results, NotChunk e.result → Ended s e.result
  sticks : s.results.Pairwise fun e f => NotChunk e.result → f.result = e.result

theorem initial_end_inv (cfg : Config) : EndInv (initial cfg) := by
  constructor <;> simp [initial]

theorem end_inv_of_chunks {s : State} (chunks : ∀ e ∈ s.results, ¬ NotChunk e.result) :
    EndInv s :=
  ⟨fun e here other => absurd other (chunks e here),
    List.pairwise_of_forall_mem_list fun e here _ _ other => absurd other (chunks e here)⟩

theorem only_chunks {s : State} (inv : EndInv s) (open_ended : ∀ r, ¬ Ended s r) :
    ∀ e ∈ s.results, ¬ NotChunk e.result :=
  fun e here other => open_ended _ (inv.ended e here other)

theorem only_chunks_append {results : List Done} {n : Nat} {before : List Bytes} {b : Bytes}
    (chunks : ∀ e ∈ results, ¬ NotChunk e.result) :
    ∀ e ∈ results ++ [⟨n, before, .chunk b⟩], ¬ NotChunk e.result := by
  intro e here
  rcases List.mem_append.mp here with old | new
  · exact chunks e old
  · cases List.mem_singleton.mp new
    exact fun other => other b rfl

theorem gotChunk_end_inv {s : State} {maxLen : Nat} {bytes : Bytes}
    (chunks : ∀ e ∈ s.results, ¬ NotChunk e.result) : EndInv (gotChunk s maxLen bytes) := by
  unfold gotChunk
  split
  · exact end_inv_of_chunks (only_chunks_append chunks)
  · exact end_inv_of_chunks chunks

theorem finish_end_inv {s : State} {r : ReadResult} (inv : EndInv s) (ended : Ended s r)
    (same : ∀ e ∈ s.results, NotChunk e.result → r = e.result) : EndInv (s.finish r) := by
  obtain ⟨done, drained, none_left, verdict, no_drain⟩ := ended
  constructor
  · intro e here other
    rcases List.mem_append.mp here with old | new
    · exact ⟨done, drained, none_left, (inv.ended e old other).verdict, by simp [State.finish]⟩
    · cases List.mem_singleton.mp new
      exact ⟨done, drained, none_left, verdict, by simp [State.finish]⟩
  · refine List.pairwise_append.mpr ⟨inv.sticks, List.pairwise_singleton _ _, ?_⟩
    intro e here f last other
    cases List.mem_singleton.mp last
    exact same e here other

theorem bodyless_unflagged {cfg : Config} {s : State} (flow : FlowInv cfg s)
    (ended : cfg.endStream = true) : cfg.data = [] ∧ s.abandoned = none := by
  obtain ⟨frames, ending⟩ := cfg.ended ended
  have no_data : cfg.data = [] := by simp [Config.data, frames, dataOf]
  have within : cfg.Within := by simp [Config.Within, Config.bytes, no_data]
  have phase := flow.phase
  simp only [Phase, flow.bodyless ended, Closed] at phase
  refine ⟨no_data, ?_⟩
  cases flag : s.abandoned with
  | none => rfl
  | some why =>
    cases why with
    | oversize =>
      simp only [flag] at phase
      exact absurd within (over_not_within flow phase)
    | timedOut => simp only [flag, ending, reduceCtorEq, and_false] at phase

theorem bodyless_ended {cfg : Config} {s : State} (flow : FlowInv cfg s)
    (ended : cfg.endStream = true) (at_reader : s.reader = .idle) (none_left : s.leftover = none) :
    Ended s .eof := by
  obtain ⟨no_data, flag⟩ := bodyless_unflagged flow ended
  have empty := passed_in_order flow
  simp only [no_data, List.prefix_nil, passed, List.append_eq_nil_iff] at empty
  exact ⟨flow.bodyless ended, empty.2, none_left, by simp [flag, KinoRequestBody.verdict],
    by simp [at_reader]⟩

theorem step_end_inv {cfg : Config} {s s' : State} {l : Label} (flow : FlowInv cfg s)
    (read : ReadInv s) (inv : EndInv s) (moved : Move cfg s l s') : EndInv s' := by
  have call := read.call
  have chunks : (∀ r, ¬ Ended s r) → ∀ e ∈ s.results, ¬ NotChunk e.result := only_chunks inv
  rcases eq_or_ne l .forward with rfl | reading
  · obtain ⟨-, -, -, -, -, same, running⟩ := forward_keeps_reader moved
    refine end_inv_of_chunks ?_
    rw [same]
    exact chunks fun r ended => running ended.done
  cases moved with
  | refuse | pull | skip | bodyEnd | stall | send | unsent | flag | close =>
    exact absurd rfl reading
  | recv maxLen bytes rest at_reader queued =>
    have older := chunks fun r ended => by simpa [queued] using ended.drained
    exact gotChunk_end_inv older
  | readLeftover n bytes at_reader kept =>
    have older := chunks fun r ended => by simpa [kept] using ended.none_left
    exact gotChunk_end_inv older
  | drainPart maxLen out more rest at_reader | drainWhole maxLen out more rest at_reader =>
    have older := chunks fun r ended => ended.no_drain _ _ at_reader
    exact end_inv_of_chunks older
  | drained maxLen out at_reader =>
    have older := chunks fun r ended => ended.no_drain _ _ at_reader
    exact end_inv_of_chunks (only_chunks_append older)
  | judge maxLen at_reader =>
    simp only [InCall, at_reader] at call
    refine finish_end_inv inv ⟨call.2.2.2, call.2.2.1, call.1, rfl, by simp [at_reader]⟩ ?_
    exact fun e here other => (inv.ended e here other).verdict
  | readBodyless n at_reader none_left ended =>
    have at_end := bodyless_ended flow ended at_reader none_left
    refine finish_end_inv ⟨fun e here other => ?_, inv.sticks⟩ ?_ ?_
    · obtain ⟨h1, h2, h3, h4, h5⟩ := inv.ended e here other
      exact ⟨h1, h2, h3, h4, h5⟩
    · obtain ⟨h1, h2, h3, h4, h5⟩ := at_end
      exact ⟨h1, h2, h3, h4, h5⟩
    · exact fun e here other => at_end.verdict.symm.trans (inv.ended e here other).verdict
  | _ =>
    refine ⟨fun e here other => ?_, inv.sticks⟩
    obtain ⟨h1, h2, h3, h4, h5⟩ := inv.ended e here other
    constructor <;> simp_all [Chan.dropReceiver]

end KinoBodyDelivery
