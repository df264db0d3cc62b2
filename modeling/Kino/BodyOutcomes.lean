import Kino.BodyDelivery

/-!
Every `read_body` call comes back, a body yields boundedly many strings, and what
follows the strings is settled by how the body ended.
-/
namespace KinoBodyOutcomes
open Transitions Channels KinoRequestBody KinoBodyDelivery

structure BodyInv (cfg : Config) (s : State) : Prop where
  flow : FlowInv cfg s
  read : ReadInv s
  history : HistoryOk cfg s.results
  ends : EndInv s

theorem reachable_body_inv {cfg : Config} {s : State} (reached : Reachable (system cfg) s) :
    BodyInv cfg s := by
  refine reachable_invariant (BodyInv cfg) ?_ ?_ reached
  · rintro s rfl
    exact ⟨initial_flow_inv cfg, initial_read_inv cfg, by simp [HistoryOk, initial],
      initial_end_inv cfg⟩
  · rintro s t l ⟨flow, read, history, ends⟩ moved
    have move : Move cfg s l t := step_move moved
    exact ⟨step_flow_inv flow move, step_read_inv flow read move,
      step_history flow read history move, step_end_inv flow read ends move⟩

def isChunk : ReadResult → Bool
  | .chunk _ => true
  | _ => false

def chunks (results : List Done) : Nat := results.countP fun e => isChunk e.result

@[simp] theorem chunks_append (results : List Done) (e : Done) :
    chunks (results ++ [e]) = chunks results + if isChunk e.result then 1 else 0 := by
  simp [chunks]

def gathering : Reader → Nat
  | .draining _ _ => 1
  | _ => 0

def CountInv (s : State) : Prop :=
  chunks s.results + gathering s.reader ≤
    s.taken.length + (returned s.results ++ inReader s.reader).length

theorem gotChunk_count {s : State} {n : Nat} {bytes : Bytes}
    (held : chunks s.results < s.taken.length + (returned s.results ++ bytes.take (max n 1)).length) :
    CountInv (gotChunk s (max n 1) bytes) := by
  unfold gotChunk CountInv
  split
  · simp [State.finish, isChunk, gathering, chunkOf, inReader] at held ⊢
    omega
  · simp [gathering, inReader] at held ⊢
    omega

theorem step_count {cfg : Config} {s s' : State} {l : Label} (read : ReadInv s)
    (count : CountInv s) (moved : Move cfg s l s') : CountInv s' := by
  have call := read.call
  unfold CountInv at count
  cases moved with
  | recv maxLen bytes rest at_reader queued =>
    simp only [InCall, at_reader] at call
    obtain ⟨rfl, -, -⟩ := call
    refine gotChunk_count ?_
    simp [at_reader, gathering, inReader] at count ⊢
    omega
  | readLeftover n bytes at_reader kept =>
    have some_bytes := List.length_pos_iff.mpr (read.nonempty bytes kept)
    refine gotChunk_count ?_
    simp [at_reader, gathering, inReader] at count ⊢
    omega
  | drainPart maxLen out more rest at_reader | drainWhole maxLen out more rest at_reader =>
    unfold CountInv
    simp [at_reader, gathering, inReader] at count ⊢
    omega
  | drained maxLen out at_reader =>
    unfold CountInv
    simp [at_reader, gathering, inReader, State.finish, isChunk, chunkOf] at count ⊢
    omega
  | judge maxLen at_reader =>
    have none_new : isChunk (verdict s.abandoned) = false := by
      rcases s.abandoned with _ | _ | _ <;> rfl
    unfold CountInv
    simp [at_reader, gathering, inReader, State.finish, none_new] at count ⊢
    omega
  | readBodyless n at_reader =>
    unfold CountInv
    simp [at_reader, gathering, inReader, State.finish, isChunk] at count ⊢
    omega
  | dropCtx at_reader =>
    unfold CountInv
    rcases at_reader with h | h <;> simpa [h, gathering, inReader] using count
  | _ => simpa [CountInv, gathering, inReader, *] using count

theorem reachable_count {cfg : Config} {s : State} (reached : Reachable (system cfg) s) :
    CountInv s := by
  refine (reachable_invariant (fun s => (FlowInv cfg s ∧ ReadInv s) ∧ CountInv s) ?_ ?_ reached).2
  · rintro s rfl
    exact ⟨⟨initial_flow_inv cfg, initial_read_inv cfg⟩,
      by simp [CountInv, initial, chunks, gathering]⟩
  · rintro s t l ⟨⟨flow, read⟩, count⟩ moved
    have move : Move cfg s l t := step_move moved
    exact ⟨⟨step_flow_inv flow move, step_read_inv flow read move⟩, step_count read count move⟩

theorem chunks_bounded {cfg : Config} {s : State} (reached : Reachable (system cfg) s) :
    chunks s.results ≤ cfg.data.length + cfg.bytes.length := by
  obtain ⟨flow, read⟩ := reachable_read_inv reached
  have count := reachable_count reached
  have frames := (taken_in_order flow).length_le
  have bytes := (returned_in_order flow read).length_le
  unfold CountInv at count
  rw [List.length_append] at bytes
  omega

def forwarderLeft : Forwarder → Nat
  | .sending _ => 6
  | .pulling => 3
  | .abandoning _ => 2
  | .closing => 1
  | .done => 0

def readerLeft : Reader → Nat
  | .receiving _ => 2
  | .sawEmpty | .disconnected _ | .draining _ _ => 1
  | .queued | .idle | .gone => 0

def workLeft (s : State) : Nat :=
  4 * s.incoming.length + forwarderLeft s.fwd + 2 * s.chan.buf.length + readerLeft s.reader

def Inner (l : Label) : Prop := l = .forward ∨ l = .work

theorem gotChunk_work {s : State} {n : Nat} {bytes : Bytes} :
    workLeft (gotChunk s n bytes) ≤
      4 * s.incoming.length + forwarderLeft s.fwd + 2 * s.chan.buf.length + 1 := by
  unfold gotChunk workLeft
  split <;> simp [State.finish, readerLeft]

theorem inner_lowers {cfg : Config} {s s' : State} {l : Label} (inner : Inner l)
    (moved : Move cfg s l s') : workLeft s' < workLeft s := by
  cases moved with
  | recv maxLen bytes rest at_reader queued =>
    refine Nat.lt_of_le_of_lt gotChunk_work ?_
    simp only [workLeft, at_reader, queued, Chan.pop, readerLeft, List.tail_cons, List.length_cons]
    omega
  | bodyless | firstReadEmpty | firstReadFull | readLeftover | readBodyless | readNext | dropCtx =>
    rcases inner with h | h <;> cases h
  | _ =>
    simp [workLeft, Chan.pop, Chan.push, Chan.dropSender, State.finish, forwarderLeft, readerLeft, *]
    try omega

theorem forward_enabled {cfg : Config} {s : State} (running : s.fwd ≠ .done)
    (empty : s.chan.buf = []) : ∃ t, forward cfg s = some t := by
  unfold forward
  cases at_fwd : s.fwd with
  | done => exact absurd at_fwd running
  | pulling =>
    rcases s.incoming with _ | ⟨_ | _, rest⟩
    · cases cfg.ending <;> exact ⟨_, rfl⟩
    · dsimp only
      split <;> exact ⟨_, rfl⟩
    · exact ⟨_, rfl⟩
  | sending bytes =>
    rcases Chan.trySend_cases s.chan bytes with ⟨_, eq⟩ | ⟨_, _, eq⟩ | ⟨full, _⟩
    · exact ⟨_, by simp only [eq]; rfl⟩
    · exact ⟨_, by simp only [eq]; rfl⟩
    · simp [Chan.Blocks, empty] at full
  | abandoning why => exact ⟨_, rfl⟩
  | closing => exact ⟨_, rfl⟩

/-- A call waits only for the forwarder, which then does not wait for the worker. -/
theorem call_not_stuck {cfg : Config} {s : State} (flow : FlowInv cfg s)
    (in_call : readerLeft s.reader ≠ 0) : ∃ l t, Inner l ∧ step cfg s l = some t := by
  cases at_reader : s.reader with
  | queued | idle | gone => simp [at_reader, readerLeft] at in_call
  | sawEmpty => exact ⟨.work, _, .inr rfl, by simp only [step, work, at_reader]; rfl⟩
  | disconnected n =>
    refine ⟨.work, s.finish (verdict s.abandoned), .inr rfl, ?_⟩
    rcases flag : s.abandoned with _ | _ | _ <;> simp only [step, work, at_reader, flag, verdict]
  | draining n out =>
    by_cases short : out.length < n
    · rcases Chan.tryRecv_cases s.chan with ⟨more, rest, _, eq⟩ | ⟨_, _, eq⟩ | ⟨_, _, eq⟩
      · by_cases long : n - out.length < more.length <;>
          exact ⟨.work, _, .inr rfl, by simp only [step, work, at_reader, short, eq, long]; rfl⟩
      all_goals
        exact ⟨.work, _, .inr rfl, by simp only [step, work, at_reader, short, eq]; rfl⟩
    · exact ⟨.work, _, .inr rfl, by simp only [step, work, at_reader, short]; rfl⟩
  | receiving n =>
    rcases Chan.tryRecv_cases s.chan with ⟨_, _, _, eq⟩ | ⟨_, _, eq⟩ | ⟨empty, alive, _⟩
    · exact ⟨.work, _, .inr rfl, by simp only [step, work, at_reader, eq]; rfl⟩
    · exact ⟨.work, _, .inr rfl, by simp only [step, work, at_reader, eq]; rfl⟩
    · have running : s.fwd ≠ .done := fun done => alive (by simp [flow.sender, done])
      obtain ⟨t, moved⟩ := forward_enabled running empty
      exact ⟨.forward, t, .inl rfl, moved⟩

/-- However forwarder and worker are scheduled, they stop within a bounded number of
    steps, and when they have stopped no call is left hanging. -/
def CallsReturn (cfg : Config) (s : State) : Prop :=
  ∀ ls t, (∀ l ∈ ls, Inner l) → run (system cfg) s ls = some t →
    ls.length ≤ workLeft s ∧ ((∀ l, Inner l → step cfg t l = none) →
      t.reader = .queued ∨ t.reader = .idle ∨ t.reader = .gone)

theorem calls_return {cfg : Config} {s : State} (reached : Reachable (system cfg) s) :
    CallsReturn cfg s := by
  intro ls t labels ran
  have length := run_length_le workLeft Inner
    (fun _ _ _ inner moved => inner_lowers inner (step_move moved)) labels ran
  refine ⟨by omega, fun stopped => ?_⟩
  by_contra hanging
  have in_call : readerLeft t.reader ≠ 0 := by
    cases at_reader : t.reader <;> simp_all [readerLeft]
  have flow := reachable_flow_inv (reachable_run reached ran)
  obtain ⟨l, u, inner, moved⟩ := call_not_stuck flow in_call
  simp [stopped l inner] at moved

theorem step_reachable {cfg : Config} {s t : State} {l : Label} (reached : Reachable (system cfg) s)
    (moved : step cfg s l = some t) : Reachable (system cfg) t :=
  reachable_step (l := l) reached moved

def inRead : Reader → Nat
  | .receiving _ | .disconnected _ | .draining _ _ => 1
  | _ => 0

theorem gotChunk_reads {s : State} {n : Nat} {bytes : Bytes} :
    (gotChunk s n bytes).results.length + inRead (gotChunk s n bytes).reader =
      s.results.length + 1 := by
  unfold gotChunk
  split <;> simp [State.finish, inRead]

theorem inner_keeps_reads {cfg : Config} {s s' : State} {l : Label} (inner : Inner l)
    (in_read : inRead s.reader = 1) (moved : Move cfg s l s') :
    s'.results.length + inRead s'.reader = s.results.length + 1 ∧
    (s'.reader = .idle ∨ inRead s'.reader = 1) := by
  cases moved with
  | recv maxLen bytes rest at_reader queued =>
    refine ⟨gotChunk_reads, ?_⟩
    unfold gotChunk
    split <;> simp [State.finish, inRead]
  | bodyless | firstReadEmpty | firstReadFull | readLeftover | readBodyless | readNext | dropCtx =>
    rcases inner with h | h <;> cases h
  | secondRead at_reader => simp [at_reader, inRead] at in_read
  | _ => simp_all [inRead, State.finish]

theorem call_finishes {cfg : Config} {s : State} (reached : Reachable (system cfg) s)
    (in_read : inRead s.reader = 1) :
    ∃ t, Reachable (system cfg) t ∧ t.reader = .idle ∧ t.results.length = s.results.length + 1 := by
  obtain ⟨n, bound⟩ : ∃ n, workLeft s ≤ n := ⟨_, Nat.le_refl _⟩
  induction n generalizing s with
  | zero =>
    unfold workLeft at bound
    cases at_reader : s.reader <;> simp_all [inRead, readerLeft]
  | succ n ih =>
    have in_call : readerLeft s.reader ≠ 0 := by
      cases at_reader : s.reader <;> simp_all [inRead, readerLeft]
    obtain ⟨l, t, inner, moved⟩ := call_not_stuck (reachable_flow_inv reached) in_call
    have lower := inner_lowers inner (step_move moved)
    have next := step_reachable reached moved
    obtain ⟨count, idle | again⟩ := inner_keeps_reads inner in_read (step_move moved)
    · exact ⟨t, next, idle, by simpa [idle, inRead] using count⟩
    · obtain ⟨u, later, idle, grown⟩ := ih next again (by omega)
      exact ⟨u, later, idle, by omega⟩

theorem another_read {cfg : Config} {s : State} (reached : Reachable (system cfg) s)
    (idle : s.reader = .idle) :
    ∃ t, Reachable (system cfg) t ∧ t.reader = .idle ∧ t.results.length = s.results.length + 1 := by
  have begun : ∃ t, step cfg s (.read 1) = some t ∧
      t.results.length + inRead t.reader = s.results.length + 1 ∧
      (t.reader = .idle ∨ inRead t.reader = 1) := by
    simp only [step, beginRead, idle]
    cases kept : s.leftover with
    | some bytes =>
      refine ⟨_, rfl, gotChunk_reads, ?_⟩
      unfold gotChunk
      split <;> simp [State.finish, inRead]
    | none => by_cases ended : cfg.endStream = true <;> simp [ended, State.finish, inRead]
  obtain ⟨t, moved, count, now | later⟩ := begun
  · exact ⟨t, step_reachable reached moved, now, by simpa [now, inRead] using count⟩
  · have next := step_reachable reached moved
    obtain ⟨u, reached', idle', grown⟩ := call_finishes next later
    exact ⟨u, reached', idle', by omega⟩

theorem first_idle (cfg : Config) : ∃ s, Reachable (system cfg) s ∧ s.reader = .idle := by
  have begun : Reachable (system cfg) (initial cfg) := .start rfl
  cases ended : cfg.endStream with
  | true =>
    have moved : step cfg (initial cfg) .bodyPossible =
        some { initial cfg with nullInput := true, reader := .idle } := by
      simp [step, bodyPossible, initial, ended]
    exact ⟨_, step_reachable begun moved, rfl⟩
  | false =>
    have first : step cfg (initial cfg) .bodyPossible =
        some { initial cfg with reader := .sawEmpty } := by
      simp [step, bodyPossible, initial, ended, Chan.create]
    have second := step_reachable begun first
    exact ⟨_, step_reachable (l := .work) second rfl, rfl⟩

theorem reads_possible (cfg : Config) (n : Nat) :
    ∃ s, Reachable (system cfg) s ∧ s.reader = .idle ∧ n ≤ s.results.length := by
  induction n with
  | zero =>
    obtain ⟨s, reached, idle⟩ := first_idle cfg
    exact ⟨s, reached, idle, Nat.zero_le _⟩
  | succ n ih =>
    obtain ⟨s, reached, idle, many⟩ := ih
    obtain ⟨t, later, idle', grown⟩ := another_read reached idle
    exact ⟨t, later, idle', by omega⟩

theorem not_all_chunks {results : List Done} (few : chunks results < results.length) :
    ∃ e ∈ results, NotChunk e.result := by
  by_contra all
  simp only [not_exists, not_and] at all
  have every : ∀ e ∈ results, isChunk e.result = true := by
    intro e here
    have some_chunk := all e here
    simp only [NotChunk, ne_eq, not_forall, not_not] at some_chunk
    obtain ⟨b, eq⟩ := some_chunk
    simp [eq, isChunk]
  have := List.countP_eq_length.mpr every
  unfold chunks at few
  omega

theorem reads_end (cfg : Config) : ∃ s, Reachable (system cfg) s ∧
    ∃ e ∈ s.results, NotChunk e.result := by
  obtain ⟨s, reached, -, many⟩ := reads_possible cfg (cfg.data.length + cfg.bytes.length + 1)
  have few := chunks_bounded reached
  exact ⟨s, reached, not_all_chunks (by omega)⟩

theorem returned_split {pre post : List Done} {e : Done} :
    returned (pre ++ e :: post) = returned pre ++ chunkOf e.result ++ returned post := by
  simp [returned]

theorem discarded_only_over {cfg : Config} {s : State} (flow : FlowInv cfg s) (within : cfg.Within)
    (present : s.reader ≠ .gone) : s.discarded = [] := by
  have phase := flow.phase
  have not_over : ¬ Over cfg s := fun exceeds => over_not_within flow exceeds within
  unfold Phase Closed at phase
  split at phase
  · exact phase.1
  · exact phase.1
  · exact absurd phase.2 not_over
  · exact phase.2.1.1
  all_goals
    split at phase
    · exact absurd phase not_over
    · exact phase.1.1
    · exact (phase.resolve_left present).1.1

structure Delivered (cfg : Config) (s : State) : Prop where
  in_order : returned s.results <+: cfg.bytes
  short : ∀ e ∈ s.results, ∀ b, e.result = .chunk b → b.length ≤ max e.maxLen 1
  conserved : cfg.bytes = returned s.results ++ inReader s.reader ++ s.leftover.getD [] ++
    s.chan.buf.flatten ++ (inHand s.fwd).flatten ++ s.discarded.flatten ++
    (dataOf s.incoming).flatten
  nothing_lost : cfg.Within → s.reader ≠ .gone → s.discarded = []
  capped : 0 < cfg.maxBody → (returned s.results).length ≤ cfg.maxBody
  nil_iff : ∀ pre e post, s.results = pre ++ e :: post →
    (e.result = .eof ↔ e.takenBefore = cfg.data ∧ returned pre = cfg.bytes ∧ cfg.Within)
  nil_iff_bytes : [] ∉ cfg.data → ∀ pre e post, s.results = pre ++ e :: post →
    (e.result = .eof ↔ returned pre = cfg.bytes ∧ cfg.Within)
  too_large : ¬ cfg.Within → ∀ e ∈ s.results, NotChunk e.result →
    e.result = .raised bodyTooLargeError
  sticks : s.results.Pairwise fun e f => NotChunk e.result → f.result = e.result
  few_chunks : chunks s.results ≤ cfg.data.length + cfg.bytes.length
  returns : CallsReturn cfg s

theorem returned_capped {cfg : Config} {s : State} (flow : FlowInv cfg s) (read : ReadInv s)
    (limited : 0 < cfg.maxBody) : (returned s.results).length ≤ cfg.maxBody := by
  have capped := flow.capped limited
  have bytes := congrArg List.length read.bytes
  simp only [passed, List.flatten_append, List.length_append] at capped bytes
  omega

theorem bytes_conserved {cfg : Config} {s : State} (flow : FlowInv cfg s) (read : ReadInv s) :
    cfg.bytes = returned s.results ++ inReader s.reader ++ s.leftover.getD [] ++
      s.chan.buf.flatten ++ (inHand s.fwd).flatten ++ s.discarded.flatten ++
      (dataOf s.incoming).flatten := by
  rw [read.bytes, Config.bytes, flow.flow]
  simp [passed]

theorem done_cases {cfg : Config} {pre : List Done} {e : Done} (ok : DoneOk cfg pre e)
    (clean : cfg.ending = .clean) (within : cfg.Within) :
    (∃ b, e.result = .chunk b) ∨ e.result = .eof := by
  cases result : e.result with
  | chunk b => exact .inl ⟨b, rfl⟩
  | eof => exact .inr rfl
  | raised m =>
    rcases ok.raised m result with ⟨-, exceeds⟩ | ⟨-, -, stalled, -⟩
    · exact absurd within exceeds
    · simp [clean] at stalled

theorem nil_iff_all_taken {cfg : Config} {pre : List Done} {e : Done} (ok : DoneOk cfg pre e)
    (clean : cfg.ending = .clean) :
    e.result = .eof ↔ e.takenBefore = cfg.data ∧ returned pre = cfg.bytes ∧ cfg.Within := by
  constructor
  · intro eof
    obtain ⟨taken, all, within, -⟩ := ok.eof eof
    exact ⟨taken, all, within⟩
  · rintro ⟨taken, all, within⟩
    rcases done_cases ok clean within with ⟨b, chunk⟩ | eof
    · rcases ok.fresh b chunk with fewer | fewer
      · simp [taken] at fewer
      · simp [all] at fewer
    · exact eof

theorem delivers_clean_body {cfg : Config} {s : State} (clean : cfg.ending = .clean)
    (reached : Reachable (system cfg) s) : Delivered cfg s := by
  obtain ⟨flow, read, history, ends⟩ := reachable_body_inv reached
  have whole := returned_in_order flow read
  have ok : ∀ e ∈ s.results, ∃ pre, DoneOk cfg pre e := by
    intro e here
    obtain ⟨pre, post, eq⟩ := List.append_of_mem here
    exact ⟨pre, history pre e post eq⟩
  have in_order : returned s.results <+: cfg.bytes := by
    rw [List.append_assoc] at whole
    exact (List.prefix_append _ _).trans whole
  refine ⟨in_order, ?_, bytes_conserved flow read, discarded_only_over flow,
    returned_capped flow read, ?_, ?_, ?_, ends.sticks, chunks_bounded reached,
    calls_return reached⟩
  · intro e here
    obtain ⟨pre, ok⟩ := ok e here
    exact ok.short
  · intro pre e post eq
    exact nil_iff_all_taken (history pre e post eq) clean
  · intro no_empty pre e post eq
    have ok := history pre e post eq
    constructor
    · intro eof
      exact (ok.eof eof).2.imp_right And.left
    · rintro ⟨all, within⟩
      rcases done_cases ok clean within with ⟨b, chunk⟩ | eof
      · have length := in_order.length_le
        rw [eq, returned_split, all, chunk] at length
        simp only [chunkOf, List.length_append] at length
        have empty : b = [] := List.eq_nil_of_length_eq_zero (by omega)
        exact absurd (ok.nonempty (empty ▸ chunk)) no_empty
      · exact eof
  · intro exceeds e here other
    obtain ⟨pre, ok⟩ := ok e here
    cases result : e.result with
    | chunk b => exact absurd result (other b)
    | eof => exact absurd (ok.eof result).2.2.1 exceeds
    | raised m =>
      rcases ok.raised m result with ⟨rfl, -⟩ | ⟨-, within, -⟩
      · rfl
      · exact absurd within exceeds

def overCap : Config :=
  ⟨[.data [1, 2], .trailers, .data [3]], .clean, 2, false, by simp⟩

theorem overCap_raises_twice : ∃ s, run (system overCap) (initial overCap)
      [.bodyPossible, .forward, .forward, .work, .read 0, .work, .read 4, .work, .forward, .forward,
        .forward, .forward, .read 9, .work, .work, .read 9, .work, .work] = some s ∧
    Delivered overCap s ∧
    s.results.map Done.result =
      [.chunk [1], .chunk [2], .raised bodyTooLargeError, .raised bodyTooLargeError] := by
  have ran : ∃ s, run (system overCap) (initial overCap)
      [.bodyPossible, .forward, .forward, .work, .read 0, .work, .read 4, .work, .forward, .forward,
        .forward, .forward, .read 9, .work, .work, .read 9, .work, .work] = some s ∧
      s.results.map Done.result =
        [.chunk [1], .chunk [2], .raised bodyTooLargeError, .raised bodyTooLargeError] :=
    ⟨_, rfl, rfl⟩
  obtain ⟨s, ran, results⟩ := ran
  exact ⟨s, ran, delivers_clean_body rfl (reachable_run (.start rfl) ran), results⟩

/-- One zero-length DATA frame, as HTTP/2 clients send to end a body. -/
def emptyFrame : Config := ⟨[.data []], .clean, 0, false, by simp⟩

theorem empty_frame_reads_as_empty_string : ∃ s, run (system emptyFrame) (initial emptyFrame)
      [.bodyPossible, .work, .forward, .forward, .read 1, .work, .work] = some s ∧
    emptyFrame.ending = .clean ∧ emptyFrame.Within ∧ emptyFrame.bytes = [] ∧
    s.results = [⟨1, [], .chunk []⟩] :=
  ⟨_, rfl, rfl, by decide, rfl, rfl⟩

/-- A nil is said only of a body that ended cleanly and was returned whole, and any
    other ending is an error, on a call that comes after boundedly many strings. -/
def NilMeansComplete (cfg : Config) : Prop :=
  ∀ s, Reachable (system cfg) s →
    (∀ pre e post, s.results = pre ++ e :: post → NotChunk e.result →
      (e.result = .eof → cfg.ending = .clean ∧ cfg.Within ∧ returned pre = cfg.bytes) ∧
      (¬ (cfg.ending = .clean ∧ cfg.Within) → ∃ m, e.result = .raised m)) ∧
    chunks s.results ≤ cfg.data.length + cfg.bytes.length ∧ CallsReturn cfg s

theorem body_error_reads_as_nil {cfg : Config} (failed : cfg.ending = .bodyError)
    (within : cfg.Within) : ∃ s, Reachable (system cfg) s ∧
      ∃ pre e post, s.results = pre ++ e :: post ∧ e.result = .eof := by
  obtain ⟨s, reached, e, here, other⟩ := reads_end cfg
  obtain ⟨pre, post, eq⟩ := List.append_of_mem here
  have ok := (reachable_body_inv reached).history pre e post eq
  refine ⟨s, reached, pre, e, post, eq, ?_⟩
  cases result : e.result with
  | chunk b => exact absurd result (other b)
  | eof => rfl
  | raised m =>
    rcases ok.raised m result with ⟨-, exceeds⟩ | ⟨-, -, stalled, -⟩
    · exact absurd within exceeds
    · simp [failed] at stalled

theorem nil_means_complete_iff (cfg : Config) :
    NilMeansComplete cfg ↔ ¬ (cfg.ending = .bodyError ∧ cfg.Within) := by
  constructor
  · rintro complete ⟨failed, within⟩
    obtain ⟨s, reached, pre, e, post, eq, eof⟩ := body_error_reads_as_nil failed within
    have := ((complete s reached).1 pre e post eq (by simp [NotChunk, eof])).1 eof
    simp [failed] at this
  · intro no_error s reached
    refine ⟨?_, chunks_bounded reached, calls_return reached⟩
    intro pre e post eq other
    have ok := (reachable_body_inv reached).history pre e post eq
    have complete : e.result = .eof →
        cfg.ending = .clean ∧ cfg.Within ∧ returned pre = cfg.bytes := by
      intro eof
      obtain ⟨-, all, within, not_stalled⟩ := ok.eof eof
      refine ⟨?_, within, all⟩
      cases ending : cfg.ending with
      | clean => rfl
      | bodyError => exact absurd ⟨ending, within⟩ no_error
      | stalled => exact absurd ending not_stalled
    refine ⟨complete, fun incomplete => ?_⟩
    cases result : e.result with
    | chunk b => exact absurd result (other b)
    | eof => exact absurd ((complete result).imp_right And.left) incomplete
    | raised m => exact ⟨m, rfl⟩

def truncated : Config := ⟨[.data [7]], .bodyError, 0, false, by simp⟩

theorem truncated_upload_reads_as_nil : (∃ s, run (system truncated) (initial truncated)
      [.bodyPossible, .work, .forward, .forward, .forward, .forward, .read 4, .work, .work, .read 4,
        .work, .work] = some s ∧
    s.results = [⟨4, [], .chunk [7]⟩, ⟨4, [[7]], .eof⟩]) ∧ ¬ NilMeansComplete truncated := by
  have ran : ∃ s, run (system truncated) (initial truncated)
      [.bodyPossible, .work, .forward, .forward, .forward, .forward, .read 4, .work, .work, .read 4,
        .work, .work] = some s ∧
      s.results = [⟨4, [], .chunk [7]⟩, ⟨4, [[7]], .eof⟩] := ⟨_, rfl, rfl⟩
  refine ⟨ran, fun complete => ?_⟩
  obtain ⟨s, ran, results⟩ := ran
  have all := (complete s (reachable_run (.start rfl) ran)).1
  have last := (all [⟨4, [], .chunk [7]⟩] ⟨4, [[7]], .eof⟩ [] results (by simp [NotChunk])).1 rfl
  simp [truncated] at last

end KinoBodyOutcomes
