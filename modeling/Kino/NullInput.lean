import Kino.BodyOutcomes

/-!
The shared `NullInput` and the two reads of the channel that choose it. The reads
are not one: the forwarder may send and leave in between, and a forwarder that gave
the body up leaves the same empty closed channel as one that found no body.
-/
namespace KinoNullInput
open Transitions Channels KinoRequestBody KinoBodyDelivery KinoBodyOutcomes

/-- The forwarder does not drop its sender between the two reads with bytes in the
    channel or the flag set, nor before them with the flag set and the channel empty. -/
def DropsInTime (s : State) (l : Label) : Prop :=
  l = .forward → s.fwd = .closing →
    ¬ (s.reader = .sawEmpty ∧ (s.chan.buf.flatten ≠ [] ∨ s.abandoned ≠ none)) ∧
    ¬ (s.reader = .queued ∧ s.chan.buf = [] ∧ s.abandoned ≠ none)

def Undecided (s : State) : Prop := s.reader = .queued ∨ s.reader = .sawEmpty

structure NullInv (cfg : Config) (s : State) : Prop where
  fresh : Undecided s → s.taken = [] ∧ s.nullInput = false
  waiting : s.fwd = .done → cfg.endStream = false → s.reader = .queued →
    s.abandoned = none ∨ s.chan.buf ≠ []
  between : s.fwd = .done → cfg.endStream = false → s.reader = .sawEmpty →
    s.abandoned = none ∧ s.chan.buf.flatten = []
  chosen : s.nullInput = true → s.fwd = .done ∧ cfg.bytes = [] ∧ s.abandoned = none

theorem initial_null_inv (cfg : Config) : NullInv cfg (initial cfg) := by
  constructor <;> simp [initial, Undecided]

theorem forward_keeps_choice {cfg : Config} {s s' : State} (moved : Move cfg s .forward s') :
    s'.nullInput = s.nullInput := by
  cases moved <;> rfl

theorem forward_closes {cfg : Config} {s s' : State} (moved : Move cfg s .forward s')
    (done : s'.fwd = .done) :
    s.fwd = .closing ∧ s' = { s with chan := s.chan.dropSender, fwd := .done } := by
  cases moved <;> simp_all

theorem open_null_inv {cfg : Config} {s s' : State} (inv : NullInv cfg s)
    (moved : Move cfg s .forward s') (running : s'.fwd ≠ .done) : NullInv cfg s' := by
  obtain ⟨e1, -, e3, -, -, -, open_before⟩ := forward_keeps_reader moved
  have same := forward_keeps_choice moved
  refine ⟨?_, fun done => absurd done running, fun done => absurd done running, ?_⟩
  · unfold Undecided
    rw [e1, e3, same]
    exact inv.fresh
  · intro null
    exact absurd (inv.chosen (same ▸ null)).1 open_before

theorem forward_null_inv {cfg : Config} {s s' : State} (inv : NullInv cfg s)
    (in_time : DropsInTime s .forward) (moved : Move cfg s .forward s') : NullInv cfg s' := by
  by_cases done : s'.fwd = .done
  · obtain ⟨at_fwd, rfl⟩ := forward_closes moved done
    obtain ⟨between, before⟩ := in_time rfl at_fwd
    refine ⟨inv.fresh, fun _ _ queued => ?_, fun _ _ saw => ?_, fun null => ?_⟩
    · by_contra bad
      simp only [not_or, not_not] at bad
      exact before ⟨queued, bad.2, bad.1⟩
    · by_contra bad
      exact between ⟨saw, by
        by_cases flagged : s.abandoned = none
        · exact .inl fun empty => bad ⟨flagged, empty⟩
        · exact .inr flagged⟩
    · exact absurd (inv.chosen null).1 (by simp [at_fwd])
  · exact open_null_inv inv moved done

theorem decided_null_inv {cfg : Config} {s : State} (decided : ¬ Undecided s)
    (chosen : s.nullInput = true → s.fwd = .done ∧ cfg.bytes = [] ∧ s.abandoned = none) :
    NullInv cfg s := by
  refine ⟨fun undecided => absurd undecided decided, fun _ _ queued => ?_, fun _ _ saw => ?_,
    chosen⟩
  · exact absurd (.inl queued) decided
  · exact absurd (.inr saw) decided

theorem second_read_empty {cfg : Config} {s : State} (flow : FlowInv cfg s) (inv : NullInv cfg s)
    (at_reader : s.reader = .sawEmpty) (body : cfg.endStream = false)
    (closed : s.chan.senders = 0) : s.fwd = .done ∧ cfg.bytes = [] ∧ s.abandoned = none := by
  have done : s.fwd = .done := by
    by_contra running
    have := flow.sender
    simp [running, closed] at this
  obtain ⟨flag, empty⟩ := inv.between done body at_reader
  have phase := flow.phase
  simp only [Phase, done, Closed, flag, at_reader, reduceCtorEq, false_or] at phase
  obtain ⟨all, -⟩ := ended_all_passed flow done phase.1
  simp only [passed, (inv.fresh (.inr at_reader)).1, List.nil_append] at all
  exact ⟨done, by rw [Config.bytes, ← all, empty], flag⟩

theorem gotChunk_keeps_choice (s : State) (n : Nat) (bytes : Bytes) :
    (gotChunk s n bytes).nullInput = s.nullInput ∧ (gotChunk s n bytes).fwd = s.fwd ∧
    (gotChunk s n bytes).abandoned = s.abandoned ∧ ¬ Undecided (gotChunk s n bytes) := by
  unfold gotChunk Undecided
  split <;> simp [State.finish]

theorem gotChunk_null_inv {cfg : Config} {s : State} {n : Nat} {bytes : Bytes}
    (chosen : s.nullInput = true → s.fwd = .done ∧ cfg.bytes = [] ∧ s.abandoned = none) :
    NullInv cfg (gotChunk s n bytes) := by
  obtain ⟨e1, e2, e3, decided⟩ := gotChunk_keeps_choice s n bytes
  refine decided_null_inv decided ?_
  rw [e1, e2, e3]
  exact chosen

theorem step_null_inv {cfg : Config} {s s' : State} {l : Label} (flow : FlowInv cfg s)
    (inv : NullInv cfg s) (in_time : DropsInTime s l) (moved : Move cfg s l s') :
    NullInv cfg s' := by
  rcases eq_or_ne l .forward with rfl | reading
  · exact forward_null_inv inv in_time moved
  cases moved with
  | refuse | pull | skip | bodyEnd | stall | send | unsent | flag | close =>
    exact absurd rfl reading
  | secondRead at_reader =>
    refine decided_null_inv (by simp [Undecided]) fun null => ?_
    simp only [decide_eq_true_eq] at null
    cases body : cfg.endStream with
    | true =>
      obtain ⟨no_data, flag⟩ := bodyless_unflagged flow body
      exact ⟨flow.bodyless body, by simp [Config.bytes, no_data], flag⟩
    | false =>
      have empty := second_read_empty flow inv at_reader body null
      exact empty
  | bodyless at_reader ended =>
    obtain ⟨no_data, flag⟩ := bodyless_unflagged flow ended
    exact decided_null_inv (by simp [Undecided]) fun _ =>
      ⟨flow.bodyless ended, by simp [Config.bytes, no_data], flag⟩
  | firstReadEmpty at_reader body empty =>
    refine ⟨fun _ => inv.fresh (.inl at_reader), by simp, fun done _ _ => ?_, inv.chosen⟩
    have unflagged := (inv.waiting done body at_reader).resolve_right (not_not.mpr empty)
    exact ⟨unflagged, by simp [empty]⟩
  | firstReadFull at_reader body waiting =>
    exact decided_null_inv (by simp [Undecided]) inv.chosen
  | recv maxLen bytes rest at_reader queued => exact gotChunk_null_inv inv.chosen
  | readLeftover n bytes at_reader kept => exact gotChunk_null_inv inv.chosen
  | _ => exact decided_null_inv (by simp [Undecided, State.finish]) inv.chosen

/-- What stands behind a `NullInput`: no body, none waiting, none lost, no flag; and an
    `Input` in its place would have read nothing and raised nothing. -/
structure NoBody (cfg : Config) (s : State) : Prop where
  bytes : cfg.bytes = []
  waiting : s.chan.buf.flatten = []
  lost : s.discarded.flatten = []
  unflagged : s.abandoned = none
  reads : ∀ e ∈ s.results, e.result = .eof ∨ e.result = .chunk []

theorem null_input_means_no_body {cfg : Config} {s : State}
    (reached : ReachableBy (system cfg) DropsInTime s) (null : s.nullInput = true) :
    NoBody cfg s := by
  have body := reachable_body_inv reached.forget
  have inv := (invariant (fun s => FlowInv cfg s ∧ NullInv cfg s)
    (by rintro s rfl; exact ⟨initial_flow_inv cfg, initial_null_inv cfg⟩)
    (fun s t l inv in_time moved => ⟨step_flow_inv inv.1 (step_move moved),
      step_null_inv inv.1 inv.2 in_time (step_move moved)⟩) reached).2
  obtain ⟨-, empty, flag⟩ := inv.chosen null
  have pieces := bytes_conserved body.flow body.read
  rw [empty] at pieces
  simp only [List.nil_eq, List.append_eq_nil_iff, and_assoc] at pieces
  obtain ⟨none_returned, -, -, none_waiting, -, none_lost, -⟩ := pieces
  refine ⟨empty, none_waiting, none_lost, flag, fun e here => ?_⟩
  cases result : e.result with
  | chunk b =>
    right
    simp only [returned, List.flatMap_eq_nil_iff] at none_returned
    have := none_returned e here
    simpa [result, chunkOf] using this
  | eof => exact .inl rfl
  | raised m =>
    have ended := (body.ends.ended e here (by simp [NotChunk, result])).verdict
    simp [flag, KinoRequestBody.verdict, result] at ended

/-- The condition on the drops leaves out no run that goes well: a drop that breaks it
    is followed by a `NullInput` with a body behind it. -/
theorem late_drop_hides_body {cfg : Config} {s : State} {l : Label}
    (reached : Reachable (system cfg) s) (late : ¬ DropsInTime s l) :
    ∃ ls t, run (system cfg) s (l :: ls) = some t ∧ t.nullInput = true ∧ ¬ NoBody cfg t := by
  have flow := reachable_flow_inv reached
  simp only [DropsInTime, Classical.not_imp] at late
  obtain ⟨rfl, at_fwd, bad⟩ := late
  have body : cfg.endStream = false := by
    by_contra ended
    simpa [at_fwd] using flow.bodyless (by simpa using ended)
  have sender : s.chan.senders = 1 := by simp [flow.sender, at_fwd]
  rw [Classical.not_and_iff_not_or_not, not_not, not_not] at bad
  rcases bad with ⟨saw, behind⟩ | ⟨queued, empty, flagged⟩
  · refine ⟨[.work], ?_⟩
    simp only [run, system, step, forward, at_fwd, work, saw, Option.bind_some]
    refine ⟨_, rfl, by simp [Chan.dropSender, sender], fun none => ?_⟩
    exact behind.elim (fun waiting => waiting none.waiting) fun flagged => flagged none.unflagged
  · refine ⟨[.bodyPossible, .work], ?_⟩
    have empty' : s.chan.dropSender.buf = [] := empty
    simp only [run, system, step, forward, at_fwd, bodyPossible, queued, body, empty', work,
      Option.bind_some, if_true, Bool.false_eq_true, if_false]
    exact ⟨_, rfl, by simp [Chan.dropSender, sender], fun none => flagged none.unflagged⟩

def emptyChunked : Config := ⟨[], .clean, 0, false, by simp⟩

theorem empty_chunked_body_gets_null_input : ∃ s,
    run (system emptyChunked) (initial emptyChunked)
      [.forward, .forward, .bodyPossible, .work] = some s ∧
    s.nullInput = true ∧ NoBody emptyChunked s := by
  have s1 : ReachableBy (system emptyChunked) DropsInTime _ :=
    .next (l := .forward) (.start rfl) (by simp [DropsInTime, initial, emptyChunked]) rfl
  have s2 := ReachableBy.next (l := .forward) s1 (by simp [DropsInTime, initial, emptyChunked]) rfl
  have s3 := ReachableBy.next (l := .bodyPossible) s2 (by simp [DropsInTime]) rfl
  have s4 := ReachableBy.next (l := .work) s3 (by simp [DropsInTime]) rfl
  exact ⟨_, rfl, rfl, null_input_means_no_body s4 rfl⟩

def oneByte : Config := ⟨[.data [7]], .clean, 0, false, by simp⟩
def overFirst : Config := ⟨[.data [7, 8]], .clean, 1, false, by simp⟩

/-- A byte sent between the two reads is left unread, and a body given up for its size
    passes for no body. -/
theorem null_input_hides_a_body :
    (∃ s, run (system oneByte) (initial oneByte)
        [.bodyPossible, .forward, .forward, .forward, .forward, .work] = some s ∧
      s.nullInput = true ∧ s.chan.buf = [[7]] ∧ ¬ NoBody oneByte s) ∧
    (∃ s, run (system overFirst) (initial overFirst)
        [.forward, .forward, .forward, .bodyPossible, .work] = some s ∧
      s.nullInput = true ∧ s.abandoned = some .oversize ∧ ¬ NoBody overFirst s) := by
  constructor
  · refine ⟨_, rfl, rfl, rfl, fun none => ?_⟩
    have waiting : ([[7]] : List Bytes).flatten = [] := none.waiting
    simp at waiting
  · refine ⟨_, rfl, rfl, rfl, fun none => ?_⟩
    have unflagged : some BodyAbandon.oversize = Option.none := none.unflagged
    simp at unflagged

end KinoNullInput
