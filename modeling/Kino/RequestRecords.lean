import Kino.RequestCounts

/-!
The access log of a request (ext/kino/src/access_log.rs): an arrival record, a completion
record with the status the client gets, and the breakdown of its time, whose parts make up
the whole. The clock only goes forward.
-/
namespace KinoRequestRecords
open Transitions Ownership Tallies KinoResponder KinoRequestLifecycle KinoRequestCounts
variable {B : Type} {conf : Config} {s s' : State B}

/-- `kino` in `write_breakdown`: what is left of the whole, floored at zero. -/
def kinoTime (total : Nat) (t : Timing) : Nat := total - t.ruby - t.wait

/-- How a call's times lie. `late` is the clock's lead over the moments it waits since. -/
structure ClockInv (conf : Config) (now : Nat) (c : Call B) : Prop where
  start : c.start ≤ now
  enqueued : c.enqueuedAt ≤ now
  ordered : c.phase ≠ .logged → c.start ≤ c.enqueuedAt
  unwaited : c.admitted = false → c.wait = 0
  waited : c.enqueuedAt + c.wait = c.admittedAt
  admitted : c.admittedAt ≤ now
  since : ∀ d, c.phase = .polling d ∨ c.phase = .pending d ∨ c.phase = .waiting d → d ≤ now
  deadline : ∀ d, c.phase = .dispatching d ∨ c.phase = .sleeping d →
    d ≤ now + millis conf.queueTimeout
  value : ∀ response t, c.responder.head.value = some response → timing response = some t →
    c.enqueuedAt + t.wait + t.ruby ≤ now
  given : ∀ response t, outcome c.phase = some response → timing response = some t →
    c.start + t.wait + t.ruby ≤ now

def Stamped (conf : Config) (response : Response AppHead) : Prop :=
  ∀ head, response = .full head ∨ response = .stream head → head.timing.isSome = conf.accessLog

structure StampInv (conf : Config) (c : Call B) : Prop where
  value : ∀ response, c.responder.head.value = some response → Stamped conf response
  given : ∀ response, outcome c.phase = some response → Stamped conf response

def Times (conf : Config) (s : State B) : Prop :=
  ∀ (r : Nat) (c : Call B), s.calls[r]? = some c → ClockInv conf s.now c ∧ StampInv conf c

theorem clock_later {now now' : Nat} {c : Call B} (clock : ClockInv conf now c)
    (later : now ≤ now') : ClockInv conf now' c := by
  obtain ⟨start, enqueued, ordered, unwaited, waited, admitted, since, deadline, value, given⟩ :=
    clock
  refine ⟨by omega, by omega, ordered, unwaited, waited, by omega, ?_, ?_, ?_, ?_⟩
  · intro d at_d
    have before := since d at_d
    omega
  · intro d at_d
    have before := deadline d at_d
    omega
  · intro response t has attached
    have before := value response t has attached
    omega
  · intro response t has attached
    have before := given response t has attached
    omega

theorem new_clock (now : Nat) (length : Option Nat) :
    ClockInv conf now (newCall (B := B) length) ∧ StampInv conf (newCall (B := B) length) := by
  refine ⟨⟨Nat.zero_le _, Nat.zero_le _, fun _ => Nat.le_refl _, fun _ => rfl, rfl, Nat.zero_le _,
    ?_, ?_, fun _ _ has => (nomatch has), fun _ _ has => (nomatch has)⟩,
    ⟨fun _ has => (nomatch has), fun _ has => (nomatch has)⟩⟩
  · intro d at_d
    rcases at_d with at_d | at_d | at_d <;> cases at_d
  · intro d at_d
    rcases at_d with at_d | at_d <;> cases at_d

theorem stamped_plain {code : Nat} {message : String} : Stamped conf (.plain code message) := by
  intro head app
  rcases app with app | app <;> cases app

/-- The future goes on: the context's times stay, the response is one it may give. -/
theorem clock_on {now : Nat} {c c' : Call B} (clock : ClockInv conf now c)
    (start : c'.start = c.start) (enqueued : c'.enqueuedAt = c.enqueuedAt)
    (wait : c'.wait = c.wait) (admittedAt : c'.admittedAt = c.admittedAt)
    (admitted : c'.admitted = c.admitted) (born : c.phase ≠ .logged)
    (value : ∀ response t, c'.responder.head.value = some response → timing response = some t →
      c.responder.head.value = some response)
    (since : ∀ d, c'.phase = .polling d ∨ c'.phase = .pending d ∨ c'.phase = .waiting d → d ≤ now)
    (deadline : ∀ d, c'.phase = .dispatching d ∨ c'.phase = .sleeping d →
      d ≤ now + millis conf.queueTimeout)
    (given : ∀ response t, outcome c'.phase = some response → timing response = some t →
      outcome c.phase = some response ∨ c.responder.head.value = some response) :
    ClockInv conf now c' := by
  constructor
  · rw [start]; exact clock.start
  · rw [enqueued]; exact clock.enqueued
  · rw [start, enqueued]; exact fun _ => clock.ordered born
  · rw [admitted, wait]; exact clock.unwaited
  · rw [enqueued, wait, admittedAt]; exact clock.waited
  · rw [admittedAt]; exact clock.admitted
  · exact since
  · exact deadline
  · intro response t has attached
    rw [enqueued]
    exact clock.value response t (value response t has attached) attached
  · intro response t gave attached
    rw [start]
    rcases given response t gave attached with before | sent
    · exact clock.given response t before attached
    · have within := clock.value response t sent attached
      have order := clock.ordered born
      omega

/-- A step of the future before its response, which leaves the responder's head alone. -/
theorem clock_quiet {now : Nat} {c c' : Call B} (clock : ClockInv conf now c)
    (start : c'.start = c.start) (enqueued : c'.enqueuedAt = c.enqueuedAt)
    (wait : c'.wait = c.wait) (admittedAt : c'.admittedAt = c.admittedAt)
    (admitted : c'.admitted = c.admitted) (born : c.phase ≠ .logged)
    (value : c'.responder.head.value = c.responder.head.value ∨
      c'.responder.head.value = some response500)
    (since : ∀ d, c'.phase = .polling d ∨ c'.phase = .pending d ∨ c'.phase = .waiting d → d ≤ now)
    (deadline : ∀ d, c'.phase = .dispatching d ∨ c'.phase = .sleeping d →
      d ≤ now + millis conf.queueTimeout)
    (given : ∀ response, outcome c'.phase = some response →
      timing response = none ∨ outcome c.phase = some response) : ClockInv conf now c' := by
  refine clock_on clock start enqueued wait admittedAt admitted born ?_ since deadline ?_
  · intro response t has attached
    rcases value with kept | plain
    · exact kept ▸ has
    · rw [plain, Option.some.injEq] at has
      rw [← has] at attached
      cases attached
  · intro response t gave attached
    rcases given response gave with silent | before
    · rw [silent] at attached
      cases attached
    · exact .inl before

theorem stamp_on {c c' : Call B} (stamp : StampInv conf c)
    (value : c'.responder.head.value = c.responder.head.value ∨
      c'.responder.head.value = some response500)
    (given : ∀ response, outcome c'.phase = some response →
      (∃ code message, response = .plain code message) ∨ outcome c.phase = some response ∨
        c.responder.head.value = some response) : StampInv conf c' := by
  constructor
  · intro response has
    rcases value with kept | plain
    · exact stamp.value response (kept ▸ has)
    · rw [plain, Option.some.injEq] at has
      exact has ▸ stamped_plain
  · intro response gave
    rcases given response gave with ⟨code, message, rfl⟩ | before | sent
    · exact stamped_plain
    · exact stamp.given response before
    · exact stamp.value response sent

theorem put_times {r : Nat} {c : Call B} (times : Times conf s) (calls : s'.calls = s.calls.set r c)
    (now : s'.now = s.now) (clock : ClockInv conf s.now c) (stamp : StampInv conf c) :
    Times conf s' := by
  unfold Times
  rw [calls, now]
  exact forall_set times ⟨clock, stamp⟩

theorem quiet_times {r : Nat} {c c' : Call B} (times : Times conf s)
    (there : s.calls[r]? = some c) (calls : s'.calls = s.calls.set r c') (now : s'.now = s.now)
    (context : (c'.start, c'.enqueuedAt, c'.wait, c'.admittedAt, c'.admitted) =
      (c.start, c.enqueuedAt, c.wait, c.admittedAt, c.admitted))
    (born : c.phase ≠ .logged)
    (value : c'.responder.head.value = c.responder.head.value ∨
      c'.responder.head.value = some response500)
    (since : ∀ d, c'.phase = .polling d ∨ c'.phase = .pending d ∨ c'.phase = .waiting d →
      d = s.now ∨ c.phase = .polling d)
    (deadline : ∀ d, c'.phase = .dispatching d ∨ c'.phase = .sleeping d →
      d = s.now + millis conf.queueTimeout ∨ c.phase = .dispatching d ∨ c.phase = .sleeping d)
    (given : ∀ response, outcome c'.phase = some response →
      (∃ code message, response = .plain code message) ∨ outcome c.phase = some response) :
    Times conf s' := by
  obtain ⟨clock, stamp⟩ := times r c there
  simp only [Prod.mk.injEq] at context
  obtain ⟨start, enqueued, wait, admittedAt, admitted⟩ := context
  refine put_times times calls now ?_ ?_
  · refine clock_quiet clock start enqueued wait admittedAt admitted born value ?_ ?_ ?_
    · intro d at_d
      rcases since d at_d with rfl | before
      · exact Nat.le_refl _
      · exact clock.since d (.inl before)
    · intro d at_d
      rcases deadline d at_d with rfl | before
      · exact Nat.le_refl _
      · exact clock.deadline d before
    · intro response gave
      rcases given response gave with ⟨code, message, rfl⟩ | before
      · exact .inl rfl
      · exact .inr before
  · exact stamp_on stamp value fun response gave => (given response gave).imp_right .inl

attribute [local simp] outcome hangUp KinoShutdown.hangUp response413 response503 response504
  plainResponse

theorem turn_times {r : Nat} {c : Call B} (place : PlaceInv s) (times : Times conf s)
    (there : s.calls[r]? = some c) (turn : Turn conf s r c s') : Times conf s' := by
  obtain ⟨clock, stamp⟩ := times r c there
  have call := place.each r c there
  cases turn with
  | arrival at_pc =>
    refine put_times times (log_put_calls ..) (log_now ..) ⟨Nat.le_refl _, clock.enqueued,
      fun other => absurd rfl other, clock.unwaited, clock.waited, clock.admitted, by simp, by simp,
      clock.value, by simp⟩ (stamp_on stamp (.inl rfl) (by simp))
  | create at_pc =>
    have fresh := (placed_unborn call.placed (.inr at_pc)).2
    refine put_times times rfl rfl ⟨clock.start, Nat.le_refl _, fun _ => clock.start,
      clock.unwaited, ?_, Nat.le_refl _, by simp, by simp, ?_, by simp⟩
      (stamp_on stamp (.inl rfl) (by simp))
    · simp only [clock.unwaited fresh, Nat.add_zero]
    · intro response t has attached
      -- nobody has sent a head yet but the backstop
      rcases call.value response has with rfl | ⟨_, early⟩
      · cases attached
      · rw [fresh] at early
        cases early
  | completion response at_pc =>
    exact quiet_times times there (log_put_calls ..) (log_now ..) rfl (by simp [at_pc]) (.inl rfl)
      (by simp) (by simp) (by simp [at_pc])
  | guard at_pc | tooLarge at_pc | toLanes at_pc | cloneSender at_pc | closed at_pc | full at_pc =>
    exact quiet_times times there rfl rfl rfl (by simp [at_pc]) (.inl rfl) (by simp) (by simp)
      (by simp)
  | send at_pc =>
    exact quiet_times times there rfl rfl rfl (by rcases at_pc with h | ⟨_, h⟩ <;> simp [h])
      (.inl rfl) (by simp) (by simp) (by simp)
  | queueUp since at_pc | pulled since at_pc | timeOut since at_pc | cancelPulled since at_pc
  | cancelWaiting since at_pc =>
    exact quiet_times times there rfl rfl rfl (by simp [at_pc]) (.inl rfl) (by simp [at_pc])
      (by simp) (by simp)
  | expire since x at_pc here late moved =>
    exact quiet_times times there rfl rfl rfl (by simp [at_pc]) (respond500_value moved) (by simp)
      (by simp) (by simp)
  | laneSend deadline i at_pc | sleep deadline at_pc | wake deadline at_pc =>
    exact quiet_times times there rfl rfl rfl (by simp [at_pc]) (.inl rfl) (by simp)
      (by simp [at_pc]) (by simp)
  | laneRefused deadline x at_pc why moved =>
    exact quiet_times times there rfl rfl rfl (by simp [at_pc]) (respond500_value moved) (by simp)
      (by simp) (by simp)
  | await at_pc | cancelArrived at_pc =>
    exact quiet_times times there rfl rfl rfl (by simp [at_pc]) (.inl rfl) (by simp) (by simp)
      (by simp)
  | finish response at_pc =>
    exact quiet_times times there rfl rfl rfl (by simp [at_pc]) (.inl rfl) (by simp) (by simp)
      (by simp [at_pc])
  | finishOwner response x at_pc here moved =>
    exact quiet_times times there rfl rfl rfl (by simp [at_pc]) (respond500_value moved) (by simp)
      (by simp) (by simp [at_pc])
  | cancelPending since x at_pc here moved =>
    exact quiet_times times there rfl rfl rfl (by simp [at_pc])
      (respond500_value (x := KinoShutdown.hangUp c.responder) moved) (by simp) (by simp) (by simp)
  | cancelSleeping deadline x at_pc moved =>
    exact quiet_times times there rfl rfl rfl (by simp [at_pc])
      (respond500_value (x := KinoShutdown.hangUp c.responder) moved) (by simp) (by simp) (by simp)
  | head since response at_pc sent =>
    have source : response = response500 ∨ c.responder.head.value = some response := by
      rcases sent with value | ⟨_, _, plain⟩
      · exact .inr value
      · exact .inl plain
    refine put_times times rfl rfl (clock_on clock rfl rfl rfl rfl rfl (by simp [at_pc])
      (fun _ _ has _ => has) (by simp) (by simp) ?_) (stamp_on stamp (.inl rfl) ?_)
    · rintro response' t ⟨⟩ attached
      rcases source with rfl | value
      · cases attached
      · exact .inr value
    · rintro response' ⟨⟩
      rcases source with rfl | value
      · exact .inl ⟨_, _, rfl⟩
      · exact .inr (.inr value)

theorem respond_times {r : Nat} {c : Call B} {x : Responder AppHead B} (times : Times conf s)
    (there : s.calls[r]? = some c) (calls : s'.calls = s.calls.set r { c with responder := x })
    (now : s'.now = s.now)
    (value : ∀ response t, x.head.value = some response → timing response = some t →
      c.enqueuedAt + t.wait + t.ruby ≤ s.now)
    (stamped : ∀ response, x.head.value = some response → Stamped conf response) :
    Times conf s' := by
  obtain ⟨clock, stamp⟩ := times r c there
  exact put_times times calls now ⟨clock.start, clock.enqueued, clock.ordered, clock.unwaited,
    clock.waited, clock.admitted, clock.since, clock.deadline, value, clock.given⟩
    ⟨stamped, stamp.given⟩

theorem backstop_times {r : Nat} {c : Call B} {x : Responder AppHead B} (times : Times conf s)
    (there : s.calls[r]? = some c) (calls : s'.calls = s.calls.set r { c with responder := x })
    (now : s'.now = s.now) (moved : respond500IfUnsent c.responder = some x) : Times conf s' := by
  obtain ⟨clock, stamp⟩ := times r c there
  refine respond_times times there calls now ?_ ?_
  · intro response t has attached
    rcases respond500_value moved with kept | plain
    · exact clock.value response t (kept ▸ has) attached
    · rw [plain, Option.some.injEq] at has
      rw [← has] at attached
      cases attached
  · intro response has
    rcases respond500_value moved with kept | plain
    · exact stamp.value response (kept ▸ has)
    · rw [plain, Option.some.injEq] at has
      exact has ▸ stamped_plain

theorem stamp_offers {c : Call B} {op : KinoShutdown.Use Nat B} {head : AppHead}
    (offered : stamp (timed conf s c) op = .respondSimple head ∨
      stamp (timed conf s c) op = .sendHeaders (some head)) :
    ∃ code, head = timed conf s c code := by
  cases op with
  | respondSimple code =>
    rcases offered with same | same <;> cases same
    exact ⟨code, rfl⟩
  | sendHeaders builder =>
    rcases offered with same | same
    · cases same
    · cases builder with
      | none => cases same
      | some code =>
        cases same
        exact ⟨code, rfl⟩
  | writeChunk | finish | abort => rcases offered with same | same <;> cases same

theorem timed_within {c : Call B} {code : Nat} {t : Timing} (clock : ClockInv conf s.now c)
    (attached : (timed conf s c code).timing = some t) :
    c.enqueuedAt + t.wait + t.ruby ≤ s.now := by
  unfold timed at attached
  split at attached
  · cases attached
    have waited := clock.waited
    have admitted := clock.admitted
    change c.enqueuedAt + c.wait + (s.now - c.admittedAt) ≤ s.now
    omega
  · cases attached

theorem timed_stamped (c : Call B) (code : Nat) :
    (timed conf s c code).timing.isSome = conf.accessLog := by
  unfold timed
  cases conf.accessLog <;> rfl

theorem around_times (times : Times conf s) (around : Around conf s s') : Times conf s' := by
  cases around with
  | admitCtx i r rest c there front =>
    obtain ⟨clock, stamp⟩ := times r c there
    have enqueued := clock.enqueued
    refine put_times times rfl rfl ⟨clock.start, enqueued, clock.ordered,
      fun absurd => (nomatch absurd), ?_, Nat.le_refl _, clock.since, clock.deadline, clock.value,
      clock.given⟩ ⟨stamp.value, stamp.given⟩
    change c.enqueuedAt + (s.now - c.enqueuedAt) = s.now
    omega
  | takeQueue | takePull | takeLane => exact times
  | drop r c x p there here held moved => exact backstop_times times there rfl rfl moved
  | abort r c x there moved => exact backstop_times times there rfl rfl moved
  | use r i c op x there here moved =>
    obtain ⟨clock, stamp⟩ := times r c there
    refine respond_times times there rfl rfl ?_ ?_
    · intro response t has attached
      rcases use_value moved with kept | plain | ⟨head, ⟨same, sent⟩ | ⟨same, sent⟩⟩
      · exact clock.value response t (kept ▸ has) attached
      · rw [plain, Option.some.injEq] at has
        rw [← has] at attached
        cases attached
      · obtain ⟨code, rfl⟩ := stamp_offers (.inl same)
        rw [sent, Option.some.injEq] at has
        rw [← has] at attached
        exact timed_within clock attached
      · obtain ⟨code, rfl⟩ := stamp_offers (.inr same)
        rw [sent, Option.some.injEq] at has
        rw [← has] at attached
        exact timed_within clock attached
    · intro response has
      rcases use_value moved with kept | plain | ⟨head, ⟨same, sent⟩ | ⟨same, sent⟩⟩
      · exact stamp.value response (kept ▸ has)
      · rw [plain, Option.some.injEq] at has
        exact has ▸ stamped_plain
      · obtain ⟨code, rfl⟩ := stamp_offers (.inl same)
        rw [sent, Option.some.injEq] at has
        intro head app
        rcases app with app | app <;> rw [← has] at app <;> cases app
        exact timed_stamped c code
      · obtain ⟨code, rfl⟩ := stamp_offers (.inr same)
        rw [sent, Option.some.injEq] at has
        intro head app
        rcases app with app | app <;> rw [← has] at app <;> cases app
        exact timed_stamped c code
  | takeFrame r c there =>
    obtain ⟨clock, stamp⟩ := times r c there
    exact respond_times times there rfl rfl clock.value stamp.value

theorem step_times {l : Label B} (place : PlaceInv s) (times : Times conf s)
    (moved : step conf s l = some s') : Times conf s' := by
  cases step_move moved with
  | turn r c s' there turn => exact turn_times place times there turn
  | around s' around => exact around_times times around
  | arrive length => exact forall_join times (new_clock s.now length)
  | tick d =>
    intro r c there
    obtain ⟨clock, stamp⟩ := times r c there
    exact ⟨clock_later clock (Nat.le_add_right _ _), stamp⟩
  | close | slots => exact times

theorem reachable_times (reached : Reachable (system B conf) s) : Times conf s :=
  (reachable_invariant (fun s => PlaceInv s ∧ Times conf s)
    (by rintro s rfl; exact ⟨initial_place, fun _ _ there => (nomatch there)⟩)
    (fun _ _ _ inv moved => ⟨step_place inv.1 moved, step_times inv.1 inv.2 moved⟩) reached).2

/-! The records. -/

def about (r : Nat) : Record → Bool
  | .arrival j => j = r
  | .completion j _ _ _ => j = r

def Recorded (r : Nat) (c : Call B) (rs : List Record) : Prop :=
  match c.phase with
  | .arrived => rs = []
  | .dropped => rs = [] ∨ rs = [.arrival r]
  | .closing response | .returned response =>
    ∃ total, rs = [.arrival r, .completion r (status response) total (timing response)] ∧
      ∀ t, timing response = some t → t.wait + t.ruby ≤ total
  | _ => rs = [.arrival r]

def between : Phase → Bool
  | .arrived | .dropped | .closing _ | .returned _ => false
  | _ => true

theorem recorded_between {r : Nat} {c : Call B} {rs : List Record} (middle : between c.phase = true) :
    Recorded r c rs ↔ rs = [.arrival r] := by
  unfold Recorded
  cases at_pc : c.phase <;> simp [at_pc, between] at middle ⊢

structure RecordInv (s : State B) : Prop where
  each : ∀ (r : Nat) (c : Call B), s.calls[r]? = some c → Recorded r c (s.records.filter (about r))
  known : ∀ record ∈ s.records, ∀ r, about r record = true → r < s.calls.length

theorem keep_records {r : Nat} {c c' : Call B} (inv : RecordInv s) (there : s.calls[r]? = some c)
    (calls : s'.calls = s.calls.set r c') (records : s'.records = s.records)
    (recorded : ∀ rs, Recorded r c rs → Recorded r c' rs) : RecordInv s' := by
  constructor
  · rw [calls, records]
    exact forall_set inv.each (recorded _ (inv.each r c there))
  · rw [calls, records, List.length_set]
    exact inv.known

theorem write_records {r : Nat} {c c' : Call B} {record : Record} (inv : RecordInv s)
    (there : s.calls[r]? = some c) (calls : s'.calls = s.calls.set r c')
    (records : s'.records = s.records ++ [record]) (own : ∀ j, about j record = true ↔ j = r)
    (recorded : ∀ rs, Recorded r c rs → Recorded r c' (rs ++ [record])) : RecordInv s' := by
  have inside : r < s.calls.length := (List.getElem?_eq_some_iff.mp there).1
  constructor
  · intro j x at_j
    rw [calls] at at_j
    rw [records, List.filter_append]
    rcases set_cases at_j with ⟨rfl, rfl⟩ | ⟨other, at_j⟩
    · have kept : [record].filter (about j) = [record] := by simp [(own j).mpr rfl]
      rw [kept]
      exact recorded _ (inv.each j c there)
    · have left : [record].filter (about j) = [] := by simp [(own j).not.mpr other]
      rw [left, List.append_nil]
      exact inv.each j x at_j
  · intro old here j names
    rw [records, List.mem_append, List.mem_singleton] at here
    rw [calls, List.length_set]
    rcases here with here | rfl
    · exact inv.known old here j names
    · exact (own j).mp names ▸ inside

theorem turn_records {r : Nat} {c : Call B} (logging : conf.accessLog = true)
    (times : Times conf s) (inv : RecordInv s) (there : s.calls[r]? = some c)
    (turn : Turn conf s r c s') : RecordInv s' := by
  have on : ∀ {c' : Call B}, between c.phase = true → between c'.phase = true →
      ∀ rs, Recorded r c rs → Recorded r c' rs := by
    intro c' before after rs had
    exact (recorded_between after).mpr ((recorded_between before).mp had)
  have ended : ∀ {c' : Call B}, between c.phase = true → c'.phase = .dropped →
      ∀ rs, Recorded r c rs → Recorded r c' rs := by
    intro c' before after rs had
    unfold Recorded
    rw [after]
    exact .inr ((recorded_between before).mp had)
  cases turn with
  | arrival at_pc =>
    refine write_records inv there (log_put_calls ..)
      (by simp only [State.put, State.log, logging, if_true]; rfl) ?_ ?_
    · intro j
      simp only [about, decide_eq_true_eq]
      exact eq_comm
    · intro rs had
      unfold Recorded at had
      rw [at_pc] at had
      simp only at had
      subst had
      rfl
  | completion response at_pc =>
    refine write_records inv there (log_put_calls ..)
      (by simp only [State.put, State.log, logging, if_true]; rfl) ?_ ?_
    · intro j
      simp only [about, decide_eq_true_eq]
      exact eq_comm
    · intro rs had
      have before := (recorded_between (by rw [at_pc]; rfl)).mp had
      subst before
      refine ⟨s.now - c.start, rfl, ?_⟩
      intro t attached
      have within := (times r c there).1.given response t (by rw [at_pc]; rfl) attached
      omega
  | finish response at_pc | finishOwner response x at_pc =>
    refine keep_records inv there rfl rfl fun rs had => ?_
    unfold Recorded at had
    rw [at_pc] at had
    exact had
  | cancelArrived at_pc =>
    refine keep_records inv there rfl rfl fun rs had => ?_
    unfold Recorded at had
    rw [at_pc] at had
    exact .inl had
  | cancelPending since x at_pc | cancelPulled since at_pc | cancelSleeping since x at_pc
  | cancelWaiting since at_pc =>
    exact keep_records inv there rfl rfl (ended (by rw [at_pc]; rfl) rfl)
  | send at_pc =>
    refine keep_records inv there rfl rfl (on ?_ rfl)
    rcases at_pc with at_pc | ⟨since, at_pc⟩ <;> rw [at_pc] <;> rfl
  | create at_pc | guard at_pc | tooLarge at_pc | toLanes at_pc | cloneSender at_pc | closed at_pc
  | full at_pc | await at_pc =>
    exact keep_records inv there rfl rfl (on (by rw [at_pc]; rfl) rfl)
  | queueUp since at_pc | pulled since at_pc | timeOut since at_pc =>
    exact keep_records inv there rfl rfl (on (by rw [at_pc]; rfl) rfl)
  | expire since x at_pc | laneRefused since x at_pc | laneSend since i at_pc =>
    exact keep_records inv there rfl rfl (on (by rw [at_pc]; rfl) rfl)
  | sleep deadline at_pc | wake deadline at_pc | head deadline response at_pc =>
    exact keep_records inv there rfl rfl (on (by rw [at_pc]; rfl) rfl)

theorem around_records (inv : RecordInv s) (around : Around conf s s') : RecordInv s' := by
  cases around with
  | takeQueue | takePull | takeLane => exact ⟨inv.each, inv.known⟩
  | admitCtx i r rest c there => exact keep_records inv there rfl rfl fun _ had => had
  | drop r c x p there => exact keep_records inv there rfl rfl fun _ had => had
  | abort r c x there => exact keep_records inv there rfl rfl fun _ had => had
  | use r i c op x there => exact keep_records inv there rfl rfl fun _ had => had
  | takeFrame r c there => exact keep_records inv there rfl rfl fun _ had => had

theorem step_records {l : Label B} (logging : conf.accessLog = true) (times : Times conf s)
    (inv : RecordInv s) (moved : step conf s l = some s') : RecordInv s' := by
  cases step_move moved with
  | turn r c s' there turn => exact turn_records logging times inv there turn
  | around s' around => exact around_records inv around
  | arrive length =>
    constructor
    · refine forall_join inv.each ?_
      change s.records.filter _ = []
      rw [List.filter_eq_nil_iff]
      intro record here names
      have inside := inv.known record here _ names
      omega
    · intro record here r names
      have inside := inv.known record here r names
      simp only [List.length_append, List.length_singleton]
      omega
  | tick | close | slots => exact ⟨inv.each, inv.known⟩

theorem reachable_records (logging : conf.accessLog = true) (reached : Reachable (system B conf) s) :
    RecordInv s :=
  (reachable_invariant (fun s => (PlaceInv s ∧ Times conf s) ∧ RecordInv s)
    (by
      rintro s rfl
      exact ⟨⟨initial_place, fun _ _ there => (nomatch there)⟩,
        ⟨fun _ _ there => (nomatch there), fun _ here => (nomatch here)⟩⟩)
    (fun _ _ _ inv moved => ⟨⟨step_place inv.1.1 moved, step_times inv.1.1 inv.1.2 moved⟩,
      step_records logging inv.1.2 inv.2 moved⟩) reached).2

/-- With the access log on, each call has left exactly its records: none before it logs its
    arrival, one while it is under way, and at its end a second one with the status the
    client gets. The second has a breakdown when the app has answered, whose three parts
    make up the total. -/
theorem access_log_law (B : Type) (conf : Config) (logging : conf.accessLog = true) {s : State B}
    (reached : Reachable (system B conf) s) :
    (∀ record ∈ s.records, ∃ r, r < s.calls.length ∧ about r record = true) ∧
    ∀ (r : Nat) (c : Call B), s.calls[r]? = some c → Recorded r c (s.records.filter (about r)) ∧
      ∀ response, c.phase = .returned response → ∃ total,
        s.records.filter (about r) =
          [.arrival r, .completion r (status response) total (timing response)] ∧
        ((timing response).isSome = true ↔ ∃ head, response = .full head ∨ response = .stream head) ∧
        ∀ t, timing response = some t → t.ruby + kinoTime total t + t.wait = total := by
  have inv := reachable_records logging reached
  have times := reachable_times reached
  constructor
  · intro record here
    cases record with
    | arrival r => exact ⟨r, inv.known _ here r (by simp [about]), by simp [about]⟩
    | completion r code total t =>
      exact ⟨r, inv.known _ here r (by simp [about]), by simp [about]⟩
  · intro r c there
    have recorded := inv.each r c there
    refine ⟨recorded, fun response at_pc => ?_⟩
    unfold Recorded at recorded
    rw [at_pc] at recorded
    obtain ⟨total, both, within⟩ := recorded
    have stamped := (times r c there).2.given response (by rw [at_pc]; rfl)
    refine ⟨total, both, ⟨?_, ?_⟩, ?_⟩
    · intro attached
      cases response with
      | full head => exact ⟨head, .inl rfl⟩
      | stream head => exact ⟨head, .inr rfl⟩
      | plain code message => cases attached
    · rintro ⟨head, app⟩
      have on := stamped head app
      rw [logging] at on
      rcases app with rfl | rfl <;> exact on
    · intro t attached
      have parts := within t attached
      unfold kinoTime
      omega

def unhurried : List (Label Unit) :=
  [[Label.arrive none, .advance 0, .tick 1], List.replicate 5 (.advance 0),
    [.tick 3, .take 0 none, .admitCtx 0, .tick 4, .use 0 0 (.respondSimple 200), .tick 1],
    List.replicate 3 (.advance 0)].flatten

def unhurriedState : State Unit :=
  (run (system Unit smallServer) (KinoRequestLifecycle.initial Unit) unhurried).getD
    (KinoRequestLifecycle.initial Unit)

theorem unhurried_request_logged :
    unhurriedState.records = [.arrival 0, .completion 0 200 9 (some ⟨3, 4⟩)] ∧
      ∃ r, r < unhurriedState.calls.length ∧ about r (.completion 0 200 9 (some ⟨3, 4⟩)) = true := by
  have ran : run (system Unit smallServer) (KinoRequestLifecycle.initial Unit) unhurried =
      some unhurriedState := rfl
  have law := access_log_law Unit smallServer rfl (reachable_run (.start rfl) ran)
  refine ⟨rfl, law.1 _ ?_⟩
  exact List.mem_cons_of_mem _ List.mem_cons_self

end KinoRequestRecords
