import Kino.Transitions

/-!
How long a worker has been busy: the stamp and the counter that `admit` and `checkout`
(ext/kino/src/queue.rs) leave in the slot while one worker loop (lib/kino/worker.rb) takes and
serves its batches, and what `collect_worker_status` (ext/kino/src/control.rs) makes of them.
The clock is `mono_ms`; every access to the slot is a step of its own.
-/
namespace KinoBusyAge
open Transitions

/-- The worker's thread. `stamping` and `counting` are the two stores of `admit`, with the
    number admitted so far; `serving` has that many of the batch still behind it. -/
inductive Pc where
  | atTake
  | waiting
  | stamping (admitted : Nat)
  | counting (admitted : Nat)
  | filling (admitted : Nat)
  | serving (left : Nat)
  | ended
  | crashed
  deriving DecidableEq, Repr

/-- A row as it was reported, with what the worker was executing when its counter was read:
    when it had turned to that request, and the clock. -/
structure Report where
  busyMs : Nat
  executing : Option Nat
  at_ms : Nat
  deriving DecidableEq, Repr

/-- A thread in `collect_worker_status`, by what it has read. -/
inductive Sampler where
  | idle
  | started (now : Nat)
  | marked (now : Nat) (quarantined : Bool)
  | counted (now : Nat) (quarantined : Bool) (inFlight : Nat) (executing : Option Nat) (at_ms : Nat)
  deriving DecidableEq, Repr

/-- `executing` is when the worker turned to the request it is executing. -/
structure State where
  clock : Nat
  inFlight : Nat
  lastStartedMs : Nat
  quarantined : Bool
  pc : Pc
  executing : Option Nat
  samplers : Nat → Sampler
  reports : List Report

inductive Label where
  | tick
  | checkout
  | take
  | close
  | admitCtx
  | more
  | go
  | finish
  | fused
  | lost
  | crash
  | abortSlot
  | quarantine
  | sample (t : Nat)
  deriving DecidableEq, Repr

def busyMs (now : Nat) (quarantined : Bool) (inFlight started : Nat) : Nat :=
  if quarantined || inFlight == 0 then 0 else now - started

def sample (s : State) (t : Nat) : State :=
  match s.samplers t with
  | .idle => { s with samplers := Function.update s.samplers t (.started s.clock) }
  | .started now => { s with samplers := Function.update s.samplers t (.marked now s.quarantined) }
  | .marked now quarantined =>
    { s with
      samplers := Function.update s.samplers t
        (.counted now quarantined s.inFlight s.executing s.clock) }
  | .counted now quarantined inFlight executing at_ms =>
    { s with
      samplers := Function.update s.samplers t .idle
      reports := s.reports ++ [⟨busyMs now quarantined inFlight s.lastStartedMs, executing, at_ms⟩] }

/-- `fused` answers the last request of a take and goes straight on to the next checkout;
    what such a call took is `lost` when the close after it raises. -/
def step (max : Nat) (s : State) : Label → Option State
  | .tick => some { s with clock := s.clock + 1 }
  | .checkout =>
    match s.pc with
    | .atTake => some { s with pc := .waiting, inFlight := 0 }
    | _ => none
  | .take =>
    match s.pc with
    | .waiting => some { s with pc := .stamping 0 }
    | _ => none
  | .close =>
    match s.pc with
    | .waiting => some { s with pc := .ended }
    | _ => none
  | .admitCtx =>
    match s.pc with
    | .stamping 0 =>
      some { s with pc := .counting 0, lastStartedMs := s.clock, executing := some s.clock }
    | .stamping (k + 1) => some { s with pc := .counting (k + 1), lastStartedMs := s.clock }
    | .counting k => some { s with pc := .filling (k + 1), inFlight := s.inFlight + 1 }
    | _ => none
  | .more =>
    match s.pc with
    | .filling k => if k < max then some { s with pc := .stamping k } else none
    | _ => none
  | .go =>
    match s.pc with
    | .filling k => some { s with pc := .serving (k - 1) }
    | _ => none
  | .finish =>
    match s.pc with
    | .serving 0 => some { s with pc := .atTake, executing := none }
    | .serving (left + 1) => some { s with pc := .serving left, executing := some s.clock }
    | _ => none
  | .fused =>
    match s.pc with
    | .serving 0 => some { s with pc := .waiting, executing := none, inFlight := 0 }
    | _ => none
  | .lost =>
    match s.pc with
    | .filling _ => some { s with pc := .atTake, executing := none }
    | _ => none
  | .crash =>
    match s.pc with
    | .filling _ | .serving _ => some { s with pc := .crashed, executing := none }
    | _ => none
  | .abortSlot => some { s with inFlight := 0 }
  | .quarantine => some { s with quarantined := true }
  | .sample t => some (sample s t)

def initial : State := ⟨0, 0, 0, false, .atTake, none, fun _ => .idle, []⟩

def system (max : Nat) : System State Label := ⟨fun s => s = initial, step max⟩

def Report.Honest (r : Report) : Prop :=
  match r.executing with
  | none => r.busyMs = 0
  | some turned => r.busyMs ≤ r.at_ms - turned

/-- A sampler that reads a count in an unmarked slot finds the worker executing a request
    that it turned to no later than the take's last admission. -/
def timely (s : State) : Label → Bool
  | .sample t =>
    match s.samplers t with
    | .marked _ quarantined =>
      quarantined || s.inFlight == 0 || s.executing.any fun turned => turned ≤ s.lastStartedMs
    | _ => true
  | _ => true

/-- Everything the worker does: the stamp only rises to the clock, and the worker turns to a
    request now or is still at the one it was at. -/
theorem worker_step {max : Nat} {s s' : State} {l : Label} (other : ∀ t, l ≠ .sample t)
    (moved : step max s l = some s') :
    s'.samplers = s.samplers ∧ s'.reports = s.reports ∧ s.clock ≤ s'.clock ∧
      (s'.lastStartedMs = s.lastStartedMs ∨ s'.lastStartedMs = s.clock) := by
  cases l with
  | sample t => exact absurd rfl (other t)
  | tick =>
    cases moved
    simp
  | abortSlot | quarantine =>
    cases moved
    simp
  | checkout | take | close | admitCtx | go | finish | fused | lost | crash =>
    simp only [step] at moved
    split at moved
    all_goals first
      | contradiction
      | cases moved
        simp
  | more =>
    simp only [step] at moved
    split at moved
    · split at moved
      · cases moved
        simp
      · cases moved
    · cases moved

def Reading (s : State) : Sampler → Prop
  | .idle => True
  | .started now => now ≤ s.clock
  | .marked now _ => now ≤ s.clock
  | .counted now quarantined inFlight executing at_ms => now ≤ at_ms ∧
      (quarantined = true ∨ inFlight = 0 ∨
        ∃ turned, executing = some turned ∧ turned ≤ s.lastStartedMs)

structure Invariant (s : State) : Prop where
  stamped : s.lastStartedMs ≤ s.clock
  readings : ∀ t, Reading s (s.samplers t)
  honest : ∀ r ∈ s.reports, r.Honest

theorem reading_mono {s s' : State} {r : Sampler} (reading : Reading s r)
    (clock : s.clock ≤ s'.clock) (stamp : s.lastStartedMs ≤ s'.lastStartedMs) : Reading s' r := by
  cases r with
  | idle => trivial
  | started now | marked now q =>
    simp only [Reading] at reading ⊢
    omega
  | counted now q n executing at_ms =>
    obtain ⟨before, q_set | empty | ⟨turned, same, le⟩⟩ := reading
    · exact ⟨before, .inl q_set⟩
    · exact ⟨before, .inr (.inl empty)⟩
    · exact ⟨before, .inr (.inr ⟨turned, same, by omega⟩)⟩

theorem zero_honest (executing : Option Nat) (at_ms : Nat) :
    (Report.mk 0 executing at_ms).Honest := by
  cases executing with
  | none => rfl
  | some turned => exact Nat.zero_le _

theorem counted_honest {now n started at_ms : Nat} {q : Bool} {executing : Option Nat}
    (before : now ≤ at_ms)
    (timely : q = true ∨ n = 0 ∨ ∃ turned, executing = some turned ∧ turned ≤ started) :
    (Report.mk (busyMs now q n started) executing at_ms).Honest := by
  rcases timely with set | empty | ⟨turned, rfl, le⟩
  · have quiet : busyMs now q n started = 0 := by simp [busyMs, set]
    rw [quiet]
    exact zero_honest executing at_ms
  · have quiet : busyMs now q n started = 0 := by simp [busyMs, empty]
    rw [quiet]
    exact zero_honest executing at_ms
  · change busyMs now q n started ≤ at_ms - turned
    unfold busyMs
    split
    · omega
    · omega

theorem updated_reading {s : State} {t : Nat} {r : Sampler} (readings : ∀ u, Reading s (s.samplers u))
    (mine : Reading s r) (u : Nat) : Reading s (Function.update s.samplers t r u) := by
  by_cases same : u = t
  · rw [same, Function.update_self]
    exact mine
  · rw [Function.update_of_ne same]
    exact readings u

theorem sample_inv {s : State} {t : Nat} (inv : Invariant s) (time : timely s (.sample t) = true) :
    Invariant (sample s t) := by
  obtain ⟨stamped, readings, honest⟩ := inv
  have reading := readings t
  unfold sample
  cases at_t : s.samplers t with
  | idle => exact ⟨stamped, updated_reading readings (le_refl s.clock), honest⟩
  | started now =>
    rw [at_t] at reading
    exact ⟨stamped, updated_reading readings reading, honest⟩
  | marked now q =>
    rw [at_t] at reading
    have in_time : q = true ∨ s.inFlight = 0 ∨
        ∃ turned, s.executing = some turned ∧ turned ≤ s.lastStartedMs := by
      simpa [timely, at_t, Option.any_eq_true, or_assoc] using time
    have counted : Reading s (.counted now q s.inFlight s.executing s.clock) := ⟨reading, in_time⟩
    exact ⟨stamped, updated_reading readings counted, honest⟩
  | counted now q n executing at_ms =>
    rw [at_t] at reading
    refine ⟨stamped, updated_reading readings trivial, ?_⟩
    intro r here
    rcases List.mem_append.mp here with before | last
    · exact honest r before
    · rw [List.mem_singleton] at last
      rw [last]
      exact counted_honest reading.1 reading.2

theorem step_inv {max : Nat} {s s' : State} {l : Label} (inv : Invariant s)
    (time : timely s l = true) (moved : step max s l = some s') : Invariant s' := by
  by_cases sampling : ∃ t, l = .sample t
  · obtain ⟨t, rfl⟩ := sampling
    cases moved
    exact sample_inv inv time
  · obtain ⟨samplers, reports, clock, stamp⟩ :=
      worker_step (fun t same => sampling ⟨t, same⟩) moved
    have stamped := inv.stamped
    constructor
    · omega
    · intro t
      rw [samplers]
      exact reading_mono (inv.readings t) clock (by omega)
    · rw [reports]
      exact inv.honest

theorem reachable_inv {max : Nat} {s : State}
    (reached : ReachableBy (system max) (fun s l => timely s l = true) s) : Invariant s := by
  apply invariant Invariant ?_ ?_ reached
  · intro s start
    cases start
    constructor
    · exact le_refl 0
    · intro t
      trivial
    · intro r here
      cases here
  · intro s s' l inv time moved
    exact step_inv inv time moved

structure Single (s : State) : Prop where
  turned : ∀ turned, s.executing = some turned → turned ≤ s.lastStartedMs
  first : match s.pc with
    | .stamping k | .counting k => k = 0
    | .filling k => k = 1
    | .serving left => left = 0
    | _ => True

theorem step_single {max : Nat} {s s' : State} {l : Label} (one : max ≤ 1) (single : Single s)
    (moved : step max s l = some s') : Single s' := by
  obtain ⟨turned, first⟩ := single
  cases l with
  | tick | abortSlot | quarantine =>
    cases moved
    exact ⟨turned, first⟩
  | sample t =>
    cases moved
    unfold sample
    cases s.samplers t with
    | idle | started | marked | counted => exact ⟨turned, first⟩
  | checkout | take | close =>
    simp only [step] at moved
    split at moved
    · cases moved
      exact ⟨turned, by simp⟩
    · cases moved
  | admitCtx =>
    simp only [step] at moved
    split at moved
    · cases moved
      constructor
      · rintro u ⟨rfl⟩
        exact le_refl _
      · rfl
    · next k at_pc =>
      rw [at_pc] at first
      cases first
    · next k at_pc =>
      cases moved
      rw [at_pc] at first
      constructor
      · exact turned
      · exact congrArg (· + 1) first
    · cases moved
  | more =>
    simp only [step] at moved
    split at moved
    · next k at_pc =>
      rw [at_pc] at first
      simp only at first
      split at moved
      · omega
      · cases moved
    · cases moved
  | go =>
    simp only [step] at moved
    split at moved
    · next k at_pc =>
      cases moved
      rw [at_pc] at first
      simp only at first
      exact ⟨turned, by simp [first]⟩
    · cases moved
  | finish =>
    simp only [step] at moved
    split at moved
    · cases moved
      exact ⟨by simp, trivial⟩
    · next left at_pc =>
      rw [at_pc] at first
      cases first
    · cases moved
  | fused | lost =>
    simp only [step] at moved
    split at moved
    · cases moved
      exact ⟨by simp, trivial⟩
    · cases moved
  | crash =>
    simp only [step] at moved
    split at moved
    · cases moved
      exact ⟨by simp, trivial⟩
    · cases moved
      exact ⟨by simp, trivial⟩
    · cases moved

theorem reachable_single {max : Nat} {s : State} (one : max ≤ 1)
    (reached : Reachable (system max) s) : Single s := by
  apply reachable_invariant Single ?_ ?_ reached
  · intro s start
    cases start
    exact ⟨by simp [initial], trivial⟩
  · intro s s' l single moved
    exact step_single one single moved

/-- A sampler with a fresh clock that reads its count out of time reports too much. -/
theorem untimely_overstates {max : Nat} {s : State} {t : Nat}
    (at_t : s.samplers t = .marked s.clock false) (late : timely s (.sample t) = false)
    (older : s.lastStartedMs < s.clock) :
    ∃ s', run (system max) s [.sample t, .sample t] = some s' ∧ ∃ r ∈ s'.reports, ¬r.Honest := by
  simp only [timely, at_t, Bool.false_or, Bool.or_eq_false_iff, beq_eq_false_iff_ne] at late
  obtain ⟨busy, past⟩ := late
  refine ⟨_, rfl, ⟨busyMs s.clock false s.inFlight s.lastStartedMs, s.executing, s.clock⟩, ?_, ?_⟩
  · simp [sample, at_t]
  · have age : busyMs s.clock false s.inFlight s.lastStartedMs = s.clock - s.lastStartedMs := by
      simp [busyMs, busy]
    rw [age]
    cases at_work : s.executing with
    | none =>
      change ¬s.clock - s.lastStartedMs = 0
      omega
    | some turned =>
      rw [at_work] at past
      simp only [Option.any_some, decide_eq_false_iff_not] at past
      change ¬s.clock - s.lastStartedMs ≤ s.clock - turned
      omega

/-- As long as every count is read in time, a row says at most how long the request being
    executed has been running, and a worker past the timeout is at one request that long. -/
theorem busy_ms_law (max : Nat) :
    (∀ s, ReachableBy (system max) (fun s l => timely s l = true) s → ∀ r ∈ s.reports,
      r.Honest ∧ ∀ timeout, timeout < r.busyMs →
        ∃ turned, r.executing = some turned ∧ timeout < r.at_ms - turned) ∧
    (max ≤ 1 → ∀ s turned, Reachable (system max) s → s.executing = some turned →
      turned ≤ s.lastStartedMs) ∧
    ∀ s t, s.samplers t = .marked s.clock false → timely s (.sample t) = false →
      s.lastStartedMs < s.clock →
      ∃ s', run (system max) s [.sample t, .sample t] = some s' ∧ ∃ r ∈ s'.reports, ¬r.Honest := by
  refine ⟨?_, ?_, fun _ _ => untimely_overstates⟩
  · intro s reached r here
    have honest := (reachable_inv reached).honest r here
    refine ⟨honest, ?_⟩
    intro timeout over_it
    unfold Report.Honest at honest
    cases at_work : r.executing with
    | none =>
      rw [at_work] at honest
      simp only at honest
      omega
    | some turned =>
      rw [at_work] at honest
      exact ⟨turned, rfl, Nat.lt_of_lt_of_le over_it honest⟩
  · intro one s turned reached at_work
    exact (reachable_single one reached).turned turned at_work

def sampledInTime : List Label :=
  [Label.checkout, Label.take, Label.admitCtx, Label.admitCtx, Label.go] ++
    List.replicate 5 Label.tick ++ List.replicate 4 (Label.sample 0)

def sampledInTimeState : State := (runBy (system 1) timely initial sampledInTime).getD initial

theorem sampled_in_time :
    sampledInTimeState.reports = [⟨5, some 0, 5⟩] ∧ ∀ r ∈ sampledInTimeState.reports, r.Honest := by
  have ran : runBy (system 1) timely initial sampledInTime = some sampledInTimeState := rfl
  have reached : ReachableBy (system 1) (fun s l => timely s l = true) sampledInTimeState :=
    reachable_runBy (fun _ _ => id) (.start rfl) ran
  exact ⟨rfl, fun r here => ((busy_ms_law 1).1 sampledInTimeState reached r here).1⟩

/-- The second request of a batch has the first one's time on its account, and so has the
    time between a request's end and the next checkout. -/
theorem busy_ms_overstated :
    (∃ s, Reachable (system 2) s ∧ s.reports = [⟨100, some 100, 100⟩] ∧
      ¬∀ r ∈ s.reports, r.Honest) ∧
    ∃ s, Reachable (system 1) s ∧ s.reports = [⟨100, none, 100⟩] ∧ ¬∀ r ∈ s.reports, r.Honest := by
  constructor
  · have ran : run (system 2) initial
        ([[.checkout, .take, .admitCtx, .admitCtx, .more, .admitCtx, .admitCtx, .go],
          List.replicate 100 .tick, [.finish], List.replicate 4 (.sample 0)].flatten) = some _ := rfl
    refine ⟨_, reachable_run (.start rfl) ran, rfl, ?_⟩
    intro honest
    have small := honest ⟨100, some 100, 100⟩ (List.mem_singleton.mpr rfl)
    change 100 ≤ 100 - 100 at small
    omega
  · have ran : run (system 1) initial
        ([[.checkout, .take, .admitCtx, .admitCtx, .go], List.replicate 100 .tick, [.finish],
          List.replicate 4 (.sample 0)].flatten) = some _ := rfl
    refine ⟨_, reachable_run (.start rfl) ran, rfl, ?_⟩
    intro honest
    have none_at_work := honest ⟨100, none, 100⟩ (List.mem_singleton.mpr rfl)
    change 100 = 0 at none_at_work
    omega

end KinoBusyAge
