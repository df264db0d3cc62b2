import Kino.QueueHistogram

/-!
What the control plane reports (ext/kino/src/control.rs): the snapshot of a server's
counters, its JSON form and its Prometheus text. `sumSeconds` is the text of the summed wait
in seconds, a floating-point number.
-/
namespace KinoMetrics
open Transitions Histograms KinoQueueHistogram

structure WorkerStat where
  index : Nat
  served : Nat
  inFlight : Nat
  busyMs : Nat
  quarantined : Bool
  retired : Bool
  deriving DecidableEq, Repr

structure StatsSnapshot where
  mode : String
  lanes : Bool
  workers : Nat
  threads : Nat
  batch : Nat
  respawns : Nat
  queued : Nat
  inFlight : Nat
  served : Nat
  rejected : Nat
  timeouts : Nat
  laneDepths : Option (List Nat)
  state : UInt8
  workerStatus : List WorkerStat
  quarantinedCount : Nat
  quarantineReplacements : Nat
  maxWorkers : Nat
  activeWorkers : Nat
  scaleUps : Nat
  scaleDowns : Nat
  queueHistogram : QueueHistogramSnapshot

def stateReady : UInt8 := 1
def stateDraining : UInt8 := 2

def StatsSnapshot.stateName (s : StatsSnapshot) : String :=
  if s.state = stateReady then "ready"
  else if s.state = stateDraining then "draining"
  else "booting"

def workerJson (w : WorkerStat) : String :=
  "\x7b\"index\":" ++ toString w.index ++ ",\"served\":" ++ toString w.served ++
    ",\"in_flight\":" ++ toString w.inFlight ++ ",\"busy_ms\":" ++ toString w.busyMs ++
    ",\"quarantined\":" ++ toString w.quarantined ++ ",\"retired\":" ++ toString w.retired ++ "\x7d"

def packageVersion : String := "0.7.2"

def metric (name kind help value : String) : String :=
  "# HELP " ++ name ++ " " ++ help ++ "\n# TYPE " ++ name ++ " " ++ kind ++ "\n" ++ name ++ " " ++
    value ++ "\n"

def series (name kind help label : String) (rows : List (Nat × Nat)) : String :=
  "# HELP " ++ name ++ " " ++ help ++ "\n# TYPE " ++ name ++ " " ++ kind ++ "\n" ++
    String.join (rows.map fun (key, value) =>
      name ++ "\x7b" ++ label ++ "=\"" ++ toString key ++ "\"\x7d " ++ toString value ++ "\n")

def queueLabels : List String :=
  ["0.0005", "0.001", "0.0025", "0.005", "0.01", "0.025", "0.05", "0.1", "0.25", "0.5", "1", "2.5",
    "5", "10"]

def bucketLine (le : String) (value : Nat) : String :=
  "kino_request_queue_seconds_bucket\x7ble=\"" ++ le ++ "\"\x7d " ++ toString value ++ "\n"

def queueHelp : String :=
  "# HELP kino_request_queue_seconds Seconds requests waited in the queue before a worker admitted them.\n# TYPE kino_request_queue_seconds histogram\n"

def metricsHead (s : StatsSnapshot) : String :=
  metric "kino_requests_served_total" "counter" "Requests handed to Ruby workers."
    (toString s.served) ++
  metric "kino_requests_rejected_total" "counter" "Requests rejected with a 503."
    (toString s.rejected) ++
  metric "kino_request_timeouts_total" "counter"
    "Responses past the request timeout (client got a 504)." (toString s.timeouts) ++
  metric "kino_worker_respawns_total" "counter" "Crashed workers respawned by the supervisor."
    (toString s.respawns) ++
  metric "kino_queue_depth" "gauge" "Requests waiting for a worker." (toString s.queued) ++
  metric "kino_requests_in_flight" "gauge" "Requests currently inside Ruby workers."
    (toString s.inFlight) ++
  metric "kino_workers" "gauge" "Configured worker count." (toString s.workers) ++
  metric "kino_threads_per_worker" "gauge" "Configured threads per worker." (toString s.threads) ++
  metric "kino_max_workers" "gauge" "Worker pool ceiling (equals kino_workers for a fixed pool)."
    (toString s.maxWorkers) ++
  metric "kino_active_workers" "gauge" "Workers currently alive and serving."
    (toString s.activeWorkers) ++
  metric "kino_scale_ups_total" "counter" "Workers added by the pool scaler."
    (toString s.scaleUps) ++
  metric "kino_scale_downs_total" "counter" "Idle workers retired by the pool scaler."
    (toString s.scaleDowns) ++
  metric "kino_ready" "gauge" "1 when serving, 0 while booting or draining."
    (if s.state = stateReady then "1" else "0") ++
  (match s.laneDepths with
    | some depths =>
      series "kino_lane_depth" "gauge" "Queued requests in each worker lane." "lane"
        (depths.zipIdx.map fun (depth, lane) => (lane, depth))
    | none => "") ++
  series "kino_worker_requests_served_total" "counter" "Requests handed to each dispatch slot."
    "worker" (s.workerStatus.map fun w => (w.index, w.served)) ++
  series "kino_worker_in_flight" "gauge" "Requests executing in each dispatch slot." "worker"
    (s.workerStatus.map fun w => (w.index, w.inFlight)) ++
  series "kino_worker_busy_ms" "gauge"
    "Age in ms of the current in-flight request per slot (0 when idle)." "worker"
    (s.workerStatus.map fun w => (w.index, w.busyMs)) ++
  metric "kino_quarantined_workers" "gauge" "Dispatch slots abandoned as wedged."
    (toString s.quarantinedCount) ++
  metric "kino_quarantine_replacements_total" "counter"
    "Replacement workers spawned after a wedge." (toString s.quarantineReplacements)

def writeBucket (written : Nat × String) (bucket : String × Nat) : Nat × String :=
  (written.1 + bucket.2, written.2 ++ bucketLine bucket.1 (written.1 + bucket.2))

def writeBuckets (h : QueueHistogramSnapshot) : Nat × String :=
  (queueLabels.zip h.buckets).foldl writeBucket (0, "")

section Text
variable (sumSeconds : Nat → String)

def statsJson (s : StatsSnapshot) : String :=
  "\x7b\"mode\":\"" ++ s.mode ++ "\",\"lanes\":" ++ toString s.lanes ++
    ",\"workers\":" ++ toString s.workers ++ ",\"threads\":" ++ toString s.threads ++
    ",\"batch\":" ++ toString s.batch ++ ",\"respawns\":" ++ toString s.respawns ++
    ",\"queued\":" ++ toString s.queued ++ ",\"in_flight\":" ++ toString s.inFlight ++
    ",\"served\":" ++ toString s.served ++ ",\"rejected\":" ++ toString s.rejected ++
    ",\"timeouts\":" ++ toString s.timeouts ++ ",\"max_workers\":" ++ toString s.maxWorkers ++
    ",\"active_workers\":" ++ toString s.activeWorkers ++
    ",\"scale_ups\":" ++ toString s.scaleUps ++ ",\"scale_downs\":" ++ toString s.scaleDowns ++
    (match s.laneDepths with
      | some depths => ",\"lane_depths\":[" ++ ",".intercalate (depths.map toString) ++ "]"
      | none => "") ++
    ",\"worker_status\":[" ++ ",".intercalate (s.workerStatus.map workerJson) ++ "]" ++
    ",\"queue_time\":\x7b\"count\":" ++ toString s.queueHistogram.count ++
    ",\"sum_seconds\":" ++ sumSeconds s.queueHistogram.sumUs ++ "\x7d" ++
    ",\"quarantined\":" ++ toString s.quarantinedCount ++
    ",\"state\":\"" ++ s.stateName ++ "\",\"version\":\"" ++ packageVersion ++ "\"\x7d"

def metricsText (s : StatsSnapshot) : String :=
  let h := s.queueHistogram
  let buckets := writeBuckets h
  let total := buckets.1 + h.overflow
  metricsHead s ++ queueHelp ++ buckets.2 ++ bucketLine "+Inf" total ++
    "kino_request_queue_seconds_sum " ++ sumSeconds h.sumUs ++ "\n" ++
    "kino_request_queue_seconds_count " ++ toString total ++ "\n"

def queueText (values : List Nat) (total : Nat) (sum : String) : String :=
  queueHelp ++ String.join (List.zipWith bucketLine queueLabels values) ++ bucketLine "+Inf" total ++
    "kino_request_queue_seconds_sum " ++ sum ++ "\n" ++
    "kino_request_queue_seconds_count " ++ toString total ++ "\n"

theorem writeBuckets_from (labels : List String) (counts : List Nat) (total : Nat) (out : String)
    (sized : counts.length = labels.length) :
    (labels.zip counts).foldl writeBucket (total, out) =
      (total + counts.sum, out ++ String.join (List.zipWith bucketLine labels (sums total counts))) := by
  induction labels generalizing counts total out with
  | nil =>
    have empty : counts = [] := List.length_eq_zero_iff.mp (by simpa using sized)
    simp [empty, sums]
  | cons le labels ih =>
    cases counts with
    | nil => simp at sized
    | cons c counts =>
      have rest := ih counts (total + c) (out ++ bucketLine le (total + c)) (by simpa using sized)
      rw [List.zip_cons_cons, List.foldl_cons, writeBucket, rest, sums, List.zipWith_cons_cons, List.sum_cons,
        String.join_cons, String.append_assoc, Nat.add_assoc]

theorem metricsText_queue (s : StatsSnapshot) (sized : s.queueHistogram.buckets.length = 14) :
    metricsText sumSeconds s = metricsHead s ++
      queueText (sums 0 s.queueHistogram.buckets)
        (s.queueHistogram.buckets.sum + s.queueHistogram.overflow)
        (sumSeconds s.queueHistogram.sumUs) := by
  unfold metricsText writeBuckets queueText
  dsimp only
  rw [writeBuckets_from queueLabels s.queueHistogram.buckets 0 "" (by rw [sized]; rfl)]
  simp [String.append_assoc]

theorem series_ascending (h : QueueHistogramSnapshot) :
    (sums 0 h.buckets ++ [h.buckets.sum + h.overflow]).Pairwise (· ≤ ·) := by
  rw [List.pairwise_append]
  refine ⟨(List.pairwise_cons.mp (sums_ascending 0 h.buckets)).2, by simp, ?_⟩
  intro x here y last
  have bound := sums_le_total 0 h.buckets x here
  simp only [List.mem_singleton] at last
  omega

theorem between_parts {began ended : List Record} {h : QueueHistogramSnapshot}
    (between : Between began h ended) :
    (List.Forall₂ (· ≤ ·) (tally queueBoundsUs (passed began)) h.buckets ∧
      above queueBoundsUs (passed began) ≤ h.overflow) ∧
    (List.Forall₂ (· ≤ ·) h.buckets (tally queueBoundsUs (passed ended)) ∧
      h.overflow ≤ above queueBoundsUs (passed ended)) := by
  have split : ∀ {xs ys : List Nat} {x y : Nat},
      List.Forall₂ (· ≤ ·) (xs ++ [x]) (ys ++ [y]) → List.Forall₂ (· ≤ ·) xs ys ∧ x ≤ y := by
    intro xs ys x y all
    have sized : xs.length = ys.length := by simpa using all.length_eq
    have first := List.forall₂_take xs.length all
    have last := List.forall₂_drop xs.length all
    rw [List.take_left, sized, List.take_left] at first
    rw [List.drop_left, sized, List.drop_left] at last
    simp only [List.forall₂_cons, List.forall₂_nil_left_iff, and_true] at last
    exact ⟨first, last⟩
  exact ⟨split between.1, split between.2⟩

/-- The cumulative values of a snapshot lie between the records that were finished when it
    began and those begun when it ended. -/
theorem torn_series {st : State} {began ended : List Record} {h : QueueHistogramSnapshot}
    (reached : Reachable system st) (taken : st.snap = .taken began h ended) :
    h.buckets.length = 14 ∧
    List.Forall₂ (· ≤ ·) (queueBoundsUs.map fun b => (finished began).countP (· ≤ b))
      (sums 0 h.buckets) ∧
    List.Forall₂ (· ≤ ·) (sums 0 h.buckets)
      (queueBoundsUs.map fun b => (waits ended).countP (· ≤ b)) ∧
    (finished began).length ≤ h.buckets.sum + h.overflow ∧
    h.buckets.sum + h.overflow ≤ (waits ended).length := by
  obtain ⟨⟨low, low_over⟩, high, high_over⟩ :=
    between_parts ((reachable_inv reached).taken began h ended taken)
  obtain ⟨done, done_over⟩ := tally_mono queueBoundsUs (finished_passed began).subperm
  obtain ⟨all, all_over⟩ := tally_mono queueBoundsUs (passed_waits ended).subperm
  have lower : List.Forall₂ (· ≤ ·) (tally queueBoundsUs (finished began)) h.buckets :=
    each_le_trans done low
  have upper : List.Forall₂ (· ≤ ·) h.buckets (tally queueBoundsUs (waits ended)) :=
    each_le_trans high all
  have finished_total := tally_sum queueBoundsUs (finished began)
  have begun_total := tally_sum queueBoundsUs (waits ended)
  have lower_sum := List.Forall₂.sum_le_sum lower
  have upper_sum := List.Forall₂.sum_le_sum upper
  refine ⟨?_, ?_, ?_, ?_, ?_⟩
  · rw [← lower.length_eq, tally_length]
    rfl
  · rw [← sums_tally bounds_ascending]
    exact sums_mono (le_refl 0) lower
  · rw [← sums_tally bounds_ascending]
    exact sums_mono (le_refl 0) upper
  · omega
  · omega

/-- The emitted histogram counts the recorded waits; torn by concurrent records it is still
    in order, ends in its own count and counts no more and no fewer than it may. -/
theorem queue_metrics (s : StatsSnapshot) :
    (∀ recorded : List Nat,
      s.queueHistogram = (recorded.foldl QueueHistogram.record QueueHistogram.new).snapshot →
      metricsText sumSeconds s = metricsHead s ++
        queueText (queueBoundsUs.map fun b => recorded.countP (· ≤ b)) recorded.length
          (sumSeconds s.queueHistogram.sumUs)) ∧
    ∀ (st : State) (began ended : List Record), Reachable system st →
      st.snap = .taken began s.queueHistogram ended →
      ∃ (values : List Nat) (total : Nat),
        metricsText sumSeconds s =
          metricsHead s ++ queueText values total (sumSeconds s.queueHistogram.sumUs) ∧
        (values ++ [total]).Pairwise (· ≤ ·) ∧
        List.Forall₂ (· ≤ ·) (queueBoundsUs.map fun b => (finished began).countP (· ≤ b)) values ∧
        List.Forall₂ (· ≤ ·) values (queueBoundsUs.map fun b => (waits ended).countP (· ≤ b)) ∧
        (finished began).length ≤ total ∧ total ≤ (waits ended).length := by
  constructor
  · intro recorded same
    obtain ⟨buckets, overflow⟩ := records_tally recorded
    have sized : s.queueHistogram.buckets.length = 14 := by
      rw [same]
      exact (recorded.foldl QueueHistogram.record QueueHistogram.new).sized
    rw [metricsText_queue sumSeconds s sized]
    have counts : s.queueHistogram.buckets = tally queueBoundsUs recorded := by
      rw [same]
      exact buckets
    have beyond : s.queueHistogram.overflow = above queueBoundsUs recorded := by
      rw [same]
      exact overflow
    rw [counts, beyond, tally_sum, sums_tally bounds_ascending]
  · intro st began ended reached taken
    obtain ⟨sized, low, high, least, most⟩ := torn_series reached taken
    exact ⟨_, _, metricsText_queue sumSeconds s sized, series_ascending _, low, high, least, most⟩

end Text

def quiet (h : QueueHistogramSnapshot) : StatsSnapshot :=
  ⟨"ractor", false, 1, 1, 1, 0, 0, 0, 0, 0, 0, none, stateReady, [], 0, 0, 1, 1, 0, 0, h⟩

def tornRun : List Label :=
  [.record 700, .step 0, .step 0, .step 0, .record 100, .snapshot, .load, .step 1, .step 1, .step 1] ++
    List.replicate 17 .load

def tornSnapshot : QueueHistogramSnapshot := ⟨[0, 1, 0, 0, 0, 0, 0, 0, 0, 0, 0, 0, 0, 0], 0, 800, 2⟩

theorem torn_run_text :
    metricsText toString (quiet ([700, 100].foldl QueueHistogram.record QueueHistogram.new).snapshot) =
      metricsHead (quiet ([700, 100].foldl QueueHistogram.record QueueHistogram.new).snapshot) ++
        queueText [1, 2, 2, 2, 2, 2, 2, 2, 2, 2, 2, 2, 2, 2] 2 "800" ∧
    ∃ values total, metricsText toString (quiet tornSnapshot) =
        metricsHead (quiet tornSnapshot) ++ queueText values total "800" ∧
      1 ≤ total ∧ total ≤ 2 := by
  constructor
  · exact (queue_metrics toString (quiet _)).1 [700, 100] rfl
  · have ran : run system initial tornRun = some _ := rfl
    obtain ⟨values, total, text, _, _, _, least, most⟩ :=
      (queue_metrics toString (quiet tornSnapshot)).2 _ [⟨700, .finished⟩, ⟨100, .started⟩]
        [⟨700, .finished⟩, ⟨100, .finished⟩] (reachable_run (.start rfl) ran) rfl
    exact ⟨values, total, text, least, most⟩

end KinoMetrics
