import Kino.Metrics
import Kino.BusyAge
import Kino.JsonText
import Kino.Layers

/-!
A server's figures are reported twice: `Server#stats` (lib/kino/server.rb) puts the native
layer's answers into a Ruby hash, and the control plane writes one snapshot as JSON
(ext/kino/src/control.rs). `sumSeconds` is the number that stands for a sum of microseconds
in seconds.
-/
namespace KinoStatsReport
open Layers OrderedHash JsonText KinoMetrics KinoQueueHistogram

/-- Resolved: never `auto`. -/
inductive Mode where
  | ractor
  | threaded
  deriving DecidableEq, Repr

def Mode.toS : Mode → String
  | .ractor => "ractor"
  | .threaded => "threaded"

theorem Mode.plain (mode : Mode) : mode.toS.toList.all isPlain = true := by
  cases mode <;> rfl

def Mode.text (mode : Mode) : Text := ⟨mode.toS.toList, mode.plain⟩

/-- The settings `Server#initialize` has settled; a ceiling below the floor was refused. -/
structure Server where
  mode : Mode
  lanes : Bool
  workers : Nat
  maxWorkers : Nat
  threads : Nat
  batch : Nat
  ceiling : workers ≤ maxWorkers

/-! The native side (ext/kino/src/registry.rs). -/

structure Topology where
  mode : String
  workers : Nat
  maxWorkers : Nat
  threads : Nat
  batch : Nat

/-- `laneRx`: how many wait in the slot's own lane, where it has one. -/
structure WorkerSlot where
  served : Nat
  inFlight : Nat
  lastStartedMs : Nat
  quarantined : Bool
  retired : Bool
  laneRx : Option Nat

/-- What changes while the server runs; `reqRx` is how many wait in the shared queue. -/
structure Counters where
  slots : List WorkerSlot
  reqRx : Nat
  inFlight : Nat
  served : Nat
  rejected : Nat
  timeouts : Nat
  respawns : Nat
  state : UInt8
  quarantineReplacements : Nat
  activeWorkers : Nat
  scaleUps : Nat
  scaleDowns : Nat
  queueHistogram : QueueHistogramSnapshot

structure ServerInner extends Counters where
  topology : Topology
  lanes : Bool

/-- What `server_start` makes of the settings it is called with. -/
def serverStart (server : Server) (counters : Counters) : ServerInner :=
  { counters with
    topology := ⟨server.mode.toS, server.workers, max server.maxWorkers server.workers,
      server.threads, server.batch⟩
    lanes := server.lanes }

def ServerInner.laneDepths (server : ServerInner) : Option (List Nat) :=
  if server.lanes then some (server.slots.filterMap WorkerSlot.laneRx) else none

def ServerInner.queued (server : ServerInner) : Nat :=
  server.reqRx + (server.laneDepths.map List.sum).getD 0

def collectWorkerStatus (now : Nat) (server : ServerInner) : List WorkerStat :=
  server.slots.zipIdx.map fun (slot, index) =>
    { index
      served := slot.served
      inFlight := slot.inFlight
      busyMs := KinoBusyAge.busyMs now slot.quarantined slot.inFlight slot.lastStartedMs
      quarantined := slot.quarantined
      retired := slot.retired }

def take (now : Nat) (server : ServerInner) : StatsSnapshot where
  mode := server.topology.mode
  lanes := server.lanes
  workers := server.topology.workers
  threads := server.topology.threads
  batch := server.topology.batch
  respawns := server.respawns
  queued := server.queued
  inFlight := server.inFlight
  served := server.served
  rejected := server.rejected
  timeouts := server.timeouts
  laneDepths := server.laneDepths
  state := server.state
  workerStatus := collectWorkerStatus now server
  quarantinedCount := (collectWorkerStatus now server).countP WorkerStat.quarantined
  quarantineReplacements := server.quarantineReplacements
  maxWorkers := server.topology.maxWorkers
  activeWorkers := server.activeWorkers
  scaleUps := server.scaleUps
  scaleDowns := server.scaleDowns
  queueHistogram := server.queueHistogram

/-! The native functions `Server#stats` calls; a server that is gone reports zeros. -/

structure ServerStats where
  queued : Nat
  inFlight : Nat
  served : Nat
  rejected : Nat
  timeouts : Nat
  respawns : Nat
  laneDepths : Option (List Nat)

def serverStats : Option ServerInner → ServerStats
  | none => ⟨0, 0, 0, 0, 0, 0, none⟩
  | some server =>
    { queued := server.reqRx + (server.laneDepths.map List.sum).getD 0
      inFlight := server.inFlight
      served := server.served
      rejected := server.rejected
      timeouts := server.timeouts
      respawns := server.respawns
      laneDepths := server.laneDepths }

structure PoolStats where
  activeWorkers : Nat
  maxWorkers : Nat
  scaleUps : Nat
  scaleDowns : Nat

def poolStats : Option ServerInner → PoolStats
  | none => ⟨0, 0, 0, 0⟩
  | some server =>
    ⟨server.activeWorkers, server.topology.maxWorkers, server.scaleUps, server.scaleDowns⟩

def workerStats (now : Nat) : Option ServerInner → List WorkerStat
  | none => []
  | some server => collectWorkerStatus now server

inductive Key where
  | index
  | served
  | inFlight
  | busyMs
  | quarantined
  | retired
  | mode
  | lanes
  | workers
  | maxWorkers
  | threads
  | batch
  | respawns
  | activeWorkers
  | scaleUps
  | scaleDowns
  | queued
  | rejected
  | timeouts
  | laneDepths
  | workerStatus
  | queueTime
  | count
  | sumSeconds
  | state
  | version
  deriving DecidableEq

def Key.name : Key → String
  | .index => "index"
  | .served => "served"
  | .inFlight => "in_flight"
  | .busyMs => "busy_ms"
  | .quarantined => "quarantined"
  | .retired => "retired"
  | .mode => "mode"
  | .lanes => "lanes"
  | .workers => "workers"
  | .maxWorkers => "max_workers"
  | .threads => "threads"
  | .batch => "batch"
  | .respawns => "respawns"
  | .activeWorkers => "active_workers"
  | .scaleUps => "scale_ups"
  | .scaleDowns => "scale_downs"
  | .queued => "queued"
  | .rejected => "rejected"
  | .timeouts => "timeouts"
  | .laneDepths => "lane_depths"
  | .workerStatus => "worker_status"
  | .queueTime => "queue_time"
  | .count => "count"
  | .sumSeconds => "sum_seconds"
  | .state => "state"
  | .version => "version"

theorem Key.plain (k : Key) : k.name.toList.all isPlain = true := by
  cases k <;> rfl

def Key.text (k : Key) : Text := ⟨k.name.toList, k.plain⟩

theorem Key.text_val (k : Key) : k.text.val = k.name.toList := rfl

theorem Key.name_injective {j k : Key} (same : j.name = k.name) : j = k := by
  cases j <;> cases k <;> first | rfl | simp [Key.name] at same

theorem Key.text_injective : Function.Injective Key.text := by
  intro j k same
  exact Key.name_injective (String.toList_inj.mp (congrArg Subtype.val same))

/-! The Ruby values of the report, and how JSON writes them. -/

inductive Value where
  | symbol (mode : Mode)
  | bool (value : Bool)
  | integer (value : Nat)
  | float (value : Number)
  | array (items : List Value)
  | hash (members : List (Key × Value))

mutual
def Value.toJson : Value → Json
  | .symbol mode => .string mode.text
  | .bool value => .bool value
  | .integer value => .number (.ofNat value)
  | .float value => .number value
  | .array items => .array (toItems items)
  | .hash members => .object (toMembers members)

def toItems : List Value → List Json
  | [] => []
  | item :: rest => item.toJson :: toItems rest

def toMembers : List (Key × Value) → List (Text × Json)
  | [] => []
  | (name, value) :: rest => (name.text, value.toJson) :: toMembers rest
end

/-! `Server#stats`. -/

def row (w : WorkerStat) : Value :=
  .hash [(.index, .integer w.index), (.served, .integer w.served),
    (.inFlight, .integer w.inFlight), (.busyMs, .integer w.busyMs),
    (.quarantined, .bool w.quarantined), (.retired, .bool w.retired)]

def base (server : Server) : List (Key × Value) :=
  [(.mode, .symbol server.mode), (.lanes, .bool server.lanes),
    (.workers, .integer server.workers),
    (.maxWorkers, .integer server.maxWorkers),
    (.threads, .integer server.threads), (.batch, .integer server.batch),
    (.respawns, .integer 0), (.activeWorkers, .integer server.workers),
    (.scaleUps, .integer 0), (.scaleDowns, .integer 0)]

section Report
variable (sumSeconds : Nat → Number)

structure QueueTime where
  count : Nat
  sumSeconds : Number

def queueTime : Option ServerInner → QueueTime
  | none => ⟨0, sumSeconds 0⟩
  | some server => ⟨server.queueHistogram.count, sumSeconds server.queueHistogram.sumUs⟩

def stats (now : Nat) (server : Server) (started : Bool) (native : Option ServerInner) :
    Hash Key Value :=
  let h := fill Hash.empty (base server)
  if started then
    let s := serverStats native
    let h := fill h [(.queued, .integer s.queued),
      (.inFlight, .integer s.inFlight), (.served, .integer s.served),
      (.rejected, .integer s.rejected), (.timeouts, .integer s.timeouts),
      (.respawns, .integer s.respawns)]
    let h := match s.laneDepths with
      | some depths => h.put (.laneDepths) (.array (depths.map .integer))
      | none => h
    let p := poolStats native
    let h := fill h [(.activeWorkers, .integer p.activeWorkers),
      (.scaleUps, .integer p.scaleUps), (.scaleDowns, .integer p.scaleDowns)]
    let rows := workerStats now native
    let h := h.put (.workerStatus) (.array (rows.map row))
    let h := h.put (.quarantined) (.integer (rows.countP WorkerStat.quarantined))
    let q := queueTime sumSeconds native
    h.put (.queueTime)
      (.hash [(.count, .integer q.count), (.sumSeconds, .float q.sumSeconds)])
  else h

/-! The tree `stats_json` writes. -/

def natural (n : Nat) : Json := .number (.ofNat n)

theorem stateName_plain (s : StatsSnapshot) : s.stateName.toList.all isPlain = true := by
  unfold StatsSnapshot.stateName
  split
  · rfl
  · split <;> rfl

def stateText (s : StatsSnapshot) : Text := ⟨s.stateName.toList, stateName_plain s⟩

def versionText : Text := ⟨packageVersion.toList, rfl⟩

def workerTree (w : WorkerStat) : Json :=
  .object [(Key.index.text, natural w.index), (Key.served.text, natural w.served),
    (Key.inFlight.text, natural w.inFlight), (Key.busyMs.text, natural w.busyMs),
    (Key.quarantined.text, .bool w.quarantined), (Key.retired.text, .bool w.retired)]

def statsTree (mode : Text) (s : StatsSnapshot) : List (Text × Json) :=
  [(Key.mode.text, .string mode), (Key.lanes.text, .bool s.lanes),
    (Key.workers.text, natural s.workers), (Key.threads.text, natural s.threads),
    (Key.batch.text, natural s.batch), (Key.respawns.text, natural s.respawns),
    (Key.queued.text, natural s.queued), (Key.inFlight.text, natural s.inFlight),
    (Key.served.text, natural s.served), (Key.rejected.text, natural s.rejected),
    (Key.timeouts.text, natural s.timeouts), (Key.maxWorkers.text, natural s.maxWorkers),
    (Key.activeWorkers.text, natural s.activeWorkers),
    (Key.scaleUps.text, natural s.scaleUps), (Key.scaleDowns.text, natural s.scaleDowns)] ++
  (match s.laneDepths with
    | some depths => [(Key.laneDepths.text, .array (depths.map natural))]
    | none => []) ++
  [(Key.workerStatus.text, .array (s.workerStatus.map workerTree)),
    (Key.queueTime.text, .object [(Key.count.text, natural s.queueHistogram.count),
      (Key.sumSeconds.text, .number (sumSeconds s.queueHistogram.sumUs))]),
    (Key.quarantined.text, natural s.quarantinedCount), (Key.state.text, .string (stateText s)),
    (Key.version.text, .string versionText)]

def secondsText (us : Nat) : String := String.ofList (sumSeconds us).render

theorem render_natural (n : Nat) : render (natural n) = (toString n).toList := by
  simp [natural, render, Number.render, Number.ofNat]

theorem renderBool_text (b : Bool) : renderBool b = (toString b).toList := by
  cases b <;> rfl

theorem render_worker (w : WorkerStat) : render (workerTree w) = (workerJson w).toList := by
  unfold workerTree workerJson
  simp only [render, renderMembers, renderMoreMembers, renderText, Key.text_val, Key.name,
    render_natural, renderBool_text, openBrace, closeBrace, String.toList_append]
  simp

theorem renderItems_map {A : Type} {tree : A → Json} {text : A → String}
    (same : ∀ a, render (tree a) = (text a).toList) (items : List A) :
    renderItems (items.map tree) = (",".intercalate (items.map text)).toList := by
  have more : ∀ rest : List A, renderMoreItems (rest.map tree) =
      rest.flatMap fun a => ',' :: (text a).toList := by
    intro rest
    induction rest with
    | nil => rfl
    | cons a rest ih => simp [renderMoreItems, same, ih]
  rw [String.toList_intercalate]
  cases items with
  | nil => rfl
  | cons a rest =>
    simp only [List.map_cons, renderItems, same, more]
    induction rest generalizing a with
    | nil => simp
    | cons next rest ih =>
      have tail := ih next
      simp at tail ⊢
      simp [tail]

set_option maxRecDepth 4000 in
theorem render_stats (s : StatsSnapshot) {mode : Text} (named : mode.val = s.mode.toList) :
    render (.object (statsTree sumSeconds mode s)) =
      (statsJson (secondsText sumSeconds) s).toList := by
  have depths_text : ∀ depths : List Nat,
      renderItems (depths.map natural) = (",".intercalate (depths.map toString)).toList :=
    renderItems_map render_natural
  have workers_text := renderItems_map render_worker s.workerStatus
  have seconds : ∀ us, (secondsText sumSeconds us).toList = (sumSeconds us).render := by
    intro us
    rw [secondsText, String.toList_ofList]
  have state : (stateText s).val = s.stateName.toList := rfl
  unfold statsTree statsJson
  cases s.laneDepths with
  | none =>
    simp only [List.append_nil, List.cons_append, List.nil_append, render, renderMembers,
      renderMoreMembers, renderText, Key.text_val, Key.name, versionText, packageVersion,
      render_natural, renderBool_text, openBrace, closeBrace, String.toList_append, workers_text,
      named, state, seconds]
    simp
  | some depths =>
    simp only [List.append_nil, List.cons_append, List.nil_append, render, renderMembers,
      renderMoreMembers, renderText, Key.text_val, Key.name, versionText, packageVersion,
      render_natural, renderBool_text, openBrace, closeBrace, String.toList_append, workers_text,
      depths_text, named, state, seconds]
    simp

/-! The two reports hold the same. -/

def added (now : Nat) (native : Option ServerInner) : List (Key × Value) :=
  let s := serverStats native
  let p := poolStats native
  let q := queueTime sumSeconds native
  let counters : List (Key × Value) := [(.queued, .integer s.queued),
    (.inFlight, .integer s.inFlight), (.served, .integer s.served),
    (.rejected, .integer s.rejected), (.timeouts, .integer s.timeouts),
    (.respawns, .integer s.respawns)]
  let depths : List (Key × Value) := match s.laneDepths with
    | some depths => [(.laneDepths, .array (depths.map .integer))]
    | none => []
  let rest : List (Key × Value) := [(.activeWorkers, .integer p.activeWorkers),
    (.scaleUps, .integer p.scaleUps), (.scaleDowns, .integer p.scaleDowns),
    (.workerStatus, .array ((workerStats now native).map row)),
    (.quarantined, .integer ((workerStats now native).countP WorkerStat.quarantined)),
    (.queueTime, .hash [(.count, .integer q.count), (.sumSeconds, .float q.sumSeconds)])]
  counters ++ depths ++ rest

theorem stats_started (now : Nat) (server : Server) (native : Option ServerInner) :
    ofHash (stats sumSeconds now server true native) =
      above (entries (added sumSeconds now native)) (entries (base server)) := by
  have filled : stats sumSeconds now server true native =
      fill (fill Hash.empty (base server)) (added sumSeconds now native) := by
    unfold stats added
    cases serverStats native with
    | mk queued inFlight served rejected timeouts respawns laneDepths =>
      cases laneDepths <;> simp only [if_true, fill, List.append_nil, List.foldl_append,
        List.foldl_cons, List.foldl_nil]
  rw [filled, ofHash_fill, ofHash_fill, ofHash_empty, above_bare]

theorem toItems_map {A : Type} {value : A → Value} {tree : A → Json}
    (same : ∀ a, (value a).toJson = tree a) (items : List A) :
    toItems (items.map value) = items.map tree := by
  induction items with
  | nil => rfl
  | cons a items ih => simp only [List.map_cons, toItems, same, ih]

theorem row_tree (w : WorkerStat) : (row w).toJson = workerTree w := by
  simp only [row, workerTree, Value.toJson, toMembers, natural]

variable (now : Nat) (server : Server) (counters : Counters)

theorem added_reported {k : Key} {v : Value}
    (here : (k, v) ∈ added sumSeconds now (some (serverStart server counters))) :
    (k.text, v.toJson) ∈
      statsTree sumSeconds server.mode.text (take now (serverStart server counters)) := by
  have workers : toItems ((collectWorkerStatus now (serverStart server counters)).map row) =
      (collectWorkerStatus now (serverStart server counters)).map workerTree :=
    toItems_map row_tree _
  have naturals : ∀ depths : List Nat,
      toItems (depths.map Value.integer) = depths.map natural :=
    toItems_map fun n => by simp only [Value.toJson, natural]
  simp only [added, serverStats, poolStats, queueTime, workerStats] at here
  cases eq : (serverStart server counters).laneDepths with
  | none =>
    simp only [eq, List.append_nil, List.cons_append, List.nil_append, List.mem_cons, Prod.mk.injEq,
      List.not_mem_nil, or_false] at here
    rcases here with ⟨rfl, rfl⟩ | ⟨rfl, rfl⟩ | ⟨rfl, rfl⟩ | ⟨rfl, rfl⟩ | ⟨rfl, rfl⟩ | ⟨rfl, rfl⟩ |
      ⟨rfl, rfl⟩ | ⟨rfl, rfl⟩ | ⟨rfl, rfl⟩ | ⟨rfl, rfl⟩ | ⟨rfl, rfl⟩ | ⟨rfl, rfl⟩ <;>
      simp [statsTree, take, ServerInner.queued, Value.toJson, toMembers, workers, natural, eq]
  | some depths =>
    have depths_tree := naturals depths
    simp only [eq, List.cons_append, List.nil_append, List.mem_cons, Prod.mk.injEq,
      List.not_mem_nil, or_false] at here
    rcases here with ⟨rfl, rfl⟩ | ⟨rfl, rfl⟩ | ⟨rfl, rfl⟩ | ⟨rfl, rfl⟩ | ⟨rfl, rfl⟩ | ⟨rfl, rfl⟩ |
      ⟨rfl, rfl⟩ | ⟨rfl, rfl⟩ | ⟨rfl, rfl⟩ | ⟨rfl, rfl⟩ | ⟨rfl, rfl⟩ | ⟨rfl, rfl⟩ | ⟨rfl, rfl⟩ <;>
      simp [statsTree, take, ServerInner.queued, Value.toJson, toMembers, workers, depths_tree,
        natural, eq]

theorem base_reported {k : Key} {v : Value} (here : (k, v) ∈ base server)
    (kept : entries (added sumSeconds now (some (serverStart server counters))) k = none) :
    (k.text, v.toJson) ∈
      statsTree sumSeconds server.mode.text (take now (serverStart server counters)) := by
  have absent := entries_absent kept
  have ceiling : max server.maxWorkers server.workers = server.maxWorkers :=
    max_eq_left server.ceiling
  simp only [base, List.mem_cons, Prod.mk.injEq, List.not_mem_nil, or_false] at here
  rcases here with setting | setting | setting | setting | setting | setting | later | later |
    later | later
  all_goals
    first
    | obtain ⟨rfl, rfl⟩ := setting
      simp [statsTree, take, serverStart, Value.toJson, natural, ceiling]
    | -- the server's own figure has taken this one's place
      obtain ⟨rfl, rfl⟩ := later
      simp [added] at absent

theorem stats_reported {k : Key} {v : Value}
    (found : (stats sumSeconds now server true (some (serverStart server counters))).find k =
      some v) :
    (k.text, v.toJson) ∈
      statsTree sumSeconds server.mode.text (take now (serverStart server counters)) := by
  change ofHash (stats _ _ _ _ _) k = some v at found
  rw [stats_started] at found
  rcases Option.or_eq_some_iff.mp found with top | ⟨kept, bottom⟩
  · exact added_reported sumSeconds now server counters (entries_mem top)
  · exact base_reported sumSeconds now server counters (entries_mem bottom) kept

/-! The words of each report, in its order; `on`: with the depths of the lanes. -/

def depthsKey (on : Bool) : List Key := if on then [.laneDepths] else []

def treeKeys (on : Bool) : List Key :=
  .mode :: .lanes :: .workers :: .threads :: .batch :: .respawns :: .queued :: .inFlight ::
    .served :: .rejected :: .timeouts :: .maxWorkers :: .activeWorkers :: .scaleUps ::
    .scaleDowns :: (depthsKey on).append [.workerStatus, .queueTime, .quarantined, .state, .version]

def baseKeys : List Key :=
  [.mode, .lanes, .workers, .maxWorkers, .threads, .batch, .respawns, .activeWorkers, .scaleUps,
    .scaleDowns]

def addedKeys (on : Bool) : List Key :=
  .queued :: .inFlight :: .served :: .rejected :: .timeouts :: .respawns ::
    (depthsKey on).append
      [.activeWorkers, .scaleUps, .scaleDowns, .workerStatus, .quarantined, .queueTime]

theorem treeKeys_nodup : ∀ on : Bool, (treeKeys on).Nodup := by decide

theorem treeKeys_shared : ∀ on : Bool, ∀ k ∈ treeKeys on, k ≠ .state → k ≠ .version →
    k ∈ addedKeys on ∨ k ∈ baseKeys := by
  decide

theorem tree_keys (s : StatsSnapshot) (mode : Text) :
    (statsTree sumSeconds mode s).map Prod.fst = (treeKeys s.laneDepths.isSome).map Key.text := by
  unfold statsTree treeKeys
  cases s.laneDepths <;> simp [depthsKey]

theorem added_keys (native : Option ServerInner) :
    (added sumSeconds now native).map Prod.fst =
      addedKeys (serverStats native).laneDepths.isSome := by
  simp only [added, addedKeys]
  cases (serverStats native).laneDepths <;> simp [depthsKey]

theorem tree_once (s : StatsSnapshot) (mode : Text) :
    ((statsTree sumSeconds mode s).map Prod.fst).Nodup := by
  rw [tree_keys]
  exact (treeKeys_nodup _).map Key.text_injective

theorem stats_has {k : Key}
    (here : k ∈ treeKeys (take now (serverStart server counters)).laneDepths.isSome)
    (no_state : k ≠ .state) (no_version : k ≠ .version) :
    ∃ v, (stats sumSeconds now server true (some (serverStart server counters))).find k =
      some v := by
  cases found : (stats sumSeconds now server true (some (serverStart server counters))).find k with
  | some v => exact ⟨v, rfl⟩
  | none =>
    change ofHash (stats _ _ _ _ _) k = none at found
    rw [stats_started] at found
    obtain ⟨no_added, no_base⟩ := Option.or_eq_none_iff.mp found
    rcases treeKeys_shared _ k here no_state no_version with late | early
    · apply absurd _ (entries_absent no_added)
      rw [added_keys]
      exact late
    · exact absurd early (entries_absent no_base)

/-- The control plane's JSON is the hash of `Server#stats`, entry by entry, with the state and
    the version of the server and nothing else. -/
theorem reports_agree : ∃ tree : List (Text × Json),
    parse (statsJson (secondsText sumSeconds) (take now (serverStart server counters))).toList =
      some (.object tree) ∧
    (tree.map Prod.fst).Nodup ∧
    (∀ k v, (stats sumSeconds now server true (some (serverStart server counters))).find k =
      some v → (k.text, v.toJson) ∈ tree) ∧
    ∀ entry ∈ tree,
      (∃ k v, (stats sumSeconds now server true (some (serverStart server counters))).find k =
        some v ∧ entry = (k.text, v.toJson)) ∨
      entry = (Key.state.text, .string (stateText (take now (serverStart server counters)))) ∨
      entry = (Key.version.text, .string versionText) := by
  have once := tree_once sumSeconds (take now (serverStart server counters)) server.mode.text
  refine ⟨_, ?_, once, fun k v found => stats_reported sumSeconds now server counters found, ?_⟩
  · have named : server.mode.text.val = server.mode.toS.toList := rfl
    have text := render_stats sumSeconds (take now (serverStart server counters)) named
    rw [← text]
    exact parse_render _
  · intro entry here
    -- a name stands once, so what is under it is what is known to be there
    have same : ∀ {other}, other ∈ statsTree sumSeconds server.mode.text
        (take now (serverStart server counters)) → other.1 = entry.1 → entry = other :=
      fun there named => (List.inj_on_of_nodup_map once there here named).symm
    have word := List.mem_map_of_mem (f := Prod.fst) here
    rw [tree_keys, List.mem_map] at word
    obtain ⟨k, written, named⟩ := word
    by_cases state : k = .state
    · right
      left
      apply same
      · simp [statsTree]
      · rw [← named, state]
    · by_cases version : k = .version
      · right
        right
        apply same
        · simp [statsTree]
        · rw [← named, version]
      · left
        obtain ⟨v, found⟩ := stats_has sumSeconds now server counters written state version
        exact ⟨k, v, found, same (stats_reported sumSeconds now server counters found) named⟩

end Report

end KinoStatsReport
