import Kino.Transitions
import Kino.Histograms

/-!
The queue-wait histogram (ext/kino/src/registry.rs). Its counters are separate atomics: a
`record` increments one bucket, then the sum, then the count, and a `snapshot` loads them one
after another while other records are under way. Counters are natural numbers; 2^64 requests
are never recorded.
-/
namespace KinoQueueHistogram
open Transitions Histograms

def queueBoundsUs : List Nat :=
  [500, 1000, 2500, 5000, 10000, 25000, 50000, 100000, 250000, 500000, 1000000, 2500000, 5000000,
    10000000]

structure QueueHistogram where
  buckets : List Nat
  overflow : Nat
  sumUs : Nat
  count : Nat
  sized : buckets.length = queueBoundsUs.length

structure QueueHistogramSnapshot where
  buckets : List Nat
  overflow : Nat
  sumUs : Nat
  count : Nat
  deriving DecidableEq, Repr

def QueueHistogram.new : QueueHistogram := ⟨List.replicate 14 0, 0, 0, 0, rfl⟩

def QueueHistogram.countWait (h : QueueHistogram) (waitUs : Nat) : QueueHistogram :=
  match place queueBoundsUs waitUs with
  | some i => { h with buckets := h.buckets.modify i (· + 1), sized := by simp [h.sized] }
  | none => { h with overflow := h.overflow + 1 }

def QueueHistogram.addSum (h : QueueHistogram) (waitUs : Nat) : QueueHistogram :=
  { h with sumUs := h.sumUs + waitUs }

def QueueHistogram.addCount (h : QueueHistogram) : QueueHistogram := { h with count := h.count + 1 }

def QueueHistogram.record (h : QueueHistogram) (waitUs : Nat) : QueueHistogram :=
  ((h.countWait waitUs).addSum waitUs).addCount

def QueueHistogram.snapshot (h : QueueHistogram) : QueueHistogramSnapshot :=
  ⟨h.buckets, h.overflow, h.sumUs, h.count⟩

theorem bounds_ascending : queueBoundsUs.Pairwise (· ≤ ·) := by decide

theorem countWait_tally {h : QueueHistogram} {waits : List Nat} (wait : Nat)
    (buckets : h.buckets = tally queueBoundsUs waits)
    (overflow : h.overflow = above queueBoundsUs waits) :
    (h.countWait wait).buckets = tally queueBoundsUs (waits ++ [wait]) ∧
      (h.countWait wait).overflow = above queueBoundsUs (waits ++ [wait]) := by
  unfold QueueHistogram.countWait
  rw [above_snoc]
  cases spot : place queueBoundsUs wait with
  | some i => simp [tally_snoc waits spot, buckets, overflow]
  | none => simp [tally_snoc_none waits spot, buckets, overflow]

theorem records_tally (waits : List Nat) :
    let h := waits.foldl QueueHistogram.record QueueHistogram.new
    h.buckets = tally queueBoundsUs waits ∧ h.overflow = above queueBoundsUs waits := by
  induction waits using List.reverseRecOn with
  | nil => decide
  | append_singleton waits wait ih =>
    rw [List.foldl_append]
    exact countWait_tally wait ih.1 ih.2

/-! Records and a snapshot side by side. -/

inductive Stage where
  | started
  | counted
  | summed
  | finished
  deriving DecidableEq, Repr

structure Record where
  wait : Nat
  stage : Stage
  deriving DecidableEq, Repr

/-- `began` and `ended` are the records made so far when the snapshot began and ended;
    `loaded` are the values of the counters it has read. -/
inductive Snap where
  | idle
  | loading (began : List Record) (loaded : List Nat)
  | taken (began : List Record) (h : QueueHistogramSnapshot) (ended : List Record)

structure State where
  hist : QueueHistogram
  records : List Record
  snap : Snap

inductive Label where
  | record (wait : Nat)
  | step (k : Nat)
  | snapshot
  | load

def advance (h : QueueHistogram) (r : Record) : Option (QueueHistogram × Record) :=
  match r.stage with
  | .started => some (h.countWait r.wait, { r with stage := .counted })
  | .counted => some (h.addSum r.wait, { r with stage := .summed })
  | .summed => some (h.addCount, { r with stage := .finished })
  | .finished => none

/-- The counters in the order in which `snapshot` loads them. -/
def QueueHistogram.cells (h : QueueHistogram) : List Nat := h.buckets ++ [h.overflow, h.sumUs, h.count]

def assemble (loaded : List Nat) : QueueHistogramSnapshot where
  buckets := loaded.take 14
  overflow := loaded.getD 14 0
  sumUs := loaded.getD 15 0
  count := loaded.getD 16 0

def step (s : State) : Label → Option State
  | .record wait => some { s with records := s.records ++ [⟨wait, .started⟩] }
  | .step k =>
    match s.records[k]? with
    | none => none
    | some r => (advance s.hist r).map fun (h, r) => { s with hist := h, records := s.records.set k r }
  | .snapshot =>
    match s.snap with
    | .loading _ _ => none
    | _ => some { s with snap := .loading s.records [] }
  | .load =>
    match s.snap with
    | .loading began loaded =>
      match s.hist.cells[loaded.length]? with
      | some value => some { s with snap := .loading began (loaded ++ [value]) }
      | none => some { s with snap := .taken began (assemble loaded) s.records }
    | _ => none

def initial : State := ⟨QueueHistogram.new, [], .idle⟩

def system : System State Label := ⟨fun s => s = initial, step⟩

def waits (records : List Record) : List Nat := records.map Record.wait

def passed (records : List Record) : List Nat := waits (records.filter fun r => r.stage ≠ .started)

def finished (records : List Record) : List Nat := waits (records.filter fun r => r.stage = .finished)

theorem finished_passed (records : List Record) : (finished records).Sublist (passed records) := by
  apply List.Sublist.map
  apply List.monotone_filter_right
  intro r ended
  simp only [decide_eq_true_eq] at ended ⊢
  simp [ended]

theorem passed_waits (records : List Record) : (passed records).Sublist (waits records) :=
  List.filter_sublist.map _

theorem passed_counts {records : List Record} {k : Nat} {r : Record} (here : records[k]? = some r)
    (fresh : r.stage = .started) :
    (passed (records.set k { r with stage := .counted })).Perm (passed records ++ [r.wait]) := by
  induction records generalizing k with
  | nil => simp at here
  | cons first rest ih =>
    cases k with
    | zero =>
      simp only [List.getElem?_cons_zero, Option.some.injEq] at here
      subst here
      simp only [passed, waits, List.set_cons_zero, List.filter_cons, fresh, ne_eq, decide_not,
        decide_true, Bool.not_true, reduceCtorEq, decide_false, Bool.not_false, if_true,
        Bool.false_eq_true, if_false, List.map_cons]
      exact (List.perm_append_singleton _ _).symm
    | succ k =>
      have later := ih (by simpa using here)
      simp only [passed, waits, List.set_cons_succ, List.filter_cons] at later ⊢
      split
      · exact later.cons _
      · exact later

theorem passed_moves {records : List Record} {k : Nat} {r r' : Record} (here : records[k]? = some r)
    (before : r.stage ≠ .started) (after : r'.stage ≠ .started) (same : r'.wait = r.wait) :
    passed (records.set k r') = passed records := by
  induction records generalizing k with
  | nil => simp at here
  | cons first rest ih =>
    cases k with
    | zero =>
      simp only [List.getElem?_cons_zero, Option.some.injEq] at here
      subst here
      simp [passed, waits, before, after, same]
    | succ k =>
      have later := ih (by simpa using here)
      simp only [passed, waits, List.set_cons_succ, List.filter_cons] at later ⊢
      split
      · rw [List.map_cons, List.map_cons, later]
      · exact later

def counters (records : List Record) : List Nat :=
  tally queueBoundsUs (passed records) ++ [above queueBoundsUs (passed records)]

theorem counters_length (records : List Record) : (counters records).length = 15 := by
  simp [counters, queueBoundsUs]

theorem counters_mono {rs rs' : List Record} (grown : (passed rs).Subperm (passed rs')) (j : Nat) :
    (counters rs).getD j 0 ≤ (counters rs').getD j 0 := by
  obtain ⟨buckets, overflow⟩ := tally_mono queueBoundsUs grown
  have all : List.Forall₂ (· ≤ ·) (counters rs) (counters rs') :=
    List.rel_append buckets (.cons overflow .nil)
  rcases Nat.lt_or_ge j 15 with inside | outside
  · have left : j < (counters rs).length := by rw [counters_length]; exact inside
    have right : j < (counters rs').length := by rw [counters_length]; exact inside
    rw [List.getD_eq_getElem _ _ left, List.getD_eq_getElem _ _ right]
    exact (List.forall₂_iff_get.mp all).2 j left right
  · rw [List.getD_eq_default _ _ (by rw [counters_length]; exact outside)]
    omega

structure Loading (began : List Record) (loaded : List Nat) (records : List Record) : Prop where
  grown : (passed began).Subperm (passed records)
  low : ∀ j, j < 15 → j < loaded.length → (counters began).getD j 0 ≤ loaded.getD j 0
  high : ∀ j, j < 15 → j < loaded.length → loaded.getD j 0 ≤ (counters records).getD j 0

def Between (began : List Record) (h : QueueHistogramSnapshot) (ended : List Record) : Prop :=
  List.Forall₂ (· ≤ ·) (counters began) (h.buckets ++ [h.overflow]) ∧
    List.Forall₂ (· ≤ ·) (h.buckets ++ [h.overflow]) (counters ended)

structure Inv (s : State) : Prop where
  buckets : s.hist.buckets = tally queueBoundsUs (passed s.records)
  overflow : s.hist.overflow = above queueBoundsUs (passed s.records)
  loading : ∀ began loaded, s.snap = .loading began loaded → Loading began loaded s.records
  taken : ∀ began h ended, s.snap = .taken began h ended → Between began h ended

theorem loading_grows {began rs rs' : List Record} {loaded : List Nat}
    (inv : Loading began loaded rs) (grown : (passed rs).Subperm (passed rs')) :
    Loading began loaded rs' := by
  constructor
  · exact inv.grown.trans grown
  · exact inv.low
  · intro j small inside
    exact (inv.high j small inside).trans (counters_mono grown j)

theorem inv_grows {s : State} {h : QueueHistogram} {records : List Record} (inv : Inv s)
    (buckets : h.buckets = tally queueBoundsUs (passed records))
    (overflow : h.overflow = above queueBoundsUs (passed records))
    (grown : (passed s.records).Subperm (passed records)) : Inv ⟨h, records, s.snap⟩ := by
  constructor
  · exact buckets
  · exact overflow
  · intro began loaded at_snap
    exact loading_grows (inv.loading began loaded at_snap) grown
  · exact inv.taken

theorem inv_same {s : State} {h : QueueHistogram} {records : List Record} (inv : Inv s)
    (same : passed records = passed s.records) (buckets : h.buckets = s.hist.buckets)
    (overflow : h.overflow = s.hist.overflow) : Inv ⟨h, records, s.snap⟩ := by
  apply inv_grows inv
  · rw [same, buckets]
    exact inv.buckets
  · rw [same, overflow]
    exact inv.overflow
  · rw [same]

theorem advance_inv {s : State} {k : Nat} {r r' : Record} {h : QueueHistogram} (inv : Inv s)
    (here : s.records[k]? = some r) (moved : advance s.hist r = some (h, r')) :
    Inv ⟨h, s.records.set k r', s.snap⟩ := by
  unfold advance at moved
  cases at_stage : r.stage with
  | started =>
    simp only [at_stage, Option.some.injEq, Prod.mk.injEq] at moved
    obtain ⟨rfl, rfl⟩ := moved
    have joined := passed_counts here at_stage
    have tallied := countWait_tally r.wait inv.buckets inv.overflow
    obtain ⟨same, same'⟩ := tally_perm queueBoundsUs joined
    apply inv_grows inv
    · rw [same]
      exact tallied.1
    · rw [same']
      exact tallied.2
    · exact ((List.sublist_append_left _ _).subperm).trans joined.symm.subperm
  | counted =>
    simp only [at_stage, Option.some.injEq, Prod.mk.injEq] at moved
    obtain ⟨rfl, rfl⟩ := moved
    exact inv_same inv (passed_moves here (by simp [at_stage]) (by simp) rfl) rfl rfl
  | summed =>
    simp only [at_stage, Option.some.injEq, Prod.mk.injEq] at moved
    obtain ⟨rfl, rfl⟩ := moved
    exact inv_same inv (passed_moves here (by simp [at_stage]) (by simp) rfl) rfl rfl
  | finished => simp [at_stage] at moved

/-- Among the first fifteen counters, the one loaded next is what the records have made. -/
theorem cells_counters {s : State} (inv : Inv s) {j : Nat} (small : j < 15) :
    s.hist.cells.getD j 0 = (counters s.records).getD j 0 := by
  have front : s.hist.cells = counters s.records ++ [s.hist.sumUs, s.hist.count] := by
    simp [QueueHistogram.cells, counters, inv.buckets, inv.overflow]
  rw [front]
  apply List.getD_append
  rw [counters_length]
  exact small

theorem load_inv {s : State} {began : List Record} {loaded : List Nat} {value : Nat} (inv : Inv s)
    (at_snap : s.snap = .loading began loaded) (next : s.hist.cells[loaded.length]? = some value) :
    Inv { s with snap := .loading began (loaded ++ [value]) } := by
  obtain ⟨grown, low, high⟩ := inv.loading began loaded at_snap
  have bounds : ∀ j, j < 15 → j < (loaded ++ [value]).length →
      (counters began).getD j 0 ≤ (loaded ++ [value]).getD j 0 ∧
        (loaded ++ [value]).getD j 0 ≤ (counters s.records).getD j 0 := by
    intro j small inside
    rw [List.length_append, List.length_singleton] at inside
    rcases Nat.lt_or_ge j loaded.length with old | new
    · rw [List.getD_append _ _ _ _ old]
      exact ⟨low j small old, high j small old⟩
    · have same : j = loaded.length := by omega
      subst same
      have read : (loaded ++ [value]).getD loaded.length 0 = (counters s.records).getD loaded.length 0 := by
        rw [← cells_counters inv small]
        simp [List.getD_eq_getElem?_getD, next]
      rw [read]
      exact ⟨counters_mono grown _, le_refl _⟩
  constructor
  · exact inv.buckets
  · exact inv.overflow
  · intro began' loaded' same
    cases same
    constructor
    · exact grown
    · intro j small inside
      exact (bounds j small inside).1
    · intro j small inside
      exact (bounds j small inside).2
  · intro _ _ _ same
    cases same

theorem forall_getD {xs ys : List Nat} (sized : xs.length = ys.length)
    (each : ∀ j, j < xs.length → xs.getD j 0 ≤ ys.getD j 0) : List.Forall₂ (· ≤ ·) xs ys := by
  rw [List.forall₂_iff_get]
  constructor
  · exact sized
  · intro j left right
    have le := each j left
    rw [List.getD_eq_getElem _ _ left, List.getD_eq_getElem _ _ right] at le
    exact le

theorem taken_inv {s : State} {began : List Record} {loaded : List Nat} (inv : Inv s)
    (at_snap : s.snap = .loading began loaded) (last : s.hist.cells[loaded.length]? = none) :
    Inv { s with snap := .taken began (assemble loaded) s.records } := by
  obtain ⟨_, low, high⟩ := inv.loading began loaded at_snap
  have all : 15 ≤ loaded.length := by
    have past := List.getElem?_eq_none_iff.mp last
    have sized := s.hist.sized
    simp only [QueueHistogram.cells, List.length_append, List.length_cons, List.length_nil, sized,
      queueBoundsUs] at past
    omega
  have front : (assemble loaded).buckets ++ [(assemble loaded).overflow] = loaded.take 15 := by
    unfold assemble
    dsimp only
    have last := List.take_succ_eq_append_getElem (show 14 < loaded.length by omega)
    rw [List.getD_eq_getElem _ _ (by omega)]
    exact last.symm
  have sized : (loaded.take 15).length = 15 := by
    rw [List.length_take]
    omega
  have read : ∀ j, j < 15 → (loaded.take 15).getD j 0 = loaded.getD j 0 := by
    intro j small
    rw [List.getD_eq_getElem?_getD, List.getElem?_take_of_lt small, ← List.getD_eq_getElem?_getD]
  constructor
  · exact inv.buckets
  · exact inv.overflow
  · intro _ _ same
    cases same
  · intro began' h ended same
    cases same
    constructor
    · rw [front]
      apply forall_getD
      · rw [counters_length, sized]
      · intro j inside
        rw [counters_length] at inside
        rw [read j inside]
        exact low j inside (by omega)
    · rw [front]
      apply forall_getD
      · rw [counters_length, sized]
      · intro j inside
        rw [sized] at inside
        rw [read j inside]
        exact high j inside (by omega)

theorem step_inv {s s' : State} {l : Label} (inv : Inv s) (moved : step s l = some s') : Inv s' := by
  cases l with
  | record wait =>
    cases moved
    exact inv_same inv (by simp [passed, waits, List.filter_append]) rfl rfl
  | step k =>
    simp only [step] at moved
    split at moved
    · cases moved
    · next r here =>
      obtain ⟨⟨h, r'⟩, advanced, rfl⟩ := Option.map_eq_some_iff.mp moved
      exact advance_inv inv here advanced
  | snapshot =>
    have fresh : Inv { s with snap := .loading s.records [] } := by
      constructor
      · exact inv.buckets
      · exact inv.overflow
      · intro began loaded same
        cases same
        exact ⟨List.Subperm.refl _, by simp, by simp⟩
      · intro _ _ _ same
        cases same
    simp only [step] at moved
    split at moved
    · cases moved
    · cases moved
      exact fresh
  | load =>
    simp only [step] at moved
    split at moved
    · next began loaded at_snap =>
      split at moved
      · next value next =>
        cases moved
        exact load_inv inv at_snap next
      · next last =>
        cases moved
        exact taken_inv inv at_snap last
    · cases moved

theorem reachable_inv {s : State} (reached : Reachable system s) : Inv s := by
  apply reachable_invariant Inv ?_ (fun _ _ _ => step_inv) reached
  rintro s rfl
  constructor
  · decide
  · decide
  · intro _ _ same
    cases same
  · intro _ _ _ same
    cases same

end KinoQueueHistogram
