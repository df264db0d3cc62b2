import Kino.Programs

/-!
The monitor that gives up on wedged slots (lib/kino/quarantine_monitor.rb), with the loop all
monitors share (lib/kino/monitor.rb). What the pool and the native side do meanwhile is a
world of its own: its replacer and its statistics are any programs over it, and between two
ticks it changes in any way.
-/
namespace KinoQuarantineMonitor
open Programs

/-- A StandardError by its message, one that `Log.error` can write. Its class, which stands in
    front of the message in the line, is left out. Nothing else is rescued by `tick`. -/
abbrev Exn := String

/-- The columns of a `worker_stats` row that the monitor reads. -/
structure Row where
  index : Nat
  busyMs : Nat
  quarantined : Bool
  deriving DecidableEq, Repr

structure Config where
  timeoutMs : Nat
  max : Nat

structure World (W : Type) where
  workerStats : Prog Exn W (List Row)
  replace : Nat → Prog Exn W Bool

/-- `recorded` is the server's count of replacements. The fields after it are history: what
    was logged, the rows the replacer was asked about, and the slots it replaced. -/
structure State (W : Type) where
  outstanding : Nat
  atCapLogged : Bool
  world : W
  recorded : Nat
  warnings : List String
  errors : List String
  asked : List Row
  replaced : List Nat

variable {W : Type}

def initial (w : W) : State W := ⟨0, false, w, 0, [], [], [], []⟩

def onWorld {α : Type} (p : Prog Exn W α) : Prog Exn (State W) α := fun s =>
  ((p s.world).1, { s with world := (p s.world).2 })

def capWarning (conf : Config) : String :=
  "quarantine at cap (" ++ toString conf.max ++ "); serving at reduced capacity"

def wedged (conf : Config) (row : Row) : Bool := !row.quarantined && decide (conf.timeoutMs < row.busyMs)

def warnAtCap (conf : Config) : Prog Exn (State W) Unit := fun s =>
  if s.atCapLogged then (.ok (), s)
  else (.ok (), { s with warnings := s.warnings ++ [capWarning conf], atCapLogged := true })

def replaceRow (world : World W) (row : Row) : Prog Exn (State W) Unit := do
  update fun s => { s with asked := s.asked ++ [row] }
  let replaced ← onWorld (world.replace row.index)
  onlyIf replaced (update fun s => { s with
    recorded := s.recorded + 1
    outstanding := s.outstanding + 1
    atCapLogged := false
    replaced := s.replaced ++ [row.index] })

/-- The block of `scan`. -/
def scanRow (conf : Config) (world : World W) (row : Row) : Prog Exn (State W) Unit := fun s =>
  if wedged conf row = false then (.ok (), s)
  else if conf.max ≤ s.outstanding then warnAtCap conf s
  else replaceRow world row s

def scan (conf : Config) (world : World W) : Prog Exn (State W) Unit := do
  let rows ← onWorld world.workerStats
  rows.forM (scanRow conf world)

/-- `Monitor#tick`: the sleep, during which the world goes on, comes whatever happened. -/
def tick (conf : Config) (world : World W) (pause : W → W) : Prog Exn (State W) Unit :=
  ensure
    (rescue (scan conf world) fun e =>
      update fun s => { s with errors := s.errors ++ ["quarantine monitor tick error: " ++ e] })
    (update fun s => { s with world := pause s.world })

/-- `Monitor#run`: one tick for each pause, after the last of which it is told to stop. -/
def run (conf : Config) (world : World W) (pauses : List (W → W)) : Prog Exn (State W) Unit :=
  pauses.forM (tick conf world)

structure CapInv (conf : Config) (s : State W) : Prop where
  outstanding : s.outstanding ≤ conf.max
  recorded : s.recorded = s.outstanding
  replaced : s.replaced.length = s.outstanding
  warned : (s.warnings = [] ∧ s.atCapLogged = false) ∨
    (s.warnings = [capWarning conf] ∧ s.atCapLogged = true ∧ s.outstanding = conf.max)
  asked : ∀ row ∈ s.asked, wedged conf row = true

variable (conf : Config) (world : World W)

theorem initial_cap (w : W) : CapInv conf (initial w) := by
  constructor <;> simp [initial]

theorem world_keeps {α : Type} (p : Prog Exn W α) : Keeps (CapInv conf) (onWorld p) := by
  intro s inv
  exact ⟨inv.outstanding, inv.recorded, inv.replaced, inv.warned, inv.asked⟩

theorem warnAtCap_keeps {s : State W} (inv : CapInv conf s) (full : conf.max ≤ s.outstanding) :
    CapInv conf (warnAtCap conf s).2 := by
  have at_cap : s.outstanding = conf.max := Nat.le_antisymm inv.outstanding full
  unfold warnAtCap
  split
  · exact inv
  · have not_yet : s.warnings = [] := by
      rcases inv.warned with ⟨none, _⟩ | ⟨_, logged, _⟩
      · exact none
      · contradiction
    have now : (s.warnings ++ [capWarning conf] = [] ∧ true = false) ∨
        (s.warnings ++ [capWarning conf] = [capWarning conf] ∧ true = true ∧
          s.outstanding = conf.max) := by
      simp [not_yet, at_cap]
    exact ⟨inv.outstanding, inv.recorded, inv.replaced, now, inv.asked⟩

def replacedRow (row : Row) (w : W) (s : State W) : State W := { s with
  asked := s.asked ++ [row]
  world := w
  recorded := s.recorded + 1
  outstanding := s.outstanding + 1
  atCapLogged := false
  replaced := s.replaced ++ [row.index] }

def declinedRow (row : Row) (w : W) (s : State W) : State W := { s with
  asked := s.asked ++ [row]
  world := w }

theorem replaceRow_run (row : Row) (s : State W) : ∃ w,
    replaceRow world row s = (.ok (), replacedRow row w s) ∨
    ((world.replace row.index s.world).1 ≠ .ok true ∧
      ∃ outcome, replaceRow world row s = (outcome, declinedRow row w s)) := by
  cases did : world.replace row.index s.world with
  | mk outcome w =>
    apply Exists.intro w
    cases outcome with
    | ok replaced =>
      cases replaced with
      | true =>
        left
        simp [replaceRow, replacedRow, onlyIf, onWorld, bind, update, did]
      | false =>
        right
        simp [replaceRow, declinedRow, onlyIf, onWorld, bind, update, did]
    | raised e =>
      right
      simp [replaceRow, declinedRow, onWorld, bind, update, did]
    | stuck =>
      right
      simp [replaceRow, declinedRow, onWorld, bind, update, did]

theorem replaceRow_keeps {row : Row} {s : State W} (inv : CapInv conf s)
    (stale : wedged conf row = true) (room : s.outstanding < conf.max) :
    CapInv conf (replaceRow world row s).2 := by
  have asked : ∀ r ∈ s.asked ++ [row], wedged conf r = true := by
    intro r mem
    rcases List.mem_append.mp mem with old | new
    · exact inv.asked r old
    · rw [List.mem_singleton.mp new]
      exact stale
  have unwarned : s.warnings = [] ∧ s.atCapLogged = false := by
    rcases inv.warned with none | ⟨_, _, at_cap⟩
    · exact none
    · omega
  obtain ⟨w, after | ⟨_, _, after⟩⟩ := replaceRow_run world row s
  · rw [after]
    have counted := inv.recorded
    have listed := inv.replaced
    constructor
    · exact room
    · exact congrArg (· + 1) counted
    · simp [replacedRow, listed]
    · exact Or.inl ⟨unwarned.1, rfl⟩
    · exact asked
  · rw [after]
    exact ⟨inv.outstanding, inv.recorded, inv.replaced, inv.warned, asked⟩

theorem scanRow_keeps (row : Row) : Keeps (CapInv conf) (scanRow conf world row) := by
  intro s inv
  unfold scanRow
  split
  · exact inv
  · rename_i stale
    split
    · rename_i full
      exact warnAtCap_keeps conf inv full
    · rename_i room
      exact replaceRow_keeps conf world inv (by simpa using stale) (by omega)

theorem tick_keeps (pause : W → W) : Keeps (CapInv conf) (tick conf world pause) := by
  have scanned : Keeps (CapInv conf) (scan conf world) :=
    keeps_bind (world_keeps conf world.workerStats) fun rows =>
      keeps_forM (scanRow_keeps conf world) rows
  apply keeps_ensure
  · apply keeps_rescue scanned
    intro e
    apply keeps_update
    intro s inv
    exact ⟨inv.outstanding, inv.recorded, inv.replaced, inv.warned, inv.asked⟩
  · apply keeps_update
    intro s inv
    exact ⟨inv.outstanding, inv.recorded, inv.replaced, inv.warned, inv.asked⟩

theorem run_keeps (pauses : List (W → W)) : Keeps (CapInv conf) (run conf world pauses) :=
  keeps_forM (tick_keeps conf world) pauses

theorem tick_safe (pause : W → W) : Safe (tick conf world pause) := by
  apply safe_ensure
  · apply safe_rescue
    intro e
    exact safe_update _
  · exact safe_update _

theorem run_safe (pauses : List (W → W)) : Safe (run conf world pauses) :=
  safe_forM (tick_safe conf world) pauses

/-- What a scan of some rows did: it asked about the first of the wedged ones, replaced some of
    these, and if it got through with room to spare it asked about all of them. A replacer that
    never fails is asked about no row it does not replace. -/
structure Scanned (rows taken chosen : List Row) (through : Prop) (s t : State W) : Prop where
  asked : t.asked = s.asked ++ taken
  first : taken <+: rows.filter (wedged conf)
  replaced : t.replaced = s.replaced ++ chosen.map Row.index
  among : chosen.Sublist taken
  counted : t.outstanding = s.outstanding + chosen.length
  thorough : through → t.outstanding < conf.max → taken = rows.filter (wedged conf)
  obliging : (∀ i w, (world.replace i w).1 = .ok true) → chosen = taken ∧ through

theorem warnAtCap_run (s : State W) : ∃ warnings logged,
    warnAtCap conf s = (.ok (), { s with warnings := warnings, atCapLogged := logged }) := by
  unfold warnAtCap
  split
  · exact ⟨s.warnings, s.atCapLogged, rfl⟩
  · exact ⟨_, true, rfl⟩

theorem full_scan (rows : List Row) (s : State W) (full : conf.max ≤ s.outstanding) :
    ∃ warnings logged, rows.forM (scanRow conf world) s =
      (.ok (), { s with warnings := warnings, atCapLogged := logged }) := by
  induction rows generalizing s with
  | nil => exact ⟨s.warnings, s.atCapLogged, rfl⟩
  | cons row rows ih =>
    have head : ∃ warnings logged, scanRow conf world row s =
        (.ok (), { s with warnings := warnings, atCapLogged := logged }) := by
      unfold scanRow
      split
      · exact ⟨s.warnings, s.atCapLogged, rfl⟩
      · exact warnAtCap_run conf s
    obtain ⟨warnings, logged, did⟩ := head
    obtain ⟨warnings', logged', rest⟩ := ih { s with warnings := warnings, atCapLogged := logged } full
    exact ⟨warnings', logged', (bind_ok did).trans rest⟩

theorem rows_scanned (rows : List Row) (s : State W) : ∃ taken chosen,
    Scanned conf world rows taken chosen ((rows.forM (scanRow conf world) s).1 = .ok ()) s
      (rows.forM (scanRow conf world) s).2 := by
  induction rows generalizing s with
  | nil => exact ⟨[], [], by constructor <;> simp⟩
  | cons row rows ih =>
    by_cases stale : wedged conf row = true
    · by_cases full : conf.max ≤ s.outstanding
      · obtain ⟨warnings, logged, did⟩ := full_scan conf world (row :: rows) s full
        rw [did]
        have no_room : ¬s.outstanding < conf.max := Nat.not_lt.mpr full
        exact ⟨[], [], by constructor <;> simp [no_room]⟩
      · have here : scanRow conf world row s = replaceRow world row s := by
          simp [scanRow, stale, full]
        have listed : (row :: rows).filter (wedged conf) = row :: rows.filter (wedged conf) := by
          simp [stale]
        obtain ⟨w, after | ⟨declined, outcome, after⟩⟩ := replaceRow_run world row s
        · rw [forM_cons, bind_ok (here.trans after)]
          obtain ⟨taken, chosen, rest⟩ := ih (replacedRow row w s)
          apply Exists.intro (row :: taken)
          apply Exists.intro (row :: chosen)
          constructor
          · exact rest.asked.trans (List.append_assoc _ _ _)
          · rw [listed]
            exact List.cons_prefix_cons.mpr ⟨rfl, rest.first⟩
          · exact rest.replaced.trans (List.append_assoc _ _ _)
          · exact rest.among.cons_cons row
          · have counted := rest.counted
            simp only [List.length_cons, replacedRow] at counted ⊢
            omega
          · intro through room
            rw [listed, rest.thorough through room]
          · intro willing
            rw [(rest.obliging willing).1]
            exact ⟨rfl, (rest.obliging willing).2⟩
        · have not_willing : ¬∀ i w, (world.replace i w).1 = .ok true :=
            fun willing => declined (willing row.index s.world)
          cases outcome with
          | ok u =>
            rw [forM_cons, bind_ok (here.trans after)]
            obtain ⟨taken, chosen, rest⟩ := ih (declinedRow row w s)
            apply Exists.intro (row :: taken)
            apply Exists.intro chosen
            constructor
            · exact rest.asked.trans (List.append_assoc _ _ _)
            · rw [listed]
              exact List.cons_prefix_cons.mpr ⟨rfl, rest.first⟩
            · exact rest.replaced
            · exact rest.among.cons row
            · exact rest.counted
            · intro through room
              rw [listed, rest.thorough through room]
            · exact fun willing => absurd willing not_willing
          | raised | stuck =>
            rw [forM_stops (here.trans after) (by simp)]
            apply Exists.intro [row]
            apply Exists.intro []
            constructor
            · rfl
            · rw [listed]
              exact List.cons_prefix_cons.mpr ⟨rfl, List.nil_prefix⟩
            · simp [declinedRow]
            · exact List.nil_sublist _
            · rfl
            · simp
            · exact fun willing => absurd willing not_willing
    · have did : scanRow conf world row s = (.ok (), s) := by
        simp [scanRow, stale]
      have listed : (row :: rows).filter (wedged conf) = rows.filter (wedged conf) := by
        simp [stale]
      rw [forM_cons, bind_ok did]
      obtain ⟨taken, chosen, rest⟩ := ih s
      exact ⟨taken, chosen, rest.asked, listed ▸ rest.first, rest.replaced, rest.among,
        rest.counted, listed ▸ rest.thorough, rest.obliging⟩

theorem scan_errors (errors : List String) :
    Keeps (fun s : State W => s.errors = errors) (scan conf world) := by
  apply keeps_bind
  · intro s same
    exact same
  · intro rows
    apply keeps_forM
    intro row s same
    unfold scanRow
    split
    · exact same
    · split
      · obtain ⟨_, _, did⟩ := warnAtCap_run conf s
        rw [did]
        exact same
      · obtain ⟨w, after | ⟨_, _, after⟩⟩ := replaceRow_run world row s
        · rw [after]
          exact same
        · rw [after]
          exact same

/-- A tick that ends without a new error is a scan that went through, and then the pause. -/
theorem tick_through (pause : W → W) {s : State W}
    (ended : (tick conf world pause s).1 = .ok ())
    (quiet : (tick conf world pause s).2.errors = s.errors) :
    (scan conf world s).1 = .ok () := by
  cases eq : scan conf world s with
  | mk outcome t =>
    have same : t.errors = s.errors := by
      have kept := scan_errors conf world s.errors s rfl
      rw [eq] at kept
      exact kept
    cases outcome with
    | ok u => rfl
    | raised e =>
      simp [tick, ensure, rescue, update, eq, same] at quiet
    | stuck =>
      simp [tick, ensure, rescue, eq] at ended

theorem tick_same (pause : W → W) (s : State W) :
    (tick conf world pause s).2.asked = (scan conf world s).2.asked ∧
    (tick conf world pause s).2.replaced = (scan conf world s).2.replaced ∧
    (tick conf world pause s).2.outstanding = (scan conf world s).2.outstanding := by
  cases eq : scan conf world s with
  | mk outcome t =>
    cases outcome with
    | ok | raised | stuck => simp [tick, ensure, rescue, update, eq]

/-- In every run of the monitor, whatever its pool and its replacer do, the cap holds and the
    books are right, and no error ends the loop. The next tick asks about the first of the
    wedged rows it reads; with room to spare about all of them. -/
theorem monitor_law (w : W) (pauses : List (W → W)) (pause : W → W) :
    CapInv conf (run conf world pauses (initial w)).2 ∧
    (∀ e, (run conf world pauses (initial w)).1 ≠ .raised e) ∧
    ∀ rows w', world.workerStats (run conf world pauses (initial w)).2.world = (.ok rows, w') →
      ∃ taken chosen, Scanned conf world rows taken chosen
        ((tick conf world pause (run conf world pauses (initial w)).2).1 = .ok () ∧
          (tick conf world pause (run conf world pauses (initial w)).2).2.errors =
            (run conf world pauses (initial w)).2.errors)
        (run conf world pauses (initial w)).2
        (tick conf world pause (run conf world pauses (initial w)).2).2 := by
  constructor
  · exact run_keeps conf world pauses _ (initial_cap conf w)
  · constructor
    · exact run_safe conf world pauses _
    · intro rows w' read
      generalize (run conf world pauses (initial w)).2 = s at read ⊢
      have first : onWorld world.workerStats s = (.ok rows, { s with world := w' }) := by
        simp [onWorld, read]
      have scanned : scan conf world s = rows.forM (scanRow conf world) { s with world := w' } :=
        bind_ok first
      obtain ⟨taken, chosen, law⟩ := rows_scanned conf world rows { s with world := w' }
      rw [← scanned] at law
      obtain ⟨asked, replaced, outstanding⟩ := tick_same conf world pause s
      apply Exists.intro taken
      apply Exists.intro chosen
      constructor
      · exact asked.trans law.asked
      · exact law.first
      · exact replaced.trans law.replaced
      · exact law.among
      · exact outstanding.trans law.counted
      · intro through room
        rw [outstanding] at room
        exact law.thorough (tick_through conf world pause through.1 through.2) room
      · intro willing
        obtain ⟨all, through⟩ := law.obliging willing
        have kept := scan_errors conf world s.errors s rfl
        cases eq : scan conf world s with
        | mk outcome t =>
          rw [eq] at through kept
          have ended : outcome = .ok () := through
          have same : t.errors = s.errors := kept
          exact ⟨all, by simp [tick, ensure, rescue, update, eq, ended, same]⟩

def slotsWorld : World (List Row) where
  workerStats := fun rows => (.ok rows, rows)
  replace := fun index rows =>
    (.ok true, rows.map fun r => if r.index = index then { r with quarantined := true } else r)

/-- Two slots wedge and only one may be replaced: the other is left to the warning. -/
theorem second_wedge_warned :
    (run ⟨1000, 1⟩ slotsWorld [id, id] (initial [⟨0, 5000, false⟩, ⟨1, 20, false⟩, ⟨2, 6000, false⟩])).2.replaced
      = [0] ∧
    (run ⟨1000, 1⟩ slotsWorld [id, id] (initial [⟨0, 5000, false⟩, ⟨1, 20, false⟩, ⟨2, 6000, false⟩])).2.warnings
      = [capWarning ⟨1000, 1⟩] ∧
    CapInv ⟨1000, 1⟩
      (run ⟨1000, 1⟩ slotsWorld [id, id] (initial [⟨0, 5000, false⟩, ⟨1, 20, false⟩, ⟨2, 6000, false⟩])).2 :=
  ⟨by decide, by decide, (monitor_law ⟨1000, 1⟩ slotsWorld _ [id, id] id).1⟩

end KinoQuarantineMonitor
