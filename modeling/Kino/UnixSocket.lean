import Kino.Transitions

/-!
Kino processes on one unix:// path: `bind_unix` and `cleanup_unix` (ext/kino/src/listen.rs),
the listener that `accept_loop` drops when it stops, and `shutdown_runtime`. Each operation on
the file system is one step. A socket file is numbered when it is bound, so that a file bound
later at the same path is another file.
-/
namespace KinoUnixSocket
open Transitions

/-- A process on the path. `reclaiming` has had its connect to this file refused; `draining`
    has closed the listener of its own file and not yet cleaned up. -/
inductive Pc where
  | stopped
  | probing
  | reclaiming (seen : Nat)
  | binding
  | listening (own : Nat)
  | draining (own : Nat)
  deriving DecidableEq, Repr

/-- `listener` says for which files the kernel has a listener. -/
structure State where
  path : Option Nat
  files : Nat
  listener : Nat → Bool
  pcs : Nat → Pc

inductive Label where
  | start (p : Nat)
  | connect (p : Nat)
  | removeFile (p : Nat)
  | bind (p : Nat)
  | closeListener (p : Nat)
  | cleanup (p : Nat)
  | fail (p : Nat)
  deriving DecidableEq, Repr

def State.goto (s : State) (p : Nat) (pc : Pc) : State :=
  { s with pcs := Function.update s.pcs p pc }

def State.setListener (s : State) (i : Nat) (here : Bool) : State :=
  { s with listener := Function.update s.listener i here }

/-- `remove_file`; a file that is gone already is no error. -/
def State.removed (s : State) : State := { s with path := none }

def State.bound (s : State) : State :=
  { s with path := some s.files, files := s.files + 1 }.setListener s.files true

/-- `fail` is any other error of an operation, or the death of the process; the kernel then
    closes its listener and the file stays. -/
def step (s : State) : Label → Option State
  | .start p => if s.pcs p = .stopped then some (s.goto p .probing) else none
  | .connect p =>
    if s.pcs p = .probing then
      match s.path with
      | none => some (s.goto p .binding)
      | some i =>
        if s.listener i then some (s.goto p .stopped) else some (s.goto p (.reclaiming i))
    else none
  | .removeFile p =>
    match s.pcs p with
    | .reclaiming _ => some (s.removed.goto p .binding)
    | _ => none
  | .bind p =>
    if s.pcs p = .binding then
      match s.path with
      | none => some (s.bound.goto p (.listening s.files))
      | some _ => some (s.goto p .stopped)
    else none
  | .closeListener p =>
    match s.pcs p with
    | .listening own => some ((s.setListener own false).goto p (.draining own))
    | _ => none
  | .cleanup p =>
    match s.pcs p with
    | .draining _ => some (s.removed.goto p .stopped)
    | _ => none
  | .fail p =>
    match s.pcs p with
    | .stopped => none
    | .listening own => some ((s.setListener own false).goto p .stopped)
    | _ => some (s.goto p .stopped)

def initial (path : Option Nat) (files : Nat) : State where
  path := path
  files := files
  listener := fun _ => false
  pcs := fun _ => .stopped

def system : System State Label where
  start s := ∃ path files, (∀ i, path = some i → i < files) ∧ s = initial path files
  step := step

def removes (s : State) : Label → Option (Nat × Nat)
  | .removeFile p =>
    match s.pcs p with
    | .reclaiming _ => s.path.map fun i => (p, i)
    | _ => none
  | .cleanup p =>
    match s.pcs p with
    | .draining _ => s.path.map fun i => (p, i)
    | _ => none
  | _ => none

inductive Move (s : State) : Label → State → Prop where
  | start (p : Nat) (at_pc : s.pcs p = .stopped) : Move s (.start p) (s.goto p .probing)
  | free (p : Nat) (at_pc : s.pcs p = .probing) (path : s.path = none) :
      Move s (.connect p) (s.goto p .binding)
  | inUse (p i : Nat) (at_pc : s.pcs p = .probing) (path : s.path = some i)
      (live : s.listener i = true) : Move s (.connect p) (s.goto p .stopped)
  | refused (p i : Nat) (at_pc : s.pcs p = .probing) (path : s.path = some i)
      (dead : s.listener i = false) : Move s (.connect p) (s.goto p (.reclaiming i))
  | reclaim (p i : Nat) (at_pc : s.pcs p = .reclaiming i) :
      Move s (.removeFile p) (s.removed.goto p .binding)
  | bind (p : Nat) (at_pc : s.pcs p = .binding) (path : s.path = none) :
      Move s (.bind p) (s.bound.goto p (.listening s.files))
  | taken (p i : Nat) (at_pc : s.pcs p = .binding) (path : s.path = some i) :
      Move s (.bind p) (s.goto p .stopped)
  | close (p i : Nat) (at_pc : s.pcs p = .listening i) :
      Move s (.closeListener p) ((s.setListener i false).goto p (.draining i))
  | cleanup (p i : Nat) (at_pc : s.pcs p = .draining i) :
      Move s (.cleanup p) (s.removed.goto p .stopped)
  | die (p i : Nat) (at_pc : s.pcs p = .listening i) :
      Move s (.fail p) ((s.setListener i false).goto p .stopped)
  | fail (p : Nat) (idle : ∀ i, s.pcs p ≠ .listening i) : Move s (.fail p) (s.goto p .stopped)

theorem step_move {s s' : State} {l : Label} (moved : step s l = some s') : Move s l s' := by
  cases l with
  | start p =>
    simp only [step] at moved
    split at moved
    · next at_pc => cases moved; exact .start p at_pc
    · cases moved
  | connect p =>
    simp only [step] at moved
    split at moved
    · next at_pc =>
      split at moved
      · next path => cases moved; exact .free p at_pc path
      · next i path =>
        split at moved
        · next live => cases moved; exact .inUse p i at_pc path live
        · next dead => cases moved; exact .refused p i at_pc path (Bool.eq_false_iff.mpr dead)
    · cases moved
  | removeFile p =>
    simp only [step] at moved
    split at moved
    · next i at_pc => cases moved; exact .reclaim p i at_pc
    · cases moved
  | bind p =>
    simp only [step] at moved
    split at moved
    · next at_pc =>
      split at moved
      · next path => cases moved; exact .bind p at_pc path
      · next i path => cases moved; exact .taken p i at_pc path
    · cases moved
  | closeListener p =>
    simp only [step] at moved
    split at moved
    · next i at_pc => cases moved; exact .close p i at_pc
    · cases moved
  | cleanup p =>
    simp only [step] at moved
    split at moved
    · next i at_pc => cases moved; exact .cleanup p i at_pc
    · cases moved
  | fail p =>
    simp only [step] at moved
    split at moved
    · cases moved
    · next i at_pc => cases moved; exact .die p i at_pc
    · next idle => cases moved; exact .fail p idle

/-- The kernel's listeners are the processes', one each, and a file that was found dead or
    whose listener was closed has none again. -/
structure FileInv (s : State) : Prop where
  path : ∀ i, s.path = some i → i < s.files
  live : ∀ i, s.listener i = true ↔ ∃ p, s.pcs p = .listening i
  one : ∀ p q i, s.pcs p = .listening i → s.pcs q = .listening i → p = q
  known : ∀ p i, s.pcs p = .listening i → i < s.files
  reclaiming : ∀ p i, s.pcs p = .reclaiming i → i < s.files ∧ s.listener i = false
  draining : ∀ p i, s.pcs p = .draining i → i < s.files ∧ s.listener i = false

@[simp] theorem goto_pcs (s : State) (p q : Nat) (pc : Pc) :
    (s.goto p pc).pcs q = if q = p then pc else s.pcs q := by
  simp [State.goto, Function.update_apply]

theorem files_goto {s s' : State} {p : Nat} {pc : Pc} (inv : FileInv s)
    (idle : ∀ i, s.pcs p ≠ .listening i) (still : ∀ i, pc ≠ .listening i)
    (dead : ∀ i, pc = .reclaiming i ∨ pc = .draining i → i < s.files ∧ s.listener i = false)
    (files : s'.files = s.files) (listener : s'.listener = s.listener) (pcs : s'.pcs = s.pcs)
    (path : ∀ i, s'.path = some i → i < s.files) : FileInv (s'.goto p pc) := by
  have listens : ∀ q i, (s'.goto p pc).pcs q = .listening i ↔ s.pcs q = .listening i := by
    intro q i
    rw [goto_pcs, pcs]
    by_cases mine : q = p
    · rw [if_pos mine, mine]
      exact ⟨fun there => absurd there (still i), fun was => absurd was (idle i)⟩
    · rw [if_neg mine]
  have quiet : ∀ q i, (s'.goto p pc).pcs q = .reclaiming i ∨ (s'.goto p pc).pcs q = .draining i →
      i < s.files ∧ s.listener i = false := by
    intro q i there
    rw [goto_pcs, pcs] at there
    by_cases mine : q = p
    · rw [if_pos mine] at there
      exact dead i there
    · rw [if_neg mine] at there
      rcases there with there | there
      · exact inv.reclaiming q i there
      · exact inv.draining q i there
  constructor
  · intro i there
    change i < s'.files
    rw [files]
    exact path i there
  · intro i
    simp only [listens]
    change s'.listener i = true ↔ _
    rw [listener]
    exact inv.live i
  · intro q r i
    rw [listens, listens]
    exact inv.one q r i
  · intro q i there
    change i < s'.files
    rw [files]
    exact inv.known q i ((listens q i).mp there)
  · intro q i there
    change i < s'.files ∧ s'.listener i = false
    rw [files, listener]
    exact quiet q i (.inl there)
  · intro q i there
    change i < s'.files ∧ s'.listener i = false
    rw [files, listener]
    exact quiet q i (.inr there)

theorem files_bind {s : State} {p : Nat} (inv : FileInv s) (idle : s.pcs p = .binding) :
    FileInv (s.bound.goto p (.listening s.files)) := by
  have fresh : ∀ q, s.pcs q ≠ .listening s.files :=
    fun q there => absurd (inv.known q _ there) (lt_irrefl _)
  have pcs : ∀ q, (s.bound.goto p (.listening s.files)).pcs q =
      if q = p then .listening s.files else s.pcs q := fun q => goto_pcs s.bound p q _
  have listener : ∀ i, (s.bound.goto p (.listening s.files)).listener i =
      if i = s.files then true else s.listener i := Function.update_apply s.listener _ _
  have dead : ∀ i, i < s.files ∧ s.listener i = false →
      i < s.files + 1 ∧ (s.bound.goto p (.listening s.files)).listener i = false := by
    intro i was
    rw [listener, if_neg (by omega)]
    exact ⟨by omega, was.2⟩
  constructor
  · intro i there
    cases there
    exact Nat.lt_succ_self _
  · intro i
    rw [listener]
    by_cases new : i = s.files
    · rw [if_pos new, new]
      exact ⟨fun _ => ⟨p, by rw [pcs, if_pos rfl]⟩, fun _ => rfl⟩
    · rw [if_neg new, inv.live i]
      constructor
      · rintro ⟨q, there⟩
        refine ⟨q, ?_⟩
        rw [pcs, if_neg, there]
        rintro rfl
        rw [idle] at there
        cases there
      · rintro ⟨q, there⟩
        rw [pcs] at there
        split at there
        · cases there
          exact absurd rfl new
        · exact ⟨q, there⟩
  · intro q r i there here
    rw [pcs] at there here
    split at there <;> split at here
    · next a b => rw [a, b]
    · cases there
      exact absurd here (fresh r)
    · cases here
      exact absurd there (fresh q)
    · exact inv.one q r i there here
  · intro q i there
    change i < s.files + 1
    rw [pcs] at there
    split at there
    · cases there
      exact Nat.lt_succ_self _
    · have := inv.known q i there
      omega
  · intro q i there
    rw [pcs] at there
    split at there
    · cases there
    · exact dead i (inv.reclaiming q i there)
  · intro q i there
    rw [pcs] at there
    split at there
    · cases there
    · exact dead i (inv.draining q i there)

theorem files_close {s : State} {p own : Nat} {pc : Pc} (inv : FileInv s)
    (at_pc : s.pcs p = .listening own) (next : pc = .stopped ∨ pc = .draining own) :
    FileInv ((s.setListener own false).goto p pc) := by
  have pcs : ∀ q, ((s.setListener own false).goto p pc).pcs q = if q = p then pc else s.pcs q :=
    fun q => goto_pcs (s.setListener own false) p q pc
  have listener : ∀ i, ((s.setListener own false).goto p pc).listener i =
      if i = own then false else s.listener i := Function.update_apply s.listener _ _
  have listens : ∀ q i, ((s.setListener own false).goto p pc).pcs q = .listening i ↔
      q ≠ p ∧ s.pcs q = .listening i := by
    intro q i
    rw [pcs]
    by_cases mine : q = p
    · rw [if_pos mine]
      rcases next with rfl | rfl <;> simp [mine]
    · simp [mine]
  have dead : ∀ i, i < s.files ∧ s.listener i = false →
      i < s.files ∧ ((s.setListener own false).goto p pc).listener i = false := by
    intro i was
    rw [listener]
    split
    · exact ⟨was.1, rfl⟩
    · exact was
  constructor
  · exact inv.path
  · intro i
    simp only [listens]
    rw [listener]
    by_cases mine : i = own
    · rw [if_pos mine, mine]
      constructor
      · intro live
        cases live
      · rintro ⟨q, other, there⟩
        exact absurd (inv.one q p own there at_pc) other
    · rw [if_neg mine, inv.live i]
      constructor
      · rintro ⟨q, there⟩
        refine ⟨q, ?_, there⟩
        rintro rfl
        rw [at_pc] at there
        cases there
        exact mine rfl
      · rintro ⟨q, _, there⟩
        exact ⟨q, there⟩
  · intro q r i there here
    exact inv.one q r i ((listens q i).mp there).2 ((listens r i).mp here).2
  · intro q i there
    exact inv.known q i ((listens q i).mp there).2
  · intro q i there
    rw [pcs] at there
    split at there
    · rcases next with rfl | rfl <;> cases there
    · exact dead i (inv.reclaiming q i there)
  · intro q i there
    rw [pcs] at there
    split at there
    · rcases next with rfl | rfl
      · cases there
      · cases there
        refine ⟨inv.known p own at_pc, ?_⟩
        rw [listener, if_pos rfl]
    · exact dead i (inv.draining q i there)

theorem move_files {s s' : State} {l : Label} (inv : FileInv s) (move : Move s l s') :
    FileInv s' := by
  cases move with
  | start p at_pc | free p at_pc | inUse p _ at_pc | taken p _ at_pc =>
    exact files_goto inv (by simp [at_pc]) (by simp) (by simp) rfl rfl rfl inv.path
  | refused p i at_pc path dead =>
    refine files_goto inv (by simp [at_pc]) (by simp) ?_ rfl rfl rfl inv.path
    intro j there
    rcases there with there | there <;> cases there
    exact ⟨inv.path _ path, dead⟩
  | reclaim p _ at_pc | cleanup p _ at_pc =>
    exact files_goto inv (by simp [at_pc]) (by simp) (by simp) rfl rfl rfl
      (fun i there => by cases there)
  | bind p at_pc path => exact files_bind inv at_pc
  | close p i at_pc => exact files_close inv at_pc (.inr rfl)
  | die p i at_pc => exact files_close inv at_pc (.inl rfl)
  | fail p idle => exact files_goto inv idle (by simp) (by simp) rfl rfl rfl inv.path

theorem initial_files {path : Option Nat} {files : Nat} (known : ∀ i, path = some i → i < files) :
    FileInv (initial path files) := by
  constructor
  · exact known
  all_goals simp [initial]

def sameFile (s : State) : Label → Bool
  | .removeFile p =>
    match s.pcs p with
    | .reclaiming seen => s.path = none || s.path = some seen
    | _ => true
  | .cleanup p =>
    match s.pcs p with
    | .draining own => s.path = none || s.path = some own
    | _ => true
  | _ => true

theorem same_path {path : Option Nat} {seen i : Nat} (here : path = some i)
    (same : (path = none || path = some seen : Bool) = true) : seen = i := by
  simpa [here, eq_comm] using same

theorem removes_same {s : State} {l : Label} {p i : Nat} (same : sameFile s l = true)
    (removed : removes s l = some (p, i)) :
    s.path = some i ∧ (s.pcs p = .reclaiming i ∨ s.pcs p = .draining i) := by
  unfold removes at removed
  split at removed
  · next q =>
    split at removed
    · next seen at_pc =>
      obtain ⟨j, path, pair⟩ := Option.map_eq_some_iff.mp removed
      cases pair
      cases same_path path (by simpa only [sameFile, at_pc] using same)
      exact ⟨path, .inl at_pc⟩
    · cases removed
  · next q =>
    split at removed
    · next own at_pc =>
      obtain ⟨j, path, pair⟩ := Option.map_eq_some_iff.mp removed
      cases pair
      cases same_path path (by simpa only [sameFile, at_pc] using same)
      exact ⟨path, .inr at_pc⟩
    · cases removed
  · cases removed

theorem removes_dead {s : State} {l : Label} {p i : Nat} (inv : FileInv s)
    (same : sameFile s l = true) (removed : removes s l = some (p, i)) (q : Nat) :
    s.pcs q ≠ .listening i := by
  intro there
  have live := (inv.live i).mpr ⟨q, there⟩
  have dead : s.listener i = false := by
    rcases (removes_same same removed).2 with at_pc | at_pc
    · exact (inv.reclaiming p i at_pc).2
    · exact (inv.draining p i at_pc).2
  rw [dead] at live
  cases live

def Held (s : State) : Prop := ∀ p i, s.pcs p = .listening i → s.path = some i

theorem held_goto {s s' : State} {p : Nat} {pc : Pc} (held : Held s)
    (still : ∀ i, pc ≠ .listening i) (pcs : s'.pcs = s.pcs)
    (path : ∀ q i, s.pcs q = .listening i → s.path = some i → s'.path = some i) :
    Held (s'.goto p pc) := by
  intro q i there
  rw [goto_pcs, pcs] at there
  split at there
  · exact absurd there (still i)
  · exact path q i there (held q i there)

theorem step_held {s s' : State} {l : Label} (inv : FileInv s) (held : Held s)
    (same : sameFile s l = true) (moved : step s l = some s') : Held s' := by
  cases step_move moved with
  | start | free | inUse | taken | refused | close | die | fail =>
    exact held_goto held (by simp) rfl fun _ _ _ path => path
  | reclaim p seen at_pc | cleanup p own at_pc =>
    refine held_goto held (by simp) rfl ?_
    intro q i there path
    exact absurd there (removes_dead (p := p) inv same (by simp [removes, at_pc, path]) q)
  | bind p at_pc path =>
    intro q i there
    rw [goto_pcs] at there
    split at there
    · cases there
      rfl
    · have busy := held q i there
      rw [path] at busy
      cases busy

theorem reachable_held {s : State}
    (reached : ReachableBy system (fun s l => sameFile s l = true) s) : FileInv s ∧ Held s := by
  refine invariant (fun s => FileInv s ∧ Held s) ?_ ?_ reached
  · rintro s ⟨path, files, known, rfl⟩
    refine ⟨initial_files known, ?_⟩
    intro p i there
    cases there
  · intro s t l inv same moved
    exact ⟨move_files inv.1 (step_move moved), step_held inv.1 inv.2 same moved⟩

/-- While every removal meets the file it is meant for, the file of each process that listens
    is at the path, so that one process listens; a removal takes a file that was found dead or
    whose own listener was closed, and that nobody listens on; and a start refuses a live
    socket. -/
theorem socket_file_law {s : State}
    (reached : ReachableBy system (fun s l => sameFile s l = true) s) :
    (∀ p i, s.pcs p = .listening i → s.path = some i) ∧
    (∀ p q i j, s.pcs p = .listening i → s.pcs q = .listening j → p = q) ∧
    ∀ l s', sameFile s l = true → step s l = some s' →
      (∀ p i, removes s l = some (p, i) →
        (s.pcs p = .reclaiming i ∨ s.pcs p = .draining i) ∧ ∀ q, s.pcs q ≠ .listening i) ∧
      ∀ p q i, l = .connect p → s.path = some i → s.pcs q = .listening i →
        s' = s.goto p .stopped := by
  obtain ⟨inv, held⟩ := reachable_held reached
  refine ⟨held, ?_, ?_⟩
  · intro p q i j mine its
    have one := (held p i mine).symm.trans (held q j its)
    cases one
    exact inv.one p q i mine its
  · intro l s' same moved
    constructor
    · intro p i removed
      exact ⟨(removes_same same removed).2, removes_dead inv same removed⟩
    · rintro p q i rfl path there
      have live := (inv.live i).mpr ⟨q, there⟩
      simp only [step, path, live, if_true] at moved
      split at moved
      · cases moved
        rfl
      · cases moved

def restart : List Label :=
  [.start 0, .connect 0, .removeFile 0, .bind 0, .closeListener 0]

theorem restart_law :
    ∃ s, runBy system sameFile (initial (some 0) 1) restart = some s ∧
      removes s (.cleanup 0) = some (0, 1) ∧ ∀ q, s.pcs q ≠ .listening 1 := by
  have ran : runBy system sameFile (initial (some 0) 1) restart = some _ := rfl
  refine ⟨_, ran, rfl, ?_⟩
  have reached := reachable_runBy (fun _ _ passed => passed)
    (.start ⟨some 0, 1, by simp, rfl⟩ : ReachableBy system _ _) ran
  exact ((socket_file_law reached).2.2 (.cleanup 0) _ rfl rfl).1 0 1 rfl |>.2

def overlap : List Label :=
  [.start 0, .connect 0, .bind 0, .closeListener 0, .start 1, .connect 1, .removeFile 1, .bind 1]

theorem cleanup_removes_live_socket :
    ¬∀ s, Reachable system s → ∀ l s', step s l = some s' → ∀ p i, removes s l = some (p, i) →
      ∀ q, q ≠ p → s.pcs q ≠ .listening i := by
  intro kept
  have ran : run system (initial none 0) overlap = some _ := rfl
  have reached := reachable_run (.start ⟨none, 0, by simp, rfl⟩ : Reachable system _) ran
  exact kept _ reached (.cleanup 0) _ rfl 0 1 rfl 1 (by decide) rfl

end KinoUnixSocket
