import Kino.ResponseRace

/-!
Whether `respond_500_if_unsent` can return on its own. The call holds the lock of
`body_tx` while it sends the error frame, so a call blocked on a full channel
also holds up every later one.
-/
namespace KinoBackstop
open Transitions Channels KinoResponder KinoResponseRace
variable {H B : Type}

theorem sendAbandoned_none_iff (r : Responder H B) : sendAbandoned r = none ↔ r.frames.Blocks := by
  rw [← Chan.trySend_full_iff r.frames abandonedFrame]
  unfold sendAbandoned
  split <;> simp_all

structure LockInv (s : State H B) : Prop where
  owner : ∀ u, s.lock = some u ↔ s.pc u = .sendErr
  body_taken : s.lock ≠ none → s.resp.bodyTx = false

theorem initial_lock_inv : LockInv (initial : State H B) := by
  constructor <;> simp [initial]

theorem lost_ne_sendErr (c : Claimer H) : (lost c : Pc H B) ≠ .sendErr := by
  cases c <;> simp [lost]

theorem entry_ne_sendErr (c : Call H B) : c.entry ≠ .sendErr := by
  rcases c with (_ | _) | _ | _ | _ | _ <;> simp [Call.entry]

theorem goto_lock_inv {s s' : State H B} {t : Nat} {p : Pc H B} (inv : LockInv s)
    (before : s.pc t ≠ .sendErr) (after : p ≠ .sendErr) (pcs : s'.pc = Function.update s.pc t p)
    (lock : s'.lock = s.lock) (body : s.lock ≠ none → s'.resp.bodyTx = false) : LockInv s' := by
  constructor
  · intro u
    rw [lock, pcs, inv.owner u, Function.update_apply]
    split
    · rename_i eq; simp [eq, before, after]
    · rfl
  · rw [lock]; exact body

theorem advance_lock_inv {s s' : State H B} {t : Nat} (inv : LockInv s)
    (moved : Advance s t s') : LockInv s' := by
  have body := inv.body_taken
  cases moved with
  | late c at_pc | noSender c at_pc =>
    exact goto_lock_inv inv (by simp [at_pc]) (lost_ne_sendErr c) rfl rfl body
  | first c at_pc | take c at_pc | respond c at_pc | build c at_pc | write c at_pc | clone c at_pc
  | notOpen c at_pc => exact goto_lock_inv inv (by simp [at_pc]) (by simp) rfl rfl body
  | canned at_pc | reject at_pc | noBody at_pc =>
    exact goto_lock_inv inv (by simp [at_pc]) (by simp) rfl rfl body
  | store head at_pc unlocked =>
    exact goto_lock_inv inv (by simp [at_pc]) (by simp) rfl rfl (by simp [unlocked])
  | stream head at_pc =>
    refine goto_lock_inv inv (by simp [at_pc]) (by simp) rfl rfl fun held => ?_
    simp only [goto_resp, sendStream]
    split <;> exact body held
  | finish at_pc unlocked =>
    exact goto_lock_inv inv (by simp [at_pc]) (by simp) rfl rfl (by simp [unlocked])
  | tick => exact inv
  | takeBody at_pc unlocked =>
    have free := inv.owner
    refine ⟨fun u => ?_, fun _ => rfl⟩
    by_cases eq : u = t
    · simp [eq]
    · have := (free u).not.mp (by simp [unlocked])
      simp [eq, this, Ne.symm eq]
  | abandon r at_pc =>
    have holder := (inv.owner t).mpr at_pc
    refine ⟨fun u => ?_, by simp⟩
    by_cases eq : u = t
    · simp [eq]
    · have := (inv.owner u).not.mp (by simp [holder, Ne.symm eq])
      simp [eq, this]

theorem step_lock_inv {ms : Nat} {s s' : State H B} {l : Label H B} (inv : LockInv s)
    (moved : Move ms s l s') : LockInv s' := by
  have body := inv.body_taken
  cases moved with
  | step t s' moved => exact advance_lock_inv inv moved
  | call t c idle => exact goto_lock_inv inv (by simp [idle]) (entry_ne_sendErr c) rfl rfl body
  | interrupt t chunk at_pc => exact goto_lock_inv inv (by simp [at_pc]) (by simp) rfl rfl body
  | dropCtx t idle => exact goto_lock_inv inv (by simp [idle]) (by simp) rfl rfl body
  | timeout | clientGone => exact ⟨inv.owner, fun held => (dropHeadRx_race s.resp).2.2.2 ▸ body held⟩
  | _ => exact ⟨inv.owner, body⟩

theorem reachable_lock_inv {ms : Nat} {s : State H B} (reached : Reachable (system H B ms) s) :
    LockInv s :=
  reachable_invariant LockInv (by rintro s rfl; exact initial_lock_inv)
    (fun _ _ _ inv moved => step_lock_inv inv (step_move moved)) reached

def inBackstop : Pc H B → Bool
  | .swap .backstop | .takeHead .backstop | .holding .backstop | .takeBody | .sendErr => true
  | _ => false

/-- The call returns while only it and the calls of the same kind already under
    way move: hyper takes no frame, and the app neither writes nor finishes. -/
def CanReturn (ms : Nat) (s : State H B) (t : Nat) : Prop :=
  ∃ ls s', (∀ l ∈ ls, ∃ u, l = .step u ∧ (u = t ∨ inBackstop (s.pc u) = true)) ∧
    run (system H B ms) s (.call t .respond500IfUnsent :: ls) = some s' ∧ ∃ r, s'.pc t = .done r

/-- The waiting call and whatever it waits for: a full channel with a sender still
    to send into it, in the slot or in the hands of the holder of the lock. -/
structure Stuck (s : State H B) (t : Nat) (x : State H B) : Prop where
  responded : x.resp.responded = true
  full : x.resp.frames.Blocks
  pending : (x.lock = none ∧ x.resp.bodyTx = true) ∨ ∃ u, x.lock = some u ∧ x.pc u = .sendErr
  waiting : x.pc t = .swap .backstop ∨ x.pc t = .takeBody ∨ x.pc t = .sendErr
  movers : ∀ u, inBackstop (s.pc u) = true → inBackstop (x.pc u) = true ∨ ∃ r, x.pc u = .done r

theorem stuck_advance {s x x' : State H B} {t u : Nat} (stuck : Stuck s t x)
    (mover : u = t ∨ inBackstop (s.pc u) = true) (moved : Advance x u x') : Stuck s t x' := by
  obtain ⟨responded, full, pending, waiting, movers⟩ := stuck
  have inside : inBackstop (x.pc u) = true ∨ ∃ r, x.pc u = .done r := by
    rcases mover with rfl | other
    · rcases waiting with h | h | h <;> simp [h, inBackstop]
    · exact movers u other
  have others : ∀ p : Pc H B, inBackstop p = true ∨ (∃ r, p = .done r) → ∀ v,
      inBackstop (s.pc v) = true →
      inBackstop ((x.goto u p).pc v) = true ∨ ∃ r, (x.goto u p).pc v = .done r := by
    intro p ok v hv
    by_cases eq : v = u
    · simpa [eq] using ok
    · simpa [eq] using movers v hv
  have held : ∀ p : Pc H B, x.pc u ≠ .sendErr →
      (x.lock = none ∧ x.resp.bodyTx = true) ∨ ∃ v, x.lock = some v ∧ (x.goto u p).pc v = .sendErr := by
    intro p ne
    refine pending.imp_right fun ⟨v, lock, at_v⟩ => ⟨v, lock, ?_⟩
    have : v ≠ u := by rintro rfl; exact ne at_v
    simpa [this] using at_v
  cases moved
  case late c at_pc taken =>
    rcases c with _ | _ | _ <;> simp [at_pc, inBackstop] at inside
    refine ⟨responded, full, held _ (by simp [at_pc]), ?_, others _ (by simp [lost, inBackstop])⟩
    by_cases eq : t = u
    · simp [eq, lost]
    · simpa [eq] using waiting
  case first free => simp [responded] at free
  case take c at_pc present =>
    rcases c with _ | _ | _ <;> simp [at_pc, inBackstop] at inside
    have ne : t ≠ u := by rintro rfl; simp [at_pc] at waiting
    exact ⟨responded, full, held _ (by simp [at_pc]), by simpa [ne] using waiting,
      others _ (by simp [inBackstop])⟩
  case noSender c at_pc missing =>
    rcases c with _ | _ | _ <;> simp [at_pc, inBackstop] at inside
    have ne : t ≠ u := by rintro rfl; simp [at_pc] at waiting
    exact ⟨responded, full, held _ (by simp [at_pc]), by simpa [ne] using waiting,
      others _ (by simp [lost, inBackstop])⟩
  case canned at_pc =>
    have ne : t ≠ u := by rintro rfl; simp [at_pc] at waiting
    exact ⟨responded, full, held _ (by simp [at_pc]), by simpa [ne] using waiting, others _ (by simp)⟩
  case takeBody at_pc unlocked present =>
    refine ⟨responded, full, .inr ⟨u, rfl, by simp⟩, ?_, others _ (by simp [inBackstop])⟩
    by_cases eq : t = u
    · simp [eq]
    · simpa [eq] using waiting
  case noBody at_pc unlocked missing => simp [unlocked, missing] at pending
  case abandon r at_pc sent =>
    rw [(sendAbandoned_none_iff x.resp).mpr full] at sent
    cases sent
  all_goals simp_all [inBackstop]

theorem stuck_never_returns {ms : Nat} {s : State H B} {t : Nat} (inv : LockInv s)
    (idle : s.pc t = .idle) (responded : s.resp.responded = true) (full : s.resp.frames.Blocks)
    (held : s.lock ≠ none ∨ s.resp.bodyTx = true) : ¬ CanReturn ms s t := by
  rintro ⟨ls, s', labels, ran, r, returned⟩
  obtain ⟨x, called, rest⟩ := run_cons.mp ran
  have start : Stuck s t x := by
    have moved : Move ms s (.call t .respond500IfUnsent) x := step_move called
    cases moved
    refine ⟨responded, full, ?_, by simp [Call.entry], fun u inside => ?_⟩
    · cases lock : s.lock with
      | none => exact .inl ⟨rfl, by simpa [lock] using held⟩
      | some u =>
        have at_u := (inv.owner u).mp lock
        have ne : u ≠ t := by rintro rfl; simp [idle] at at_u
        exact .inr ⟨u, rfl, by simp [ne, at_u]⟩
    · have ne : u ≠ t := by rintro rfl; simp [idle, inBackstop] at inside
      simpa [ne] using Or.inl inside
  have stuck := run_keeps (Stuck s t) (fun l => ∃ u, l = .step u ∧ (u = t ∨ inBackstop (s.pc u) = true))
    (by rintro a b l stuck ⟨u, rfl, mover⟩ moved; exact stuck_advance stuck mover (advance_cases moved))
    start labels rest
  rcases stuck.waiting with h | h | h <;> simp [returned] at h

/-- The atomic steps of an undisturbed call add up to the function. -/
theorem solo_run {ms : Nat} {s : State H B} {t : Nat} {r : Responder H B} (idle : s.pc t = .idle)
    (unlocked : s.lock = none) (present : s.resp.responded = false → s.resp.headTx = true)
    (returns : respond500IfUnsent s.resp = some r) :
    ∃ n s', run (system H B ms) s
        (.call t .respond500IfUnsent :: List.replicate n (.step t)) = some s' ∧
      s'.resp = r ∧ s'.lock = none ∧ s'.pc t = .done .unit := by
  cases responded : s.resp.responded with
  | false =>
    have headTx := present responded
    simp only [respond500IfUnsent, claim, responded, headTx] at returns
    cases returns
    refine ⟨3, ?_⟩
    simp [List.replicate, run, system, step, advance, idle, Call.entry, responded, headTx, unlocked]
  | true =>
    cases bodyTx : s.resp.bodyTx with
    | false =>
      simp [respond500IfUnsent, claim, responded, bodyTx] at returns
      subst returns
      refine ⟨2, ?_⟩
      simp [List.replicate, run, system, step, advance, idle, Call.entry, responded, bodyTx, unlocked,
        lost]
    | true =>
      simp [respond500IfUnsent, claim, responded, bodyTx] at returns
      refine ⟨3, ?_⟩
      simp [List.replicate, run, system, step, advance, idle, Call.entry, responded, bodyTx, unlocked,
        lost, returns]

theorem respond500IfUnsent_none_iff (r : Responder H B)
    (present : r.responded = false → r.headTx = true) :
    respond500IfUnsent r = none ↔ r.responded = true ∧ r.bodyTx = true ∧ r.frames.Blocks := by
  cases responded : r.responded with
  | false => simp [respond500IfUnsent, claim, responded, present responded]
  | true =>
    cases bodyTx : r.bodyTx with
    | false => simp [respond500IfUnsent, claim, responded, bodyTx]
    | true => simp [respond500IfUnsent, claim, responded, bodyTx, sendAbandoned_none_iff]

theorem solo_can_return {ms : Nat} {s : State H B} {t : Nat} {r : Responder H B}
    (idle : s.pc t = .idle) (unlocked : s.lock = none)
    (present : s.resp.responded = false → s.resp.headTx = true)
    (returns : respond500IfUnsent s.resp = some r) : CanReturn ms s t := by
  obtain ⟨n, s', ran, -, -, done⟩ := solo_run idle unlocked present returns
  refine ⟨_, s', fun l member => ⟨t, List.eq_of_mem_replicate member, .inl rfl⟩, ran, _, done⟩

/-- The holder of the lock can send, and finds no second sender behind it. -/
theorem behind_lock_can_return {ms : Nat} {s : State H B} {t u : Nat} (inv : LockInv s)
    (idle : s.pc t = .idle) (responded : s.resp.responded = true) (lock : s.lock = some u)
    (room : ¬ s.resp.frames.Blocks) : CanReturn ms s t := by
  have at_u := (inv.owner u).mp lock
  have bodyTx := inv.body_taken (by simp [lock])
  have ne : u ≠ t := by rintro rfl; simp [idle] at at_u
  obtain ⟨r, sent⟩ : ∃ r, sendAbandoned s.resp = some r :=
    Option.ne_none_iff_exists'.mp ((sendAbandoned_none_iff s.resp).not.mpr room)
  obtain ⟨responded', -, -, bodyTx'⟩ := sendAbandoned_keeps sent
  rw [responded] at responded'
  rw [bodyTx] at bodyTx'
  refine ⟨[.step u, .step t, .step t], ?_⟩
  simp [run, system, step, advance, idle, Call.entry, ne, Ne.symm ne, at_u, sent, responded', bodyTx',
    lost, inBackstop]

theorem unclaimed_can_return {ms : Nat} {s : State H B} {t : Nat} (idle : s.pc t = .idle)
    (responded : s.resp.responded = false) (headTx : s.resp.headTx = true) : CanReturn ms s t := by
  refine ⟨[.step t, .step t, .step t], ?_⟩
  simp [run, system, step, advance, idle, Call.entry, responded, headTx]

/-- The call returns without waiting for hyper exactly when it has a head to send,
    or a frame channel it need not wait for, or nothing left to abort. -/
theorem backstop_returns_iff {ms : Nat} {s : State H B} {t : Nat}
    (reached : Reachable (system H B ms) s) (idle : s.pc t = .idle) :
    CanReturn ms s t ↔ s.resp.responded = false ∨ ¬ s.resp.frames.Blocks ∨
      (s.lock = none ∧ s.resp.bodyTx = false) := by
  have inv := reachable_lock_inv reached
  have present : s.resp.responded = false → s.resp.headTx = true := fun free =>
    ((reachable_claim_inv reached).unclaimed free).2.1
  constructor
  · intro returns
    by_contra blocked
    simp only [not_or, Bool.not_eq_false, Classical.not_not, not_and] at blocked
    obtain ⟨responded, full, held⟩ := blocked
    refine stuck_never_returns inv idle responded full ?_ returns
    by_cases lock : s.lock = none
    · exact .inr (held lock)
    · exact .inl lock
  · intro condition
    cases responded : s.resp.responded with
    | false => exact unclaimed_can_return idle responded (present responded)
    | true =>
      simp only [responded, Bool.true_eq_false, false_or] at condition
      cases lock : s.lock with
      | none =>
        have returns : respond500IfUnsent s.resp ≠ none := by
          rw [Ne, respond500IfUnsent_none_iff _ present]
          rintro ⟨-, bodyTx, full⟩
          simp [bodyTx, full] at condition
        obtain ⟨r, returns⟩ := Option.ne_none_iff_exists'.mp returns
        exact solo_can_return idle lock present returns
      | some u =>
        exact behind_lock_can_return inv idle responded lock (by simpa [lock] using condition)

def stalledStream (writes : Nat) : List (Label Nat Nat) :=
  [Label.call 0 (.sendHeaders (some 200)), .step 0, .step 0, .step 0, .step 0, .step 0, .poll] ++
    (List.range writes).flatMap fun i =>
      [Label.call (i + 1) (.writeChunk i), .step (i + 1), .step (i + 1)]

theorem backstop_returns_after_seven_writes :
    ∃ s, run (system Nat Nat 0) initial (stalledStream 7) = some s ∧ CanReturn 0 s 9 := by
  have ran : ∃ s, run (system Nat Nat 0) initial (stalledStream 7) = some s ∧ s.pc 9 = .idle ∧
      ¬ s.resp.frames.Blocks := ⟨_, rfl, rfl, by decide⟩
  obtain ⟨s, ran, idle, room⟩ := ran
  exact ⟨s, ran, (backstop_returns_iff (reachable_run (.start rfl) ran) idle).mpr (.inr (.inl room))⟩

theorem backstop_blocks_after_eight_writes :
    ∃ s, Reachable (system Nat Nat 0) s ∧ s.pc 9 = .idle ∧ ¬ CanReturn 0 s 9 := by
  have ran : ∃ s, run (system Nat Nat 0) initial (stalledStream 8) = some s ∧ s.pc 9 = .idle ∧
      s.resp.responded = true ∧ s.resp.frames.Blocks ∧ s.resp.bodyTx = true :=
    ⟨_, rfl, rfl, rfl, by decide, rfl⟩
  obtain ⟨s, ran, idle, responded, full, bodyTx⟩ := ran
  have reached := reachable_run (.start rfl) ran
  exact ⟨s, reached, idle,
    stuck_never_returns (reachable_lock_inv reached) idle responded full (.inr bodyTx)⟩

end KinoBackstop
