import Kino.RactorSlots
import Kino.ThreadedSlots

/-!
The ceiling of an elastic pool. One thread scales as `PoolScaler#step` does, while workers
are retired, replaced, crash, respawn and leave in any order.
-/
namespace KinoActiveCount
open Transitions KinoSlotBank

section Ractor
open KinoRactorPool KinoRactorSlots

/-- One thread scales, and the pool grows no other way. -/
def ractorScaled (scaler : Nat) : Event → Bool
  | .call _ .grow => false
  | .call c .scaleUp => c = scaler
  | _ => true

def adds : Caller → Bool
  | .numbering _ | .supervising _ _ => true
  | _ => false

/-- With all that the start and the callers will still add, there is place for `more`. -/
def Room (conf : Config) (s : Pool) (more : Nat) : Prop :=
  ∀ P : Finset Nat, (∀ c ∈ P, adds (s.callers c) = true) →
    s.activeCount + P.card + (conf.workers - s.booted) + more ≤ conf.ceiling

/-- There is place when a worker that does not count is replaced, when one that was told to
    leave respawns, and when the scaler decides to grow while a caller adds a worker. -/
structure Roomy (conf : Config) (s : Pool) (e : Event) : Prop where
  replacing : ∀ c w, e = .caller c → s.callers c = .replacing w → w ∉ s.replaced → w ∉ s.active →
    Room conf s 1
  respawning : ∀ w, e = .sup w → s.sups w = .aborting [] → w ∈ s.live → w ∈ s.retiring →
    w ∉ s.replaced → Room conf s 1
  growing : ∀ c d, e = .caller c → s.callers c = .checking → s.activeCount < conf.ceiling →
    adds (s.callers d) = true → Room conf s 1

theorem room_keep {conf : Config} {s s' : Pool} {more : Nat} (room : Room conf s more)
    (fewer : s'.active ⊆ s.active)
    (callers : ∀ c, adds (s'.callers c) = true → adds (s.callers c) = true)
    (booted : s'.booted = s.booted) : Room conf s' more := by
  intro P adding
  have before := room P fun c here => callers c (adding c here)
  have less : s'.activeCount ≤ s.activeCount := Finset.card_le_card fewer
  rw [booted]
  omega

theorem room_enter {conf : Config} {s s' : Pool} {w : Nat} (room : Room conf s 1)
    (entered : s'.active ⊆ insert w s.active) (callers : s'.callers = s.callers)
    (booted : s'.booted = s.booted) : Room conf s' 0 := by
  intro P adding
  have before := room P fun c here => by rw [← callers]; exact adding c here
  have more : s'.activeCount ≤ s.activeCount + 1 :=
    (Finset.card_le_card entered).trans (Finset.card_insert_le w _)
  rw [booted]
  omega

theorem room_add {conf : Config} {s s' : Pool} {c : Nat} {pc : Caller} (room : Room conf s 1)
    (fewer : s'.active ⊆ s.active) (callers : s'.callers = s.callers)
    (booted : s'.booted = s.booted) : Room conf (s'.goto c pc) 0 := by
  intro P adding
  have rest : ∀ d ∈ P.erase c, adds (s.callers d) = true := by
    intro d here
    obtain ⟨other, here⟩ := Finset.mem_erase.mp here
    have adds_d := adding d here
    rw [goto_callers, if_neg other, callers] at adds_d
    exact adds_d
  have before := room _ rest
  have size : P.card - 1 ≤ (P.erase c).card := Finset.pred_card_le_card_erase
  have less : (s'.goto c pc).activeCount ≤ s.activeCount := Finset.card_le_card fewer
  change (s'.goto c pc).activeCount + P.card + (conf.workers - s'.booted) + 0 ≤ conf.ceiling
  rw [booted]
  omega

theorem supervise_count (s : Pool) (w : Nat) : (s.supervise w).activeCount ≤ s.activeCount + 1 := by
  have entered : (s.supervise w).active ⊆ insert w s.active := by
    intro v here
    simp only [Pool.active, Pool.supervise, Pool.sup, Finset.mem_sdiff, Finset.mem_insert] at here ⊢
    tauto
  exact (Finset.card_le_card entered).trans (Finset.card_insert_le _ _)

theorem room_supervise {conf : Config} {s : Pool} {c new : Nat} {pc : Caller} (room : Room conf s 0)
    (before : adds (s.callers c) = true) (after : adds pc = false) :
    Room conf ((s.supervise new).goto c pc) 0 := by
  intro P adding
  have adding' : ∀ d ∈ P, d ≠ c ∧ adds (s.callers d) = true := by
    intro d here
    have adds_d := adding d here
    rw [goto_callers] at adds_d
    split at adds_d
    · rw [after] at adds_d
      cases adds_d
    · next other => exact ⟨other, adds_d⟩
  have with_c := room (insert c P) (by
    intro d here
    rcases Finset.mem_insert.mp here with rfl | here
    · exact before
    · exact (adding' d here).2)
  rw [Finset.card_insert_of_notMem fun here => (adding' c here).1 rfl] at with_c
  have size := supervise_count s new
  change (s.supervise new).activeCount + P.card + (conf.workers - s.booted) + 0 ≤ _
  omega

/-- A worker is replaced: its own place goes to the replacement, or there is another one. -/
theorem room_replace {conf : Config} {s : Pool} {c w : Nat} {pc : Caller} (room : Room conf s 0)
    (place : w ∉ s.active → Room conf s 1) :
    Room conf ({ s with replaced := insert w s.replaced }.goto c pc) 0 := by
  have fewer : ({ s with replaced := insert w s.replaced } : Pool).active ⊆ s.active.erase w := by
    intro v here
    simp only [Pool.active, Finset.mem_sdiff, Finset.mem_union, Finset.mem_insert,
      Finset.mem_erase] at here ⊢
    tauto
  by_cases counts : w ∈ s.active
  · have less : ({ s with replaced := insert w s.replaced } : Pool).activeCount + 1 ≤ s.activeCount := by
      have size := Finset.card_le_card fewer
      have positive := Finset.card_pos.mpr ⟨w, counts⟩
      rw [Finset.card_erase_of_mem counts] at size
      unfold Pool.activeCount
      omega
    refine room_add (s := { s with replaced := insert w s.replaced }) ?_ (Finset.Subset.refl _) rfl rfl
    intro P adding
    have before := room P adding
    change _ + P.card + (conf.workers - s.booted) + 1 ≤ _
    omega
  · exact room_add (place counts) (fewer.trans (Finset.erase_subset _ _)) rfl rfl

theorem goto_adds {s s' : Pool} {c : Nat} {pc : Caller} (callers : s'.callers = s.callers)
    (only : adds pc = true → adds (s.callers c) = true) (d : Nat)
    (adding : adds ((s'.goto c pc).callers d) = true) : adds (s.callers d) = true := by
  rw [goto_callers, callers] at adding
  split at adding
  · next same =>
    subst same
    exact only adding
  · exact adding

structure CeilingInv (conf : Config) (s : Pool) : Prop where
  room : Room conf s 0
  started : ∀ c, s.callers c ≠ .idle → s.booted = conf.workers

theorem started_goto {conf : Config} {s s' : Pool} {c : Nat} {pc : Caller} (inv : CeilingInv conf s)
    (busy : s.callers c ≠ .idle) (booted : s'.booted = s.booted) :
    ∀ d, (s'.goto c pc).callers d ≠ .idle → (s'.goto c pc).booted = conf.workers :=
  fun _ _ => booted.trans (inv.started c busy)

theorem turn_ceiling {conf : Config} {s : Pool} {scaler c : Nat} {e : Event} {pc : Caller}
    (inv : CeilingInv conf s) (scaled : ractorScaled scaler e = true) (roomy : Roomy conf s e)
    (turn : Turn conf s c e pc) : CeilingInv conf (s.goto c pc) := by
  have plain : adds pc = false → Room conf (s.goto c pc) 0 := by
    intro none
    refine room_keep inv.room (Finset.Subset.refl _) (goto_adds rfl ?_) rfl
    rw [none]
    intro absurd
    cases absurd
  cases turn with
  | call op booted at_pc =>
    refine ⟨plain ?_, fun _ _ => booted⟩
    cases op with
    | grow => cases scaled
    | scaleUp | retire | replace => rfl
  | grow at_pc room =>
    refine ⟨?_, started_goto inv (by simp [at_pc]) rfl⟩
    have started := inv.started c (by simp [at_pc])
    refine room_add ?_ (Finset.Subset.refl _) rfl rfl
    by_cases other : ∃ d, adds (s.callers d) = true
    · obtain ⟨d, adding⟩ := other
      exact roomy.growing c d rfl at_pc room adding
    · intro P adding
      have nobody : P = ∅ := Finset.eq_empty_of_forall_notMem fun d here => other ⟨d, adding d here⟩
      rw [nobody, Finset.card_empty]
      omega
  | full at_pc | refused w at_pc | again w at_pc | read w at_pc =>
    exact ⟨plain rfl, started_goto inv (by simp [at_pc]) rfl⟩
  | marked at_pc =>
    refine ⟨plain rfl, started_goto inv ?_ rfl⟩
    rcases at_pc with at_pc | at_pc <;> simp [at_pc]
  | looked id at_pc =>
    refine ⟨plain ?_, started_goto inv (by simp [at_pc]) rfl⟩
    cases s.slotToWorker id <;> rfl

theorem move_ceiling {conf : Config} {s s' : Pool} {scaler : Nat} {e : Event}
    (inv : CeilingInv conf s) (scaled : ractorScaled scaler e = true) (roomy : Roomy conf s e)
    (move : Move conf s e s') : CeilingInv conf s' := by
  cases move with
  | boot more =>
    have nobody : ∀ c, s.callers c = .idle := by
      intro c
      by_contra busy
      exact absurd (inv.started c busy) more.ne
    refine ⟨?_, fun c busy => absurd (nobody c) busy⟩
    intro P adding
    have before := inv.room P adding
    have size := supervise_count s s.booted
    change (s.supervise s.booted).activeCount + P.card + (conf.workers - (s.booted + 1)) + 0 ≤ _
    omega
  | claimOn | claimed | abort | release | assign | joined | crash | endLoop | handle | checkout =>
    exact ⟨inv.room, inv.started⟩
  | respawn w at_pc =>
    refine ⟨?_, inv.started⟩
    by_cases back : w ∈ s.live ∧ w ∈ s.retiring ∧ w ∉ s.replaced
    · obtain ⟨alive, told, kept⟩ := back
      refine room_enter (w := w) (roomy.respawning w rfl at_pc alive told kept) ?_ rfl rfl
      intro v here
      simp only [Pool.active, Pool.sup, Finset.mem_sdiff, Finset.mem_union, Finset.mem_erase,
        Finset.mem_insert] at here ⊢
      tauto
    · refine room_keep inv.room ?_ (fun _ adding => adding) rfl
      intro v here
      simp only [Pool.active, Pool.sup, Finset.mem_sdiff, Finset.mem_union, Finset.mem_erase] at here ⊢
      by_cases same : v = w
      · subst same
        tauto
      · tauto
  | leave w ids at_pc | quit w ids at_pc =>
    refine ⟨room_keep inv.room ?_ (fun _ adding => adding) rfl, inv.started⟩
    intro v here
    simp only [Pool.active, Pool.sup, Finset.mem_sdiff, Finset.mem_union, Finset.mem_erase] at here ⊢
    tauto
  | turn c e pc turn => exact turn_ceiling inv scaled roomy turn
  | number c old at_pc =>
    refine ⟨room_keep inv.room (Finset.Subset.refl _) (goto_adds rfl ?_) rfl,
      started_goto inv (by simp [at_pc]) rfl⟩
    rw [at_pc]
    exact fun _ => rfl
  | supervise c new old at_pc =>
    refine ⟨room_supervise inv.room (by rw [at_pc]; rfl) ?_, started_goto inv (by simp [at_pc]) rfl⟩
    cases old <;> rfl
  | retire c w at_pc =>
    refine ⟨room_keep inv.room ?_ (goto_adds rfl ?_) rfl, started_goto inv (by simp [at_pc]) rfl⟩
    · intro v here
      simp only [Pool.active, Pool.goto, Finset.mem_sdiff, Finset.mem_union, Finset.mem_insert] at here ⊢
      tauto
    · cases s.workerSlots w <;> simp [adds]
  | markRetired c i left at_pc | markQuarantined c i left at_pc =>
    exact ⟨room_keep inv.room (Finset.Subset.refl _) (goto_adds rfl (by simp [adds])) rfl,
      started_goto inv (by simp [at_pc]) rfl⟩
  | replace c w at_pc first =>
    exact ⟨room_replace inv.room (roomy.replacing c w rfl at_pc first),
      started_goto inv (by simp [at_pc]) rfl⟩

theorem initial_ceiling {conf : Config} (floor : conf.workers ≤ conf.ceiling) :
    CeilingInv conf (initial conf) := by
  refine ⟨?_, by simp [initial]⟩
  intro P adding
  have nobody : P = ∅ := Finset.eq_empty_of_forall_notMem fun d here => by cases adding d here
  rw [nobody]
  simpa [initial, Pool.activeCount, Pool.active] using floor

theorem ractor_ceiling {conf : Config} {scaler : Nat} (floor : conf.workers ≤ conf.ceiling) {s : Pool}
    (reached : ReachableBy (system conf) (fun s e => ractorScaled scaler e = true ∧ Roomy conf s e) s) :
    CeilingInv conf s := by
  refine invariant (CeilingInv conf) ?_ ?_ reached
  · rintro s rfl
    exact initial_ceiling floor
  · intro s t e inv allowed moved
    exact move_ceiling inv allowed.1 allowed.2 (step_move moved)

end Ractor

section Threaded
open KinoThreadedPool KinoThreadedSlots

def threadedScaled (scaler : Nat) : Event → Bool
  | .call _ .grow => false
  | .call c .scaleUp => c = scaler
  | _ => true

def more : After → Nat
  | .start n => n
  | _ => 0

def pending : Caller → Nat
  | .reaping grow | .releasing _ grow => if grow then 1 else 0
  | .spawning _ replacement after => (if replacement then 0 else 1) + more after
  | .claiming _ _ _ after | .adding _ _ _ after | .threading _ _ _ after
  | .listing _ _ _ after => more after
  | _ => 0

/-- Only the scaler and `start` add groups, and `start` runs alone. -/
structure ScaleInv (conf : Config) (scaler : Nat) (s : Pool) : Prop where
  adders : ∀ c, c ≠ scaler → 0 < pending (s.callers c) → starting (s.callers c) = true
  starter : ∀ c, starting (s.callers c) = true → c = 0 ∧ ∀ d, d ≠ 0 → s.callers d = .idle
  checker : ∀ c, s.callers c = .checking → c = scaler ∧ starting (s.callers 0) = false
  room : ∀ c, s.activeCount + pending (s.callers c) ≤ conf.ceiling

theorem pending_alone {conf : Config} {scaler c d : Nat} {s : Pool} (inv : ScaleInv conf scaler s)
    (adding : 0 < pending (s.callers c)) (other : d ≠ c) : pending (s.callers d) = 0 := by
  by_contra also
  have alone : ∀ a b, a ≠ b → starting (s.callers a) = true → s.callers b = .idle := by
    intro a b apart start
    obtain ⟨rfl, idle⟩ := inv.starter a start
    exact idle b (Ne.symm apart)
  by_cases first : c = scaler
  · have start := inv.adders d (by omega) (by omega)
    rw [alone d c other start] at adding
    cases adding
  · have start := inv.adders c first adding
    rw [alone c d (Ne.symm other) start] at also
    exact also rfl

theorem scale_goto {conf : Config} {scaler c : Nat} {s s' : Pool} {pc : Caller}
    (inv : ScaleInv conf scaler s) (callers : s'.callers = s.callers)
    (busy : s.callers c ≠ .idle ∨ starting (s.callers 0) = false)
    (start : starting pc = true → starting (s.callers c) = true)
    (adder : starting pc = false → 0 < pending pc → c = scaler)
    (check : pc = .checking → c = scaler ∧ starting (s.callers 0) = false)
    (others : ∀ d, d ≠ c → s'.activeCount + pending (s.callers d) ≤ conf.ceiling)
    (room : s'.activeCount + pending pc ≤ conf.ceiling) : ScaleInv conf scaler (s'.goto c pc) := by
  have callers' : ∀ d, (s'.goto c pc).callers d = if d = c then pc else s.callers d := by
    intro d
    rw [goto_callers, callers]
  constructor
  · intro d other adding
    rw [callers'] at adding ⊢
    split at adding
    · next same =>
      subst same
      rw [if_pos rfl]
      by_contra plain
      exact other (adder (by simpa using plain) adding)
    · next away =>
      rw [if_neg away]
      exact inv.adders d other adding
  · intro d started
    rw [callers'] at started
    have was : starting (s.callers d) = true := by
      split at started
      · next same =>
        subst same
        exact start started
      · exact started
    obtain ⟨rfl, idle⟩ := inv.starter d was
    refine ⟨rfl, fun e other => ?_⟩
    rw [callers']
    split
    · next same =>
      subst same
      rcases busy with busy | over_
      · exact absurd (idle e other) busy
      · rw [was] at over_
        cases over_
    · exact idle e other
  · intro d at_check
    rw [callers'] at at_check
    have scales : d = scaler ∧ starting (s.callers 0) = false := by
      split at at_check
      · next same =>
        subst same
        exact check at_check
      · exact inv.checker d at_check
    refine ⟨scales.1, ?_⟩
    rw [callers']
    split
    · next here =>
      subst here
      by_contra started
      rw [start (by simpa using started)] at scales
      cases scales.2
    · exact scales.2
  · intro d
    change s'.activeCount + pending ((s'.goto c pc).callers d) ≤ conf.ceiling
    rw [callers']
    split
    · exact room
    · next away => exact others d away

theorem scale_keep {conf : Config} {scaler c : Nat} {s s' : Pool} {pc : Caller}
    (inv : ScaleInv conf scaler s) (callers : s'.callers = s.callers) (busy : s.callers c ≠ .idle)
    (fewer : s'.active ⊆ s.active)
    (start : starting pc = true → starting (s.callers c) = true)
    (less : pending pc ≤ pending (s.callers c)) (check : pc ≠ .checking)
    (plain : starting pc = false → 0 < pending pc → starting (s.callers c) = false) :
    ScaleInv conf scaler (s'.goto c pc) := by
  have size : s'.activeCount ≤ s.activeCount := Finset.card_le_card fewer
  refine scale_goto inv callers (.inl busy) start ?_ (fun same => absurd same check) ?_ ?_
  · intro unstarted adding
    by_contra other
    have started := inv.adders c other (by omega)
    rw [plain unstarted adding] at started
    cases started
  · intro d _
    have before := inv.room d
    omega
  · have before := inv.room c
    omega

theorem resume_pending (threads : Nat) (after : After) : pending (after.resume threads) = more after := by
  cases after with
  | start n => cases n <;> simp [After.resume, pending, more, Nat.add_comm]
  | done | mark => rfl

theorem resume_starting {threads : Nat} {after : After} (started : starting (after.resume threads) = true) :
    after.starts = true := by
  cases after with
  | start n => rfl
  | done | mark => cases started

theorem nextSlot_pending (threads g n : Nat) (after : After) :
    pending (nextSlot threads g n after) = more after := by
  unfold nextSlot
  split
  · exact resume_pending threads after
  · rfl

theorem nextSlot_starting {threads g n : Nat} {after : After}
    (started : starting (nextSlot threads g n after) = true) : after.starts = true := by
  unfold nextSlot at started
  split at started
  · exact resume_starting started
  · exact started

theorem resume_more {threads : Nat} {after : After} (left : 0 < more after) :
    starting (after.resume threads) = true := by
  cases after with
  | done | mark => cases left
  | start k =>
    cases k with
    | zero => cases left
    | succ k => rfl

theorem nextSlot_more {threads g n : Nat} {after : After} (left : 0 < more after) :
    starting (nextSlot threads g n after) = true := by
  unfold nextSlot
  split
  · exact resume_more left
  · cases after with
    | start k => rfl
    | done | mark => cases left

theorem nextSlot_check (threads g n : Nat) (after : After) : nextSlot threads g n after ≠ .checking := by
  unfold nextSlot
  split
  · cases after with
    | start k => cases k <;> simp [After.resume]
    | done | mark => simp [After.resume]
  · simp

theorem turn_scale {conf : Config} {scaler c : Nat} {s : Pool} {e : Event} {pc : Caller}
    (inv : ScaleInv conf scaler s) (scaled : threadedScaled scaler e = true) (turn : Turn conf s c e pc) :
    ScaleInv conf scaler (s.goto c pc) := by
  cases turn with
  | call op started at_pc =>
    have nothing : pending op.entry = 0 ∧ starting op.entry = false := by
      cases op with
      | grow => cases scaled
      | groups | scaleUp | retire | replace => exact ⟨rfl, rfl⟩
    refine scale_goto inv rfl (.inr started) ?_ ?_ ?_ (fun d _ => inv.room d) ?_
    · rw [nothing.2]
      intro absurd
      cases absurd
    · rw [nothing.1]
      intro _ absurd
      cases absurd
    · intro check
      refine ⟨?_, started⟩
      cases op with
      | scaleUp => simpa [threadedScaled] using scaled
      | grow | groups | retire | replace => cases check
    · rw [nothing.1]
      have before := inv.room c
      omega
  | grow at_pc room =>
    exact scale_goto inv rfl (.inl (by simp [at_pc])) (by simp [starting])
      (fun _ _ => (inv.checker c at_pc).1) (by simp) (fun d _ => inv.room d) (by simpa [pending] using room)
  | full at_pc | refused g at_pc | marked g k at_pc =>
    exact scale_keep inv rfl (by simp [at_pc]) (Finset.Subset.refl _) (by simp [starting])
      (by simp [pending]) (by simp) (by simp [pending])

theorem reap_active (s : Pool) : s.reap.active ⊆ s.active := by
  intro g here
  simp only [Pool.active, Pool.reap, Finset.mem_filter, List.mem_filter, decide_eq_true_eq] at here ⊢
  tauto

theorem reapedThen_pending (threads : Nat) (grow : Bool) :
    pending (reapedThen threads grow) = if grow then 1 else 0 := by
  cases grow <;> rfl

theorem reapedThen_starting (threads : Nat) (grow : Bool) : starting (reapedThen threads grow) = false := by
  cases grow <;> rfl

theorem scale_reaped {conf : Config} {scaler c : Nat} {s s' : Pool} {grow : Bool}
    (inv : ScaleInv conf scaler s) (callers : s'.callers = s.callers) (fewer : s'.active ⊆ s.active)
    (at_pc : s.callers c = .reaping grow ∨ ∃ freed, s.callers c = .releasing freed grow) :
    ScaleInv conf scaler (s'.goto c (reapedThen conf.threads grow)) := by
  have before : s.callers c ≠ .idle ∧ pending (s.callers c) = (if grow then 1 else 0) ∧
      starting (s.callers c) = false := by
    rcases at_pc with at_pc | ⟨freed, at_pc⟩ <;> simp [at_pc, pending, starting]
  refine scale_keep inv callers before.1 fewer ?_ ?_ ?_ (fun _ _ => before.2.2)
  · rw [reapedThen_starting]
    intro absurd
    cases absurd
  · rw [reapedThen_pending, before.2.1]
  · cases grow <;> simp [reapedThen]

theorem move_scale {conf : Config} {scaler : Nat} {s s' : Pool} {e : Event}
    (inv : ScaleInv conf scaler s) (scaled : threadedScaled scaler e = true) (move : Move conf s e s') :
    ScaleInv conf scaler s' := by
  cases move with
  | finish | die | handle | checkout => exact ⟨inv.adders, inv.starter, inv.checker, inv.room⟩
  | turn c e pc turn => exact turn_scale inv scaled turn
  | reapNone c grow at_pc => exact scale_reaped inv rfl (reap_active s) (.inl at_pc)
  | release c freed grow at_pc =>
    exact scale_reaped inv rfl (Finset.Subset.refl _) (.inr ⟨freed, at_pc⟩)
  | reap c grow at_pc =>
    exact scale_keep inv rfl (by simp [at_pc]) (reap_active s) (by simp [starting])
      (by simp [at_pc, pending]) (by simp) (by simp [at_pc, starting])
  | openGroup c n replacement after at_pc =>
    have was : pending (s.callers c) = (if replacement then 0 else 1) + more after := by
      simp [at_pc, pending]
    have start : starting (nextSlot conf.threads s.nextIndex n after) = true →
        starting (s.callers c) = true := by
      intro started
      rw [at_pc]
      exact nextSlot_starting started
    have alone : starting (nextSlot conf.threads s.nextIndex n after) = false →
        ¬0 < pending (nextSlot conf.threads s.nextIndex n after) := by
      rw [nextSlot_pending]
      intro unstarted left
      rw [nextSlot_more left] at unstarted
      cases unstarted
    cases replacement with
    | true =>
      refine scale_keep inv rfl (by simp [at_pc]) ?_ start ?_ (nextSlot_check _ _ _ _)
        fun unstarted adding => absurd adding (alone unstarted)
      · intro g here
        simp only [Pool.active, Pool.openGroup, Finset.mem_filter, Finset.mem_insert, if_true] at here ⊢
        tauto
      · rw [nextSlot_pending, was]
        simp
    | false =>
      have entered : (s.openGroup false).active ⊆ insert s.nextIndex s.active := by
        intro g here
        simp only [Pool.active, Pool.openGroup, Bool.false_eq_true, if_false, Finset.mem_filter,
          Finset.mem_insert] at here ⊢
        tauto
      have size : (s.openGroup false).activeCount ≤ s.activeCount + 1 :=
        (Finset.card_le_card entered).trans (Finset.card_insert_le _ _)
      have room := inv.room c
      simp only [Bool.false_eq_true, if_false] at was
      refine scale_goto inv rfl (.inl (by simp [at_pc])) start
        (fun unstarted adding => absurd adding (alone unstarted))
        (fun check => absurd check (nextSlot_check _ _ _ _)) ?_ ?_
      · intro d other
        rw [pending_alone inv (by omega) other]
        omega
      · rw [nextSlot_pending]
        omega
  | claimOn c g n pc pc' b after at_pc | claimed c g n i pc b after at_pc =>
    refine scale_keep inv rfl (by simp [at_pc]) (Finset.Subset.refl _) (by simp [at_pc, starting])
      (by simp [at_pc, pending]) (by simp) ?_
    intro unstarted _
    rw [at_pc]
    exact unstarted
  | addSlot c g n i after at_pc | spawn c g n i after at_pc =>
    refine scale_keep inv rfl (by simp [at_pc]) (Finset.Subset.refl _) (by simp [at_pc, starting])
      (by simp [at_pc, pending]) (by simp) ?_
    intro unstarted _
    rw [at_pc]
    exact unstarted
  | list c g n t after at_pc =>
    refine scale_keep inv rfl (by simp [at_pc]) (Finset.Subset.refl _) ?_ ?_ (nextSlot_check _ _ _ _) ?_
    · intro started
      rw [at_pc]
      exact nextSlot_starting started
    · rw [nextSlot_pending, at_pc]
      exact le_refl _
    · rw [nextSlot_pending]
      intro unstarted left
      rw [nextSlot_more left] at unstarted
      cases unstarted
  | retire c g at_pc =>
    refine scale_keep inv rfl (by simp [at_pc]) ?_ (by simp [starting]) (by simp [pending]) (by simp)
      (by simp [pending])
    intro h here
    simp only [Pool.active, Finset.mem_filter, List.mem_append] at here ⊢
    tauto
  | markRetired c g k i at_pc =>
    exact scale_keep inv rfl (by simp [at_pc]) (Finset.Subset.refl _) (by simp [starting])
      (by simp [pending]) (by simp) (by simp [pending])
  | markQuarantined c id at_pc =>
    exact scale_keep inv rfl (by simp [at_pc]) (Finset.Subset.refl _) (by simp [starting])
      (by simp [pending]) (by simp) (by simp [pending])
  | wedge c id wedged at_pc =>
    exact scale_keep inv rfl (by simp [at_pc]) (Finset.Subset.refl _) (by simp [starting])
      (by simp [pending]) (by simp) (by simp [pending])

theorem initial_scale {conf : Config} (scaler : Nat) (floor : conf.workers ≤ conf.ceiling) :
    ScaleInv conf scaler (initial conf) := by
  have rest : ∀ c, c ≠ 0 → (initial conf).callers c = .idle := by
    intro c other
    simp [initial, other]
  have first : (initial conf).callers 0 = (After.start conf.workers).resume conf.threads := by
    simp [initial]
  have only : ∀ c, (initial conf).callers c ≠ .idle → c = 0 := by
    intro c busy
    by_contra other
    exact busy (rest c other)
  have checks : ∀ c, (initial conf).callers c ≠ .checking := by
    intro c at_check
    have here := only c (by simp [at_check])
    rw [here, first] at at_check
    cases workers : conf.workers <;> simp [workers, After.resume] at at_check
  constructor
  · intro c _ adding
    have here := only c fun idle => by simp [idle, pending] at adding
    rw [here, first, resume_pending] at adding
    rw [here, first]
    exact resume_more adding
  · intro c started
    exact ⟨only c fun idle => by simp [idle, starting] at started, rest⟩
  · intro c at_check
    exact absurd at_check (checks c)
  · intro c
    have nobody : (initial conf).activeCount = 0 := by simp [initial, Pool.activeCount, Pool.active]
    by_cases here : c = 0
    · rw [here, first, resume_pending, nobody]
      simpa [more] using floor
    · rw [rest c here, nobody]
      exact Nat.zero_le _

theorem threaded_scale {conf : Config} {scaler : Nat} (floor : conf.workers ≤ conf.ceiling) {s : Pool}
    (reached : ReachableBy (system conf) (fun _ e => threadedScaled scaler e = true) s) :
    ScaleInv conf scaler s := by
  refine invariant (ScaleInv conf scaler) ?_ ?_ reached
  · rintro s rfl
    exact initial_scale scaler floor
  · intro s t e inv scaled moved
    exact move_scale inv scaled (step_move moved)

end Threaded

/-- When no operation is in progress the active workers are within the ceiling: in every run
    of the ractor pool whose replacements, respawns and decisions to grow find place, and in
    every run of the threaded pool. -/
theorem active_within_ceiling (conf : Config) (scaler : Nat) (floor : conf.workers ≤ conf.ceiling) :
    (∀ s, ReachableBy (KinoRactorPool.system conf)
        (fun s e => ractorScaled scaler e = true ∧ Roomy conf s e) s →
      s.Quiet conf → s.activeCount ≤ conf.ceiling) ∧
    ∀ s, ReachableBy (KinoThreadedPool.system conf) (fun _ e => threadedScaled scaler e = true) s →
      s.Quiet → s.activeCount ≤ conf.ceiling := by
  constructor
  · intro s reached _
    have room := (ractor_ceiling floor reached).room ∅ (by simp)
    omega
  · intro s reached _
    have room := (threaded_scale floor reached).room 0
    omega

def calm (s : KinoRactorPool.Pool) : KinoRactorPool.Event → Bool
  | .sup w => s.sups w ≠ .aborting []
  | .caller c =>
    match s.callers c with
    | .replacing _ | .checking => false
    | _ => true
  | _ => true

theorem calm_roomy {conf : Config} {s : KinoRactorPool.Pool} {e : KinoRactorPool.Event}
    (still : calm s e = true) : Roomy conf s e := by
  constructor
  · rintro c w rfl at_pc
    simp [calm, at_pc] at still
  · rintro w rfl at_pc
    simp [calm, at_pc] at still
  · rintro c d rfl at_pc
    simp [calm, at_pc] at still

theorem ractor_pool_grows :
    ∃ s, ReachableBy (KinoRactorPool.system ⟨1, 1, false, 2⟩)
        (fun s e => ractorScaled 0 e = true ∧ Roomy ⟨1, 1, false, 2⟩ s e) s ∧
      s.Quiet ⟨1, 1, false, 2⟩ ∧ s.activeCount = 2 := by
  have sound : ∀ (s : KinoRactorPool.Pool) e, (ractorScaled 0 e && calm s e) = true →
      ractorScaled 0 e = true ∧ Roomy ⟨1, 1, false, 2⟩ s e := by
    intro s e passed
    obtain ⟨scaled, still⟩ := Bool.and_eq_true_iff.mp passed
    exact ⟨scaled, calm_roomy still⟩
  have asked : runBy (KinoRactorPool.system ⟨1, 1, false, 2⟩)
      (fun s e => ractorScaled 0 e && calm s e) (KinoRactorPool.initial ⟨1, 1, false, 2⟩)
      ([KinoRactorPool.Event.boot] ++ List.replicate 3 (.sup 0) ++ [.call 0 .scaleUp]) = some _ := rfl
  have decided := (reachable_runBy sound (.start rfl) asked).next (l := .caller 0) ⟨rfl, ?_⟩ rfl
  · refine ⟨?grown, reachable_runBy sound decided (?ran : runBy _ _ _
      (List.replicate 2 (KinoRactorPool.Event.caller 0) ++ List.replicate 3 (.sup 1)) = some ?grown),
      ⟨?_, ?_, ?_⟩, ?_⟩
    case ran => exact rfl
    · rfl
    · intro c
      match c with
      | 0 => rfl
      | c + 1 => rfl
    · intro w
      match w with
      | 0 | 1 => exact .inr (.inr ⟨_, rfl⟩)
      | w + 2 => exact .inl rfl
    · rfl
  · -- nobody else adds a worker when the scaler decides
    refine ⟨?_, ?_, ?_⟩
    · intro c w same at_pc
      cases same
      cases at_pc
    · rintro w ⟨⟩
    · intro c d _ _ _ adding
      match d with
      | 0 => cases adding
      | d + 1 => cases adding

theorem threaded_pool_grows :
    ∃ s, ReachableBy (KinoThreadedPool.system ⟨1, 1, false, 2⟩)
        (fun _ e => threadedScaled 0 e = true) s ∧
      s.Quiet ∧ s.activeCount = 2 := by
  have ran : runBy (KinoThreadedPool.system ⟨1, 1, false, 2⟩) (fun _ e => threadedScaled 0 e)
      (KinoThreadedPool.initial ⟨1, 1, false, 2⟩)
      (List.replicate 6 (KinoThreadedPool.Event.caller 0) ++ [.call 0 .scaleUp] ++
        List.replicate 8 (.caller 0)) = some _ := rfl
  refine ⟨_, reachable_runBy (fun _ _ passed => passed) (.start rfl) ran, ?_, rfl⟩
  intro c
  match c with
  | 0 => rfl
  | c + 1 => rfl

/-- Both pools grow from one worker to two. -/
theorem pools_grow_to_ceiling :
    (∃ s, ReachableBy (KinoRactorPool.system ⟨1, 1, false, 2⟩)
        (fun s e => ractorScaled 0 e = true ∧ Roomy ⟨1, 1, false, 2⟩ s e) s ∧
      s.Quiet ⟨1, 1, false, 2⟩ ∧ s.activeCount = 2 ∧ s.activeCount ≤ 2) ∧
    ∃ s, ReachableBy (KinoThreadedPool.system ⟨1, 1, false, 2⟩)
        (fun _ e => threadedScaled 0 e = true) s ∧
      s.Quiet ∧ s.activeCount = 2 ∧ s.activeCount ≤ 2 := by
  have within := active_within_ceiling ⟨1, 1, false, 2⟩ 0 (by decide)
  constructor
  · obtain ⟨s, reached, quiet, grown⟩ := ractor_pool_grows
    exact ⟨s, reached, quiet, grown, within.1 s reached quiet⟩
  · obtain ⟨s, reached, quiet, grown⟩ := threaded_pool_grows
    exact ⟨s, reached, quiet, grown, within.2 s reached quiet⟩

/-- The pool grows to its ceiling of two; one worker is told to leave and a third comes; the
    leaving worker crashes, and its respawn stays. -/
def leaverCrashes : List KinoRactorPool.Event :=
  [KinoRactorPool.Event.boot] ++ List.replicate 3 (KinoRactorPool.Event.sup 0) ++
    [KinoRactorPool.Event.call 0 .scaleUp] ++ List.replicate 3 (KinoRactorPool.Event.caller 0) ++
    List.replicate 3 (KinoRactorPool.Event.sup 1) ++ [KinoRactorPool.Event.call 0 (.retire 1)] ++
    List.replicate 3 (KinoRactorPool.Event.caller 0) ++ [KinoRactorPool.Event.call 0 .scaleUp] ++
    List.replicate 3 (KinoRactorPool.Event.caller 0) ++
    List.replicate 3 (KinoRactorPool.Event.sup 2) ++ [KinoRactorPool.Event.die 1] ++
    List.replicate 6 (KinoRactorPool.Event.sup 1)

theorem respawn_passes_ceiling :
    ¬∀ s, ReachableBy (KinoRactorPool.system ⟨1, 1, false, 2⟩)
        (fun _ e => ractorScaled 0 e = true) s →
      s.Quiet ⟨1, 1, false, 2⟩ → s.activeCount ≤ 2 := by
  intro within
  have ran : runBy (KinoRactorPool.system ⟨1, 1, false, 2⟩) (fun _ e => ractorScaled 0 e)
      (KinoRactorPool.initial ⟨1, 1, false, 2⟩) leaverCrashes = some _ := rfl
  have count := within _ (reachable_runBy (fun _ _ passed => passed) (.start rfl) ran) ⟨rfl, ?_, ?_⟩
  · exact absurd count (by decide)
  · intro c
    match c with
    | 0 => rfl
    | c + 1 => rfl
  · intro w
    match w with
    | 0 | 1 | 2 => exact .inr (.inr ⟨_, rfl⟩)
    | w + 3 => exact .inl rfl

end KinoActiveCount
