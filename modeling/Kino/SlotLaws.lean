import Kino.RactorSlots
import Kino.ThreadedSlots

/-!
What `SlotBank#claim` hands out, in either pool: a slot that is fresh and in no other hands,
and one whose quarantine mark is not set.
-/
namespace KinoSlotLaws
open Transitions Ownership KinoSlotBank

section Ractor
open KinoRactorPool KinoRactorSlots

/-- Each slot is with one worker, in the free list once, or abandoned for good; a claim
    hands out a fresh slot on which no loop runs. -/
structure RactorSlotLaw (conf : Config) (s : Pool) : Prop where
  placed : ∀ i, i < s.bank.count → ∃ p, ExactlyAt (contents s) i p
  handed : ∀ w got pc b i, s.sups w = .claiming got pc → claim conf.lanes s.bank pc = (b, .handed i) →
    s.loops i ≠ .running ∧ i ∉ s.abandoned ∧ Fresh conf.lanes (b.slots i)
  lost : ∀ e s', step conf s e = some s' → ∀ i ∈ s.abandoned, i ∈ s'.abandoned

theorem abandoned_stays {conf : Config} {s s' : Pool} {e : Event} (move : Move conf s e s') {i : Nat}
    (lost : i ∈ s.abandoned) : i ∈ s'.abandoned := by
  cases move with
  | crash | quit => exact List.mem_append_left _ lost
  | _ => exact lost

theorem ractor_law {conf : Config} {s : Pool} (inv : OwnInv conf s) : RactorSlotLaw conf s := by
  refine ⟨fun i inside => housed_exactly inv.housed inside, ?_,
    fun e s' moved i lost => abandoned_stays (step_move moved) lost⟩
  intro w got pc b i at_pc result
  have claimed := claim_move conf.lanes s.bank pc
  rw [result] at claimed
  cases claimed with
  | reset i =>
    have here : i ∈ contents s (.worker w) := by simp [contents, at_pc, listed, popped]
    have kept : i ∉ s.abandoned := by
      intro lost
      have same : Place.worker w = .abandoned := housed_apart inv.housed here lost
      cases same
    refine ⟨?_, kept, ?_⟩
    · apply idle_slot inv here
      intro v ids same at_v
      cases same
      rw [at_pc] at at_v
      cases at_v
    · refine claim_fresh (.reset i) ?_
      intro j same
      cases same
      exact inv.lanes.lanes i (housed_lt inv.housed here) kept
  | register =>
    have outside : ∀ p, s.bank.count ∉ contents s p := by
      intro p here
      exact lt_irrefl _ (housed_lt inv.housed here)
    refine ⟨?_, outside .abandoned, claim_fresh .register (by simp)⟩
    intro alive
    obtain ⟨v, ids, at_v, here⟩ := inv.loops _ alive
    exact outside (.worker v) (by simpa [contents, at_v, listed] using here)

end Ractor

section Threaded
open KinoThreadedPool KinoThreadedSlots

/-- Each slot is in the free list once, in one group, or in one caller's hand; a slot whose
    thread runs, or ended without having left a retired slot, stays in its group; a claim
    hands out a fresh slot whose earlier threads all left it retired. -/
structure ThreadedSlotLaw (conf : Config) (s : Pool) : Prop where
  placed : ∀ i, i < s.bank.count → ∃ p, ExactlyAt (contents s) i p
  grouped : ∀ t, t < s.spawned → s.threads t ≠ .left true →
    ∃ g, ExactlyAt (contents s) (s.slotOf t) (.group g)
  handed : ∀ c g n pc after b i, s.callers c = .claiming g n pc after →
    claim conf.lanes s.bank pc = (b, .handed i) →
    (∀ t, t < s.spawned → s.slotOf t = i → s.threads t = .left true) ∧ Fresh conf.lanes (b.slots i)
  lost : ∀ e s', step conf s e = some s' → ∀ t, t < s.spawned → s.threads t ≠ .running →
    s'.threads t = s.threads t ∧ s'.slotOf t = s.slotOf t

theorem ended_stays {conf : Config} {s s' : Pool} {e : Event} (move : Move conf s e s') {t : Nat}
    (made : t < s.spawned) (ended : s.threads t ≠ .running) :
    s'.threads t = s.threads t ∧ s'.slotOf t = s.slotOf t := by
  cases move with
  | finish u alive | die u alive =>
    have other : t ≠ u := by
      intro same
      subst same
      exact ended alive
    simp [Pool.thread, other]
  | spawn c g n i after at_pc =>
    have other : t ≠ s.spawned := by omega
    simp [Pool.goto, Pool.spawnThread, other]
  | _ => exact ⟨rfl, rfl⟩

theorem threaded_law {conf : Config} {s : Pool} (inv : SlotInv conf s) : ThreadedSlotLaw conf s := by
  have grouped : ∀ t, t < s.spawned → s.threads t ≠ .left true →
      ∃ g, s.slotOf t ∈ contents s (.group g) := by
    intro t made busy
    obtain ⟨g, member, here, _⟩ := inv.threads.placed t made busy
    exact ⟨g, by simpa [contents, member] using here⟩
  refine ⟨fun i inside => housed_exactly inv.housed inside, ?_, ?_,
    fun e s' moved t made ended => ended_stays (step_move moved) made ended⟩
  · intro t made busy
    obtain ⟨g, here⟩ := grouped t made busy
    obtain ⟨p, exactly⟩ := housed_exactly inv.housed (housed_lt inv.housed here)
    have there : s.slotOf t ∈ contents s p := List.count_pos_iff.mp (by rw [exactly.1]; omega)
    exact ⟨g, housed_apart inv.housed there here ▸ exactly⟩
  · intro c g n pc after b i at_pc result
    have claimed := claim_move conf.lanes s.bank pc
    rw [result] at claimed
    cases claimed with
    | reset i =>
      have here : i ∈ contents s (.hand c) := by simp [contents, at_pc, inHand, popped]
      constructor
      · rintro t made rfl
        by_contra busy
        obtain ⟨h, there⟩ := grouped t made busy
        have same : Place.hand c = .group h := housed_apart inv.housed here there
        cases same
      · refine claim_fresh (.reset i) ?_
        intro j same
        cases same
        exact inv.lanes i (housed_lt inv.housed here)
    | register =>
      refine ⟨?_, claim_fresh .register (by simp)⟩
      intro t made same
      by_contra busy
      obtain ⟨h, there⟩ := grouped t made busy
      rw [same] at there
      exact lt_irrefl _ (housed_lt inv.housed there)

end Threaded

/-- Slots have one state each in every run of the ractor pool, and in every run of the
    threaded pool that reaps only groups whose threads all left retired slots. -/
theorem slots_have_one_state (conf : Config) :
    (∀ s, Reachable (KinoRactorPool.system conf) s → RactorSlotLaw conf s) ∧
    ∀ s, ReachableBy (KinoThreadedPool.system conf) KinoThreadedSlots.cleanReap s →
      ThreadedSlotLaw conf s :=
  ⟨fun _ reached => ractor_law (KinoRactorSlots.reachable_own_inv reached),
    fun _ reached => threaded_law (KinoThreadedSlots.reachable_slot_inv reached)⟩

section CleanReap
open KinoThreadedPool KinoThreadedSlots

def reapsNothing (s : Pool) : Event → Bool
  | .caller c =>
    match s.callers c with
    | .reaping _ => false
    | _ => true
  | _ => true

theorem reapsNothing_clean (s : Pool) (e : Event) (check : reapsNothing s e = true) :
    cleanReap s e := by
  rintro c grow rfl at_pc
  simp [reapsNothing, at_pc] at check

def leavesThenGrow : List Event :=
  List.replicate 6 (.caller 0) ++ [.call 1 (.retire 0)] ++ List.replicate 3 (.caller 1) ++
    [.finish 0, .call 1 .grow]

/-- The group is reaped, and its slot is claimed again. -/
example : ∃ s, ReachableBy (system ⟨1, 1, false, 2⟩) cleanReap s ∧
    s.callers 1 = .claiming 1 1 (.resetting 0) .done := by
  have ran : ∃ s t u,
      runBy (system ⟨1, 1, false, 2⟩) reapsNothing (initial ⟨1, 1, false, 2⟩) leavesThenGrow = some s ∧
        (system ⟨1, 1, false, 2⟩).step s (.caller 1) = some t ∧
          runBy (system ⟨1, 1, false, 2⟩) reapsNothing t (List.replicate 3 (.caller 1)) = some u ∧
            s.reaped = [0] ∧ (s.group 0).threads = [0] ∧ s.threads 0 = .left true ∧
              s.callers 0 = .idle ∧ s.callers 1 = .reaping true ∧ (∀ c, s.callers (c + 2) = .idle) ∧
                u.callers 1 = .claiming 1 1 (.resetting 0) .done :=
    ⟨_, _, _, rfl, rfl, rfl, rfl, rfl, rfl, rfl, rfl, fun c => rfl, rfl⟩
  obtain ⟨s, t, u, first, reaps, claims, reaped, threads, left, zero, one, others, claiming⟩ := ran
  have clean : cleanReap s (.caller 1) := by
    intro c grow _ _ g here
    rw [reaped, List.mem_singleton] at here
    subst here
    refine ⟨by simp [threads, left], fun c => ?_⟩
    match c with
    | 0 => simp [zero, spawns]
    | 1 => simp [one, spawns]
    | c + 2 => simp [others, spawns]
  have before := reachable_runBy reapsNothing_clean (.start rfl) first
  exact ⟨u, reachable_runBy reapsNothing_clean (before.next clean reaps) claims, claiming⟩

end CleanReap

/-- One group of one thread; the thread crashes, the group is retired and reaped, and the
    next group claims the crashed thread's slot. -/
def crashThenRetire : List KinoThreadedPool.Event :=
  List.replicate 6 (KinoThreadedPool.Event.caller 0) ++
    [KinoThreadedPool.Event.die 0, .call 1 (.retire 0)] ++
    List.replicate 3 (KinoThreadedPool.Event.caller 1) ++ [KinoThreadedPool.Event.call 1 .grow] ++
    List.replicate 4 (KinoThreadedPool.Event.caller 1)

theorem crashed_slot_handed_out :
    ¬∀ s, Reachable (KinoThreadedPool.system ⟨1, 1, false, 2⟩) s →
      ThreadedSlotLaw ⟨1, 1, false, 2⟩ s := by
  intro law
  have ran : run (KinoThreadedPool.system ⟨1, 1, false, 2⟩)
      (KinoThreadedPool.initial ⟨1, 1, false, 2⟩) crashThenRetire = some _ := rfl
  have here := law _ (reachable_run (.start rfl) ran)
  have left := (here.handed 1 1 1 (.resetting 0) .done _ 0 rfl rfl).1 0 (by decide) rfl
  cases left

def Unmarked (b : Bank) (inClaim : Nat → Prop) : Prop :=
  ∀ i, i ∈ b.free ∨ inClaim i → (b.slots i).quarantined = false

theorem unmarked_keep {b b' : Bank} {inClaim inClaim' : Nat → Prop} (inv : Unmarked b inClaim)
    (marks : ∀ i, (b.slots i).quarantined = false → (b'.slots i).quarantined = false)
    (fewer : ∀ i, i ∈ b'.free ∨ inClaim' i → i ∈ b.free ∨ inClaim i) : Unmarked b' inClaim' :=
  fun i here => marks i (inv i (fewer i here))

theorem unmarked_release {b : Bank} {inClaim inClaim' : Nat → Prop} {ids : List Nat}
    (inv : Unmarked b inClaim) (clean : ∀ i ∈ ids, (b.slots i).quarantined = false)
    (fewer : ∀ i, inClaim' i → inClaim i) : Unmarked (b.release ids) inClaim' := by
  rintro i (here | held)
  · rcases List.mem_append.mp here with before | back
    · exact inv i (.inl before)
    · exact clean i back
  · exact inv i (.inr (fewer i held))

theorem unmarked_quarantine {b : Bank} {inClaim inClaim' : Nat → Prop} {i : Nat}
    (inv : Unmarked b inClaim) (outside : i ∉ b.free ∧ ¬inClaim i)
    (fewer : ∀ j, inClaim' j → inClaim j) : Unmarked (b.quarantineSlot i) inClaim' := by
  intro j here
  have before : j ∈ b.free ∨ inClaim j := here.imp_right (fewer j)
  have apart : j ≠ i := by
    intro same
    subst same
    exact before.elim outside.1 outside.2
  have same : ((b.quarantineSlot i).slots j).quarantined = (b.slots j).quarantined := by
    simp [Bank.quarantineSlot, Bank.put, apart]
  rw [same]
  exact inv j before

theorem claim_marks {lanes : Bool} {b b' : Bank} {pc : ClaimPc} {next : Claimed}
    (claimed : ClaimMove lanes b pc b' next) (i : Nat) (unmarked : (b.slots i).quarantined = false) :
    (b'.slots i).quarantined = false := by
  cases claimed with
  | pop | none_free => exact unmarked
  | reset j => exact (put_same PoolSlot.quarantined i (by rfl)).trans unmarked
  | register =>
    by_cases new : i = b.count
    · simp [Bank.registerWorker, Bank.put, PoolSlot.new, new]
    · simpa [Bank.registerWorker, Bank.put, new] using unmarked

theorem claim_unmarked {lanes : Bool} {b b' : Bank} {pc : ClaimPc} {i : Nat} {inClaim : Nat → Prop}
    (inv : Unmarked b inClaim) (held : ∀ j, pc = .resetting j → inClaim j)
    (claimed : ClaimMove lanes b pc b' (.handed i)) : (b'.slots i).quarantined = false := by
  cases claimed with
  | reset i =>
    have reset : ClaimMove lanes b (.resetting i) (b.resetSlot i) (.handed i) := .reset i
    exact claim_marks reset i (inv i (.inr (held i rfl)))
  | register => simp [Bank.registerWorker, Bank.put, PoolSlot.new]

section Ractor
open KinoRactorPool KinoRactorSlots

def ractorInClaim (s : Pool) (i : Nat) : Prop := ∃ w got, s.sups w = .claiming got (.resetting i)

/-- Slots go back without a quarantine mark, and none gets one that is free or popped. -/
def ractorUnmarked (s : Pool) (e : Event) : Prop :=
  (∀ w ids, e = .sup w → s.sups w = .releasing ids →
    ∀ i ∈ ids, (s.bank.slots i).quarantined = false) ∧
  ∀ c i left, e = .caller c → s.callers c = .quarantineMarks (i :: left) →
    i ∉ s.bank.free ∧ ¬ractorInClaim s i

theorem sup_in_claim {s s' : Pool} {w i : Nat} {pc : Sup} (sups : s'.sups = s.sups)
    (plain : ∀ got i, pc ≠ .claiming got (.resetting i)) (held : ractorInClaim (s'.sup w pc) i) :
    ractorInClaim s i := by
  obtain ⟨v, got, at_pc⟩ := held
  rw [sup_sups, sups] at at_pc
  split at at_pc
  · exact absurd at_pc (plain got i)
  · exact ⟨v, got, at_pc⟩

theorem move_ractor_unmarked {conf : Config} {s s' : Pool} {e : Event}
    (inv : Unmarked s.bank (ractorInClaim s)) (unmarked : ractorUnmarked s e)
    (move : Move conf s e s') : Unmarked s'.bank (ractorInClaim s') := by
  cases move with
  | boot | supervise | assign | joined | crash | respawn | leave | quit =>
    exact unmarked_keep inv (fun _ clean => clean) fun i =>
      Or.imp_right (sup_in_claim rfl (by simp))
  | abort w i left at_pc =>
    exact unmarked_keep inv (fun j clean => (put_same PoolSlot.quarantined j (by rfl)).trans clean)
      fun i => Or.imp_right (sup_in_claim rfl (by simp))
  | claimOn w got pc pc' b at_pc claimed =>
    refine unmarked_keep inv (claim_marks claimed) ?_
    intro j here
    cases claimed with
    | none_free empty => exact here.imp_right (sup_in_claim rfl (by simp))
    | pop rest i last =>
      rcases here with before | ⟨v, got', at_v⟩
      · exact .inl (last ▸ List.mem_append_left _ before)
      · rw [sup_sups] at at_v
        split at at_v
        · cases at_v
          exact .inl (by simp [last])
        · exact .inr ⟨v, got', at_v⟩
  | claimed w got pc b i at_pc claimed =>
    refine unmarked_keep inv (claim_marks claimed) ?_
    intro j here
    cases claimed <;> exact here.imp_right (sup_in_claim rfl (by simp))
  | release w ids at_pc =>
    exact unmarked_release inv (unmarked.1 w ids rfl at_pc) fun i => sup_in_claim rfl (by simp)
  | endLoop | turn | number | retire | replace => exact inv
  | handle | checkout | markRetired =>
    exact unmarked_keep inv (fun j clean => (put_same PoolSlot.quarantined j (by rfl)).trans clean)
      fun _ here => here
  | markQuarantined c i left at_pc =>
    exact unmarked_quarantine inv (unmarked.2 c i left rfl at_pc) fun _ held => held

theorem ractor_unmarked {conf : Config} {s : Pool}
    (reached : ReachableBy (system conf) ractorUnmarked s) : Unmarked s.bank (ractorInClaim s) := by
  refine invariant (fun s => Unmarked s.bank (ractorInClaim s)) ?_ ?_ reached
  · rintro s rfl i (here | ⟨w, got, at_pc⟩)
    · cases here
    · cases at_pc
  · intro s t e inv unmarked moved
    exact move_ractor_unmarked inv unmarked (step_move moved)

end Ractor

section Threaded
open KinoThreadedPool KinoThreadedSlots

def threadedInClaim (s : Pool) (i : Nat) : Prop :=
  ∃ c g n after, s.callers c = .claiming g n (.resetting i) after

def threadedUnmarked (s : Pool) (e : Event) : Prop :=
  (∀ c freed grow, e = .caller c → s.callers c = .releasing freed grow →
    ∀ i ∈ freed, (s.bank.slots i).quarantined = false) ∧
  ∀ c id, e = .caller c → s.callers c = .marking id → id ∉ s.bank.free ∧ ¬threadedInClaim s id

theorem goto_in_claim {s s' : Pool} {c i : Nat} {pc : Caller} (callers : s'.callers = s.callers)
    (plain : ∀ g n i after, pc ≠ .claiming g n (.resetting i) after)
    (held : threadedInClaim (s'.goto c pc) i) : threadedInClaim s i := by
  obtain ⟨d, g, n, after, at_pc⟩ := held
  rw [goto_callers, callers] at at_pc
  split at at_pc
  · exact absurd at_pc (plain g n i after)
  · exact ⟨d, g, n, after, at_pc⟩

theorem nextSlot_in_claim (threads g n : Nat) (after : After) :
    ∀ h m i a, nextSlot threads g n after ≠ .claiming h m (.resetting i) a := by
  intro h m i a
  unfold nextSlot
  split
  · cases after with
    | start more => cases more <;> simp [After.resume]
    | done | mark => simp [After.resume]
  · simp

theorem reapedThen_in_claim (threads : Nat) (grow : Bool) :
    ∀ g n i after, reapedThen threads grow ≠ .claiming g n (.resetting i) after := by
  cases grow <;> simp [reapedThen]

theorem turn_in_claim {conf : Config} {s : Pool} {c : Nat} {e : Event} {pc : Caller}
    (turn : Turn conf s c e pc) : ∀ g n i after, pc ≠ .claiming g n (.resetting i) after := by
  cases turn with
  | call op => cases op <;> simp [Call.entry]
  | grow | full | refused | marked => simp

theorem move_threaded_unmarked {conf : Config} {s s' : Pool} {e : Event}
    (inv : Unmarked s.bank (threadedInClaim s)) (unmarked : threadedUnmarked s e)
    (move : Move conf s e s') : Unmarked s'.bank (threadedInClaim s') := by
  have still : ∀ i, (s.bank.slots i).quarantined = false → (s.bank.slots i).quarantined = false :=
    fun _ clean => clean
  cases move with
  | finish | die => exact inv
  | handle | checkout =>
    exact unmarked_keep inv (fun j clean => (put_same PoolSlot.quarantined j (by rfl)).trans clean)
      fun _ here => here
  | turn c e pc turn =>
    exact unmarked_keep inv still fun i => Or.imp_right (goto_in_claim rfl (turn_in_claim turn))
  | reapNone c grow at_pc =>
    exact unmarked_keep inv still fun i => Or.imp_right (goto_in_claim rfl (reapedThen_in_claim _ _))
  | reap | addSlot | spawn | retire | wedge =>
    exact unmarked_keep inv still fun i => Or.imp_right (goto_in_claim rfl (by simp))
  | openGroup | list =>
    exact unmarked_keep inv still fun i => Or.imp_right (goto_in_claim rfl (nextSlot_in_claim _ _ _ _))
  | release c freed grow at_pc =>
    exact unmarked_release inv (unmarked.1 c freed grow rfl at_pc)
      fun i => goto_in_claim rfl (reapedThen_in_claim _ _)
  | claimOn c g n pc pc' b after at_pc claimed =>
    refine unmarked_keep inv (claim_marks claimed) ?_
    intro j here
    cases claimed with
    | none_free empty => exact here.imp_right (goto_in_claim rfl (by simp))
    | pop rest i last =>
      rcases here with before | ⟨d, h, m, after', at_d⟩
      · exact .inl (last ▸ List.mem_append_left _ before)
      · rw [goto_callers] at at_d
        split at at_d
        · cases at_d
          exact .inl (by simp [last])
        · exact .inr ⟨d, h, m, after', at_d⟩
  | claimed c g n i pc b after at_pc claimed =>
    refine unmarked_keep inv (claim_marks claimed) ?_
    intro j here
    cases claimed <;> exact here.imp_right (goto_in_claim rfl (by simp))
  | markRetired =>
    exact unmarked_keep inv (fun j clean => (put_same PoolSlot.quarantined j (by rfl)).trans clean)
      fun i => Or.imp_right (goto_in_claim rfl (by simp))
  | markQuarantined c id at_pc =>
    exact unmarked_quarantine inv (unmarked.2 c id rfl at_pc) fun i => goto_in_claim rfl (by simp)

theorem threaded_unmarked {conf : Config} {s : Pool}
    (reached : ReachableBy (system conf) threadedUnmarked s) :
    Unmarked s.bank (threadedInClaim s) := by
  refine invariant (fun s => Unmarked s.bank (threadedInClaim s)) ?_ ?_ reached
  · rintro s rfl i (here | ⟨c, g, n, after, at_pc⟩)
    · cases here
    · simp only [initial] at at_pc
      by_cases first : c = 0
      · subst first
        cases workers : conf.workers <;> simp [workers, After.resume] at at_pc
      · simp [first] at at_pc
  · intro s t e inv unmarked moved
    exact move_threaded_unmarked inv unmarked (step_move moved)

end Threaded

/-- In every run of either pool in which slots go back unmarked and no free or popped slot
    gets a mark, a claim hands out an unmarked slot. -/
theorem claims_are_unmarked (conf : Config) :
    (∀ s, ReachableBy (KinoRactorPool.system conf) ractorUnmarked s →
      ∀ w got pc b i, s.sups w = .claiming got pc → claim conf.lanes s.bank pc = (b, .handed i) →
        (b.slots i).quarantined = false) ∧
    ∀ s, ReachableBy (KinoThreadedPool.system conf) threadedUnmarked s →
      ∀ c g n pc after b i, s.callers c = .claiming g n pc after →
        claim conf.lanes s.bank pc = (b, .handed i) → (b.slots i).quarantined = false := by
  constructor
  · intro s reached w got pc b i at_pc result
    have claimed := claim_move conf.lanes s.bank pc
    rw [result] at claimed
    refine claim_unmarked (ractor_unmarked reached) ?_ claimed
    rintro j rfl
    exact ⟨w, got, at_pc⟩
  · intro s reached c g n pc after b i at_pc result
    have claimed := claim_move conf.lanes s.bank pc
    rw [result] at claimed
    refine claim_unmarked (threaded_unmarked reached) ?_ claimed
    rintro j rfl
    exact ⟨c, g, n, after, at_pc⟩

section RactorUnmarked
open KinoRactorPool KinoRactorSlots

def releasesClean (s : Pool) : Event → Bool
  | .sup w =>
    match s.sups w with
    | .releasing ids => ids.all fun i => !(s.bank.slots i).quarantined
    | _ => true
  | .caller c =>
    match s.callers c with
    | .quarantineMarks (_ :: _) => false
    | _ => true
  | _ => true

theorem releasesClean_unmarked (s : Pool) (e : Event) (check : releasesClean s e = true) :
    ractorUnmarked s e := by
  constructor
  · rintro w ids rfl at_pc
    simpa [releasesClean, at_pc] using check
  · rintro c i left rfl at_pc
    simp [releasesClean, at_pc] at check

def leavesAndHangs : List Event :=
  [.boot, .boot] ++ List.replicate 3 (.sup 0) ++ List.replicate 3 (.sup 1) ++
    [.call 0 (.retire 0)] ++ List.replicate 3 (.caller 0) ++ [.call 0 (.replace 1)] ++
    List.replicate 5 (.caller 0)

/-- The replacement claims the slot of the first; the second's is marked. -/
example : ∃ s, ReachableBy (system ⟨2, 1, false, 3⟩) ractorUnmarked s ∧
    s.sups 2 = .claiming [] (.resetting 0) ∧ (s.bank.slots 1).quarantined = true := by
  have ran : ∃ s t u,
      runBy (system ⟨2, 1, false, 3⟩) releasesClean (initial ⟨2, 1, false, 3⟩) leavesAndHangs = some s ∧
        (system ⟨2, 1, false, 3⟩).step s (.caller 0) = some t ∧
          runBy (system ⟨2, 1, false, 3⟩) releasesClean t
              ([.finish 0] ++ List.replicate 3 (.sup 0) ++ [.sup 2]) = some u ∧
            s.callers 0 = .quarantineMarks [1] ∧ s.bank.free = [] ∧
              s.sups 0 = .running [0] ∧ s.sups 1 = .running [1] ∧
                s.sups 2 = .claiming [] .popping ∧ (∀ w, s.sups (w + 3) = .absent) ∧
                  u.sups 2 = .claiming [] (.resetting 0) ∧ (u.bank.slots 1).quarantined = true :=
    ⟨_, _, _, rfl, rfl, rfl, rfl, rfl, rfl, rfl, rfl, fun w => rfl, rfl, rfl⟩
  obtain ⟨s, t, u, first, marks, claims, at_pc, free, zero, one, two, others, claiming, marked⟩ := ran
  have unclaimed : ∀ i, ¬ractorInClaim s i := by
    rintro i ⟨w, got, at_w⟩
    match w with
    | 0 => simp [zero] at at_w
    | 1 => simp [one] at at_w
    | 2 => simp [two] at at_w
    | w + 3 => simp [others] at at_w
  have unmarked : ractorUnmarked s (.caller 0) :=
    ⟨by simp, fun c i left _ _ => ⟨by simp [free], unclaimed i⟩⟩
  have before := reachable_runBy releasesClean_unmarked (.start rfl) first
  exact ⟨u, reachable_runBy releasesClean_unmarked (before.next unmarked marks) claims,
    claiming, marked⟩

end RactorUnmarked

section ThreadedUnmarked
open KinoThreadedPool KinoThreadedSlots

def marksNothing (s : Pool) : Event → Bool
  | .caller c =>
    match s.callers c with
    | .releasing freed _ => freed.all fun i => !(s.bank.slots i).quarantined
    | .marking _ => false
    | _ => true
  | _ => true

theorem marksNothing_unmarked (s : Pool) (e : Event) (check : marksNothing s e = true) :
    threadedUnmarked s e := by
  constructor
  · rintro c freed grow rfl at_pc
    simpa [marksNothing, at_pc] using check
  · rintro c id rfl at_pc
    simp [marksNothing, at_pc] at check

example : ∃ s, ReachableBy (system ⟨1, 1, false, 2⟩) threadedUnmarked s ∧
    s.callers 1 = .claiming 1 1 (.resetting 0) .done := by
  have ran : ∃ s, runBy (system ⟨1, 1, false, 2⟩) marksNothing (initial ⟨1, 1, false, 2⟩)
      (leavesThenGrow ++ List.replicate 4 (.caller 1)) = some s ∧
        s.callers 1 = .claiming 1 1 (.resetting 0) .done := ⟨_, rfl, rfl⟩
  obtain ⟨s, ran, claiming⟩ := ran
  exact ⟨s, reachable_runBy marksNothing_unmarked (.start rfl) ran, claiming⟩

end ThreadedUnmarked

/-- A worker is retired, and then replaced because its request hangs; the request returns,
    the worker leaves, and its replacement claims its slot. -/
def retiredThenReplaced : List KinoRactorPool.Event :=
  [KinoRactorPool.Event.boot] ++ List.replicate 3 (KinoRactorPool.Event.sup 0) ++
    [KinoRactorPool.Event.call 0 (.retire 0)] ++ List.replicate 3 (KinoRactorPool.Event.caller 0) ++
    [KinoRactorPool.Event.call 0 (.replace 0)] ++
    List.replicate 7 (KinoRactorPool.Event.caller 0) ++ [KinoRactorPool.Event.finish 0] ++
    List.replicate 3 (KinoRactorPool.Event.sup 0) ++ [KinoRactorPool.Event.sup 1]

theorem quarantined_slot_handed_out :
    ¬∀ s, Reachable (KinoRactorPool.system ⟨1, 1, false, 2⟩) s →
      ∀ w got pc b i, s.sups w = .claiming got pc → claim false s.bank pc = (b, .handed i) →
        (b.slots i).quarantined = false := by
  intro clean
  have ran : run (KinoRactorPool.system ⟨1, 1, false, 2⟩)
      (KinoRactorPool.initial ⟨1, 1, false, 2⟩) retiredThenReplaced = some _ := rfl
  have marked := clean _ (reachable_run (.start rfl) ran) 1 [] (.resetting 0) _ 0 rfl rfl
  cases marked

end KinoSlotLaws
