import Kino.ThreadedPool

/-!
Who has which slot in the threaded pool: each registered slot is in the free list, in one
group, or in the hand of the one caller that claims or releases it. This needs every reaped
group to have all its threads out of their loops by themselves.
-/
namespace KinoThreadedSlots
open Transitions Ownership KinoSlotBank KinoThreadedPool

theorem goto_callers (s : Pool) (c d : Nat) (pc : Caller) :
    (s.goto c pc).callers d = if d = c then pc else s.callers d := by
  by_cases same : d = c <;> simp [Pool.goto, same]

def spawns : Caller → Option Nat
  | .claiming g _ _ _ | .adding g _ _ _ | .threading g _ _ _ | .listing g _ _ _ => some g
  | _ => none

/-- Every thread of the group was told to leave and left, and no more will come. -/
def Settled (s : Pool) (g : Nat) : Prop :=
  (∀ t ∈ (s.group g).threads, s.threads t = .left true) ∧ ∀ c, spawns (s.callers c) ≠ some g

/-- A reap finds only such groups. -/
def cleanReap (s : Pool) (e : Event) : Prop :=
  ∀ c grow, e = .caller c → s.callers c = .reaping grow → ∀ g ∈ s.reaped, Settled s g

structure TableInv (s : Pool) : Prop where
  old : ∀ g ∈ s.members, g < s.nextIndex
  spawning : ∀ c g, spawns (s.callers c) = some g → g ∈ s.members
  once : s.retiring.Nodup
  known : ∀ g ∈ s.retiring, g ∈ s.members

theorem table_goto {s s' : Pool} {c : Nat} {pc : Caller} (inv : TableInv s)
    (callers : s'.callers = s.callers) (members : s'.members = s.members)
    (next : s'.nextIndex = s.nextIndex) (retiring : s'.retiring = s.retiring)
    (mine : ∀ g, spawns pc = some g → g ∈ s.members) : TableInv (s'.goto c pc) := by
  refine ⟨?_, ?_, ?_, ?_⟩
  · intro g here
    change g ∈ s'.members at here
    change g < s'.nextIndex
    rw [members] at here
    rw [next]
    exact inv.old g here
  · intro d g at_pc
    change g ∈ s'.members
    rw [goto_callers, callers] at at_pc
    rw [members]
    split at at_pc
    · exact mine g at_pc
    · exact inv.spawning d g at_pc
  · change s'.retiring.Nodup
    rw [retiring]
    exact inv.once
  · intro g here
    change g ∈ s'.retiring at here
    change g ∈ s'.members
    rw [retiring] at here
    rw [members]
    exact inv.known g here

theorem spawns_resume (threads : Nat) (after : After) : spawns (after.resume threads) = none := by
  cases after with
  | start more => cases more <;> rfl
  | done | mark => rfl

theorem spawns_nextSlot {threads g n h : Nat} {after : After}
    (at_pc : spawns (nextSlot threads g n after) = some h) : h = g := by
  unfold nextSlot at at_pc
  split at at_pc
  · rw [spawns_resume] at at_pc
    cases at_pc
  · exact (Option.some.inj at_pc).symm

theorem spawns_reapedThen (threads : Nat) (grow : Bool) : spawns (reapedThen threads grow) = none := by
  cases grow <;> rfl

theorem turn_spawns {conf : Config} {s : Pool} {c : Nat} {e : Event} {pc : Caller}
    (turn : Turn conf s c e pc) : spawns pc = none := by
  cases turn with
  | call op => cases op <;> rfl
  | grow | full | refused | marked => rfl

/-- The groups that leave the table are settled, so none of them is being spawned. -/
theorem table_reap {s : Pool} {c : Nat} {pc : Caller} (inv : TableInv s)
    (clean : ∀ g ∈ s.reaped, Settled s g) (mine : spawns pc = none) :
    TableInv (s.reap.goto c pc) := by
  refine ⟨?_, ?_, inv.once.filter _, ?_⟩
  · intro g here
    exact inv.old g (Finset.mem_filter.mp here).1
  · intro d g at_pc
    rw [goto_callers] at at_pc
    split at at_pc
    · rw [mine] at at_pc
      cases at_pc
    · refine Finset.mem_filter.mpr ⟨inv.spawning d g at_pc, ?_⟩
      intro gone
      exact (clean g gone).2 d at_pc
  · intro g here
    obtain ⟨asked, staying⟩ := List.mem_filter.mp here
    exact Finset.mem_filter.mpr ⟨inv.known g asked, by simpa using staying⟩

theorem move_table {conf : Config} {s s' : Pool} {e : Event} (inv : TableInv s)
    (clean : cleanReap s e) (move : Move conf s e s') : TableInv s' := by
  cases move with
  | finish | die | handle | checkout => exact ⟨inv.old, inv.spawning, inv.once, inv.known⟩
  | turn c e pc turn => exact table_goto inv rfl rfl rfl rfl (by simp [turn_spawns turn])
  | reapNone c grow at_pc => exact table_reap inv (clean c grow rfl at_pc) (spawns_reapedThen _ _)
  | reap c grow at_pc => exact table_reap inv (clean c grow rfl at_pc) rfl
  | release => exact table_goto inv rfl rfl rfl rfl (by simp [spawns_reapedThen])
  | openGroup c n replacement after at_pc =>
    refine ⟨?_, ?_, inv.once, ?_⟩
    · intro g here
      change g < s.nextIndex + 1
      rcases Finset.mem_insert.mp here with rfl | before
      · exact Nat.lt_succ_self _
      · exact Nat.lt_succ_of_lt (inv.old g before)
    · intro d g at_pc'
      change g ∈ insert s.nextIndex s.members
      rw [goto_callers] at at_pc'
      split at at_pc'
      · rw [spawns_nextSlot at_pc']
        exact Finset.mem_insert_self _ _
      · exact Finset.mem_insert_of_mem (inv.spawning d g at_pc')
    · intro g here
      exact Finset.mem_insert_of_mem (inv.known g here)
  | claimOn c g n pc pc' b after at_pc | claimed c g n i pc b after at_pc
  | addSlot c g n i after at_pc | spawn c g n i after at_pc =>
    refine table_goto inv rfl rfl rfl rfl ?_
    intro h same
    cases same
    exact inv.spawning c g (by simp [at_pc, spawns])
  | list c g n t after at_pc =>
    refine table_goto inv rfl rfl rfl rfl ?_
    intro h same
    rw [spawns_nextSlot same]
    exact inv.spawning c g (by simp [at_pc, spawns])
  | retire c g at_pc known staying =>
    refine ⟨inv.old, ?_, ?_, ?_⟩
    · intro d h at_pc'
      rw [goto_callers] at at_pc'
      split at at_pc'
      · cases at_pc'
      · exact inv.spawning d h at_pc'
    · refine List.nodup_append.mpr ⟨inv.once, by simp, ?_⟩
      intro h here h' there same
      rw [List.mem_singleton] at there
      subst there
      exact staying (same ▸ here)
    · intro h here
      rcases List.mem_append.mp here with before | new
      · exact inv.known h before
      · rw [List.mem_singleton] at new
        subst new
        exact known
  | markRetired | markQuarantined | wedge => exact table_goto inv rfl rfl rfl rfl (by simp [spawns])

inductive Place where
  | free
  | group (g : Nat)
  | hand (c : Nat)
  deriving DecidableEq, Repr

def inHand : Caller → List Nat
  | .claiming _ _ pc _ => popped pc
  | .adding _ _ i _ => [i]
  | .releasing freed _ => freed
  | _ => []

def contents (s : Pool) : Place → List Nat
  | .free => s.bank.free
  | .group g => if g ∈ s.members then (s.group g).slots else []
  | .hand c => inHand (s.callers c)

@[simp] theorem contents_hand (s : Pool) (c d : Nat) (pc : Caller) :
    contents (s.goto c pc) (.hand d) = if d = c then inHand pc else contents s (.hand d) := by
  simp only [contents, goto_callers]
  split <;> rfl

theorem housed_goto {s s' : Pool} {c : Nat} {pc : Caller} (housed : Housed (contents s) s.bank.count)
    (callers : s'.callers = s.callers) (free : s'.bank.free = s.bank.free)
    (count : s'.bank.count = s.bank.count)
    (groups : ∀ g, contents s' (.group g) = contents s (.group g))
    (same : inHand pc = inHand (s.callers c)) :
    Housed (contents (s'.goto c pc)) (s'.goto c pc).bank.count := by
  change Housed (contents (s'.goto c pc)) s'.bank.count
  rw [count]
  apply housed_same housed
  intro q i
  cases q with
  | free => exact congrArg (List.count i) free
  | group g => exact congrArg (List.count i) (groups g)
  | hand d =>
    rw [contents_hand]
    split
    · next at_c => rw [at_c, same]; rfl
    · simp only [contents, callers]

theorem inHand_resume (threads : Nat) (after : After) : inHand (after.resume threads) = [] := by
  cases after with
  | start more => cases more <;> rfl
  | done | mark => rfl

theorem inHand_nextSlot (threads g n : Nat) (after : After) :
    inHand (nextSlot threads g n after) = [] := by
  unfold nextSlot
  split
  · exact inHand_resume threads after
  · rfl

theorem inHand_reapedThen (threads : Nat) (grow : Bool) : inHand (reapedThen threads grow) = [] := by
  cases grow <;> rfl

theorem turn_inHand {conf : Config} {s : Pool} {c : Nat} {e : Event} {pc : Caller}
    (turn : Turn conf s c e pc) : inHand pc = inHand (s.callers c) := by
  cases turn with
  | call op started at_pc => cases op <;> simp [at_pc, Call.entry, inHand]
  | grow at_pc | full at_pc | refused g at_pc | marked g k at_pc => simp [at_pc, inHand]

theorem reap_group (s : Pool) (g : Nat) :
    contents s.reap (.group g) = if g ∈ s.reaped then [] else contents s (.group g) := by
  simp only [contents, Pool.reap, Finset.mem_filter]
  by_cases gone : g ∈ s.reaped <;> simp [gone]

theorem reaped_known {s : Pool} (inv : TableInv s) {g : Nat} (gone : g ∈ s.reaped) :
    g ∈ s.members ∧ contents s (.group g) = (s.group g).slots := by
  have member := inv.known g (List.mem_filter.mp gone).1
  exact ⟨member, by simp [contents, member]⟩

theorem housed_reap {s : Pool} {c : Nat} {grow : Bool} (housed : Housed (contents s) s.bank.count)
    (inv : TableInv s) (at_pc : s.callers c = .reaping grow) :
    Housed (contents (s.reap.goto c (.releasing s.freed grow))) s.bank.count := by
  have given : ∀ i, (∃ p, (∃ g ∈ s.reaped, p = Place.group g) ∧ i ∈ contents s p) ↔ i ∈ s.freed := by
    intro i
    constructor
    · rintro ⟨_, ⟨g, gone, rfl⟩, here⟩
      rw [(reaped_known inv gone).2] at here
      exact List.mem_flatMap.mpr ⟨g, gone, here⟩
    · intro here
      obtain ⟨g, gone, inside⟩ := List.mem_flatMap.mp here
      refine ⟨.group g, ⟨g, gone, rfl⟩, ?_⟩
      rw [(reaped_known inv gone).2]
      exact inside
  have mine : contents (s.reap.goto c (.releasing s.freed grow)) (.hand c) = s.freed := by
    rw [contents_hand, if_pos rfl]
    rfl
  have before : contents s (.hand c) = [] := by simp [contents, at_pc, inHand]
  refine housed_gather (q := .hand c) (fun p => ∃ g ∈ s.reaped, p = .group g) housed (by simp)
    ?_ ?_ ?_ ?_
  · rintro _ ⟨g, gone, rfl⟩
    change contents s.reap (.group g) = []
    rw [reap_group, if_pos gone]
  · intro i here
    rw [mine, before]
    obtain ⟨g, gone, inside⟩ := List.mem_flatMap.mp ((given i).mp here)
    refine count_flatMap_one (inv.once.filter _) ?_ ?_ ⟨g, gone, inside⟩
    · intro h gone'
      have once := housed_once housed (.group h) i
      rwa [(reaped_known inv gone').2] at once
    · intro h gone' h' gone'' there there'
      rw [← (reaped_known inv gone').2] at there
      rw [← (reaped_known inv gone'').2] at there'
      simpa using housed_apart housed there there'
  · intro i away_
    rw [mine, before]
    exact List.count_eq_zero.mpr fun here => away_ ((given i).mpr here)
  · intro o plain other i
    cases o with
    | free => rfl
    | group g =>
      have staying : g ∉ s.reaped := fun gone => plain ⟨g, gone, rfl⟩
      change (contents s.reap (.group g)).count i = _
      rw [reap_group, if_neg staying]
    | hand d =>
      have apart : d ≠ c := fun same => other (by rw [same])
      rw [contents_hand, if_neg apart]
      rfl

theorem housed_claim {conf : Config} {s : Pool} {c g n : Nat} {pc pc' : ClaimPc} {b : Bank}
    {after : After} (housed : Housed (contents s) s.bank.count)
    (at_pc : s.callers c = .claiming g n pc after)
    (claimed : ClaimMove conf.lanes s.bank pc b (.going pc')) :
    Housed (contents ({ s with bank := b }.goto c (.claiming g n pc' after))) b.count := by
  cases claimed with
  | none_free empty =>
    exact housed_goto housed rfl rfl rfl (fun _ => rfl) (by simp [at_pc, inHand, popped])
  | pop rest i last =>
    refine housed_shift (p := .free) (q := .hand c) [i] housed (by simp) ?_ ?_ ?_
    · intro j
      simp [last, contents, Pool.goto]
    · intro j
      simp [contents, Pool.goto, at_pc, inHand, popped]
    · intro o from_ away_ j
      cases o with
      | free => exact absurd rfl from_
      | group g => rfl
      | hand d =>
        have apart : d ≠ c := fun same => away_ (by rw [same])
        rw [contents_hand, if_neg apart]
        rfl

theorem housed_claimed {conf : Config} {s : Pool} {c g n i : Nat} {pc : ClaimPc} {b : Bank}
    {after : After} (housed : Housed (contents s) s.bank.count)
    (at_pc : s.callers c = .claiming g n pc after)
    (claimed : ClaimMove conf.lanes s.bank pc b (.handed i)) :
    Housed (contents ({ s with bank := b }.goto c (.adding g n i after))) b.count := by
  cases claimed with
  | reset i => exact housed_goto housed rfl rfl rfl (fun _ => rfl) (by simp [at_pc, inHand, popped])
  | register =>
    refine housed_enter (p := .hand c) housed ?_ ?_
    · intro j
      rw [contents_hand, if_pos rfl]
      by_cases same : j = s.bank.count
      · simp [contents, at_pc, inHand, popped, same]
      · simp [contents, at_pc, inHand, popped, same, Ne.symm same]
    · intro o away_ j
      cases o with
      | free | group => rfl
      | hand d =>
        have apart : d ≠ c := fun same => away_ (by rw [same])
        rw [contents_hand, if_neg apart]
        rfl

theorem housed_release {s : Pool} {c : Nat} {freed : List Nat} {grow : Bool} {pc : Caller}
    (housed : Housed (contents s) s.bank.count) (at_pc : s.callers c = .releasing freed grow)
    (empty : inHand pc = []) :
    Housed (contents ({ s with bank := s.bank.release freed }.goto c pc)) s.bank.count := by
  refine housed_shift (p := .hand c) (q := .free) freed housed (by simp) ?_ ?_ ?_
  · intro i
    rw [contents_hand, if_pos rfl, empty]
    simp [contents, at_pc, inHand]
  · intro i
    simp [contents, Pool.goto, Bank.release]
  · intro o from_ away_ i
    cases o with
    | free => exact absurd rfl away_
    | group g => rfl
    | hand d =>
      have apart : d ≠ c := fun same => from_ (by rw [same])
      rw [contents_hand, if_neg apart]
      rfl

theorem housed_add {s : Pool} {c g n i : Nat} {after : After}
    (housed : Housed (contents s) s.bank.count) (inv : TableInv s)
    (at_pc : s.callers c = .adding g n i after) :
    Housed (contents ((s.addSlot g i).goto c (.threading g n i after))) s.bank.count := by
  have member : g ∈ s.members := inv.spawning c g (by simp [at_pc, spawns])
  refine housed_shift (p := .hand c) (q := .group g) [i] housed (by simp) ?_ ?_ ?_
  · intro j
    rw [contents_hand, if_pos rfl]
    simp [contents, at_pc, inHand]
  · intro j
    simp [contents, Pool.goto, Pool.addSlot, member]
  · intro o from_ away_ j
    cases o with
    | free => rfl
    | group h =>
      have other : h ≠ g := fun same => away_ (by rw [same])
      simp [contents, Pool.goto, Pool.addSlot, other]
    | hand d =>
      have apart : d ≠ c := fun same => from_ (by rw [same])
      rw [contents_hand, if_neg apart]
      rfl

theorem move_housed {conf : Config} {s s' : Pool} {e : Event} (housed : Housed (contents s) s.bank.count)
    (inv : TableInv s) (move : Move conf s e s') : Housed (contents s') s'.bank.count := by
  cases move with
  | finish | die | handle | checkout => exact housed
  | turn c e pc turn => exact housed_goto housed rfl rfl rfl (fun _ => rfl) (turn_inHand turn)
  | reapNone c grow at_pc none_freed =>
    refine housed_goto housed rfl rfl rfl ?_ (by rw [at_pc, inHand_reapedThen]; rfl)
    intro g
    rw [reap_group]
    split
    · next gone =>
      rw [(reaped_known inv gone).2]
      exact (List.flatMap_eq_nil_iff.mp none_freed g gone).symm
    · rfl
  | reap c grow at_pc => exact housed_reap housed inv at_pc
  | release c freed grow at_pc => exact housed_release housed at_pc (inHand_reapedThen _ _)
  | openGroup c n replacement after at_pc =>
    refine housed_goto housed rfl rfl rfl ?_ (by rw [at_pc, inHand_nextSlot]; rfl)
    intro g
    have unused : s.nextIndex ∉ s.members := fun here => absurd (inv.old _ here) (lt_irrefl _)
    by_cases new : g = s.nextIndex
    · simp [contents, Pool.openGroup, new, unused]
    · simp [contents, Pool.openGroup, new]
  | claimOn c g n pc pc' b after at_pc claimed => exact housed_claim housed at_pc claimed
  | claimed c g n i pc b after at_pc claimed => exact housed_claimed housed at_pc claimed
  | addSlot c g n i after at_pc => exact housed_add housed inv at_pc
  | spawn c g n i after at_pc =>
    exact housed_goto housed rfl rfl rfl (fun _ => rfl) (by simp [at_pc, inHand])
  | list c g n t after at_pc =>
    refine housed_goto housed rfl rfl rfl ?_ (by rw [at_pc, inHand_nextSlot]; rfl)
    intro h
    by_cases same : h = g <;> simp [contents, Pool.listThread, same]
  | retire c g at_pc | markRetired c g k i at_pc | markQuarantined c id at_pc
  | wedge c id wedged at_pc =>
    exact housed_goto housed rfl rfl rfl (fun _ => rfl) (by simp [at_pc, inHand])

structure ThreadInv (s : Pool) : Prop where
  placed : ∀ t, t < s.spawned → s.threads t ≠ .left true → ∃ g ∈ s.members,
    s.slotOf t ∈ (s.group g).slots ∧
      (t ∈ (s.group g).threads ∨ ∃ c n after, s.callers c = .listing g n t after)
  added : ∀ c g n i after, s.callers c = .threading g n i after → i ∈ (s.group g).slots

theorem thread_keep {s s' : Pool} (inv : ThreadInv s) (spawned : s'.spawned = s.spawned)
    (slotOf : s'.slotOf = s.slotOf) (threads : ∀ t, s'.threads t ≠ .left true → s.threads t ≠ .left true)
    (members : ∀ g ∈ s.members, g ∈ s'.members)
    (slots : ∀ g i, g ∈ s.members → i ∈ (s.group g).slots → i ∈ (s'.group g).slots)
    (listed : ∀ g t, g ∈ s.members → t ∈ (s.group g).threads → t ∈ (s'.group g).threads)
    (listing : ∀ c g n t after, s.callers c = .listing g n t after → g ∈ s.members →
      t ∈ (s'.group g).threads ∨ ∃ d n after, s'.callers d = .listing g n t after)
    (added : ∀ c g n i after, s'.callers c = .threading g n i after → i ∈ (s'.group g).slots) :
    ThreadInv s' := by
  refine ⟨?_, added⟩
  intro t made busy
  rw [spawned] at made
  obtain ⟨g, member, here, where_⟩ := inv.placed t made (threads t busy)
  refine ⟨g, members g member, ?_, ?_⟩
  · rw [slotOf]
    exact slots g _ member here
  · rcases where_ with inside | ⟨c, n, after, at_pc⟩
    · exact .inl (listed g t member inside)
    · exact listing c g n t after at_pc member

/-- The move of a caller that lists no thread leaves the ones that do where they are. -/
theorem listing_stays {s s' : Pool} {c d g n t : Nat} {pc : Caller} {after : After}
    (at_pc : s.callers d = .listing g n t after)
    (before : ∀ g n t after, s.callers c ≠ .listing g n t after) (callers : s'.callers = s.callers) :
    (s'.goto c pc).callers d = .listing g n t after := by
  have other : d ≠ c := by
    intro same
    subst same
    exact before g n t after at_pc
  rw [goto_callers, if_neg other, callers]
  exact at_pc

theorem thread_goto {s s' : Pool} {c : Nat} {pc : Caller} (inv : ThreadInv s)
    (callers : s'.callers = s.callers) (spawned : s'.spawned = s.spawned)
    (slotOf : s'.slotOf = s.slotOf) (threads : s'.threads = s.threads)
    (members : s'.members = s.members) (group : s'.group = s.group)
    (before : ∀ g n t after, s.callers c ≠ .listing g n t after)
    (mine : ∀ g n i after, pc ≠ .threading g n i after) : ThreadInv (s'.goto c pc) := by
  refine thread_keep inv spawned slotOf ?_ ?_ ?_ ?_ ?_ ?_
  · intro t busy
    change s'.threads t ≠ .left true at busy
    rwa [threads] at busy
  · intro g member
    change g ∈ s'.members
    rwa [members]
  · intro g i _ here
    change i ∈ (s'.group g).slots
    rwa [group]
  · intro g t _ here
    change t ∈ (s'.group g).threads
    rwa [group]
  · intro d g n t after at_pc _
    exact .inr ⟨d, n, after, listing_stays at_pc before callers⟩
  · intro d g n i after at_pc
    change i ∈ (s'.group g).slots
    rw [goto_callers, callers] at at_pc
    rw [group]
    split at at_pc
    · exact absurd at_pc (mine g n i after)
    · exact inv.added d g n i after at_pc

theorem nextSlot_plain (threads g n : Nat) (after : After) :
    ∀ h m i a, nextSlot threads g n after ≠ .threading h m i a := by
  intro h m i a
  unfold nextSlot
  split
  · cases after with
    | start more => cases more <;> simp [After.resume]
    | done | mark => simp [After.resume]
  · simp

theorem turn_plain {conf : Config} {s : Pool} {c : Nat} {e : Event} {pc : Caller}
    (turn : Turn conf s c e pc) : (∀ g n t after, s.callers c ≠ .listing g n t after) ∧
      ∀ g n i after, pc ≠ .threading g n i after := by
  cases turn with
  | call op started at_pc => cases op <;> simp [at_pc, Call.entry]
  | grow at_pc | full at_pc | refused g at_pc | marked g k at_pc => simp [at_pc]

theorem reapedThen_plain (threads : Nat) (grow : Bool) :
    ∀ g n i after, reapedThen threads grow ≠ .threading g n i after := by
  cases grow <;> simp [reapedThen]

theorem thread_reap {s : Pool} {c : Nat} {grow : Bool} {pc : Caller} (inv : ThreadInv s)
    (clean : ∀ g ∈ s.reaped, Settled s g) (at_pc : s.callers c = .reaping grow)
    (mine : ∀ g n i after, pc ≠ .threading g n i after) : ThreadInv (s.reap.goto c pc) := by
  constructor
  · intro t made busy
    obtain ⟨g, member, here, where_⟩ := inv.placed t made busy
    have staying : g ∉ s.reaped := by
      intro gone
      rcases where_ with inside | ⟨d, n, after, at_pc'⟩
      · exact busy ((clean g gone).1 t inside)
      · exact (clean g gone).2 d (by simp [at_pc', spawns])
    refine ⟨g, Finset.mem_filter.mpr ⟨member, staying⟩, here, ?_⟩
    rcases where_ with inside | ⟨d, n, after, at_pc'⟩
    · exact .inl inside
    · exact .inr ⟨d, n, after, listing_stays at_pc' (by simp [at_pc]) rfl⟩
  · intro d g n i after at_pc'
    rw [goto_callers] at at_pc'
    split at at_pc'
    · exact absurd at_pc' (mine g n i after)
    · exact inv.added d g n i after at_pc'

theorem thread_openGroup {s : Pool} {c n : Nat} {replacement : Bool} {after : After} {pc : Caller}
    (inv : ThreadInv s) (table : TableInv s) (at_pc : s.callers c = .spawning n replacement after)
    (mine : ∀ g n i after, pc ≠ .threading g n i after) :
    ThreadInv ((s.openGroup replacement).goto c pc) := by
  have other : ∀ g ∈ s.members, g ≠ s.nextIndex := fun g member same => by
    subst same
    exact absurd (table.old _ member) (lt_irrefl _)
  have same : ∀ g ∈ s.members, (s.openGroup replacement).group g = s.group g := by
    intro g member
    simp [Pool.openGroup, other g member]
  refine thread_keep inv rfl rfl (fun _ h => h) (fun _ h => Finset.mem_insert_of_mem h) ?_ ?_ ?_ ?_
  · intro g i member here
    change i ∈ ((s.openGroup replacement).group g).slots
    rwa [same g member]
  · intro g t member here
    change t ∈ ((s.openGroup replacement).group g).threads
    rwa [same g member]
  · intro d g m t after' at_pc' _
    exact .inr ⟨d, m, after', listing_stays at_pc' (by simp [at_pc]) rfl⟩
  · intro d g m i after' at_pc'
    rw [goto_callers] at at_pc'
    split at at_pc'
    · exact absurd at_pc' (mine g m i after')
    · change s.callers d = .threading g m i after' at at_pc'
      have member := table.spawning d g (by rw [at_pc']; rfl)
      change i ∈ ((s.openGroup replacement).group g).slots
      rw [same g member]
      exact inv.added d g m i after' at_pc'

theorem thread_addSlot {s : Pool} {c g n i : Nat} {after : After} (inv : ThreadInv s)
    (at_pc : s.callers c = .adding g n i after) :
    ThreadInv ((s.addSlot g i).goto c (.threading g n i after)) := by
  have slots : ∀ h j, j ∈ (s.group h).slots → j ∈ ((s.addSlot g i).group h).slots := by
    intro h j here
    by_cases same : h = g
    · subst same
      simp [Pool.addSlot, here]
    · simp [Pool.addSlot, same, here]
  refine thread_keep inv rfl rfl (fun _ h => h) (fun _ h => h) (fun h j _ here => slots h j here) ?_ ?_ ?_
  · intro h t _ here
    change t ∈ ((s.addSlot g i).group h).threads
    by_cases same : h = g
    · subst same
      simpa [Pool.addSlot] using here
    · simpa [Pool.addSlot, same] using here
  · intro d h m t after' at_pc' _
    exact .inr ⟨d, m, after', listing_stays at_pc' (by simp [at_pc]) rfl⟩
  · intro d h m j after' at_pc'
    rw [goto_callers] at at_pc'
    split at at_pc'
    · cases at_pc'
      simp [Pool.goto, Pool.addSlot]
    · exact slots h j (inv.added d h m j after' at_pc')

theorem thread_spawn {s : Pool} {c g n i : Nat} {after : After} (inv : ThreadInv s) (table : TableInv s)
    (at_pc : s.callers c = .threading g n i after) :
    ThreadInv ((s.spawnThread i).goto c (.listing g n s.spawned after)) := by
  constructor
  · intro t made busy
    change t < s.spawned + 1 at made
    by_cases new : t = s.spawned
    · subst new
      refine ⟨g, table.spawning c g (by simp [at_pc, spawns]), ?_, .inr ⟨c, n, after, ?_⟩⟩
      · simpa [Pool.goto, Pool.spawnThread] using inv.added c g n i after at_pc
      · simp [Pool.goto]
    · have old : s.threads t ≠ .left true := by
        simpa [Pool.goto, Pool.spawnThread, new] using busy
      obtain ⟨h, member, here, where_⟩ := inv.placed t (by omega) old
      refine ⟨h, member, by simpa [Pool.goto, Pool.spawnThread, new] using here, ?_⟩
      rcases where_ with inside | ⟨d, m, after', at_pc'⟩
      · exact .inl inside
      · exact .inr ⟨d, m, after', listing_stays at_pc' (by simp [at_pc]) rfl⟩
  · intro d h m j after' at_pc'
    rw [goto_callers] at at_pc'
    split at at_pc'
    · cases at_pc'
    · exact inv.added d h m j after' at_pc'

theorem thread_list {s : Pool} {c g n t : Nat} {after : After} {pc : Caller} (inv : ThreadInv s)
    (at_pc : s.callers c = .listing g n t after) (mine : ∀ g n i after, pc ≠ .threading g n i after) :
    ThreadInv ((s.listThread g t).goto c pc) := by
  have slots : ∀ h, ((s.listThread g t).group h).slots = (s.group h).slots := by
    intro h
    by_cases same : h = g <;> simp [Pool.listThread, same]
  refine thread_keep inv rfl rfl (fun _ h => h) (fun _ h => h) ?_ ?_ ?_ ?_
  · intro h j _ here
    change j ∈ ((s.listThread g t).group h).slots
    rwa [slots]
  · intro h u _ here
    change u ∈ ((s.listThread g t).group h).threads
    by_cases same : h = g
    · subst same
      simp [Pool.listThread, here]
    · simpa [Pool.listThread, same] using here
  · intro d h m u after' at_pc' _
    by_cases same : d = c
    · -- the thread is in its group's list now
      subst same
      rw [at_pc] at at_pc'
      cases at_pc'
      left
      simp [Pool.goto, Pool.listThread]
    · refine .inr ⟨d, m, after', ?_⟩
      rw [goto_callers, if_neg same]
      exact at_pc'
  · intro d h m j after' at_pc'
    rw [goto_callers] at at_pc'
    change j ∈ ((s.listThread g t).group h).slots
    rw [slots]
    split at at_pc'
    · exact absurd at_pc' (mine h m j after')
    · exact inv.added d h m j after' at_pc'

theorem move_threads {conf : Config} {s s' : Pool} {e : Event} (inv : ThreadInv s) (table : TableInv s)
    (clean : cleanReap s e) (move : Move conf s e s') : ThreadInv s' := by
  have listing : ∀ c g n t after, s.callers c = .listing g n t after → g ∈ s.members →
      t ∈ (s.group g).threads ∨ ∃ d n after, s.callers d = .listing g n t after :=
    fun c g n t after at_pc _ => .inr ⟨c, n, after, at_pc⟩
  cases move with
  | finish t alive | die t alive =>
    refine thread_keep inv rfl rfl ?_ (fun _ h => h) (fun _ _ _ h => h) (fun _ _ _ h => h) listing
      inv.added
    intro u busy
    by_cases same : u = t
    · rw [same, alive]
      simp
    · simpa [Pool.thread, same] using busy
  | handle | checkout =>
    exact thread_keep inv rfl rfl (fun _ h => h) (fun _ h => h) (fun _ _ _ h => h)
      (fun _ _ _ h => h) listing inv.added
  | turn c e pc turn =>
    exact thread_goto inv rfl rfl rfl rfl rfl rfl (turn_plain turn).1 (turn_plain turn).2
  | reapNone c grow at_pc =>
    exact thread_reap inv (clean c grow rfl at_pc) at_pc (reapedThen_plain _ _)
  | reap c grow at_pc => exact thread_reap inv (clean c grow rfl at_pc) at_pc (by simp)
  | release c freed grow at_pc =>
    exact thread_goto inv rfl rfl rfl rfl rfl rfl (by simp [at_pc]) (reapedThen_plain _ _)
  | claimOn c g n pc pc' b after at_pc | claimed c g n i pc b after at_pc =>
    exact thread_goto inv rfl rfl rfl rfl rfl rfl (by simp [at_pc]) (by simp)
  | retire c g at_pc | markRetired c g k i at_pc | markQuarantined c id at_pc
  | wedge c id wedged at_pc =>
    exact thread_goto inv rfl rfl rfl rfl rfl rfl (by simp [at_pc]) (by simp)
  | openGroup c n replacement after at_pc =>
    exact thread_openGroup inv table at_pc (nextSlot_plain _ _ _ _)
  | addSlot c g n i after at_pc => exact thread_addSlot inv at_pc
  | spawn c g n i after at_pc => exact thread_spawn inv table at_pc
  | list c g n t after at_pc => exact thread_list inv at_pc (nextSlot_plain _ _ _ _)

def LaneInv (conf : Config) (s : Pool) : Prop :=
  ∀ i, i < s.bank.count → (s.bank.slots i).laneTx = conf.lanes

theorem move_lanes {conf : Config} {s s' : Pool} {e : Event} (inv : LaneInv conf s)
    (move : Move conf s e s') : LaneInv conf s' := by
  have claim_keeps : ∀ {pc b next}, ClaimMove conf.lanes s.bank pc b next →
      ∀ i, i < b.count → (b.slots i).laneTx = conf.lanes := by
    intro pc b next claimed i inside
    rcases claim_lanes claimed i inside with ⟨was, same⟩ | same
    · rw [same]
      exact inv i was
    · exact same
  cases move with
  | finish | die | turn | reapNone | reap | release | openGroup | addSlot | spawn | list | retire
  | wedge => exact inv
  | handle | checkout | markRetired | markQuarantined =>
    intro i inside
    exact (put_same PoolSlot.laneTx i (by rfl)).trans (inv i inside)
  | claimOn c g n pc pc' b after at_pc claimed => exact claim_keeps claimed
  | claimed c g n i pc b after at_pc claimed => exact claim_keeps claimed

structure SlotInv (conf : Config) (s : Pool) : Prop where
  table : TableInv s
  housed : Housed (contents s) s.bank.count
  threads : ThreadInv s
  lanes : LaneInv conf s

theorem initial_slot_inv (conf : Config) : SlotInv conf (initial conf) := by
  have callers : ∀ c, (initial conf).callers c = .idle ∨
      ∃ m after, (initial conf).callers c = .spawning m false after := by
    intro c
    unfold initial
    by_cases first : c = 0
    · subst first
      cases conf.workers with
      | zero => exact .inl (by simp [After.resume])
      | succ more => exact .inr ⟨_, _, by simp [After.resume]; exact ⟨rfl, rfl⟩⟩
    · exact .inl (by simp [first])
  have nowhere : contents (initial conf) = fun _ => [] := by
    funext p
    cases p with
    | free => rfl
    | group g => simp [contents, initial]
    | hand c =>
      rcases callers c with at_pc | ⟨m, after, at_pc⟩ <;> simp [contents, at_pc, inHand]
  refine ⟨⟨by simp [initial], ?_, by simp [initial], by simp [initial]⟩, ?_, ⟨by simp [initial], ?_⟩,
    by simp [LaneInv, initial]⟩
  · intro c g at_pc
    rcases callers c with at_c | ⟨m, after, at_c⟩ <;> simp [at_c, spawns] at at_pc
  · rw [nowhere]
    exact housed_empty
  · intro c g n i after at_pc
    rcases callers c with at_c | ⟨m, after', at_c⟩ <;> simp [at_c] at at_pc

theorem reachable_slot_inv {conf : Config} {s : Pool}
    (reached : ReachableBy (system conf) cleanReap s) : SlotInv conf s := by
  refine invariant (SlotInv conf) ?_ ?_ reached
  · rintro s rfl
    exact initial_slot_inv conf
  · intro s t e inv clean moved
    have move := step_move moved
    exact ⟨move_table inv.table clean move, move_housed inv.housed inv.table move,
      move_threads inv.threads inv.table clean move, move_lanes inv.lanes move⟩

end KinoThreadedSlots
