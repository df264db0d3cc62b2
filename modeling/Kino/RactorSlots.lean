import Kino.RactorPool

/-!
Who has which slot in the ractor pool: each registered slot is in the free list, with one
worker, or abandoned.
-/
namespace KinoRactorSlots
open Transitions Ownership KinoSlotBank KinoRactorPool

theorem sup_sups (s : Pool) (w v : Nat) (pc : Sup) :
    (s.sup w pc).sups v = if v = w then pc else s.sups v := by
  by_cases same : v = w <;> simp [Pool.sup, same]

theorem goto_callers (s : Pool) (c d : Nat) (pc : Caller) :
    (s.goto c pc).callers d = if d = c then pc else s.callers d := by
  by_cases same : d = c <;> simp [Pool.goto, same]

structure IndexInv (conf : Config) (s : Pool) : Prop where
  booting : s.booted ≤ conf.workers
  numbered : conf.workers ≤ s.nextIndex
  unused : ∀ w, s.nextIndex ≤ w → s.sups w = .absent
  unbooted : ∀ w, s.booted ≤ w → w < conf.workers → s.sups w = .absent
  held : ∀ c w old, s.callers c = .supervising w old →
    s.sups w = .absent ∧ w < s.nextIndex ∧ conf.workers ≤ w
  once : ∀ c d w old old', s.callers c = .supervising w old → s.callers d = .supervising w old' →
    c = d

theorem initial_index_inv (conf : Config) : IndexInv conf (initial conf) :=
  ⟨Nat.zero_le _, le_refl _, fun _ _ => rfl, fun _ _ _ => rfl, by simp [initial], by simp [initial]⟩

theorem index_sup {conf : Config} {s s' : Pool} {w : Nat} {pc : Sup} (inv : IndexInv conf s)
    (here : s.sups w ≠ .absent) (sups : s'.sups = s.sups) (callers : s'.callers = s.callers)
    (next : s'.nextIndex = s.nextIndex) (booted : s'.booted = s.booted) :
    IndexInv conf (s'.sup w pc) := by
  have stay : ∀ v, s.sups v = .absent → (s'.sup w pc).sups v = .absent := by
    intro v absent
    rw [sup_sups, sups]
    split
    · next same =>
      rw [same] at absent
      exact absurd absent here
    · exact absent
  refine ⟨booted.le.trans inv.booting, inv.numbered.trans next.ge, ?_, ?_, ?_, ?_⟩
  · intro v outside
    exact stay v (inv.unused v (next ▸ outside))
  · intro v from_ below
    exact stay v (inv.unbooted v (booted ▸ from_) below)
  · intro c v old at_pc
    have at_pc' : s.callers c = .supervising v old := by rw [← callers]; exact at_pc
    obtain ⟨absent, less, later⟩ := inv.held c v old at_pc'
    exact ⟨stay v absent, next ▸ less, later⟩
  · intro c d v old old' first second
    have first' : s.callers c = .supervising v old := by rw [← callers]; exact first
    have second' : s.callers d = .supervising v old' := by rw [← callers]; exact second
    exact inv.once c d v old old' first' second'

theorem index_goto {conf : Config} {s s' : Pool} {c : Nat} {pc : Caller} (inv : IndexInv conf s)
    (sups : s'.sups = s.sups) (callers : s'.callers = s.callers)
    (next : s'.nextIndex = s.nextIndex) (booted : s'.booted = s.booted)
    (without : ∀ w old, pc ≠ .supervising w old) : IndexInv conf (s'.goto c pc) := by
  have before : ∀ d w old, (s'.goto c pc).callers d = .supervising w old →
      s.callers d = .supervising w old := by
    intro d w old at_pc
    rw [goto_callers, callers] at at_pc
    split at at_pc
    · exact absurd at_pc (without w old)
    · exact at_pc
  refine ⟨booted.le.trans inv.booting, inv.numbered.trans next.ge, ?_, ?_, ?_, ?_⟩
  · intro v outside
    change s'.sups v = .absent
    rw [sups]
    exact inv.unused v (next ▸ outside)
  · intro v from_ below
    change s'.sups v = .absent
    rw [sups]
    exact inv.unbooted v (booted ▸ from_) below
  · intro d v old at_pc
    obtain ⟨absent, less, later⟩ := inv.held d v old (before d v old at_pc)
    refine ⟨?_, next ▸ less, later⟩
    change s'.sups v = .absent
    rw [sups]
    exact absent
  · intro d e v old old' first second
    exact inv.once d e v old old' (before d v old first) (before e v old' second)

theorem turn_plain {conf : Config} {s : Pool} {c : Nat} {e : Event} {pc : Caller}
    (turn : Turn conf s c e pc)
    (w : Nat) (old : Option Nat) : pc ≠ .supervising w old := by
  cases turn with
  | call op => cases op <;> simp [Call.entry]
  | looked id => cases s.slotToWorker id <;> simp
  | grow | full | refused | marked | again | read => simp

theorem supervise_sups (s : Pool) (w v : Nat) :
    (s.supervise w).sups v = if v = w then .claiming [] .popping else s.sups v :=
  sup_sups _ w v _

theorem move_index_inv {conf : Config} {s s' : Pool} {e : Event} (inv : IndexInv conf s)
    (move : Move conf s e s') : IndexInv conf s' := by
  cases move with
  | boot more =>
    have apart : ∀ v, v ≠ s.booted → s.sups v = .absent →
        (s.supervise s.booted).sups v = .absent := by
      intro v other absent
      rw [supervise_sups, if_neg other]
      exact absent
    refine ⟨more, inv.numbered, ?_, ?_, ?_, inv.once⟩
    · intro v outside
      have numbered := inv.numbered
      change s.nextIndex ≤ v at outside
      exact apart v (by omega) (inv.unused v outside)
    · intro v from_ below
      change s.booted + 1 ≤ v at from_
      exact apart v (by omega) (inv.unbooted v (by omega) below)
    · intro c v old at_pc
      obtain ⟨absent, less, later⟩ := inv.held c v old at_pc
      exact ⟨apart v (by omega) absent, less, later⟩
  | claimOn w got pc pc' b at_pc | claimed w got pc b i at_pc | abort w i left at_pc
  | release w ids at_pc | respawn w at_pc | leave w ids at_pc | quit w ids at_pc =>
    exact index_sup inv (by simp [at_pc]) rfl rfl rfl rfl
  | assign w got at_pc | joined w ids at_pc | crash w ids at_pc =>
    exact index_sup inv (by simp [at_pc]) rfl rfl rfl rfl
  | endLoop | handle | checkout =>
    exact ⟨inv.booting, inv.numbered, inv.unused, inv.unbooted, inv.held, inv.once⟩
  | turn c e pc turn => exact index_goto inv rfl rfl rfl rfl (turn_plain turn)
  | retire c w at_pc =>
    refine index_goto inv rfl rfl rfl rfl ?_
    cases s.workerSlots w <;> simp
  | markRetired | replace | markQuarantined => exact index_goto inv rfl rfl rfl rfl (by simp)
  | number c old at_pc =>
    have before : ∀ d w old', (({ s with nextIndex := s.nextIndex + 1 } : Pool).goto c
        (.supervising s.nextIndex old)).callers d = .supervising w old' →
        (d = c ∧ w = s.nextIndex) ∨ (d ≠ c ∧ s.callers d = .supervising w old') := by
      intro d w old' at_pc'
      rw [goto_callers] at at_pc'
      split at at_pc'
      · next same =>
        cases at_pc'
        exact .inl ⟨same, rfl⟩
      · next other => exact .inr ⟨other, at_pc'⟩
    refine ⟨inv.booting, Nat.le_succ_of_le inv.numbered, ?_, inv.unbooted, ?_, ?_⟩
    · intro v outside
      change s.nextIndex + 1 ≤ v at outside
      exact inv.unused v (by omega)
    · intro d v old' at_pc'
      rcases before d v old' at_pc' with ⟨_, rfl⟩ | ⟨_, was⟩
      · exact ⟨inv.unused _ (le_refl _), Nat.lt_succ_self _, inv.numbered⟩
      · obtain ⟨absent, less, later⟩ := inv.held d v old' was
        exact ⟨absent, Nat.lt_succ_of_lt less, later⟩
    · intro d e v o o' first second
      rcases before d v o first with ⟨rfl, rfl⟩ | ⟨_, was⟩
      · rcases before e _ o' second with ⟨rfl, _⟩ | ⟨_, was'⟩
        · rfl
        · exact absurd (inv.held e _ o' was').2.1 (lt_irrefl _)
      · rcases before e v o' second with ⟨_, rfl⟩ | ⟨_, was'⟩
        · exact absurd (inv.held d _ o was).2.1 (lt_irrefl _)
        · exact inv.once d e v o o' was was'
  | supervise c new old at_pc =>
    obtain ⟨_, less, later⟩ := inv.held c new old at_pc
    have before : ∀ d w old', ((s.supervise new).goto c (old.elim .idle .reading)).callers d =
        .supervising w old' → d ≠ c ∧ s.callers d = .supervising w old' := by
      intro d w old' at_pc'
      rw [goto_callers] at at_pc'
      split at at_pc'
      · cases old <;> cases at_pc'
      · next other => exact ⟨other, at_pc'⟩
    have apart : ∀ v, v ≠ new → s.sups v = .absent →
        ((s.supervise new).goto c (old.elim .idle .reading)).sups v = .absent := by
      intro v other absent
      change (s.supervise new).sups v = .absent
      rw [supervise_sups, if_neg other]
      exact absent
    refine ⟨inv.booting, inv.numbered, ?_, ?_, ?_, ?_⟩
    · intro v outside
      change s.nextIndex ≤ v at outside
      exact apart v (by omega) (inv.unused v outside)
    · intro v from_ below
      exact apart v (by omega) (inv.unbooted v from_ below)
    · intro d v old' at_pc'
      obtain ⟨other, was⟩ := before d v old' at_pc'
      obtain ⟨absent, less', later'⟩ := inv.held d v old' was
      refine ⟨apart v ?_ absent, less', later'⟩
      intro same
      subst same
      exact other (inv.once d c v old' old was at_pc)
    · intro d e v o o' first second
      exact inv.once d e v o o' (before d v o first).2 (before e v o' second).2

inductive Place where
  | free
  | worker (w : Nat)
  | abandoned
  deriving DecidableEq, Repr

def listed : Sup → List Nat
  | .claiming got pc => got ++ popped pc
  | .running ids | .leaving ids | .releasing ids => ids
  | .absent | .aborting _ | .ended => []

def contents (s : Pool) : Place → List Nat
  | .free => s.bank.free
  | .worker w => listed (s.sups w)
  | .abandoned => s.abandoned

@[simp] theorem contents_free (s : Pool) : contents s .free = s.bank.free := rfl

@[simp] theorem contents_abandoned (s : Pool) : contents s .abandoned = s.abandoned := rfl

@[simp] theorem contents_sup (s : Pool) (w v : Nat) (pc : Sup) :
    contents (s.sup w pc) (.worker v) = if v = w then listed pc else contents s (.worker v) := by
  simp only [contents, sup_sups]
  split <;> rfl

theorem housed_sup {s s' : Pool} {w : Nat} {pc : Sup} (housed : Housed (contents s) s.bank.count)
    (sups : s'.sups = s.sups) (free : s'.bank.free = s.bank.free)
    (count : s'.bank.count = s.bank.count) (left : s'.abandoned = s.abandoned)
    (same : listed pc = listed (s.sups w)) :
    Housed (contents (s'.sup w pc)) (s'.sup w pc).bank.count := by
  change Housed (contents (s'.sup w pc)) s'.bank.count
  rw [count]
  apply housed_same housed
  intro q i
  cases q with
  | free => exact congrArg (List.count i) free
  | abandoned => exact congrArg (List.count i) left
  | worker v =>
    rw [contents_sup]
    split
    · next at_w => rw [at_w, same]; rfl
    · simp only [contents, sups]

theorem housed_abandon {s s' : Pool} {w : Nat} {pc : Sup} {ids : List Nat}
    (housed : Housed (contents s) s.bank.count) (mine : listed (s.sups w) = ids)
    (sups : s'.sups = s.sups) (bank : s'.bank = s.bank)
    (left : s'.abandoned = s.abandoned ++ ids) (none_left : listed pc = []) :
    Housed (contents (s'.sup w pc)) (s'.sup w pc).bank.count := by
  change Housed (contents (s'.sup w pc)) s'.bank.count
  rw [bank]
  refine housed_shift (p := .worker w) (q := .abandoned) ids housed (by simp) ?_ ?_ ?_
  · intro i
    rw [contents_sup, if_pos rfl, none_left]
    simp [contents, mine]
  · intro i
    rw [← List.count_append]
    exact congrArg (List.count i) left
  · intro o from_ away i
    cases o with
    | free => exact congrArg (fun b : Bank => b.free.count i) bank
    | abandoned => exact absurd rfl away
    | worker v =>
      have other : v ≠ w := fun same => from_ (by rw [same])
      rw [contents_sup, if_neg other]
      simp only [contents, sups]

theorem housed_release {s : Pool} {w : Nat} {ids : List Nat}
    (housed : Housed (contents s) s.bank.count) (at_pc : s.sups w = .releasing ids) :
    Housed (contents ({ s with bank := s.bank.release ids }.sup w .ended)) s.bank.count := by
  refine housed_shift (p := .worker w) (q := .free) ids housed (by simp) ?_ ?_ ?_
  · intro i
    rw [contents_sup, if_pos rfl]
    simp [contents, at_pc, listed]
  · intro i
    simp [contents, Pool.sup, Bank.release]
  · intro o from_ away i
    cases o with
    | free => exact absurd rfl away
    | abandoned => rfl
    | worker v =>
      have other : v ≠ w := fun same => from_ (by rw [same])
      rw [contents_sup, if_neg other]
      rfl

theorem housed_supervise {s : Pool} {w : Nat} (housed : Housed (contents s) s.bank.count)
    (absent : s.sups w = .absent) :
    Housed (contents (s.supervise w)) (s.supervise w).bank.count :=
  housed_sup housed rfl rfl rfl rfl (by simp [absent, listed, popped])

theorem housed_caller {s s' : Pool} {c : Nat} {pc : Caller} (housed : Housed (contents s) s.bank.count)
    (sups : s'.sups = s.sups) (free : s'.bank.free = s.bank.free)
    (count : s'.bank.count = s.bank.count) (left : s'.abandoned = s.abandoned) :
    Housed (contents (s'.goto c pc)) (s'.goto c pc).bank.count := by
  have same : contents (s'.goto c pc) = contents s := by
    funext q
    cases q with
    | free => exact free
    | abandoned => exact left
    | worker v => exact congrArg listed (congrFun sups v)
  change Housed (contents (s'.goto c pc)) s'.bank.count
  rw [same, count]
  exact housed

theorem housed_claim {conf : Config} {s : Pool} {w : Nat} {got : List Nat} {pc pc' : ClaimPc} {b : Bank}
    (housed : Housed (contents s) s.bank.count) (at_pc : s.sups w = .claiming got pc)
    (claimed : ClaimMove conf.lanes s.bank pc b (.going pc')) :
    Housed (contents ({ s with bank := b }.sup w (.claiming got pc'))) b.count := by
  cases claimed with
  | none_free empty => exact housed_sup housed rfl rfl rfl rfl (by simp [at_pc, listed, popped])
  | pop rest i last =>
    refine housed_shift (p := .free) (q := .worker w) [i] housed (by simp) ?_ ?_ ?_
    · intro j
      simp [last, contents, Pool.sup]
    · intro j
      simp [contents, Pool.sup, at_pc, listed, popped]
    · intro o from_ away j
      cases o with
      | free => exact absurd rfl from_
      | abandoned => rfl
      | worker v =>
        have other : v ≠ w := fun same => away (by rw [same])
        rw [contents_sup, if_neg other]
        rfl

theorem housed_claimed {conf : Config} {s : Pool} {w i : Nat} {got : List Nat} {pc : ClaimPc} {b : Bank}
    (housed : Housed (contents s) s.bank.count) (at_pc : s.sups w = .claiming got pc)
    (claimed : ClaimMove conf.lanes s.bank pc b (.handed i)) :
    Housed (contents ({ s with bank := b }.sup w (.claiming (got ++ [i]) .popping))) b.count := by
  cases claimed with
  | reset i => exact housed_sup housed rfl rfl rfl rfl (by simp [at_pc, listed, popped])
  | register =>
    refine housed_enter (p := .worker w) housed ?_ ?_
    · intro j
      rw [contents_sup, if_pos rfl]
      by_cases same : j = s.bank.count
      · simp [contents, at_pc, listed, popped, same]
      · simp [contents, at_pc, listed, popped, same, Ne.symm same]
    · intro o away j
      cases o with
      | free | abandoned => rfl
      | worker v =>
        have other : v ≠ w := fun same => away (by rw [same])
        rw [contents_sup, if_neg other]
        rfl

theorem move_housed {conf : Config} {s s' : Pool} {e : Event} (housed : Housed (contents s) s.bank.count)
    (index : IndexInv conf s) (move : Move conf s e s') : Housed (contents s') s'.bank.count := by
  cases move with
  | boot more => exact housed_supervise housed (index.unbooted s.booted (le_refl _) more)
  | supervise c new old at_pc =>
    have kept := housed_supervise housed (index.held c new old at_pc).1
    exact housed_caller kept rfl rfl rfl rfl
  | claimOn w got pc pc' b at_pc claimed => exact housed_claim housed at_pc claimed
  | claimed w got pc b i at_pc claimed => exact housed_claimed housed at_pc claimed
  | assign w got at_pc =>
    exact housed_sup housed rfl rfl rfl rfl (by simp [at_pc, listed, popped])
  | joined w ids at_pc | leave w ids at_pc => exact housed_sup housed rfl rfl rfl rfl (by simp [at_pc, listed])
  | abort w i left at_pc | respawn w at_pc =>
    exact housed_sup housed rfl rfl rfl rfl (by simp [at_pc, listed, popped])
  | crash w ids at_pc | quit w ids at_pc =>
    exact housed_abandon housed (by simp [at_pc, listed]) rfl rfl rfl rfl
  | release w ids at_pc => exact housed_release housed at_pc
  | endLoop | handle | checkout => exact housed
  | turn | number | retire | markRetired | replace | markQuarantined =>
    exact housed_caller housed rfl rfl rfl rfl

def LoopInv (s : Pool) : Prop :=
  ∀ i, s.loops i = .running → ∃ w ids, s.sups w = .running ids ∧ i ∈ ids

theorem loops_sup {s s' : Pool} {w : Nat} {pc : Sup} (inv : LoopInv s)
    (idle : ∀ ids, s.sups w ≠ .running ids) (sups : s'.sups = s.sups) (loops : s'.loops = s.loops) :
    LoopInv (s'.sup w pc) := by
  intro i alive
  change s'.loops i = .running at alive
  rw [loops] at alive
  obtain ⟨v, ids, at_v, here⟩ := inv i alive
  refine ⟨v, ids, ?_, here⟩
  have other : v ≠ w := by
    intro same
    subst same
    exact idle ids at_v
  rw [sup_sups, if_neg other, sups]
  exact at_v

theorem loops_stop {s s' : Pool} {w : Nat} {ids : List Nat} {pc : Sup} (inv : LoopInv s)
    (at_pc : s.sups w = .running ids) (sups : s'.sups = s.sups)
    (fewer : ∀ i, s'.loops i = .running → s.loops i = .running)
    (stopped : ∀ i ∈ ids, s'.loops i ≠ .running) : LoopInv (s'.sup w pc) := by
  intro i alive
  change s'.loops i = .running at alive
  obtain ⟨v, ids', at_v, here⟩ := inv i (fewer i alive)
  refine ⟨v, ids', ?_, here⟩
  have other : v ≠ w := by
    intro same
    subst same
    rw [at_pc] at at_v
    cases at_v
    exact stopped i here alive
  rw [sup_sups, if_neg other, sups]
  exact at_v

theorem move_loops {conf : Config} {s s' : Pool} {e : Event} (inv : LoopInv s) (index : IndexInv conf s)
    (move : Move conf s e s') : LoopInv s' := by
  cases move with
  | boot more =>
    have absent := index.unbooted s.booted (le_refl _) more
    exact loops_sup inv (by simp [absent]) rfl rfl
  | supervise c new old at_pc =>
    have absent := (index.held c new old at_pc).1
    exact loops_sup inv (by simp [absent]) rfl rfl
  | claimOn w got pc pc' b at_pc | claimed w got pc b i at_pc | abort w i left at_pc
  | respawn w at_pc | leave w ids at_pc | quit w ids at_pc | release w ids at_pc =>
    exact loops_sup inv (by simp [at_pc]) rfl rfl
  | assign w got at_pc =>
    intro i alive
    change (if i ∈ got then Loop.running else s.loops i) = .running at alive
    split at alive
    · next here => exact ⟨w, got, by simp [Pool.assign, Pool.sup], here⟩
    · obtain ⟨v, ids, at_v, here⟩ := inv i alive
      refine ⟨v, ids, ?_, here⟩
      have other : v ≠ w := by
        intro same
        subst same
        rw [at_pc] at at_v
        cases at_v
      simpa [Pool.assign, sup_sups, other] using at_v
  | joined w ids at_pc all =>
    refine loops_stop inv at_pc rfl (fun _ alive => alive) ?_
    intro i here
    rw [all i here]
    simp
  | crash w ids at_pc =>
    refine loops_stop inv at_pc rfl ?_ ?_
    · intro i alive
      by_contra dead
      simp only at alive
      split at alive <;> simp_all
    · intro i here
      by_cases done : s.loops i = .finished <;> simp [here, done]
  | endLoop i loop e alive ended =>
    intro j running
    by_cases same : j = i
    · simp [Pool.loop, same, ended] at running
    · exact inv j (by simpa [Pool.loop, same] using running)
  | handle | checkout | turn | number | retire | markRetired | replace | markQuarantined => exact inv

structure LaneInv (conf : Config) (s : Pool) : Prop where
  lanes : ∀ i, i < s.bank.count → i ∉ s.abandoned → (s.bank.slots i).laneTx = conf.lanes
  aborting : ∀ w left, s.sups w = .aborting left → ∀ i ∈ left, i ∈ s.abandoned

theorem lane_keep {conf : Config} {s s' : Pool} (inv : LaneInv conf s)
    (lanes : ∀ i, i < s'.bank.count → i < s.bank.count ∧
      (s'.bank.slots i).laneTx = (s.bank.slots i).laneTx ∨ (s'.bank.slots i).laneTx = conf.lanes)
    (more : ∀ i ∈ s.abandoned, i ∈ s'.abandoned)
    (aborting : ∀ w left, s'.sups w = .aborting left →
      s.sups w = .aborting left ∨ ∀ i ∈ left, i ∈ s'.abandoned) : LaneInv conf s' := by
  constructor
  · intro i inside away_
    rcases lanes i inside with ⟨was, same⟩ | same
    · rw [same]
      exact inv.lanes i was fun here => away_ (more i here)
    · exact same
  · intro w left at_pc i here
    rcases aborting w left at_pc with was | all
    · exact more i (inv.aborting w left was i here)
    · exact all i here

theorem aborting_sup {s s' : Pool} {w v : Nat} {pc : Sup} {left : List Nat} (sups : s'.sups = s.sups)
    (calm : ∀ ids, pc ≠ .aborting ids) (at_pc : (s'.sup w pc).sups v = .aborting left) :
    s.sups v = .aborting left := by
  rw [sup_sups, sups] at at_pc
  split at at_pc
  · exact absurd at_pc (calm left)
  · exact at_pc

theorem move_lanes {conf : Config} {s s' : Pool} {e : Event} (inv : LaneInv conf s) (move : Move conf s e s') :
    LaneInv conf s' := by
  have still : ∀ i, i < s.bank.count → i < s.bank.count ∧
      (s.bank.slots i).laneTx = (s.bank.slots i).laneTx ∨ (s.bank.slots i).laneTx = conf.lanes :=
    fun i inside => .inl ⟨inside, rfl⟩
  cases move with
  | boot | supervise =>
    exact lane_keep inv still (fun _ here => here)
      fun v left at_v => .inl (aborting_sup rfl (by simp) at_v)
  | assign | joined | respawn | leave =>
    exact lane_keep inv still (fun _ here => here)
      fun v left at_v => .inl (aborting_sup rfl (by simp) at_v)
  | claimOn w got pc pc' b at_pc claimed =>
    exact lane_keep inv (claim_lanes claimed) (fun _ here => here)
      fun v left at_v => .inl (aborting_sup rfl (by simp) at_v)
  | claimed w got pc b i at_pc claimed =>
    exact lane_keep inv (claim_lanes claimed) (fun _ here => here)
      fun v left at_v => .inl (aborting_sup rfl (by simp) at_v)
  | quit w ids at_pc =>
    exact lane_keep inv still (fun _ here => List.mem_append_left _ here)
      fun v left at_v => .inl (aborting_sup rfl (by simp) at_v)
  | release w ids at_pc =>
    exact lane_keep inv still (fun _ here => here)
      fun v left at_v => .inl (aborting_sup rfl (by simp) at_v)
  | crash w ids at_pc =>
    refine lane_keep inv still (fun _ here => List.mem_append_left _ here) ?_
    intro v left at_v
    change (Pool.sup _ w (.aborting ids)).sups v = .aborting left at at_v
    rw [sup_sups] at at_v
    split at at_v
    · cases at_v
      exact .inr fun i here => List.mem_append_right _ here
    · exact .inl at_v
  | abort w i left at_pc =>
    have gone := inv.aborting w (i :: left) at_pc
    constructor
    · intro j inside away_
      have other : j ≠ i := by
        intro same
        subst same
        exact away_ (gone j (by simp))
      have same : ((s.bank.abortInflight i).slots j).laneTx = (s.bank.slots j).laneTx := by
        simp [Bank.abortInflight, Bank.put, other]
      exact same.trans (inv.lanes j inside away_)
    · intro v left' at_v j here
      rw [sup_sups] at at_v
      split at at_v
      · cases at_v
        exact gone j (by simp [here])
      · exact inv.aborting v left' at_v j here
  | endLoop | turn | number | retire | replace => exact ⟨inv.lanes, inv.aborting⟩
  | handle | checkout | markRetired | markQuarantined =>
    exact lane_keep inv (fun j inside => .inl ⟨inside, put_same PoolSlot.laneTx j (by rfl)⟩) (fun _ here => here)
      fun v left at_v => .inl at_v

structure OwnInv (conf : Config) (s : Pool) : Prop where
  index : IndexInv conf s
  housed : Housed (contents s) s.bank.count
  loops : LoopInv s
  lanes : LaneInv conf s

theorem initial_own_inv (conf : Config) : OwnInv conf (initial conf) := by
  refine ⟨initial_index_inv conf, ?_, by simp [LoopInv, initial], by simp [initial], by simp [initial]⟩
  have nowhere : contents (initial conf) = fun _ => [] := by
    funext p
    cases p <;> rfl
  rw [nowhere]
  exact housed_empty

theorem step_own_inv {conf : Config} {s s' : Pool} {e : Event} (inv : OwnInv conf s)
    (moved : step conf s e = some s') : OwnInv conf s' := by
  have move := step_move moved
  exact ⟨move_index_inv inv.index move, move_housed inv.housed inv.index move,
    move_loops inv.loops inv.index move, move_lanes inv.lanes move⟩

theorem reachable_own_inv {conf : Config} {s : Pool} (reached : Reachable (system conf) s) :
    OwnInv conf s := by
  refine reachable_invariant (OwnInv conf) ?_ (fun s t e inv moved => step_own_inv inv moved) reached
  rintro s rfl
  exact initial_own_inv conf

theorem idle_slot {conf : Config} {s : Pool} (inv : OwnInv conf s) {p : Place} {i : Nat}
    (here : i ∈ contents s p) (outside : ∀ w ids, p = .worker w → s.sups w ≠ .running ids) :
    s.loops i ≠ .running := by
  intro alive
  obtain ⟨w, ids, at_w, there⟩ := inv.loops i alive
  have same : p = .worker w := by
    refine housed_apart inv.housed here ?_
    simpa [contents, at_w, listed] using there
  exact outside w ids same at_w

end KinoRactorSlots
