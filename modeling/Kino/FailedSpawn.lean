import Kino.RactorSlots
import Kino.ThreadedSlots

/-!
The two pools when `Thread.new` raises: `supervise` in `RactorSupervisor#grow` and `#replace`,
and `spawn_thread` in a `spawn_group` of `ThreadedPool#grow` and `#replace`. `raise` is the
spawn that fails; `rescue` is the handler of `RactorSupervisor#replace`.
-/
namespace KinoFailedSpawn
open Transitions KinoSlotBank

inductive Label (Event : Type) where
  | pool (e : Event)
  | raise (c : Nat)
  | rescue (c : Nat)
  deriving DecidableEq, Repr

def attempt {Event : Type} (call own : Event) (c n k : Nat) : List (Label Event) :=
  .pool call :: (List.replicate n (.pool own) ++ .raise c :: List.replicate k (.rescue c))

section Ractors
open KinoRactorPool

/-- `rescuing` has the worker that a `replace` which has raised takes out of `@replaced`. -/
structure Ractors where
  pool : Pool
  rescuing : Nat → Option Nat

/-- `supervise` marks the worker live before `Thread.new`. -/
def markLive (s : Pool) (w : Nat) : Pool := { s with live := insert w s.live }

def blocked (s : Ractors) : Event → Bool
  | .call c _ => (s.rescuing c).isSome
  | _ => false

def ractorStep (conf : Config) (s : Ractors) : Label Event → Option Ractors
  | .pool e => if blocked s e then none else (step conf s.pool e).map fun p => { s with pool := p }
  | .raise c =>
    match s.pool.callers c with
    | .supervising new old =>
      some ⟨(markLive s.pool new).goto c .idle, Function.update s.rescuing c old⟩
    | _ => none
  | .rescue c =>
    match s.rescuing c with
    | some old =>
      some ⟨{ s.pool with replaced := s.pool.replaced.erase old }, Function.update s.rescuing c none⟩
    | none => none

def ractors (conf : Config) : System Ractors (Label Event) where
  start s := s = ⟨initial conf, fun _ => none⟩
  step := ractorStep conf

structure RactorsUnchanged (s s' : Pool) : Prop where
  activeCount : s'.activeCount = s.activeCount
  groups : ∀ w, s'.groups w = s.groups w
  live : s'.live = s.live
  replaced : s'.replaced = s.replaced
  staffed : ∀ w ∈ s'.live, w ∈ s.live ∨ s'.sups w ≠ .absent

structure Numbered (s : Pool) : Prop where
  live : ∀ w ∈ s.live, w < s.nextIndex
  retiring : ∀ w ∈ s.retiring, w < s.nextIndex
  replaced : ∀ w ∈ s.replaced, w < s.nextIndex
  slots : ∀ i w, s.slotToWorker i = some w → w < s.nextIndex
  replacing : ∀ c w, s.callers c = .replacing w → w < s.nextIndex

theorem numbered_keep {s s' : Pool} (inv : Numbered s) (next : s.nextIndex ≤ s'.nextIndex)
    (live : ∀ w ∈ s'.live, w ∈ s.live ∨ w < s'.nextIndex)
    (retiring : ∀ w ∈ s'.retiring, w ∈ s.retiring ∨ w ∈ s.live)
    (replaced : ∀ w ∈ s'.replaced, w ∈ s.replaced ∨ ∃ c, s.callers c = .replacing w)
    (slots : ∀ i w, s'.slotToWorker i = some w → s.slotToWorker i = some w ∨ w < s.nextIndex)
    (replacing : ∀ c w, s'.callers c = .replacing w →
      s.callers c = .replacing w ∨ ∃ i, s.slotToWorker i = some w) : Numbered s' := by
  constructor
  · intro w here
    rcases live w here with before | less
    · exact lt_of_lt_of_le (inv.live w before) next
    · exact less
  · intro w here
    rcases retiring w here with before | before
    · exact lt_of_lt_of_le (inv.retiring w before) next
    · exact lt_of_lt_of_le (inv.live w before) next
  · intro w here
    rcases replaced w here with before | ⟨c, at_pc⟩
    · exact lt_of_lt_of_le (inv.replaced w before) next
    · exact lt_of_lt_of_le (inv.replacing c w at_pc) next
  · intro i w there
    rcases slots i w there with before | less
    · exact lt_of_lt_of_le (inv.slots i w before) next
    · exact lt_of_lt_of_le less next
  · intro c w there
    rcases replacing c w there with before | ⟨i, before⟩
    · exact lt_of_lt_of_le (inv.replacing c w before) next
    · exact lt_of_lt_of_le (inv.slots i w before) next

theorem goto_replacing {s s' : Pool} {c d w : Nat} {pc : Caller} (callers : s'.callers = s.callers)
    (mine : ∀ w, pc = .replacing w → ∃ i, s.slotToWorker i = some w)
    (there : (s'.goto c pc).callers d = .replacing w) :
    s.callers d = .replacing w ∨ ∃ i, s.slotToWorker i = some w := by
  rw [KinoRactorSlots.goto_callers, callers] at there
  split at there
  · exact .inr (mine w there)
  · exact .inl there

theorem turn_replacing {conf : Config} {s : Pool} {c w : Nat} {e : Event} {pc : Caller}
    (turn : Turn conf s c e pc) (there : pc = .replacing w) : ∃ i, s.slotToWorker i = some w := by
  cases turn with
  | looked id at_pc =>
    cases owner : s.slotToWorker id with
    | none => simp [owner] at there
    | some v =>
      simp only [owner, Option.elim_some, Caller.replacing.injEq] at there
      exact ⟨id, there ▸ owner⟩
  | call op => cases op <;> cases there
  | _ => cases there

theorem move_numbered {conf : Config} {s s' : Pool} {e : Event} (inv : Numbered s)
    (index : KinoRactorSlots.IndexInv conf s) (move : Move conf s e s') : Numbered s' := by
  have there {w : Nat} (present : s.sups w ≠ .absent) : w < s.nextIndex := by
    by_contra outside
    exact present (index.unused w (by omega))
  cases move with
  | boot more =>
    refine numbered_keep inv le_rfl ?_ (by tauto) (by tauto) (by tauto) (by tauto)
    intro w here
    rcases Finset.mem_insert.mp here with rfl | before
    · exact .inr (lt_of_lt_of_le more index.numbered)
    · exact .inl before
  | claimOn | claimed | joined | crash | abort | release | endLoop | handle | checkout =>
    exact ⟨inv.live, inv.retiring, inv.replaced, inv.slots, inv.replacing⟩
  | assign w got at_pc whole =>
    refine numbered_keep inv le_rfl (by tauto) (by tauto) (by tauto) ?_ (by tauto)
    intro i v owner
    change (if i ∈ got then some w else s.slotToWorker i) = some v at owner
    split at owner
    · cases owner
      exact .inr (there (by rw [at_pc]; simp))
    · exact .inl owner
  | respawn w at_pc =>
    refine numbered_keep inv le_rfl (by tauto) ?_ (by tauto) (by tauto) (by tauto)
    intro v here
    exact .inl (Finset.mem_of_mem_erase here)
  | leave w ids at_pc | quit w ids at_pc =>
    refine numbered_keep inv le_rfl ?_ ?_ (by tauto) (by tauto) (by tauto)
    · intro v here
      exact .inl (Finset.mem_of_mem_erase here)
    · intro v here
      exact .inl (Finset.mem_of_mem_erase here)
  | turn c e pc turn =>
    refine numbered_keep inv le_rfl (by tauto) (by tauto) (by tauto) (by tauto) ?_
    intro d w now
    exact goto_replacing rfl (fun w => turn_replacing turn) now
  | number c old at_pc =>
    refine numbered_keep inv (Nat.le_succ _) (by tauto) (by tauto) (by tauto) (by tauto) ?_
    intro d w now
    exact goto_replacing (s := s) rfl (by simp) now
  | supervise c new old at_pc =>
    refine numbered_keep inv le_rfl ?_ (by tauto) (by tauto) (by tauto) ?_
    · intro w here
      rcases Finset.mem_insert.mp here with rfl | before
      · exact .inr (index.held c w old at_pc).2.1
      · exact .inl before
    · intro d w now
      exact goto_replacing (s := s) rfl (by cases old <;> simp) now
  | retire c w at_pc alive staying =>
    refine numbered_keep inv le_rfl (by tauto) ?_ (by tauto) (by tauto) ?_
    · intro v here
      rcases Finset.mem_insert.mp here with rfl | before
      · exact .inr alive
      · exact .inl before
    · intro d v now
      exact goto_replacing (s := s) rfl (by cases s.workerSlots w <;> simp) now
  | markRetired c i left at_pc | markQuarantined c i left at_pc =>
    refine numbered_keep inv le_rfl (by tauto) (by tauto) (by tauto) (by tauto) ?_
    intro d w now
    exact goto_replacing (s := s) rfl (by simp) now
  | replace c w at_pc first =>
    refine numbered_keep inv le_rfl (by tauto) (by tauto) ?_ (by tauto) ?_
    · intro v here
      rcases Finset.mem_insert.mp here with rfl | before
      · exact .inr ⟨c, at_pc⟩
      · exact .inl before
    · intro d v now
      exact goto_replacing (s := s) rfl (by simp) now

theorem ractors_numbered {conf : Config} {s : Ractors} (reached : Reachable (ractors conf) s) :
    Numbered s.pool ∧ KinoRactorSlots.IndexInv conf s.pool := by
  refine reachable_invariant (m := ractors conf)
    (fun s => Numbered s.pool ∧ KinoRactorSlots.IndexInv conf s.pool) ?_ ?_ reached
  · rintro s rfl
    refine ⟨?_, KinoRactorSlots.initial_index_inv conf⟩
    constructor <;> simp [initial]
  · rintro s t l ⟨inv, index⟩ moved
    cases l with
    | pool e =>
      simp only [ractors, ractorStep] at moved
      split at moved
      · cases moved
      · obtain ⟨p, stepped, rfl⟩ := Option.map_eq_some_iff.mp moved
        have move := step_move stepped
        exact ⟨move_numbered inv index move, KinoRactorSlots.move_index_inv index move⟩
    | raise c =>
      simp only [ractors, ractorStep] at moved
      split at moved
      · next new old at_pc =>
        cases moved
        have marked : KinoRactorSlots.IndexInv conf (markLive s.pool new) :=
          ⟨index.booting, index.numbered, index.unused, index.unbooted, index.held, index.once⟩
        refine ⟨?_, KinoRactorSlots.index_goto marked rfl rfl rfl rfl (by simp)⟩
        refine numbered_keep inv le_rfl ?_ (by tauto) (by tauto) (by tauto) ?_
        · intro w here
          rcases Finset.mem_insert.mp here with rfl | before
          · exact .inr (index.held c w old at_pc).2.1
          · exact .inl before
        · intro d w now
          change ((markLive s.pool new).goto c .idle).callers d = .replacing w at now
          exact goto_replacing (s := s.pool) rfl (by simp) now
      · cases moved
    | rescue c =>
      simp only [ractors, ractorStep] at moved
      split at moved
      · next old _ =>
        cases moved
        refine ⟨?_, index.booting, index.numbered, index.unused, index.unbooted, index.held, index.once⟩
        refine numbered_keep inv le_rfl (by tauto) (by tauto) ?_ (by tauto) (by tauto)
        intro w here
        exact .inl (Finset.mem_of_mem_erase here)
      · cases moved

/-- The tables of a call that has not yet spawned: `replace` has claimed the old worker. -/
structure Before (s t : Pool) (old : Option Nat) : Prop where
  live : t.live = s.live
  retiring : t.retiring = s.retiring
  sups : t.sups = s.sups
  replaced : t.replaced = old.elim s.replaced fun w => insert w s.replaced
  first : ∀ w, old = some w → w ∉ s.replaced

/-- How far a `grow` or `replace` from `s` has come; past its spawn it no longer raises. -/
def RactorMidway (s t : Pool) (c : Nat) : Prop :=
  match t.callers c with
  | .looking _ | .replacing _ => t.nextIndex = s.nextIndex ∧ Before s t none
  | .numbering old => t.nextIndex = s.nextIndex ∧ Before s t old
  | .supervising new old => new = s.nextIndex ∧ Before s t old
  | .idle | .reading _ | .quarantineMarks _ => True
  | .checking | .retiring _ | .retireMarks _ => False

theorem before_refl (s : Pool) : Before s s none :=
  ⟨rfl, rfl, rfl, rfl, by simp⟩

theorem goto_before {s t : Pool} {old : Option Nat} {c : Nat} {pc : Caller} (before : Before s t old) :
    Before s (t.goto c pc) old :=
  ⟨before.live, before.retiring, before.sups, before.replaced, before.first⟩

theorem caller_midway {conf : Config} {s t t' : Pool} {c : Nat} (midway : RactorMidway s t c)
    (moved : callerStep conf t c = some t') : RactorMidway s t' c := by
  have mine : ∀ (p : Pool) (pc : Caller), (p.goto c pc).callers c = pc := by
    intro p pc
    rw [KinoRactorSlots.goto_callers, if_pos rfl]
  unfold RactorMidway at midway
  unfold callerStep at moved
  cases at_pc : t.callers c with
  | idle =>
    simp only [at_pc] at moved
    cases moved
  | checking | retiring | retireMarks =>
    simp only [at_pc] at midway
  | looking id =>
    simp only [at_pc] at midway moved
    cases moved
    unfold RactorMidway
    rw [mine]
    cases t.slotToWorker id with
    | none => trivial
    | some w => exact ⟨midway.1, goto_before midway.2⟩
  | replacing w =>
    simp only [at_pc] at midway moved
    split at moved
    · cases moved
      unfold RactorMidway
      rw [mine]
      trivial
    · next unclaimed =>
      cases moved
      have same : t.replaced = s.replaced := midway.2.replaced
      unfold RactorMidway
      rw [mine]
      refine ⟨midway.1, midway.2.live, midway.2.retiring, midway.2.sups, ?_, ?_⟩
      · change insert w t.replaced = insert w s.replaced
        rw [same]
      · intro v claimed
        cases claimed
        rwa [← same]
  | numbering old =>
    simp only [at_pc] at midway moved
    cases moved
    unfold RactorMidway
    rw [mine]
    refine ⟨midway.1, midway.2.live, midway.2.retiring, midway.2.sups, midway.2.replaced, midway.2.first⟩
  | supervising new old =>
    simp only [at_pc] at moved
    cases moved
    unfold RactorMidway
    rw [mine]
    cases old <;> trivial
  | reading w =>
    simp only [at_pc] at moved
    cases moved
    unfold RactorMidway
    rw [mine]
    trivial
  | quarantineMarks left =>
    cases left <;>
    · simp only [at_pc] at moved
      cases moved
      unfold RactorMidway
      rw [mine]
      trivial

theorem replicate_midway {conf : Config} {s : Pool} {t t' : Ractors} {c n : Nat}
    (midway : RactorMidway s t.pool c)
    (ran : run (ractors conf) t (List.replicate n (.pool (.caller c))) = some t') :
    RactorMidway s t'.pool c := by
  refine run_keeps (fun t : Ractors => RactorMidway s t.pool c) (· = .pool (.caller c)) ?_ midway
    (fun l here => List.eq_of_mem_replicate here) ran
  rintro t u l before rfl moved
  simp only [ractors, ractorStep, blocked, Bool.false_eq_true, if_false] at moved
  obtain ⟨p, stepped, rfl⟩ := Option.map_eq_some_iff.mp moved
  exact caller_midway before stepped

structure Phantom (s s' : Pool) : Prop where
  live : s'.live = insert s.nextIndex s.live
  retiring : s'.retiring = s.retiring
  replaced : s'.replaced = s.replaced
  sups : s'.sups = s.sups

theorem raise_phantom {conf : Config} {s : Pool} {t t' : Ractors} {c : Nat}
    (midway : RactorMidway s t.pool c) (raised : (ractors conf).step t (.raise c) = some t') :
    ∃ old, Before s { t'.pool with live := s.live } old ∧ t'.rescuing c = old ∧
      t'.pool.live = insert s.nextIndex s.live := by
  simp only [ractors, ractorStep] at raised
  split at raised
  · next new old at_pc =>
    cases raised
    simp only [RactorMidway, at_pc] at midway
    obtain ⟨rfl, before⟩ := midway
    refine ⟨old, ⟨rfl, before.retiring, before.sups, before.replaced, before.first⟩, ?_, ?_⟩
    · exact Function.update_self _ _ _
    · change insert s.nextIndex t.pool.live = insert s.nextIndex s.live
      rw [before.live]
  · cases raised

theorem rescue_phantom {conf : Config} {s : Pool} {t t' : Ractors} {c k : Nat} {old : Option Nat}
    (before : Before s { t.pool with live := s.live } old) (rescuing : t.rescuing c = old)
    (live : t.pool.live = insert s.nextIndex s.live)
    (ran : run (ractors conf) t (List.replicate k (.rescue c)) = some t')
    (rescued : t'.rescuing c = none) : Phantom s t'.pool := by
  cases old with
  | none =>
    cases k with
    | zero =>
      cases ran
      exact ⟨live, before.retiring, before.replaced, before.sups⟩
    | succ k =>
      obtain ⟨u, moved, _⟩ := run_cons.mp ran
      simp only [ractors, ractorStep, rescuing] at moved
      cases moved
  | some w =>
    cases k with
    | zero =>
      cases ran
      rw [rescuing] at rescued
      cases rescued
    | succ k =>
      obtain ⟨u, moved, rest⟩ := run_cons.mp ran
      simp only [ractors, ractorStep, rescuing] at moved
      cases moved
      have restored : t.pool.replaced.erase w = s.replaced := by
        have claimed : t.pool.replaced = insert w s.replaced := before.replaced
        rw [claimed]
        exact Finset.erase_insert (before.first w rfl)
      cases k with
      | zero =>
        cases rest
        exact ⟨live, before.retiring, restored, before.sups⟩
      | succ k =>
        obtain ⟨v, moved, _⟩ := run_cons.mp rest
        simp only [ractors, ractorStep, Function.update_self] at moved
        cases moved

theorem attempt_phantom {conf : Config} {s s' : Ractors} {c n k : Nat} {op : Call}
    (spawns : op = .grow ∨ ∃ id, op = .replace id)
    (ran : run (ractors conf) s (attempt (.call c op) (.caller c) c n k) = some s')
    (rescued : s'.rescuing c = none) : Phantom s.pool s'.pool := by
  obtain ⟨t, called, rest⟩ := run_cons.mp ran
  obtain ⟨u, walked, last⟩ := run_split rest
  obtain ⟨v, raised, caught⟩ := run_cons.mp last
  have entered : RactorMidway s.pool t.pool c := by
    simp only [ractors, ractorStep] at called
    split at called
    · cases called
    · obtain ⟨p, stepped, rfl⟩ := Option.map_eq_some_iff.mp called
      simp only [step] at stepped
      split at stepped
      · cases stepped
        unfold RactorMidway
        rw [KinoRactorSlots.goto_callers, if_pos rfl]
        rcases spawns with rfl | ⟨id, rfl⟩
        · exact ⟨rfl, goto_before (before_refl s.pool)⟩
        · exact ⟨rfl, goto_before (before_refl s.pool)⟩
      · cases stepped
  obtain ⟨old, before, rescuing, live⟩ := raise_phantom (replicate_midway entered walked) raised
  exact rescue_phantom before rescuing live caught rescued

theorem phantom_counted {s s' : Pool} (numbered : Numbered s) (phantom : Phantom s s') :
    s'.activeCount = s.activeCount + 1 := by
  have new : s.nextIndex ∉ s.active := by
    intro here
    have live := (Finset.mem_sdiff.mp here).1
    exact absurd (numbered.live _ live) (lt_irrefl _)
  have outside : s.nextIndex ∉ s.retiring ∪ s.replaced := by
    intro here
    rcases Finset.mem_union.mp here with leaving | replaced
    · exact absurd (numbered.retiring _ leaving) (lt_irrefl _)
    · exact absurd (numbered.replaced _ replaced) (lt_irrefl _)
  have active : s'.active = insert s.nextIndex s.active := by
    unfold Pool.active
    rw [phantom.live, phantom.retiring, phantom.replaced, Finset.insert_sdiff_of_notMem _ outside]
  unfold Pool.activeCount
  rw [active, Finset.card_insert_of_notMem new]

theorem ractor_attempt {conf : Config} {s s' : Ractors} {c n k : Nat} {op : Call}
    (reached : Reachable (ractors conf) s) (spawns : op = .grow ∨ ∃ id, op = .replace id)
    (ran : run (ractors conf) s (attempt (.call c op) (.caller c) c n k) = some s')
    (rescued : s'.rescuing c = none) :
    s'.pool.activeCount = s.pool.activeCount + 1 ∧ s.pool.nextIndex ∈ s'.pool.live ∧
      s'.pool.sups s.pool.nextIndex = .absent ∧ ¬RactorsUnchanged s.pool s'.pool := by
  obtain ⟨numbered, index⟩ := ractors_numbered reached
  have phantom := attempt_phantom spawns ran rescued
  have count := phantom_counted numbered phantom
  refine ⟨count, ?_, ?_, ?_⟩
  · rw [phantom.live]
    exact Finset.mem_insert_self _ _
  · rw [phantom.sups]
    exact index.unused _ le_rfl
  · intro same
    have kept := same.activeCount
    omega

end Ractors
section Threaded
open KinoThreadedPool

/-- The group and its slot are recorded before `Thread.new`, and nothing is taken back. -/
def threadedStep (conf : Config) (s : Pool) : Label Event → Option Pool
  | .pool e => step conf s e
  | .raise c =>
    match s.callers c with
    | .threading _ _ _ after => if after.starts then none else some (s.goto c .idle)
    | _ => none
  | .rescue _ => none

def threaded (conf : Config) : System Pool (Label Event) where
  start s := s = initial conf
  step := threadedStep conf

structure ThreadedUnchanged (s s' : Pool) : Prop where
  activeCount : s'.activeCount = s.activeCount
  groups : ∀ g, s'.groups g = s.groups g
  replacements : s'.replacements = s.replacements
  staffed : ∀ g ∈ s'.members, s'.group g = s.group g ∨
    (s'.group g).slots.length = (s'.group g).threads.length

structure GroupsNumbered (s : Pool) : Prop where
  members : ∀ g ∈ s.members, g < s.nextIndex
  retiring : ∀ g ∈ s.retiring, g < s.nextIndex
  replacements : ∀ g ∈ s.replacements, g < s.nextIndex

theorem groups_keep {s s' : Pool} (inv : GroupsNumbered s) (next : s.nextIndex ≤ s'.nextIndex)
    (members : ∀ g ∈ s'.members, g ∈ s.members ∨ g < s'.nextIndex)
    (retiring : ∀ g ∈ s'.retiring, g ∈ s.retiring ∨ g ∈ s.members)
    (replacements : ∀ g ∈ s'.replacements, g ∈ s.replacements ∨ g < s'.nextIndex) :
    GroupsNumbered s' := by
  constructor
  · intro g here
    rcases members g here with before | less
    · exact lt_of_lt_of_le (inv.members g before) next
    · exact less
  · intro g here
    rcases retiring g here with before | before
    · exact lt_of_lt_of_le (inv.retiring g before) next
    · exact lt_of_lt_of_le (inv.members g before) next
  · intro g here
    rcases replacements g here with before | less
    · exact lt_of_lt_of_le (inv.replacements g before) next
    · exact less

theorem move_groups {conf : Config} {s s' : Pool} {e : Event} (inv : GroupsNumbered s)
    (move : Move conf s e s') : GroupsNumbered s' := by
  cases move with
  | reapNone c grow at_pc | reap c grow at_pc =>
    refine groups_keep inv le_rfl ?_ ?_ (by tauto)
    · intro g here
      exact .inl (Finset.mem_filter.mp here).1
    · intro g here
      exact .inl (List.mem_filter.mp here).1
  | openGroup c n replacement after at_pc =>
    have new : ∀ {g : Nat} {table : Finset Nat}, g ∈ insert s.nextIndex table →
        g ∈ table ∨ g < s.nextIndex + 1 := by
      intro g table here
      rcases Finset.mem_insert.mp here with rfl | before
      · exact .inr (Nat.lt_succ_self _)
      · exact .inl before
    refine groups_keep inv (Nat.le_succ _) (fun g => new) (by tauto) ?_
    intro g here
    cases replacement with
    | false => exact .inl here
    | true => exact new here
  | retire c g at_pc known staying =>
    refine groups_keep inv le_rfl (by tauto) ?_ (by tauto)
    intro h here
    rcases List.mem_append.mp here with before | last
    · exact .inl before
    · rw [List.mem_singleton.mp last]
      exact .inr known
  | _ => exact ⟨inv.members, inv.retiring, inv.replacements⟩

theorem threaded_numbered {conf : Config} {s : Pool} (reached : Reachable (threaded conf) s) :
    GroupsNumbered s := by
  refine reachable_invariant (m := threaded conf) GroupsNumbered ?_ ?_ reached
  · rintro s rfl
    constructor <;> simp [initial]
  · intro s t l inv moved
    cases l with
    | pool e => exact move_groups inv (step_move moved)
    | raise c =>
      simp only [threaded, threadedStep] at moved
      split at moved
      · split at moved
        · cases moved
        · cases moved
          exact ⟨inv.members, inv.retiring, inv.replacements⟩
      · cases moved
    | rescue c => cases moved

/-- The tables before `spawn_group`. -/
structure Unopened (s t : Pool) : Prop where
  next : t.nextIndex = s.nextIndex
  active : t.active = s.active
  replacements : t.replacements = s.replacements
  numbered : GroupsNumbered t

/-- The tables once `spawn_group` has recorded its group. -/
structure Opened (s t : Pool) (replacement : Bool) : Prop where
  member : s.nextIndex ∈ t.members
  active : t.active = if replacement then s.active else insert s.nextIndex s.active
  replacements : t.replacements = if replacement then insert s.nextIndex s.replacements
    else s.replacements

/-- How far a `grow`, or a `replace`, from `s` has come; past its spawns it no longer raises. -/
def ThreadedMidway (replacement : Bool) (s t : Pool) (c : Nat) : Prop :=
  match t.callers c with
  | .reaping grow | .releasing _ grow => grow = true ∧ replacement = false ∧ Unopened s t
  | .spawning _ of_replace after => of_replace = replacement ∧ after.starts = false ∧ Unopened s t
  | .claiming g _ _ after | .adding g _ _ after => g = s.nextIndex ∧ after.starts = false ∧
      Opened s t replacement ∧ (t.group g).slots.length = (t.group g).threads.length
  | .threading g _ _ after | .listing g _ _ after => g = s.nextIndex ∧ after.starts = false ∧
      Opened s t replacement ∧ (t.group g).slots.length = (t.group g).threads.length + 1
  | .idle | .marking _ | .wedging _ => True
  | .checking | .retiring _ | .retireMarks _ _ => False

theorem reap_active (s : Pool) : s.reap.active = s.active := by
  have leaving : ∀ g, g ∈ s.reaped → g ∈ s.retiring := fun g gone => (List.mem_filter.mp gone).1
  ext g
  simp only [Pool.active, Pool.reap, Finset.mem_filter, List.mem_filter, decide_eq_true_eq]
  constructor
  · rintro ⟨⟨member, kept⟩, plain, staying⟩
    exact ⟨member, plain, fun told => staying ⟨told, kept⟩⟩
  · rintro ⟨member, plain, staying⟩
    exact ⟨⟨member, fun gone => staying (leaving g gone)⟩, plain, fun told => staying told.1⟩

theorem unopened_goto {s t : Pool} {c : Nat} {pc : Caller} (before : Unopened s t) :
    Unopened s (t.goto c pc) :=
  ⟨before.next, before.active, before.replacements, before.numbered.1, before.numbered.2,
    before.numbered.3⟩

theorem opened_goto {s t : Pool} {c : Nat} {pc : Caller} {replacement : Bool}
    (opened : Opened s t replacement) : Opened s (t.goto c pc) replacement :=
  ⟨opened.member, opened.active, opened.replacements⟩

theorem reap_unopened {s t : Pool} (before : Unopened s t) : Unopened s t.reap := by
  refine ⟨before.next, (reap_active t).trans before.active, before.replacements, ?_⟩
  refine groups_keep before.numbered le_rfl ?_ ?_ (by tauto)
  · intro g here
    exact .inl (Finset.mem_filter.mp here).1
  · intro g here
    exact .inl (List.mem_filter.mp here).1

theorem open_opened {s t : Pool} {replacement : Bool} (before : Unopened s t) :
    Opened s (t.openGroup replacement) replacement := by
  have unlisted : t.nextIndex ∉ t.members :=
    fun here => absurd (before.numbered.members _ here) (lt_irrefl _)
  have staying : t.nextIndex ∉ t.retiring :=
    fun here => absurd (before.numbered.retiring _ here) (lt_irrefl _)
  have plain : t.nextIndex ∉ t.replacements :=
    fun here => absurd (before.numbered.replacements _ here) (lt_irrefl _)
  constructor
  · rw [← before.next]
    exact Finset.mem_insert_self _ _
  · rw [← before.active, ← before.next]
    cases replacement with
    | false =>
      ext g
      simp only [Pool.active, Pool.openGroup, Finset.mem_filter, Finset.mem_insert, Bool.false_eq_true,
        if_false]
      constructor
      · rintro ⟨rfl | member, rest⟩
        · exact .inl rfl
        · exact .inr ⟨member, rest⟩
      · rintro (rfl | ⟨member, rest⟩)
        · exact ⟨.inl rfl, plain, staying⟩
        · exact ⟨.inr member, rest⟩
    | true =>
      ext g
      simp only [Pool.active, Pool.openGroup, Finset.mem_filter, Finset.mem_insert, if_true, not_or]
      constructor
      · rintro ⟨rfl | member, ⟨other, kept⟩, rest⟩
        · exact absurd rfl other
        · exact ⟨member, kept, rest⟩
      · rintro ⟨member, kept, rest⟩
        refine ⟨.inr member, ⟨?_, kept⟩, rest⟩
        rintro rfl
        exact unlisted member
  · rw [← before.replacements, ← before.next]
    rfl

theorem resume_midway {replacement : Bool} {s t : Pool} {c threads : Nat} {after : After}
    (own : after.starts = false) :
    ThreadedMidway replacement s (t.goto c (after.resume threads)) c := by
  unfold ThreadedMidway
  rw [KinoThreadedSlots.goto_callers, if_pos rfl]
  cases after with
  | done => trivial
  | start more => cases own
  | mark id => trivial

theorem nextSlot_midway {replacement : Bool} {s t : Pool} {c threads g n : Nat} {after : After}
    (mine : g = s.nextIndex) (own : after.starts = false) (opened : Opened s t replacement)
    (staffed : (t.group g).slots.length = (t.group g).threads.length) :
    ThreadedMidway replacement s (t.goto c (nextSlot threads g n after)) c := by
  unfold nextSlot
  split
  · exact resume_midway own
  · unfold ThreadedMidway
    rw [KinoThreadedSlots.goto_callers, if_pos rfl]
    exact ⟨mine, own, opened_goto opened, staffed⟩

theorem threaded_caller_midway {conf : Config} {replacement : Bool} {s t t' : Pool} {c : Nat}
    (midway : ThreadedMidway replacement s t c) (moved : callerStep conf t c = some t') :
    ThreadedMidway replacement s t' c := by
  have mine : ∀ (p : Pool) (pc : Caller), (p.goto c pc).callers c = pc := by
    intro p pc
    rw [KinoThreadedSlots.goto_callers, if_pos rfl]
  unfold ThreadedMidway at midway
  unfold callerStep at moved
  cases at_pc : t.callers c with
  | idle =>
    simp only [at_pc] at moved
    cases moved
  | checking | retiring | retireMarks =>
    simp only [at_pc] at midway
  | reaping grow =>
    simp only [at_pc] at midway moved
    obtain ⟨rfl, rfl, before⟩ := midway
    split at moved <;> cases moved
    · unfold ThreadedMidway
      rw [mine]
      exact ⟨rfl, rfl, unopened_goto (reap_unopened before)⟩
    · unfold ThreadedMidway
      rw [mine]
      exact ⟨rfl, rfl, unopened_goto (reap_unopened before)⟩
  | releasing freed grow =>
    simp only [at_pc] at midway moved
    obtain ⟨rfl, rfl, before⟩ := midway
    cases moved
    unfold ThreadedMidway
    rw [mine]
    exact ⟨rfl, rfl, before.next, before.active, before.replacements, before.numbered.1,
      before.numbered.2, before.numbered.3⟩
  | spawning n of_replace after =>
    simp only [at_pc] at midway moved
    obtain ⟨rfl, own, before⟩ := midway
    cases moved
    apply nextSlot_midway before.next own (open_opened before)
    simp [Pool.openGroup]
  | claiming g n pc after =>
    simp only [at_pc] at midway moved
    obtain ⟨new, own, opened, staffed⟩ := midway
    split at moved <;>
    · cases moved
      unfold ThreadedMidway
      rw [mine]
      exact ⟨new, own, ⟨opened.member, opened.active, opened.replacements⟩, staffed⟩
  | adding g n i after =>
    simp only [at_pc] at midway moved
    obtain ⟨new, own, opened, staffed⟩ := midway
    cases moved
    unfold ThreadedMidway
    rw [mine]
    refine ⟨new, own, ⟨opened.member, opened.active, opened.replacements⟩, ?_⟩
    simp [Pool.goto, Pool.addSlot, staffed]
  | threading g n i after =>
    simp only [at_pc] at midway moved
    obtain ⟨new, own, opened, staffed⟩ := midway
    cases moved
    unfold ThreadedMidway
    rw [mine]
    exact ⟨new, own, ⟨opened.member, opened.active, opened.replacements⟩, staffed⟩
  | listing g n thread after =>
    simp only [at_pc] at midway moved
    obtain ⟨new, own, opened, staffed⟩ := midway
    cases moved
    have listed : Opened s (t.listThread g thread) replacement :=
      ⟨opened.member, opened.active, opened.replacements⟩
    apply nextSlot_midway new own listed
    simp [Pool.listThread, staffed]
  | marking id | wedging id =>
    simp only [at_pc] at moved
    cases moved
    unfold ThreadedMidway
    rw [mine]
    trivial

def spawnsAs : Call → Option Bool
  | .grow => some false
  | .replace _ => some true
  | _ => none

structure HalfMade (replacement : Bool) (s s' : Pool) : Prop where
  opened : Opened s s' replacement
  unstaffed : (s'.group s.nextIndex).slots.length = (s'.group s.nextIndex).threads.length + 1

theorem threaded_half_made {conf : Config} {s s' : Pool} {c n k : Nat} {op : Call}
    {replacement : Bool} (numbered : GroupsNumbered s) (spawns : spawnsAs op = some replacement)
    (ran : run (threaded conf) s (attempt (.call c op) (.caller c) c n k) = some s') :
    HalfMade replacement s s' := by
  obtain ⟨t, called, rest⟩ := run_cons.mp ran
  obtain ⟨u, walked, last⟩ := run_split rest
  obtain ⟨v, raised, caught⟩ := run_cons.mp last
  have entered : ThreadedMidway replacement s t c := by
    have called : step conf s (.call c op) = some t := called
    simp only [step] at called
    split at called
    · cases called
      unfold ThreadedMidway
      rw [KinoThreadedSlots.goto_callers, if_pos rfl]
      cases op with
      | grow =>
        cases spawns
        exact ⟨rfl, rfl, rfl, rfl, rfl, numbered.1, numbered.2, numbered.3⟩
      | replace id =>
        cases spawns
        exact ⟨rfl, rfl, rfl, rfl, rfl, numbered.1, numbered.2, numbered.3⟩
      | groups | scaleUp | retire => cases spawns
    · cases called
  have there : ThreadedMidway replacement s u c := by
    refine run_keeps (fun t => ThreadedMidway replacement s t c) (· = .pool (.caller c)) ?_ entered
      (fun l here => List.eq_of_mem_replicate here) walked
    rintro t u l before rfl moved
    exact threaded_caller_midway before moved
  have ended : v = s' := by
    cases k with
    | zero => exact Option.some.inj caught
    | succ k =>
      obtain ⟨_, moved, _⟩ := run_cons.mp caught
      cases moved
  subst ended
  simp only [threaded, threadedStep] at raised
  split at raised
  · next g m i after at_pc =>
    split at raised
    · cases raised
    · cases raised
      simp only [ThreadedMidway, at_pc] at there
      obtain ⟨rfl, _, opened, unstaffed⟩ := there
      exact ⟨⟨opened.member, opened.active, opened.replacements⟩, unstaffed⟩
  · cases raised

theorem threaded_attempt {conf : Config} {s s' : Pool} {c n k : Nat} {op : Call}
    {replacement : Bool} (reached : Reachable (threaded conf) s)
    (spawns : spawnsAs op = some replacement)
    (ran : run (threaded conf) s (attempt (.call c op) (.caller c) c n k) = some s') :
    s'.activeCount = s.activeCount + (if replacement then 0 else 1) ∧
      (replacement = true → s'.replacements = insert s.nextIndex s.replacements) ∧
      (s'.group s.nextIndex).slots.length = (s'.group s.nextIndex).threads.length + 1 ∧
      ¬ThreadedUnchanged s s' := by
  have numbered := threaded_numbered reached
  obtain ⟨opened, unstaffed⟩ := threaded_half_made numbered spawns ran
  have inactive : s.nextIndex ∉ s.active := by
    intro here
    exact absurd (numbered.members _ (Finset.mem_filter.mp here).1) (lt_irrefl _)
  have plain : s.nextIndex ∉ s.replacements :=
    fun here => absurd (numbered.replacements _ here) (lt_irrefl _)
  have count : s'.activeCount = s.activeCount + (if replacement then 0 else 1) := by
    unfold Pool.activeCount
    rw [opened.active]
    cases replacement with
    | true => rfl
    | false => exact Finset.card_insert_of_notMem inactive
  refine ⟨count, ?_, unstaffed, ?_⟩
  · rintro rfl
    exact opened.replacements
  · intro same
    cases replacement with
    | false =>
      have kept := same.activeCount
      rw [count] at kept
      simp at kept
    | true =>
      have kept := same.replacements
      rw [opened.replacements] at kept
      exact plain (kept ▸ Finset.mem_insert_self _ _)

end Threaded

/-- `r` holds this many times in a row. -/
inductive Times {State : Type} (r : State → State → Prop) : Nat → State → State → Prop where
  | zero (s : State) : Times r 0 s s
  | succ {k : Nat} {s t u : State} (before : Times r k s t) (once : r t u) : Times r (k + 1) s u

/-- A `grow` or `replace` of the ractor pool that raises for want of a thread. -/
def RactorFails (conf : Config) (s s' : Ractors) : Prop :=
  ∃ c n k op, (op = .grow ∨ ∃ id, op = .replace id) ∧
    run (ractors conf) s (attempt (.call c op) (.caller c) c n k) = some s' ∧ s'.rescuing c = none

def ThreadedFails (conf : Config) (op : KinoThreadedPool.Call) (s s' : KinoThreadedPool.Pool) : Prop :=
  ∃ c n k, run (threaded conf) s (attempt (.call c op) (.caller c) c n k) = some s'

theorem times_counted {State Label : Type} {m : System State Label} {r : State → State → Prop}
    (count : State → Nat) (runs : ∀ s t, r s t → ∃ ls, run m s ls = some t)
    (one : ∀ s t, Reachable m s → r s t → count t = count s + 1) {k : Nat} {s t : State}
    (reached : Reachable m s) (failed : Times r k s t) : Reachable m t ∧ count t = count s + k := by
  induction failed with
  | zero s => exact ⟨reached, rfl⟩
  | succ before once ih =>
    obtain ⟨there, counted⟩ := ih reached
    obtain ⟨ls, ran⟩ := runs _ _ once
    have next := one _ _ there once
    exact ⟨reachable_run there ran, by omega⟩

/-- A call of either pool that raises for want of a thread never leaves the pool as it was:
    a new index stays live with no supervisor behind it and counts as a worker, or a new
    group stays recorded with a slot that has no thread. Every failed attempt at a worker is
    counted as one. -/
theorem failed_spawn_not_undone (conf : Config) :
    (∀ s s', Reachable (ractors conf) s → RactorFails conf s s' →
      ¬RactorsUnchanged s.pool s'.pool ∧ s.pool.nextIndex ∈ s'.pool.live ∧
        s'.pool.sups s.pool.nextIndex = .absent) ∧
    (∀ s s' k, Reachable (ractors conf) s → Times (RactorFails conf) k s s' →
      s'.pool.activeCount = s.pool.activeCount + k) ∧
    (∀ s s' op, Reachable (threaded conf) s → (op = .grow ∨ ∃ id, op = .replace id) →
      ThreadedFails conf op s s' →
      ¬ThreadedUnchanged s s' ∧
        (s'.group s.nextIndex).slots.length = (s'.group s.nextIndex).threads.length + 1) ∧
    ∀ s s' k, Reachable (threaded conf) s → Times (ThreadedFails conf .grow) k s s' →
      s'.activeCount = s.activeCount + k := by
  refine ⟨?_, ?_, ?_, ?_⟩
  · rintro s s' reached ⟨c, n, k, op, spawns, ran, rescued⟩
    obtain ⟨_, live, absent, changed⟩ := ractor_attempt reached spawns ran rescued
    exact ⟨changed, live, absent⟩
  · intro s s' k reached failed
    refine (times_counted (m := ractors conf) (fun s => s.pool.activeCount) ?_ ?_ reached failed).2
    · rintro s t ⟨c, n, k, op, _, ran, _⟩
      exact ⟨_, ran⟩
    · rintro s t there ⟨c, n, k, op, spawns, ran, rescued⟩
      exact (ractor_attempt there spawns ran rescued).1
  · rintro s s' op reached spawns ⟨c, n, k, ran⟩
    rcases spawns with rfl | ⟨id, rfl⟩
    · obtain ⟨_, _, unstaffed, changed⟩ := threaded_attempt reached rfl ran
      exact ⟨changed, unstaffed⟩
    · obtain ⟨_, _, unstaffed, changed⟩ := threaded_attempt reached rfl ran
      exact ⟨changed, unstaffed⟩
  · intro s s' k reached failed
    refine (times_counted (m := threaded conf) (fun s => s.activeCount) ?_ ?_ reached failed).2
    · rintro s t ⟨c, n, k, ran⟩
      exact ⟨_, ran⟩
    · rintro s t there ⟨c, n, k, ran⟩
      exact (threaded_attempt there rfl ran).1

def oneWorker : Config := ⟨1, 1, false, 4⟩

def ractorBoot : List (Label KinoRactorPool.Event) :=
  [.pool .boot, .pool (.sup 0), .pool (.sup 0), .pool (.sup 0)]

theorem boot_then_failed_grow :
    ∃ s s', run (ractors oneWorker) ⟨KinoRactorPool.initial oneWorker, fun _ => none⟩ ractorBoot =
        some s ∧ RactorFails oneWorker s s' ∧ ¬RactorsUnchanged s.pool s'.pool := by
  have booted : run (ractors oneWorker) ⟨KinoRactorPool.initial oneWorker, fun _ => none⟩ ractorBoot =
      some _ := rfl
  refine ⟨_, _, booted, ⟨0, 1, 0, .grow, .inl rfl, rfl, rfl⟩, ?_⟩
  apply ((failed_spawn_not_undone oneWorker).1 _ _ ?reached ?failed).1
  case reached => exact reachable_run (.start rfl) booted
  case failed => exact ⟨0, 1, 0, .grow, .inl rfl, rfl, rfl⟩

/-- After one failed `grow` the pool of one worker counts two. -/
theorem failed_grow_counts_worker :
    ¬∀ conf s s', Reachable (ractors conf) s → RactorFails conf s s' →
      RactorsUnchanged s.pool s'.pool := by
  intro unchanged
  have booted : run (ractors oneWorker) ⟨KinoRactorPool.initial oneWorker, fun _ => none⟩ ractorBoot =
      some _ := rfl
  have kept := unchanged oneWorker _ _ (reachable_run (.start rfl) booted)
    ⟨0, 1, 0, .grow, .inl rfl, rfl, rfl⟩
  exact absurd kept.activeCount (by decide)

end KinoFailedSpawn
