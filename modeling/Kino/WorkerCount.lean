import Kino.RactorSlots

/-!
The tables of `RactorSupervisor` against the native flags: which workers `active_count`
counts and `groups` lists, and which slots are retired or quarantined.
-/
namespace KinoWorkerCount
open Transitions Ownership KinoSlotBank KinoRactorPool KinoRactorSlots

def clean (s : Pool) (w : Nat) : Bool :=
  ((s.workerSlots w).getD []).all fun i => !(s.bank.slots i).retired && !(s.bank.slots i).quarantined

/-- The count is of the live workers on clean slots; each of them is counted and listed, and
    a live worker is counted out when all its slots are retired or all are quarantined. -/
structure CountLaw (s : Pool) : Prop where
  counted : s.activeCount = (s.live.filter fun w => clean s w = true).card
  listed : ∀ w ∈ s.live, clean s w = true →
    w ∈ s.active ∧ ∃ ids, s.sups w = .running ids ∧ s.groups w = some ids
  out : ∀ w ∈ s.live, w ∉ s.active → ∃ ids, s.sups w = .running ids ∧
    ((∀ i ∈ ids, (s.bank.slots i).retired = true) ∨ ∀ i ∈ ids, (s.bank.slots i).quarantined = true)

def lives : Sup → Bool
  | .claiming _ _ | .running _ | .aborting _ | .leaving _ => true
  | .absent | .releasing _ | .ended => false

structure LiveInv (s : Pool) : Prop where
  live : ∀ w, w ∈ s.live ↔ lives (s.sups w) = true
  unassigned : ∀ w, s.sups w = .absent → s.workerSlots w = none
  assigned : ∀ w ids, s.sups w = .running ids → s.workerSlots w = some ids
  held : ∀ w ids, w ∈ s.live → s.workerSlots w = some ids →
    (∀ i ∈ ids, i ∈ listed (s.sups w)) ∨ ∀ i ∈ ids, i ∈ s.abandoned

theorem live_sup {s s' : Pool} {w : Nat} {pc : Sup} (inv : LiveInv s) (sups : s'.sups = s.sups)
    (live : ∀ v, v ∈ s'.live ↔ if v = w then lives pc = true else v ∈ s.live)
    (present : pc ≠ .absent) (slots : ∀ v, v ≠ w → s'.workerSlots v = s.workerSlots v)
    (running : ∀ ids, pc = .running ids → s'.workerSlots w = some ids)
    (more : ∀ i ∈ s.abandoned, i ∈ s'.abandoned)
    (held : ∀ ids, lives pc = true → s'.workerSlots w = some ids →
      (∀ i ∈ ids, i ∈ listed pc) ∨ ∀ i ∈ ids, i ∈ s'.abandoned) : LiveInv (s'.sup w pc) := by
  have sups' : ∀ v, (s'.sup w pc).sups v = if v = w then pc else s.sups v := by
    intro v
    rw [sup_sups, sups]
  constructor
  · intro v
    change v ∈ s'.live ↔ _
    rw [live, sups']
    split
    · rfl
    · exact inv.live v
  · intro v at_v
    rw [sups'] at at_v
    split at at_v
    · exact absurd at_v present
    · next other => exact (slots v other).trans (inv.unassigned v at_v)
  · intro v ids at_v
    rw [sups'] at at_v
    split at at_v
    · next same =>
      subst same
      exact running ids at_v
    · next other => exact (slots v other).trans (inv.assigned v ids at_v)
  · intro v ids alive recorded
    change v ∈ s'.live at alive
    rw [live] at alive
    rw [sups']
    split at alive
    · next same =>
      subst same
      rw [if_pos rfl]
      exact held ids alive recorded
    · next other =>
      rw [if_neg other]
      rcases inv.held v ids alive ((slots v other).symm.trans recorded) with mine | gone
      · exact .inl mine
      · exact .inr fun i here => more i (gone i here)

theorem live_go {s s' : Pool} {w : Nat} {pc : Sup} (inv : LiveInv s) (sups : s'.sups = s.sups)
    (live : s'.live = s.live) (slots : s'.workerSlots = s.workerSlots) (alive : lives (s.sups w) = true)
    (still : lives pc = true) (running : ∀ ids, pc ≠ .running ids)
    (more : ∀ i ∈ s.abandoned, i ∈ s'.abandoned)
    (whole : (∀ i ∈ listed (s.sups w), i ∈ listed pc) ∨ ∀ i ∈ listed (s.sups w), i ∈ s'.abandoned) :
    LiveInv (s'.sup w pc) := by
  have here : w ∈ s.live := (inv.live w).mpr alive
  refine live_sup inv sups ?_ ?_ (fun v _ => congrFun slots v) (fun ids at_pc => absurd at_pc (running ids))
    more ?_
  · intro v
    rw [live]
    split
    · next same =>
      subst same
      exact iff_of_true here still
    · rfl
  · rintro rfl
    cases still
  · intro ids _ recorded
    rw [slots] at recorded
    rcases inv.held w ids here recorded with mine | gone
    · exact whole.imp (fun listed i here => listed i (mine i here)) fun left i here => left i (mine i here)
    · exact .inr fun i here => more i (gone i here)

theorem live_supervise {s : Pool} {w : Nat} (inv : LiveInv s) (absent : s.sups w = .absent) :
    LiveInv (s.supervise w) := by
  refine live_sup inv rfl ?_ (by simp) (fun _ _ => rfl) (by simp) (fun _ here => here) ?_
  · intro v
    by_cases same : v = w <;> simp [same, lives]
  · intro ids _ recorded
    change s.workerSlots w = some ids at recorded
    rw [inv.unassigned w absent] at recorded
    cases recorded

theorem live_exit {s s' : Pool} {w : Nat} {pc : Sup} (inv : LiveInv s) (sups : s'.sups = s.sups)
    (live : ∀ v, v ∈ s'.live ↔ v ≠ w ∧ v ∈ s.live) (slots : s'.workerSlots = s.workerSlots)
    (present : pc ≠ .absent) (out : lives pc = false) (more : ∀ i ∈ s.abandoned, i ∈ s'.abandoned) :
    LiveInv (s'.sup w pc) := by
  refine live_sup inv sups ?_ present (fun v _ => congrFun slots v) ?_ more ?_
  · intro v
    rw [live]
    by_cases same : v = w <;> simp [same, out]
  · rintro ids rfl
    cases out
  · intro ids alive
    rw [out] at alive
    cases alive

theorem move_live {conf : Config} {s s' : Pool} {e : Event} (inv : LiveInv s) (index : IndexInv conf s)
    (move : Move conf s e s') : LiveInv s' := by
  cases move with
  | boot more =>
    have kept := live_supervise inv (index.unbooted s.booted (le_refl _) more)
    exact ⟨kept.live, kept.unassigned, kept.assigned, kept.held⟩
  | supervise c new old at_pc =>
    have kept := live_supervise inv (index.held c new old at_pc).1
    exact ⟨kept.live, kept.unassigned, kept.assigned, kept.held⟩
  | claimOn w got pc pc' b at_pc claimed =>
    refine live_go inv rfl rfl rfl (by simp [at_pc, lives]) rfl (by simp) (fun _ here => here) (.inl ?_)
    cases claimed <;> simp +contextual [at_pc, listed, popped]
  | claimed w got pc b i at_pc claimed =>
    refine live_go inv rfl rfl rfl (by simp [at_pc, lives]) rfl (by simp) (fun _ here => here) (.inl ?_)
    cases claimed <;> simp +contextual [at_pc, listed, popped]
  | assign w got at_pc =>
    have alive : w ∈ s.live := (inv.live w).mpr (by simp [at_pc, lives])
    refine live_sup inv rfl ?_ (by simp) ?_ ?_ (fun _ here => here) ?_
    · intro v
      by_cases same : v = w <;> simp [same, lives, alive]
    · intro v other
      simp [other]
    · intro ids same
      cases same
      simp
    · intro ids _ recorded
      simp only [Function.update_self, Option.some.injEq] at recorded
      subst recorded
      exact .inl fun i here => here
  | joined w ids at_pc =>
    exact live_go inv rfl rfl rfl (by simp [at_pc, lives]) rfl (by simp) (fun _ here => here)
      (.inl (by simp [at_pc, listed]))
  | crash w ids at_pc =>
    refine live_go inv rfl rfl rfl (by simp [at_pc, lives]) rfl (by simp)
      (fun _ here => List.mem_append_left _ here) (.inr ?_)
    simp +contextual [at_pc, listed]
  | abort w i left at_pc =>
    exact live_go inv rfl rfl rfl (by simp [at_pc, lives]) rfl (by simp) (fun _ here => here)
      (.inl (by simp [at_pc, listed]))
  | respawn w at_pc =>
    exact live_go inv rfl rfl rfl (by simp [at_pc, lives]) rfl (by simp) (fun _ here => here)
      (.inl (by simp [at_pc, listed]))
  | leave w ids at_pc =>
    exact live_exit inv rfl (by simp) rfl (by simp) rfl fun _ here => here
  | quit w ids at_pc =>
    exact live_exit inv rfl (by simp) rfl (by simp) rfl fun _ here => List.mem_append_left _ here
  | release w ids at_pc =>
    refine live_exit inv rfl ?_ rfl (by simp) rfl fun _ here => here
    intro v
    refine ⟨fun alive => ⟨?_, alive⟩, fun alive => alive.2⟩
    rintro rfl
    have running := (inv.live v).mp alive
    simp [at_pc, lives] at running
  | endLoop | handle | checkout | turn | number | retire | markRetired | replace | markQuarantined =>
    exact ⟨inv.live, inv.unassigned, inv.assigned, inv.held⟩

def Due (s : Pool) (part : Caller → Prop) : Prop := ∃ c, part (s.callers c)

theorem due_split {s : Pool} {part : Caller → Prop} (c : Nat) :
    Due s part ↔ part (s.callers c) ∨ ∃ d, d ≠ c ∧ part (s.callers d) := by
  constructor
  · rintro ⟨d, at_d⟩
    by_cases same : d = c
    · exact .inl (same ▸ at_d)
    · exact .inr ⟨d, same, at_d⟩
  · rintro (at_c | ⟨d, _, at_d⟩)
    · exact ⟨c, at_c⟩
    · exact ⟨d, at_d⟩

theorem due_goto {s s' : Pool} {c : Nat} {pc : Caller} {part : Caller → Prop}
    (callers : s'.callers = s.callers) :
    Due (s'.goto c pc) part ↔ part pc ∨ ∃ d, d ≠ c ∧ part (s.callers d) := by
  rw [due_split c]
  simp only [goto_callers, callers, if_true]
  refine or_congr_right (exists_congr fun d => and_congr_right fun other => ?_)
  rw [if_neg other]

theorem due_same {s s' : Pool} {c : Nat} {pc : Caller} {part : Caller → Prop}
    (callers : s'.callers = s.callers) (same : part pc ↔ part (s.callers c)) :
    Due (s'.goto c pc) part ↔ Due s part := by
  rw [due_goto callers, due_split c, same]

/-- The slots a `retire` has yet to mark. -/
def retireLeft : Caller → List Nat
  | .retireMarks left => left
  | _ => []

/-- The slots a `replace` has yet to mark. -/
def quarantineLeft : Caller → List Nat
  | .quarantineMarks left => left
  | _ => []

/-- The worker whose slots a `replace` has yet to read. -/
def replaces : Caller → Option Nat
  | .numbering old | .supervising _ old => old
  | .reading w => some w
  | _ => none

def Told (s : Pool) (i : Nat) : Prop :=
  (s.bank.slots i).retired = true ∨ Due s fun pc => i ∈ retireLeft pc

def GivenUp (s : Pool) (i : Nat) : Prop :=
  (s.bank.slots i).quarantined = true ∨ Due s fun pc => i ∈ quarantineLeft pc

def Replacing (s : Pool) (w : Nat) : Prop := Due s fun pc => replaces pc = some w

/-- New slots go to a worker that nobody told to leave, that was replaced only by a call that
    has yet to read its slots, and they have no mark and get none from a call under way. The
    slots a call reads to quarantine are at no other worker. -/
structure Kept (conf : Config) (s : Pool) (e : Event) : Prop where
  assigned : ∀ w got, e = .sup w → s.sups w = .claiming got .popping → got.length = conf.threads →
    got ≠ [] ∧ w ∉ s.retiring ∧ (w ∈ s.replaced → Replacing s w) ∧
      ∀ i ∈ got, ¬Told s i ∧ ¬GivenUp s i
  read : ∀ c w, e = .caller c → s.callers c = .reading w → ∀ i ∈ (s.workerSlots w).getD [],
    ∀ v ids, s.sups v = .running ids → i ∈ ids → v = w

structure MarkInv (s : Pool) : Prop where
  told : ∀ w ids, s.sups w = .running ids → ∀ i ∈ ids, Told s i ↔ w ∈ s.retiring
  given_up : ∀ w ids, s.sups w = .running ids → ∀ i ∈ ids,
    GivenUp s i ∨ Replacing s w ↔ w ∈ s.replaced
  replacing : ∀ w, Replacing s w → w ∈ s.replaced
  some_slot : ∀ w ids, s.sups w = .running ids → ids ≠ []

theorem marks_keep {s s' : Pool} (inv : MarkInv s)
    (running : ∀ w ids, s'.sups w = .running ids → s.sups w = .running ids)
    (told : ∀ w ids, s'.sups w = .running ids → ∀ i ∈ ids, Told s' i ↔ Told s i)
    (given_up : ∀ w ids, s'.sups w = .running ids → ∀ i ∈ ids, GivenUp s' i ↔ GivenUp s i)
    (replacing : ∀ w, Replacing s' w ↔ Replacing s w)
    (retiring : ∀ w ids, s'.sups w = .running ids → (w ∈ s'.retiring ↔ w ∈ s.retiring))
    (replaced : s'.replaced = s.replaced) : MarkInv s' := by
  constructor
  · intro w ids at_w i here
    rw [told w ids at_w i here, retiring w ids at_w]
    exact inv.told w ids (running w ids at_w) i here
  · intro w ids at_w i here
    rw [given_up w ids at_w i here, replacing, replaced]
    exact inv.given_up w ids (running w ids at_w) i here
  · intro w due
    rw [replaced]
    exact inv.replacing w ((replacing w).mp due)
  · exact fun w ids at_w => inv.some_slot w ids (running w ids at_w)

/-- A supervisor goes on to a place where it has no ractor, and the flags of slots at other
    workers stay. -/
theorem marks_sup {s s' : Pool} {w : Nat} {pc : Sup} (inv : MarkInv s) (sups : s'.sups = s.sups)
    (callers : s'.callers = s.callers) (replaced : s'.replaced = s.replaced)
    (retiring : ∀ v, v ≠ w → (v ∈ s'.retiring ↔ v ∈ s.retiring)) (idle : ∀ ids, pc ≠ .running ids)
    (flags : ∀ v ids, v ≠ w → s.sups v = .running ids → ∀ i ∈ ids,
      (s'.bank.slots i).retired = (s.bank.slots i).retired ∧
      (s'.bank.slots i).quarantined = (s.bank.slots i).quarantined) : MarkInv (s'.sup w pc) := by
  have running : ∀ v ids, (s'.sup w pc).sups v = .running ids → v ≠ w ∧ s.sups v = .running ids := by
    intro v ids at_v
    rw [sup_sups, sups] at at_v
    split at at_v
    · exact absurd at_v (idle ids)
    · next other => exact ⟨other, at_v⟩
  have due : ∀ part, Due (s'.sup w pc) part ↔ Due s part := by
    intro part
    change (∃ c, part (s'.callers c)) ↔ _
    rw [callers]
    rfl
  refine marks_keep inv (fun v ids at_v => (running v ids at_v).2) ?_ ?_ (fun v => due _) ?_ replaced
  · intro v ids at_v i here
    obtain ⟨other, was⟩ := running v ids at_v
    unfold Told
    rw [due, ← (flags v ids other was i here).1]
    rfl
  · intro v ids at_v i here
    obtain ⟨other, was⟩ := running v ids at_v
    unfold GivenUp
    rw [due, ← (flags v ids other was i here).2]
    rfl
  · exact fun v ids at_v => retiring v (running v ids at_v).1

theorem marks_goto {s s' : Pool} {c : Nat} {pc : Caller} (inv : MarkInv s) (sups : s'.sups = s.sups)
    (callers : s'.callers = s.callers) (bank : s'.bank = s.bank) (retiring : s'.retiring = s.retiring)
    (replaced : s'.replaced = s.replaced) (retire : retireLeft pc = retireLeft (s.callers c))
    (quarantine : quarantineLeft pc = quarantineLeft (s.callers c))
    (replace : replaces pc = replaces (s.callers c)) : MarkInv (s'.goto c pc) := by
  refine marks_keep inv ?_ ?_ ?_ ?_ ?_ replaced
  · intro w ids at_w
    rw [← sups]
    exact at_w
  · intro w ids _ i _
    refine or_congr ?_ (due_same callers (by rw [retire]))
    change (s'.bank.slots i).retired = true ↔ _
    rw [bank]
  · intro w ids _ i _
    refine or_congr ?_ (due_same callers (by rw [quarantine]))
    change (s'.bank.slots i).quarantined = true ↔ _
    rw [bank]
  · exact fun w => due_same callers (by rw [replace])
  · intro w ids _
    change w ∈ s'.retiring ↔ _
    rw [retiring]

theorem marks_bank {s : Pool} {b : Bank} (inv : MarkInv s)
    (retired : ∀ i, (b.slots i).retired = (s.bank.slots i).retired)
    (quarantined : ∀ i, (b.slots i).quarantined = (s.bank.slots i).quarantined) :
    MarkInv { s with bank := b } := by
  refine marks_keep inv (fun _ _ at_w => at_w) ?_ ?_ (fun _ => Iff.rfl) (fun _ _ _ => Iff.rfl) rfl
  · intro w ids _ i _
    unfold Told
    rw [← retired]
    rfl
  · intro w ids _ i _
    unfold GivenUp
    rw [← quarantined]
    rfl

theorem claim_slots {conf : Config} {s : Pool} {w : Nat} {got : List Nat} {pc : ClaimPc} {b : Bank}
    {next : Claimed} (own : OwnInv conf s) (at_pc : s.sups w = .claiming got pc)
    (claimed : ClaimMove conf.lanes s.bank pc b next) {v j : Nat} {ids : List Nat} (other : v ≠ w)
    (at_v : s.sups v = .running ids) (here : j ∈ ids) : b.slots j = s.bank.slots j := by
  have mine : j ∈ contents s (.worker v) := by simpa [contents, at_v, listed] using here
  cases claimed with
  | pop | none_free => rfl
  | reset i =>
    have apart : j ≠ i := by
      rintro rfl
      have taken : j ∈ contents s (.worker w) := by simp [contents, at_pc, listed, popped]
      have same : Place.worker v = .worker w := housed_apart own.housed mine taken
      exact other (Place.worker.inj same)
    simp [Bank.resetSlot, Bank.put, apart]
  | register =>
    have old := housed_lt own.housed mine
    simp [Bank.registerWorker, Bank.put, old.ne]

theorem turn_marks {conf : Config} {s : Pool} {c : Nat} {e : Event} {pc : Caller} (inv : MarkInv s)
    (live : LiveInv s) (kept : Kept conf s e) (turn : Turn conf s c e pc) : MarkInv (s.goto c pc) := by
  cases turn with
  | call op booted at_pc =>
    refine marks_goto inv rfl rfl rfl rfl rfl ?_ ?_ ?_ <;> rw [at_pc] <;> cases op <;> rfl
  | grow at_pc | full at_pc | refused w at_pc | again w at_pc =>
    refine marks_goto inv rfl rfl rfl rfl rfl ?_ ?_ ?_ <;> rw [at_pc] <;> rfl
  | marked at_pc =>
    rcases at_pc with at_pc | at_pc <;>
      refine marks_goto inv rfl rfl rfl rfl rfl ?_ ?_ ?_ <;> rw [at_pc] <;> rfl
  | looked id at_pc =>
    refine marks_goto inv rfl rfl rfl rfl rfl ?_ ?_ ?_ <;> rw [at_pc] <;>
      cases s.slotToWorker id <;> rfl
  | read w at_pc =>
    have given : w ∈ s.replaced := inv.replacing w ⟨c, by rw [at_pc]; rfl⟩
    have replacing : ∀ v, Replacing (s.goto c (.quarantineMarks ((s.workerSlots w).getD []))) v →
        Replacing s v := by
      intro v due
      rcases (due_goto rfl).mp due with mine | ⟨d, _, at_d⟩
      · cases mine
      · exact ⟨d, at_d⟩
    refine ⟨?_, ?_, fun v due => inv.replacing v (replacing v due), inv.some_slot⟩
    · intro v ids at_v i here
      refine Iff.trans ?_ (inv.told v ids at_v i here)
      exact or_congr_right (due_same rfl (by rw [at_pc]; rfl))
    · intro v ids at_v i here
      unfold GivenUp
      rw [due_goto rfl]
      by_cases same : v = w
      · -- its own slots are due from now on
        subst same
        have due : i ∈ (s.workerSlots v).getD [] := by rw [live.assigned v ids at_v]; exact here
        exact iff_of_true (.inl (.inr (.inl due))) given
      · have elsewhere : i ∉ (s.workerSlots w).getD [] := by
          intro due
          exact same (kept.read c w rfl at_pc i due v ids at_v here)
        have still : Replacing (s.goto c (.quarantineMarks ((s.workerSlots w).getD []))) v ↔
            Replacing s v := by
          refine due_same rfl ?_
          rw [at_pc]
          simp [replaces, Ne.symm same]
        refine Iff.trans ?_ (inv.given_up v ids at_v i here)
        unfold GivenUp
        rw [still, due_split c]
        simp [Pool.goto, quarantineLeft, at_pc, elsewhere]

theorem marks_retire {s : Pool} {c i : Nat} {left : List Nat} (inv : MarkInv s)
    (at_pc : s.callers c = .retireMarks (i :: left)) :
    MarkInv ({ s with bank := s.bank.retireSlot i }.goto c (.retireMarks left)) := by
  refine marks_keep inv (fun _ _ at_w => at_w) ?_ ?_ ?_ (fun _ _ _ => Iff.rfl) rfl
  · intro w ids _ j _
    unfold Told
    rw [due_goto rfl, due_split c]
    by_cases same : j = i
    · subst same
      simp [Pool.goto, Bank.retireSlot, Bank.put, at_pc, retireLeft]
    · simp [Pool.goto, Bank.retireSlot, Bank.put, at_pc, retireLeft, same]
  · intro w ids _ j _
    refine or_congr ?_ (due_same rfl (by rw [at_pc]; rfl))
    change ((s.bank.retireSlot i).slots j).quarantined = true ↔ _
    rw [Bank.retireSlot, put_same PoolSlot.quarantined j (by rfl)]
  · exact fun w => due_same rfl (by rw [at_pc]; rfl)

theorem marks_quarantine {s : Pool} {c i : Nat} {left : List Nat} (inv : MarkInv s)
    (at_pc : s.callers c = .quarantineMarks (i :: left)) :
    MarkInv ({ s with bank := s.bank.quarantineSlot i }.goto c (.quarantineMarks left)) := by
  refine marks_keep inv (fun _ _ at_w => at_w) ?_ ?_ ?_ (fun _ _ _ => Iff.rfl) rfl
  · intro w ids _ j _
    refine or_congr ?_ (due_same rfl (by rw [at_pc]; rfl))
    change ((s.bank.quarantineSlot i).slots j).retired = true ↔ _
    rw [Bank.quarantineSlot, put_same PoolSlot.retired j (by rfl)]
  · intro w ids _ j _
    unfold GivenUp
    rw [due_goto rfl, due_split c]
    by_cases same : j = i
    · subst same
      simp [Pool.goto, Bank.quarantineSlot, Bank.put, at_pc, quarantineLeft]
    · simp [Pool.goto, Bank.quarantineSlot, Bank.put, at_pc, quarantineLeft, same]
  · exact fun w => due_same rfl (by rw [at_pc]; rfl)

/-- A worker is told to leave: its slots, and no other worker's, are due to be marked. -/
theorem marks_tell {conf : Config} {s : Pool} {c w : Nat} (inv : MarkInv s) (live : LiveInv s)
    (own : OwnInv conf s) (at_pc : s.callers c = .retiring w) (alive : w ∈ s.live) :
    MarkInv ({ s with retiring := insert w s.retiring }.goto c
      ((s.workerSlots w).elim .idle .retireMarks)) := by
  have left : retireLeft ((s.workerSlots w).elim .idle .retireMarks) = (s.workerSlots w).getD [] := by
    cases s.workerSlots w <;> rfl
  have replacing : ∀ v, Replacing ({ s with retiring := insert w s.retiring }.goto c
      ((s.workerSlots w).elim .idle .retireMarks)) v ↔ Replacing s v := by
    intro v
    refine due_same rfl ?_
    rw [at_pc]
    cases s.workerSlots w <;> simp [replaces]
  refine ⟨?_, ?_, fun v due => inv.replacing v ((replacing v).mp due), inv.some_slot⟩
  · intro v ids at_v i here
    change s.sups v = .running ids at at_v
    change _ ↔ v ∈ insert w s.retiring
    unfold Told
    rw [due_goto rfl, left]
    by_cases same : v = w
    · subst same
      have due : i ∈ (s.workerSlots v).getD [] := by rw [live.assigned v ids at_v]; exact here
      exact iff_of_true (.inr (.inl due)) (Finset.mem_insert_self _ _)
    · have mine : i ∈ contents s (.worker v) := by simpa [contents, at_v, listed] using here
      have elsewhere : i ∉ (s.workerSlots w).getD [] := by
        intro due
        cases recorded : s.workerSlots w with
        | none => simp [recorded] at due
        | some ids' =>
          rw [recorded] at due
          rcases live.held w ids' alive recorded with held | gone
          · have apart : Place.worker v = .worker w := housed_apart own.housed mine (held i due)
            exact same (Place.worker.inj apart)
          · have apart : Place.worker v = .abandoned := housed_apart own.housed mine (gone i due)
            cases apart
      rw [Finset.mem_insert, ← inv.told v ids at_v i here]
      unfold Told
      rw [due_split c]
      simp [Pool.goto, at_pc, retireLeft, elsewhere, same]
  · intro v ids at_v i here
    refine Iff.trans ?_ (inv.given_up v ids at_v i here)
    rw [replacing v]
    refine or_congr_left (or_congr_right (due_same rfl ?_))
    rw [at_pc]
    cases s.workerSlots w <;> simp [quarantineLeft]

theorem marks_claim_worker {s : Pool} {c w : Nat} (inv : MarkInv s) (at_pc : s.callers c = .replacing w) :
    MarkInv ({ s with replaced := insert w s.replaced }.goto c (.numbering (some w))) := by
  have replacing : ∀ v, Replacing ({ s with replaced := insert w s.replaced }.goto c
      (.numbering (some w))) v ↔ v = w ∨ Replacing s v := by
    intro v
    unfold Replacing
    rw [due_goto rfl, due_split c]
    simp [replaces, at_pc, eq_comm]
  refine ⟨?_, ?_, ?_, inv.some_slot⟩
  · intro v ids at_v i here
    refine Iff.trans ?_ (inv.told v ids at_v i here)
    exact or_congr_right (due_same rfl (by rw [at_pc]; rfl))
  · intro v ids at_v i here
    have before := inv.given_up v ids at_v i here
    have same : GivenUp ({ s with replaced := insert w s.replaced }.goto c (.numbering (some w))) i ↔
        GivenUp s i := or_congr_right (due_same rfl (by rw [at_pc]; rfl))
    change _ ↔ v ∈ insert w s.replaced
    rw [same, replacing, Finset.mem_insert, ← before]
    tauto
  · intro v due
    change v ∈ insert w s.replaced
    rw [Finset.mem_insert]
    exact ((replacing v).mp due).imp_right (inv.replacing v)

theorem marks_assign {conf : Config} {s : Pool} {w : Nat} {got : List Nat} (inv : MarkInv s)
    (kept : Kept conf s (.sup w)) (at_pc : s.sups w = .claiming got .popping)
    (whole : got.length = conf.threads) : MarkInv (s.assign w got) := by
  obtain ⟨some_slot, untold, replaced, fresh⟩ := kept.assigned w got rfl at_pc whole
  have running : ∀ v ids, (s.assign w got).sups v = .running ids →
      v = w ∧ ids = got ∨ s.sups v = .running ids := by
    intro v ids at_v
    change (Pool.sup _ w (.running got)).sups v = .running ids at at_v
    rw [sup_sups] at at_v
    split at at_v
    · next same =>
      cases at_v
      exact .inl ⟨same, rfl⟩
    · exact .inr at_v
  refine ⟨?_, ?_, inv.replacing, ?_⟩
  · intro v ids at_v i here
    rcases running v ids at_v with ⟨rfl, rfl⟩ | was
    · exact iff_of_false (fresh i here).1 untold
    · exact inv.told v ids was i here
  · intro v ids at_v i here
    rcases running v ids at_v with ⟨rfl, rfl⟩ | was
    · exact ⟨fun marked => inv.replacing v (marked.resolve_left (fresh i here).2),
        fun given => .inr (replaced given)⟩
    · exact inv.given_up v ids was i here
  · intro v ids at_v
    rcases running v ids at_v with ⟨rfl, rfl⟩ | was
    · exact some_slot
    · exact inv.some_slot v ids was

theorem move_marks {conf : Config} {s s' : Pool} {e : Event} (inv : MarkInv s) (live : LiveInv s)
    (own : OwnInv conf s) (kept : Kept conf s e) (move : Move conf s e s') : MarkInv s' := by
  have still : ∀ v ids (w : Nat), v ≠ w → s.sups v = .running ids → ∀ i ∈ ids,
      (s.bank.slots i).retired = (s.bank.slots i).retired ∧
      (s.bank.slots i).quarantined = (s.bank.slots i).quarantined :=
    fun _ _ _ _ _ _ _ => ⟨rfl, rfl⟩
  have unmoved : ∀ w v : Nat, v ≠ w → (v ∈ s.retiring ↔ v ∈ s.retiring) := fun _ _ _ => Iff.rfl
  cases move with
  | boot more =>
    have kept : MarkInv (s.supervise s.booted) :=
      marks_sup inv rfl rfl rfl (unmoved s.booted) (by simp) (still · · s.booted)
    exact ⟨kept.told, kept.given_up, kept.replacing, kept.some_slot⟩
  | supervise c new old at_pc =>
    have kept : MarkInv (s.supervise new) :=
      marks_sup inv rfl rfl rfl (unmoved new) (by simp) (still · · new)
    have at_c : (s.supervise new).callers c = .supervising new old := at_pc
    refine marks_goto kept rfl rfl rfl rfl rfl ?_ ?_ ?_ <;> rw [at_c] <;> cases old <;> rfl
  | claimOn w got pc pc' b at_pc claimed =>
    refine marks_sup inv rfl rfl rfl (unmoved w) (by simp) ?_
    intro v ids other at_v i here
    rw [claim_slots own at_pc claimed other at_v here]
    exact ⟨rfl, rfl⟩
  | claimed w got pc b i at_pc claimed =>
    refine marks_sup inv rfl rfl rfl (unmoved w) (by simp) ?_
    intro v ids other at_v i here
    rw [claim_slots own at_pc claimed other at_v here]
    exact ⟨rfl, rfl⟩
  | assign w got at_pc whole => exact marks_assign inv kept at_pc whole
  | joined w ids at_pc | crash w ids at_pc | release w ids at_pc =>
    exact marks_sup inv rfl rfl rfl (unmoved w) (by simp) (still · · w)
  | abort w i left at_pc =>
    refine marks_sup inv rfl rfl rfl (unmoved w) (by simp) ?_
    exact fun v ids _ _ j _ => ⟨put_same PoolSlot.retired j (by rfl), put_same PoolSlot.quarantined j (by rfl)⟩
  | respawn w at_pc | leave w ids at_pc | quit w ids at_pc =>
    refine marks_sup inv rfl rfl rfl ?_ (by simp) (still · · w)
    intro v other
    simp [other]
  | endLoop => exact ⟨inv.told, inv.given_up, inv.replacing, inv.some_slot⟩
  | handle | checkout =>
    exact marks_bank inv (fun j => put_same PoolSlot.retired j (by rfl))
      fun j => put_same PoolSlot.quarantined j (by rfl)
  | turn c e pc turn => exact turn_marks inv live kept turn
  | number c old at_pc =>
    refine marks_goto inv rfl rfl rfl rfl rfl ?_ ?_ ?_ <;> rw [at_pc] <;> rfl
  | retire c w at_pc alive => exact marks_tell inv live own at_pc alive
  | markRetired c i left at_pc => exact marks_retire inv at_pc
  | replace c w at_pc => exact marks_claim_worker inv at_pc
  | markQuarantined c i left at_pc => exact marks_quarantine inv at_pc

theorem initial_marks (conf : Config) : MarkInv (initial conf) := by
  refine ⟨by simp [initial], by simp [initial], ?_, by simp [initial]⟩
  rintro w ⟨c, due⟩
  cases due

theorem initial_live (conf : Config) : LiveInv (initial conf) :=
  ⟨by simp [initial, lives], by simp [initial], by simp [initial], by simp [initial]⟩

theorem reachable_marks {conf : Config} {s : Pool} (reached : ReachableBy (system conf) (Kept conf) s) :
    OwnInv conf s ∧ LiveInv s ∧ MarkInv s := by
  refine invariant (fun s => OwnInv conf s ∧ LiveInv s ∧ MarkInv s) ?_ ?_ reached
  · rintro s rfl
    exact ⟨initial_own_inv conf, initial_live conf, initial_marks conf⟩
  · rintro s t e ⟨own, live, marks⟩ kept moved
    have move := step_move moved
    exact ⟨step_own_inv own moved, move_live live own.index move, move_marks marks live own kept move⟩

theorem quiet_flags {conf : Config} {s : Pool} (live : LiveInv s) (marks : MarkInv s) (quiet : s.Quiet conf)
    {w : Nat} (alive : w ∈ s.live) :
    ∃ ids, s.sups w = .running ids ∧ s.workerSlots w = some ids ∧ ids ≠ [] ∧ ∀ i ∈ ids,
      ((s.bank.slots i).retired = true ↔ w ∈ s.retiring) ∧
      ((s.bank.slots i).quarantined = true ↔ w ∈ s.replaced) := by
  obtain ⟨_, idle, settled⟩ := quiet
  have nothing : ∀ part : Caller → Prop, ¬part .idle → ¬Due s part := by
    rintro part none ⟨c, at_c⟩
    rw [idle c] at at_c
    exact none at_c
  have running := (live.live w).mp alive
  rcases settled w with at_w | at_w | ⟨ids, at_w⟩
  · rw [at_w] at running
    cases running
  · rw [at_w] at running
    cases running
  · refine ⟨ids, at_w, live.assigned w ids at_w, marks.some_slot w ids at_w, fun i here => ⟨?_, ?_⟩⟩
    · rw [← marks.told w ids at_w i here]
      exact (or_iff_left (nothing _ (by simp [retireLeft]))).symm
    · rw [← marks.given_up w ids at_w i here]
      have unread : ¬Replacing s w := nothing _ (by simp [replaces])
      rw [or_iff_left unread]
      exact (or_iff_left (nothing _ (by simp [quarantineLeft]))).symm

/-- `active_count` is right whenever no operation is in progress, in every run that assigns
    and reads slots as in `Kept`. -/
theorem count_of_clean_workers (conf : Config) (s : Pool)
    (reached : ReachableBy (system conf) (Kept conf) s) (quiet : s.Quiet conf) : CountLaw s := by
  obtain ⟨_, live, marks⟩ := reachable_marks reached
  have counts : ∀ w ∈ s.live, (w ∈ s.active ↔ clean s w = true) := by
    intro w alive
    obtain ⟨ids, _, recorded, some_slot, flags⟩ := quiet_flags live marks quiet alive
    obtain ⟨i, here⟩ := List.exists_mem_of_ne_nil ids some_slot
    have all : clean s w = true ↔ w ∉ s.retiring ∧ w ∉ s.replaced := by
      simp only [clean, recorded, Option.getD_some, List.all_eq_true, Bool.and_eq_true,
        Bool.not_eq_true', Bool.eq_false_iff]
      constructor
      · intro unmarked
        obtain ⟨unretired, unquarantined⟩ := unmarked i here
        exact ⟨fun told => unretired ((flags i here).1.mpr told),
          fun given => unquarantined ((flags i here).2.mpr given)⟩
      · rintro ⟨untold, kept⟩ j there
        exact ⟨fun marked => untold ((flags j there).1.mp marked),
          fun marked => kept ((flags j there).2.mp marked)⟩
    rw [all]
    simp [Pool.active, alive]
  constructor
  · refine congrArg Finset.card ?_
    ext w
    rw [Finset.mem_filter]
    constructor
    · intro active
      have alive : w ∈ s.live := (Finset.mem_sdiff.mp active).1
      exact ⟨alive, (counts w alive).mp active⟩
    · rintro ⟨alive, unmarked⟩
      exact (counts w alive).mpr unmarked
  · intro w alive unmarked
    obtain ⟨ids, at_w, recorded, _⟩ := quiet_flags live marks quiet alive
    have active := (counts w alive).mpr unmarked
    exact ⟨active, ids, at_w, by rw [Pool.groups, if_pos active, recorded]⟩
  · intro w alive uncounted
    obtain ⟨ids, at_w, _, _, flags⟩ := quiet_flags live marks quiet alive
    refine ⟨ids, at_w, ?_⟩
    have out : w ∈ s.retiring ∨ w ∈ s.replaced := by
      simpa [Pool.active, alive, or_iff_not_imp_left] using uncounted
    exact out.imp (fun told i here => (flags i here).1.mpr told) fun given i here => (flags i here).2.mpr given

def plain (conf : Config) (s : Pool) : Event → Bool
  | .sup w =>
    match s.sups w with
    | .claiming got .popping => got.length ≠ conf.threads
    | _ => true
  | .caller _ => false
  | _ => true

theorem plain_kept {conf : Config} {s : Pool} {e : Event} (still : plain conf s e = true) :
    Kept conf s e := by
  constructor
  · rintro w got rfl at_pc whole
    simp [plain, at_pc, whole] at still
  · rintro c w rfl
    cases still

theorem idle_kept {conf : Config} {s : Pool} {w : Nat} (idle : ∀ c, s.callers c = .idle)
    (fresh : ∀ got pc, s.sups w = .claiming got pc → got.length = conf.threads → got ≠ [] ∧ w ∉ s.retiring ∧
      w ∉ s.replaced ∧ ∀ i ∈ got, (s.bank.slots i).retired = false ∧ (s.bank.slots i).quarantined = false) :
    Kept conf s (.sup w) := by
  have nothing : ∀ part : Caller → Prop, ¬part .idle → ¬Due s part := by
    rintro part none ⟨c, at_c⟩
    rw [idle c] at at_c
    exact none at_c
  constructor
  · intro v got same at_pc whole
    cases same
    obtain ⟨some_slot, untold, kept, unmarked⟩ := fresh got .popping at_pc whole
    refine ⟨some_slot, untold, fun given => absurd given kept, fun i here => ⟨?_, ?_⟩⟩
    · rintro (told | due)
      · rw [(unmarked i here).1] at told
        cases told
      · exact nothing _ (by simp [retireLeft]) due
    · rintro (given | due)
      · rw [(unmarked i here).2] at given
        cases given
      · exact nothing _ (by simp [quarantineLeft]) due
  · rintro c v ⟨⟩

/-- A worker crashes, comes back on fresh slots and is counted. -/
theorem crashed_worker_counted :
    ∃ s, ReachableBy (system ⟨1, 1, false, 2⟩) (Kept ⟨1, 1, false, 2⟩) s ∧
      s.Quiet ⟨1, 1, false, 2⟩ ∧ s.sups 0 = .running [1] ∧ s.activeCount = 1 ∧ CountLaw s := by
  have booted : runBy (system ⟨1, 1, false, 2⟩) (plain ⟨1, 1, false, 2⟩) (initial ⟨1, 1, false, 2⟩)
      ([Event.boot] ++ List.replicate 2 (.sup 0)) = some _ := rfl
  have first := (reachable_runBy (fun _ _ => plain_kept) (.start rfl) booted).next (l := .sup 0)
    (idle_kept (fun _ => rfl) ?_) rfl
  · have again : ∃ s, ReachableBy (system ⟨1, 1, false, 2⟩) (Kept ⟨1, 1, false, 2⟩) s ∧
        s.Quiet ⟨1, 1, false, 2⟩ ∧ s.sups 0 = .running [1] ∧ s.activeCount = 1 := by
      refine ⟨?back, (reachable_runBy (fun _ _ => plain_kept) first (?ran : runBy _ _ _
        ([Event.die 0] ++ List.replicate 5 (.sup 0)) = some ?claimed)).next (l := .sup 0)
        (idle_kept ?_ ?_) ?moved, ⟨?_, ?_, ?_⟩, ?_, ?_⟩
      case ran => exact rfl
      case moved => exact rfl
      · exact fun _ => rfl
      · intro got pc at_pc _
        cases at_pc
        decide
      · rfl
      · exact fun _ => rfl
      · intro w
        match w with
        | 0 => exact .inr (.inr ⟨_, rfl⟩)
        | w + 1 => exact .inl rfl
      · rfl
      · rfl
    obtain ⟨s, reached, quiet, back, count⟩ := again
    exact ⟨s, reached, quiet, back, count, count_of_clean_workers _ s reached quiet⟩
  · intro got pc at_pc _
    cases at_pc
    decide

/-- A worker hangs and is replaced; then it crashes after all, and its respawn serves on a
    fresh slot without being counted. -/
def replacedThenCrashes : List Event :=
  [Event.boot] ++ List.replicate 3 (Event.sup 0) ++ [Event.call 0 (.replace 0)] ++
    List.replicate 7 (Event.caller 0) ++ List.replicate 3 (Event.sup 1) ++ [Event.die 0] ++
    List.replicate 6 (Event.sup 0)

theorem respawn_uncounted :
    ¬∀ s, Reachable (system ⟨1, 1, false, 2⟩) s → s.Quiet ⟨1, 1, false, 2⟩ → CountLaw s := by
  intro law
  have ran : run (system ⟨1, 1, false, 2⟩) (initial ⟨1, 1, false, 2⟩) replacedThenCrashes = some _ := rfl
  have here := law _ (reachable_run (.start rfl) ran) ⟨rfl, ?_, ?_⟩
  · exact absurd here.counted (by decide)
  · intro c
    match c with
    | 0 => rfl
    | c + 1 => rfl
  · intro w
    match w with
    | 0 | 1 => exact .inr (.inr ⟨_, rfl⟩)
    | w + 2 => exact .inl rfl

end KinoWorkerCount
