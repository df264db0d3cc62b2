import Kino.Shutdown

/-!
What the escalation past the deadline frees. `abort_all_inflight` goes over the slots one by
one while workers take, admit and answer, clients read or hang up and handles are collected.
A request that waits is answered if the sweep comes to it: it is in the list or the lane of a
slot still ahead, or a worker whose slot is ahead has it in hand. Nothing sweeps the shared
queue, and nothing goes back to a slot.
-/
namespace KinoSweep
open Transitions Ownership KinoShutdown
open KinoResponder hiding Label step system

variable {H B : Type}

instance (x : Responder H B) : Decidable (Unanswered x) :=
  inferInstanceAs (Decidable (x.responded = false ∨ x.bodyTx = true))

def Waits (s : Server H B) (r : Nat) : Prop :=
  s.alive r = true ∧ Unanswered (s.responders r)

instance (s : Server H B) (r : Nat) : Decidable (Waits s r) :=
  inferInstanceAs (Decidable (_ ∧ _))

/-- A sweep begun in `s` has yet to answer `r`. -/
def Owes (s t : Server H B) (r : Nat) : Prop :=
  Waits s r ∧ Unanswered (t.responders r)

instance (s t : Server H B) (r : Nat) : Decidable (Owes s t r) :=
  inferInstanceAs (Decidable (_ ∧ _))

/-- The sweep has yet to read the list of slot `i`. -/
def Ahead (w : Sweep) (i : Nat) : Prop :=
  match w.stage with
  | .next => i ∈ w.slots
  | _ => i ∈ w.slots.tail

instance : (w : Sweep) → (i : Nat) → Decidable (Ahead w i)
  | ⟨_, slots, .next⟩, i => inferInstanceAs (Decidable (i ∈ slots))
  | ⟨_, slots, .answering _⟩, i | ⟨_, slots, .closing⟩, i | ⟨_, slots, .draining⟩, i =>
    inferInstanceAs (Decidable (i ∈ slots.tail))

/-- Every unanswered request that a worker holds is in a slot's list. -/
def Listed (s : Server H B) : Prop :=
  ∀ r i, s.loc r = some (.worker i) → Unanswered (s.responders r) →
    ∃ slot ∈ s.slots, r ∈ slot.current

def Passes (s t : Server H B) (w : Sweep) : Label H B → Prop
  | .take i source =>
    ∀ r ∈ (t.contents (source.elim Place.queue Place.lane)).head?, Owes s t r → Ahead w i
  | .checkout i | .resetSlot i =>
    Ahead w i → ∀ slot ∈ t.slots[i]?, ∀ r ∈ slot.current, ¬ Owes s t r
  | .sweep =>
    match w with
    | ⟨_, i :: _, .next⟩ => ∀ r ∈ t.contents (.hand i), ¬ Owes s t r
    | ⟨_, [], _⟩ => ∀ r ∈ t.contents .queue, ¬ Owes s t r
    | _ => True
  | _ => True

instance (s t : Server H B) : (w : Sweep) → (l : Label H B) → Decidable (Passes s t w l)
  | w, .take i _ => inferInstanceAs (Decidable (∀ r ∈ _, Owes s t r → Ahead w i))
  | w, .checkout i | w, .resetSlot i =>
    inferInstanceAs (Decidable (Ahead w i → ∀ slot ∈ t.slots[i]?, ∀ r ∈ slot.current, ¬ Owes s t r))
  | ⟨_, _ :: _, .next⟩, .sweep | ⟨_, [], _⟩, .sweep =>
    inferInstanceAs (Decidable (∀ r ∈ _, ¬ Owes s t r))
  | ⟨_, _ :: _, .answering _⟩, .sweep | ⟨_, _ :: _, .closing⟩, .sweep
  | ⟨_, _ :: _, .draining⟩, .sweep => isTrue trivial
  | _, .registerWorker | _, .cloneSender | _, .accept | _, .giveUp | _, .dispatch _
  | _, .admitCtx _ | _, .use .. | _, .release .. | _, .takeFrame _ | _, .hangUp _
  | _, .closeQueue | _, .abortInflight _ | _, .abortAllInflight => isTrue trivial

/-- No request that the sweep owes an answer goes where it does not come. No worker takes one
    once its own slot is read, or has one in hand as it is read; no list ahead is cleared of one;
    the shared queue holds none as the sweep returns. -/
def Permits (s t : Server H B) (l : Label H B) : Prop :=
  ∀ w ∈ t.sweep, Passes s t w l

instance (s t : Server H B) (l : Label H B) : Decidable (Permits s t l) :=
  inferInstanceAs (Decidable (∀ w ∈ t.sweep, Passes s t w l))

/-- Where the sweep comes to a request. -/
inductive Covered (t : Server H B) (w : Sweep) (r : Nat) : Prop where
  | queued (here : t.loc r = some .queue)
  | drained (here : t.loc r = some .drained)
  | laned (i : Nat) (here : t.loc r = some (.lane i)) (yet : i ∈ w.slots)
  | handed (i : Nat) (here : t.loc r = some (.hand i)) (yet : Ahead w i)
  | listed (i : Nat) (slot : Slot) (found : t.slots[i]? = some slot) (mem : r ∈ slot.current)
      (yet : Ahead w i)
  | read (all : Bool) (i : Nat) (rest rs : List Nat) (stage : w = ⟨all, i :: rest, .answering rs⟩)
      (mem : r ∈ rs)

/-- What one step does to the responder of `r`. -/
inductive Change (next : Nat) (l : Label H B) (r : Nat) (x y : Responder H B) : Prop where
  | same (kept : y = x)
  | used (i : Nat) (op : Use H B) (label : l = .use r i op) (used : useResponder x op = some y)
  | aborted (returned : respond500IfUnsent x = some y)
  | client (told : y.responded = x.responded) (open_ : y.bodyTx = x.bodyTx)
  | entered (new : r = next) (unclaimed : Unanswered y)

theorem respond_change {s : Server H B} {l : Label H B} {q : Nat} {x : Responder H B}
    (changed : Change s.next l q (s.responders q) x) (r : Nat) :
    Change s.next l r (s.responders r) ((s.respond q x).responders r) := by
  by_cases same : r = q
  · subst same
    simpa [Server.respond] using changed
  · exact .same (by simp [Server.respond, Function.update_of_ne same])

theorem enter_change {s : Server H B} {l : Label H B} (p : Place) (r : Nat) :
    Change s.next l r (s.responders r) ((s.enter p).responders r) := by
  by_cases same : r = s.next
  · exact .entered same (by simp [Server.enter, same, Unanswered, KinoResponder.new])
  · exact .same (by simp [Server.enter, Function.update_of_ne same])

theorem sweepStep_change {t u : Server H B} {l : Label H B} (moved : sweepStep t = some u)
    (r : Nat) : Change t.next l r (t.responders r) (u.responders r) := by
  unfold sweepStep at moved
  split at moved
  · cases moved
  · cases moved
    exact .same rfl
  · split at moved <;> cases moved <;> exact .same rfl
  · cases moved
    exact .same rfl
  · split at moved
    · obtain ⟨x, returned, rfl⟩ := Option.map_eq_some_iff.mp moved
      exact respond_change (.aborted returned) r
    · cases moved
      exact .same rfl
  · obtain ⟨slot, -, rfl⟩ := Option.map_eq_some_iff.mp moved
    exact .same rfl
  · split at moved
    · obtain ⟨x, returned, rfl⟩ := Option.map_eq_some_iff.mp moved
      exact respond_change (.aborted returned) r
    · split at moved <;> cases moved <;> exact .same rfl

theorem step_change {queueDepth : Nat} {t u : Server H B} {l : Label H B}
    (moved : step queueDepth t l = some u) (r : Nat) :
    Change t.next l r (t.responders r) (u.responders r) := by
  cases l with
  | registerWorker | cloneSender | giveUp | abortInflight i | abortAllInflight =>
    simp only [step, Option.ite_none_left_eq_some, Option.ite_none_right_eq_some,
      Option.some.injEq] at moved
    exact .same (moved.2 ▸ rfl)
  | accept =>
    simp only [step, Option.ite_none_right_eq_some, Option.some.injEq] at moved
    exact moved.2 ▸ enter_change .queue r
  | dispatch i =>
    simp only [step] at moved
    split at moved
    · simp only [Option.ite_none_right_eq_some, Option.some.injEq] at moved
      exact moved.2 ▸ enter_change (.lane i) r
    · cases moved
  | checkout i | resetSlot i =>
    simp only [step, Option.ite_none_left_eq_some, Option.map_eq_some_iff] at moved
    obtain ⟨-, slot, -, rfl⟩ := moved
    exact .same rfl
  | take i source =>
    simp only [step, take] at moved
    split at moved
    · split at moved
      · cases moved
      · cases moved
        exact .same rfl
    · cases moved
  | admitCtx i =>
    simp only [step, Option.ite_none_left_eq_some, admitCtx] at moved
    obtain ⟨-, moved⟩ := moved
    split at moved
    · cases moved
      exact .same rfl
    · cases moved
  | use q i op =>
    simp only [step, Option.ite_none_right_eq_some, Option.map_eq_some_iff] at moved
    obtain ⟨-, x, used, rfl⟩ := moved
    by_cases same : r = q
    · subst same
      exact .used i op rfl (by simpa [Server.respond] using used)
    · exact .same (by simp [Server.respond, Function.update_of_ne same])
  | release q i =>
    simp only [step, Option.ite_none_right_eq_some, Option.map_eq_some_iff] at moved
    obtain ⟨-, x, returned, rfl⟩ := moved
    exact respond_change (.aborted returned) r
  | takeFrame q =>
    cases moved
    exact respond_change (x := KinoShutdown.takeFrame _) (.client rfl rfl) r
  | hangUp q =>
    cases moved
    exact respond_change (x := KinoShutdown.hangUp _) (.client rfl rfl) r
  | closeQueue =>
    cases moved
    exact .same rfl
  | sweep => exact sweepStep_change moved r

theorem step_next {queueDepth : Nat} {t u : Server H B} {l : Label H B}
    (moved : step queueDepth t l = some u) : t.next ≤ u.next := by
  cases l with
  | registerWorker | cloneSender | giveUp | abortInflight i | abortAllInflight =>
    simp only [step, Option.ite_none_left_eq_some, Option.ite_none_right_eq_some,
      Option.some.injEq] at moved
    exact moved.2 ▸ Nat.le_refl _
  | accept =>
    simp only [step, Option.ite_none_right_eq_some, Option.some.injEq] at moved
    exact moved.2 ▸ Nat.le_succ _
  | dispatch i =>
    simp only [step] at moved
    split at moved
    · simp only [Option.ite_none_right_eq_some, Option.some.injEq] at moved
      exact moved.2 ▸ Nat.le_succ _
    · cases moved
  | checkout i | resetSlot i =>
    simp only [step, Option.ite_none_left_eq_some, Option.map_eq_some_iff] at moved
    obtain ⟨-, slot, -, rfl⟩ := moved
    exact Nat.le_refl _
  | take i source =>
    simp only [step, take] at moved
    split at moved
    · split at moved <;> cases moved
      exact Nat.le_refl _
    · cases moved
  | admitCtx i =>
    simp only [step, Option.ite_none_left_eq_some, admitCtx] at moved
    obtain ⟨-, moved⟩ := moved
    split at moved <;> cases moved
    exact Nat.le_refl _
  | use r i op | release r i =>
    simp only [step, Option.ite_none_right_eq_some, Option.map_eq_some_iff] at moved
    obtain ⟨-, x, -, rfl⟩ := moved
    exact Nat.le_refl _
  | takeFrame r | hangUp r | closeQueue =>
    cases moved
    exact Nat.le_refl _
  | sweep =>
    simp only [step, sweepStep] at moved
    split at moved
    · cases moved
    · cases moved
      exact Nat.le_refl _
    · split at moved <;> cases moved <;> exact Nat.le_refl _
    · cases moved
      exact Nat.le_refl _
    · split at moved
      · obtain ⟨x, -, rfl⟩ := Option.map_eq_some_iff.mp moved
        exact Nat.le_refl _
      · cases moved
        exact Nat.le_refl _
    · obtain ⟨slot, -, rfl⟩ := Option.map_eq_some_iff.mp moved
      exact Nat.le_refl _
    · split at moved
      · obtain ⟨x, -, rfl⟩ := Option.map_eq_some_iff.mp moved
        exact Nat.le_refl _
      · split at moved <;> cases moved <;> exact Nat.le_refl _

theorem Change.unanswered {next r : Nat} {l : Label H B} {x y : Responder H B} (fresh : Fresh x)
    (changed : Change next l r x y) (old : r < next) (after : Unanswered y) : Unanswered x := by
  cases changed with
  | same kept => exact kept ▸ after
  | used i op _ used =>
    by_contra answered
    exact use_answered answered used after
  | aborted returned => exact absurd after (respond500_answers fresh returned)
  | client told open_ => simpa [Unanswered, told, open_] using after
  | entered new => omega

theorem Change.answers {next r : Nat} {l : Label H B} {x y : Responder H B} (fresh : Fresh x)
    (changed : Change next l r x y) (before : Unanswered x) (after : ¬ Unanswered y) :
    (∃ i op, l = .use r i op) ∨ AbortSent x y := by
  cases changed with
  | same kept => exact absurd (kept ▸ before) after
  | used i op label _ => exact .inl ⟨i, op, label⟩
  | aborted returned =>
    rcases respond500_sweeps fresh returned with ⟨-, sent⟩ | ⟨answered, -⟩
    · exact .inr sent
    · exact absurd before answered
  | client told open_ =>
    simp only [Unanswered, told, open_] at after
    exact absurd before after
  | entered _ unclaimed => exact absurd unclaimed after

structure Stays (t u : Server H B) (w : Sweep) (r : Nat) : Prop where
  loc : u.loc r = t.loc r
  listed : ∀ i, Ahead w i → ∀ slot, t.slots[i]? = some slot → r ∈ slot.current →
    ∃ slot', u.slots[i]? = some slot' ∧ r ∈ slot'.current

theorem Covered.goes {t u : Server H B} {w v : Sweep} {r : Nat} (covered : Covered t w r)
    (loc : u.loc r = t.loc r)
    (laned : ∀ i, t.loc r = some (.lane i) → i ∈ w.slots → i ∈ v.slots)
    (handed : ∀ i, t.loc r = some (.hand i) → Ahead w i → Ahead v i)
    (listed : ∀ i slot, t.slots[i]? = some slot → r ∈ slot.current → Ahead w i → Covered u v r)
    (read : ∀ all i rest rs, w = ⟨all, i :: rest, .answering rs⟩ → r ∈ rs → Covered u v r) :
    Covered u v r := by
  cases covered with
  | queued here => exact .queued (loc ▸ here)
  | drained here => exact .drained (loc ▸ here)
  | laned i here yet => exact .laned i (loc ▸ here) (laned i here yet)
  | handed i here yet => exact .handed i (loc ▸ here) (handed i here yet)
  | listed i slot found mem yet => exact listed i slot found mem yet
  | read all i rest rs stage mem => exact read all i rest rs stage mem

theorem Covered.stays {t u : Server H B} {w : Sweep} {r : Nat} (covered : Covered t w r)
    (stays : Stays t u w r) : Covered u w r := by
  apply covered.goes stays.loc
  · exact fun i _ yet => yet
  · exact fun i _ yet => yet
  · intro i slot found mem yet
    obtain ⟨slot', found', mem'⟩ := stays.listed i yet slot found mem
    exact .listed i slot' found' mem' yet
  · exact fun all i rest rs stage mem => .read all i rest rs stage mem

theorem stays_same {t u : Server H B} {w : Sweep} {r : Nat} (loc : u.loc r = t.loc r)
    (slots : u.slots = t.slots) : Stays t u w r :=
  ⟨loc, fun _ _ slot found mem => ⟨slot, slots ▸ found, mem⟩⟩

theorem put_stays {t : Server H B} {w : Sweep} {r i : Nat} {old : Slot} (slot : Slot)
    (found : t.slots[i]? = some old)
    (kept : Ahead w i → r ∈ old.current → r ∈ slot.current) : Stays t (t.put i slot) w r := by
  refine ⟨rfl, fun j yet other there mem => ?_⟩
  have inside := (List.getElem?_eq_some_iff.mp found).1
  by_cases same : j = i
  · subst same
    rw [found, Option.some.injEq] at there
    subst there
    exact ⟨slot, by simp [Server.put, inside], kept yet mem⟩
  · exact ⟨other, by simpa [Server.put, List.getElem?_set_ne (Ne.symm same)] using there, mem⟩

theorem move_loc {t : Server H B} {q r : Nat} {p o : Place} (other : r ≠ q) :
    (t.move q p o).loc r = t.loc r := by
  simp [Server.move, Function.update_of_ne other]

theorem drop_loc {t : Server H B} {q r : Nat} {x : Responder H B} {p : Place} (other : r ≠ q) :
    ((t.respond q x).drop q p).loc r = t.loc r := by
  simp [Server.drop, Server.respond, Function.update_of_ne other]

theorem take_covered {s t u : Server H B} {w : Sweep} {r i : Nat} {source : Option Nat}
    (owes : Owes s t r) (covered : Covered t w r)
    (passes : Passes s t w (.take i source)) (moved : take t i source = some u) :
    u.sweep = t.sweep ∧ Covered u w r := by
  simp only [take] at moved
  split at moved
  · split at moved
    · cases moved
    · next q rest front =>
      cases moved
      refine ⟨rfl, ?_⟩
      by_cases same : r = q
      · subst same
        have yet : Ahead w i := passes r (by simp [front]) owes
        exact .handed i (by simp [Server.move]) yet
      · exact covered.stays (stays_same (move_loc same) rfl)
  · cases moved

theorem admitCtx_covered {t u : Server H B} {w : Sweep} {r i : Nat} (owned : Owned t)
    (covered : Covered t w r) (moved : admitCtx t i = some u) :
    u.sweep = t.sweep ∧ Covered u w r := by
  simp only [admitCtx] at moved
  split at moved
  · next slot q rest found front =>
    cases moved
    refine ⟨rfl, ?_⟩
    have later : Stays (t.move q (.hand i) (.worker i)) _ w r :=
      put_stays (i := i)
        { slot with current := slot.current ++ [q], inFlight := slot.inFlight + 1 } found
        fun _ mem => List.mem_append_left _ mem
    by_cases same : r = q
    · subst same
      have in_hand : t.loc r = some (.hand i) := located_mem owned.located (by simp [front])
      cases covered with
      | queued here | drained here | laned j here yet => simp [in_hand] at here
      | handed j here yet =>
        rw [in_hand, Option.some.injEq, Place.hand.injEq] at here
        subst here
        have inside := (List.getElem?_eq_some_iff.mp found).1
        refine .listed i _ (by simp [Server.put, Server.move, inside]; rfl) ?_ yet
        simp
      | listed j other there mem yet =>
        obtain ⟨slot', found', mem'⟩ := later.listed j yet other there mem
        exact .listed j slot' found' mem' yet
      | read all j rest rs stage mem => exact .read all j rest rs stage mem
    · exact (covered.stays (stays_same (move_loc same) rfl)).stays later
  · cases moved

theorem step_covered {queueDepth : Nat} {s t u : Server H B} {l : Label H B} {w : Sweep} {r : Nat}
    (owned : Owned t) (old : r < t.next) (under : t.sweep = some w) (all : w.all = true)
    (covered : Covered t w r) (owes : Owes s t r) (passes : Passes s t w l) (other : l ≠ .sweep)
    (moved : step queueDepth t l = some u) (still : Unanswered (u.responders r)) :
    u.sweep = some w ∧ Covered u w r := by
  have older : r ≠ t.next := Nat.ne_of_lt old
  have entered : ∀ p, (t.enter p).loc r = t.loc r := by
    intro p
    simp [Server.enter, Function.update_of_ne older]
  cases l with
  | registerWorker => simp [step, Server.reading, under, all] at moved
  | cloneSender | giveUp =>
    simp only [step, Option.ite_none_right_eq_some, Option.some.injEq] at moved
    obtain ⟨-, rfl⟩ := moved
    exact ⟨under, covered.stays (stays_same rfl rfl)⟩
  | accept =>
    simp only [step, Option.ite_none_right_eq_some, Option.some.injEq] at moved
    obtain ⟨-, rfl⟩ := moved
    exact ⟨under, covered.stays (stays_same (entered .queue) rfl)⟩
  | dispatch i =>
    simp only [step] at moved
    split at moved
    · simp only [Option.ite_none_right_eq_some, Option.some.injEq] at moved
      obtain ⟨-, rfl⟩ := moved
      exact ⟨under, covered.stays (stays_same (entered (.lane i)) rfl)⟩
    · cases moved
  | checkout i | resetSlot i =>
    simp only [step, Option.ite_none_left_eq_some, Option.map_eq_some_iff] at moved
    obtain ⟨-, slot, found, rfl⟩ := moved
    refine ⟨under, covered.stays (put_stays _ found fun yet mem => ?_)⟩
    exact absurd owes (passes yet slot found r mem)
  | take i source =>
    obtain ⟨same, there⟩ := take_covered owes covered passes moved
    exact ⟨same ▸ under, there⟩
  | admitCtx i =>
    simp only [step, Option.ite_none_left_eq_some] at moved
    obtain ⟨same, there⟩ := admitCtx_covered owned covered moved.2
    exact ⟨same ▸ under, there⟩
  | use q i op =>
    simp only [step, Option.ite_none_right_eq_some, Option.map_eq_some_iff] at moved
    obtain ⟨-, x, -, rfl⟩ := moved
    exact ⟨under, covered.stays (stays_same rfl rfl)⟩
  | release q i =>
    simp only [step, Option.ite_none_right_eq_some, Option.map_eq_some_iff] at moved
    obtain ⟨-, x, returned, rfl⟩ := moved
    have apart : r ≠ q := by
      intro same
      subst same
      have answered := respond500_answers (owned.fresh r) returned
      simp [Server.drop, Server.respond, answered] at still
    exact ⟨under, covered.stays (stays_same (drop_loc apart) rfl)⟩
  | takeFrame q | hangUp q =>
    cases moved
    exact ⟨under, covered.stays (stays_same rfl rfl)⟩
  | closeQueue =>
    cases moved
    refine ⟨under, covered.stays ⟨rfl, fun i _ slot found mem => ?_⟩⟩
    exact ⟨{ slot with laneTx := false }, by simp [closeQueue, found], mem⟩
  | abortInflight i | abortAllInflight => simp [step, under] at moved
  | sweep => exact absurd rfl other

def Handled (t : Server H B) (r : Nat) : Prop :=
  ∃ w, t.sweep = some w ∧ w.all = true ∧ Covered t w r

section Stages
variable {s t u : Server H B} {i : Nat} {rest : List Nat} {r : Nat}

theorem past_slot {j : Nat} (yet : j ∈ i :: rest) (other : j ≠ i) : j ∈ rest :=
  (List.mem_cons.mp yet).resolve_left other

theorem returned_owes {stage : Stage} (owned : Owned t) (under : t.sweep = some ⟨true, [], stage⟩)
    (covered : Covered t ⟨true, [], stage⟩ r) (owes : Owes s t r)
    (passes : ∀ r ∈ t.contents .queue, ¬ Owes s t r) : False := by
  cases covered with
  | queued here => exact passes r (located_here owned.located here) owes
  | drained here =>
    obtain ⟨_, i, rest, draining⟩ := owned.drained r here
    simp [under] at draining
  | laned i here yet => cases yet
  | handed i here yet | listed i slot found mem yet => cases stage <;> cases yet
  | read _ i rest rs at_stage mem => cases at_stage

/-- The list is read, and nothing that it owes is in the hands of the slot's worker. -/
theorem next_handled (owned : Owned t) (under : t.sweep = some ⟨true, i :: rest, .next⟩)
    (covered : Covered t ⟨true, i :: rest, .next⟩ r) (owes : Owes s t r)
    (passes : ∀ r ∈ t.contents (.hand i), ¬ Owes s t r) (moved : sweepStep t = some u) :
    Handled u r := by
  simp only [sweepStep, under] at moved
  split at moved
  · next missing =>
    have none_there := List.getElem?_eq_none_iff.mp missing
    cases moved
    refine ⟨_, rfl, rfl, covered.goes rfl ?_ ?_ ?_ (by simp)⟩
    · intro j here yet
      have inside := owned.laned r j here
      exact past_slot yet (by omega)
    · intro j here yet
      have inside := owned.handed r j here
      exact past_slot yet (by omega)
    · intro j slot found mem yet
      have inside := (List.getElem?_eq_some_iff.mp found).1
      exact .listed j slot found mem (past_slot yet (by omega))
  · next slot found =>
    cases moved
    refine ⟨_, rfl, rfl, covered.goes rfl (fun _ _ yet => yet) ?_ ?_ (by simp)⟩
    · intro j here yet
      apply past_slot yet
      intro same
      exact passes r (same ▸ located_here owned.located here) owes
    · intro j other there mem yet
      by_cases same : j = i
      · subst same
        rw [found, Option.some.injEq] at there
        exact .read true j rest slot.current rfl (there ▸ mem)
      · refine .listed j other ?_ mem (past_slot yet same)
        simpa [Server.put, List.getElem?_set_ne (Ne.symm same)] using there

theorem Covered.on {stage stage' : Stage} (covered : Covered t ⟨true, i :: rest, stage⟩ r)
    (loc : u.loc r = t.loc r) (slots : u.slots = t.slots)
    (ahead : ∀ j, Ahead ⟨true, i :: rest, stage⟩ j → Ahead ⟨true, i :: rest, stage'⟩ j)
    (read : ∀ rs, stage = .answering rs → r ∈ rs → Covered u ⟨true, i :: rest, stage'⟩ r) :
    Covered u ⟨true, i :: rest, stage'⟩ r := by
  apply covered.goes loc
  · exact fun _ _ yet => yet
  · exact fun j _ yet => ahead j yet
  · exact fun j slot found mem yet => .listed j slot (slots ▸ found) mem (ahead j yet)
  · intro all j others rs same mem
    cases same
    exact read rs rfl mem

/-- The head of the list is answered, or it is gone and was answered before. -/
theorem answering_handled {q : Nat} {rs : List Nat} (owned : Owned t) (old : r < t.next)
    (under : t.sweep = some ⟨true, i :: rest, .answering (q :: rs)⟩)
    (covered : Covered t ⟨true, i :: rest, .answering (q :: rs)⟩ r)
    (moved : sweepStep t = some u) (still : Unanswered (u.responders r)) : Handled u r := by
  simp only [sweepStep, under] at moved
  split at moved
  · obtain ⟨x, returned, rfl⟩ := Option.map_eq_some_iff.mp moved
    refine ⟨_, rfl, rfl, covered.on rfl rfl (fun _ yet => yet) ?_⟩
    intro list same mem
    cases same
    rcases List.mem_cons.mp mem with rfl | later
    · have answered := respond500_answers (owned.fresh _) returned
      simp [Server.respond, answered] at still
    · exact .read _ _ _ _ rfl later
  · next dead =>
    cases moved
    refine ⟨_, rfl, rfl, covered.on rfl rfl (fun _ yet => yet) ?_⟩
    intro list same mem
    cases same
    rcases List.mem_cons.mp mem with rfl | later
    · exact absurd still (owned.gone _ old (by simpa [Server.alive] using dead))
    · exact .read _ _ _ _ rfl later

/-- A context of the lane is answered as it is dropped; an empty lane is left. -/
theorem draining_handled (owned : Owned t) (under : t.sweep = some ⟨true, i :: rest, .draining⟩)
    (covered : Covered t ⟨true, i :: rest, .draining⟩ r) (moved : sweepStep t = some u)
    (still : Unanswered (u.responders r)) : Handled u r := by
  simp only [sweepStep, under] at moved
  split at moved
  · next q more held =>
    obtain ⟨x, returned, rfl⟩ := Option.map_eq_some_iff.mp moved
    have apart : r ≠ q := by
      intro same
      subst same
      have answered := respond500_answers (owned.fresh r) returned
      simp [Server.drop, Server.respond, answered] at still
    exact ⟨_, under, rfl, covered.stays (stays_same (drop_loc apart) rfl)⟩
  · split at moved
    · next q more front =>
      cases moved
      refine ⟨_, under, rfl, ?_⟩
      by_cases same : r = q
      · subst same
        exact .drained (by simp [Server.move])
      · exact covered.stays (stays_same (move_loc same) rfl)
    · next empty =>
      cases moved
      refine ⟨_, rfl, rfl, covered.goes rfl ?_ (fun _ _ yet => yet) ?_ (by simp)⟩
      · intro j here yet
        apply past_slot yet
        intro same
        have there := located_here owned.located here
        simp [same, empty] at there
      · exact fun j slot found mem yet => .listed j slot found mem yet

theorem sweepStep_handled {w : Sweep} (owned : Owned t) (old : r < t.next)
    (under : t.sweep = some w) (all : w.all = true) (covered : Covered t w r) (owes : Owes s t r)
    (passes : Passes s t w .sweep) (moved : sweepStep t = some u)
    (still : Unanswered (u.responders r)) : Handled u r := by
  obtain ⟨all, slots, stage⟩ := w
  subst all
  cases slots with
  | nil => exact (returned_owes owned under covered owes passes).elim
  | cons i rest =>
    cases stage with
    | next => exact next_handled owned under covered owes passes moved
    | answering rs =>
      cases rs with
      | nil =>
        simp only [sweepStep, under] at moved
        cases moved
        exact ⟨_, rfl, rfl, covered.on rfl rfl (fun _ yet => yet) (by rintro _ ⟨⟩ ⟨⟩)⟩
      | cons q rs => exact answering_handled owned old under covered moved still
    | closing =>
      simp only [sweepStep, under] at moved
      obtain ⟨slot, found, rfl⟩ := Option.map_eq_some_iff.mp moved
      have put := covered.stays
        (put_stays { slot with inFlight := 0, laneTx := false, parked := true } found
          fun _ mem => mem)
      exact ⟨_, rfl, rfl, put.on rfl rfl (fun _ yet => yet) nofun⟩
    | draining => exact draining_handled owned under covered moved still

end Stages

/-- The sweep goes over every slot there is, and each waiting request is in one or queued. -/
theorem begin_handled {queueDepth : Nat} {s t : Server H B} {r : Nat} (owned : Owned s)
    (listed : Listed s) (begun : step queueDepth s .abortAllInflight = some t)
    (waits : Waits s r) : Handled t r := by
  simp only [step, Option.ite_none_right_eq_some, Option.some.injEq] at begun
  obtain ⟨idle, rfl⟩ := begun
  obtain ⟨p, here⟩ := Option.isSome_iff_exists.mp waits.1
  refine ⟨_, rfl, rfl, ?_⟩
  cases p with
  | queue => exact .queued here
  | lane i => exact .laned i here (List.mem_range.mpr (owned.laned r i here))
  | hand i => exact .handed i here (List.mem_range.mpr (owned.handed r i here))
  | worker i =>
    obtain ⟨slot, of_server, mem⟩ := listed r i here waits.2
    obtain ⟨j, inside, found⟩ := List.getElem_of_mem of_server
    exact .listed j slot (List.getElem?_eq_some_iff.mpr ⟨inside, found⟩) mem
      (List.mem_range.mpr inside)
  | drained =>
    obtain ⟨_, _, _, sweeping⟩ := owned.drained r here
    simp [idle] at sweeping

structure Escalating (s t : Server H B) : Prop where
  owned : Owned t
  old : ∀ r, Waits s r → r < t.next
  handled : ∀ r, Owes s t r → Handled t r

theorem step_escalating {queueDepth : Nat} {s t u : Server H B} {l : Label H B}
    (inv : Escalating s t) (permits : Permits s t l) (moved : step queueDepth t l = some u) :
    Escalating s u := by
  refine ⟨step_owned inv.owned moved, ?_, ?_⟩
  · intro r waits
    exact Nat.lt_of_lt_of_le (inv.old r waits) (step_next moved)
  · intro r ⟨waits, still⟩
    have old := inv.old r waits
    have before := (step_change moved r).unanswered (inv.owned.fresh r) old still
    obtain ⟨w, under, all, covered⟩ := inv.handled r ⟨waits, before⟩
    have passes := permits w under
    by_cases sweeps : l = .sweep
    · subst sweeps
      exact sweepStep_handled inv.owned old under all covered ⟨waits, before⟩ passes moved still
    · obtain ⟨same, there⟩ := step_covered inv.owned old under all covered ⟨waits, before⟩
        passes sweeps moved still
      exact ⟨w, same, all, there⟩

def stuckLane : List (Label Nat Nat) :=
  [.registerWorker, .registerWorker, .dispatch 0, .dispatch 0, .dispatch 1, .checkout 0,
    .take 0 (some 0), .admitCtx 0, .closeQueue]

def stolenAhead : List (Label Nat Nat) :=
  [.sweep, .take 1 (some 0), .admitCtx 1] ++ List.replicate 12 .sweep

def stuckQueue : List (Label Nat Nat) :=
  [.registerWorker, .cloneSender, .accept, .cloneSender, .accept, .checkout 0, .take 0 none,
    .admitCtx 0, .closeQueue]

/-- The handler comes to its end after all, and the worker takes the next request of its lane,
    once its list is read and before its lane is drained. -/
def takenBehind : List (Label Nat Nat) :=
  [.sweep, .sweep, .sweep, .use 0 0 (.respondSimple 7), .checkout 0, .take 0 (some 0),
    .admitCtx 0] ++ List.replicate 9 .sweep

end KinoSweep
