import Kino.LanePool

/-!
What `close_queue` leaves behind when supervisors are at work beside it. It closes the
lanes there are; a supervisor whose ractor crashed registers new ones for the respawn, and
only the draining flag, raised later, would keep it from that.
-/
namespace KinoClosedQueue
open Transitions Channels KinoLaneDispatch KinoLaneClosing KinoLanePool

def AllClosed (b : State) (k : Nat) : Prop := ∀ i, i < k → laneOpen b i = false

/-- How far `close_queue` on thread `t` is: it goes through the lanes it counted. -/
def Closing (b : State) (t : Nat) : Prop :=
  match b.ops t with
  | .closeLock k n => n = b.count ∧ AllClosed b k
  | .closeTake k n => n = b.count ∧ AllClosed b k
  | .closeUnlock k n => n = b.count ∧ AllClosed b (k + 1)
  | .finished => AllClosed b b.count
  | _ => False

def CloseInv (s : Pool) : Prop :=
  match s.shut with
  | .serving => True
  | .closing t => Closing s.base t
  | .closed | .flagged => AllClosed s.base s.base.count

theorem allClosed_fewer {b b' : State} {k : Nat} (shut : AllClosed b k)
    (fewer : ∀ j, laneOpen b' j = true → laneOpen b j = true) : AllClosed b' k := by
  intro i less
  by_contra opened
  have was := fewer i (by simpa using opened)
  simp [shut i less] at was

theorem closing_busy {b : State} {t : Nat} (closing : Closing b t) : b.ops t ≠ .absent := by
  intro idle
  simp [Closing, idle] at closing

theorem closing_same {b b' : State} {t : Nat} (closing : Closing b t) (ops : b'.ops t = b.ops t)
    (count : b'.count = b.count) (fewer : ∀ j, laneOpen b' j = true → laneOpen b j = true) :
    Closing b' t := by
  unfold Closing at closing ⊢
  rw [ops, count]
  split
  · simp only [*] at closing
    exact ⟨closing.1, allClosed_fewer closing.2 fewer⟩
  · simp only [*] at closing
    exact ⟨closing.1, allClosed_fewer closing.2 fewer⟩
  · simp only [*] at closing
    exact ⟨closing.1, allClosed_fewer closing.2 fewer⟩
  · simp only [*] at closing
    exact allClosed_fewer closing fewer
  · simp_all

theorem closing_operate {b b' : State} {t : Nat} (closing : Closing b t)
    (moved : operate b t = some b') : Closing b' t := by
  have next := operate_step moved
  have fewer := opStep_fewer next
  unfold Closing at closing ⊢
  unfold operate at moved
  cases at_pc : b.ops t with
  | closeLock k n =>
    simp only [at_pc] at moved closing
    obtain ⟨counted, shut⟩ := closing
    split at moved
    · next covered =>
      cases moved
      simp only [State.operate, Function.update_self]
      intro i less
      have inside : i < b.count := less
      exact shut i (by omega)
    · split at moved <;> cases moved
      simp only [State.operate, Function.update_self]
      exact ⟨counted, allClosed_fewer shut fewer⟩
  | closeTake k n =>
    simp only [at_pc] at moved closing
    obtain ⟨counted, shut⟩ := closing
    cases moved
    simp only [State.operate, Function.update_self]
    refine ⟨counted.trans next.count.symm, ?_⟩
    intro i less
    have lanes : laneOpen (b.closeLane k) = Function.update (laneOpen b) k false :=
      laneOpen_closeLane b k
    change laneOpen (b.closeLane k) i = false
    rw [lanes]
    by_cases here : i = k
    · simp [here]
    · rw [Function.update_of_ne here]
      exact shut i (by omega)
  | closeUnlock k n =>
    simp only [at_pc] at moved closing
    cases moved
    simp only [State.operate, Function.update_self]
    exact ⟨closing.1, allClosed_fewer closing.2 fewer⟩
  | finished =>
    simp only [at_pc] at moved
    cases moved
  | _ => simp [at_pc] at closing

/-- No supervisor comes to an empty bank once `close_queue` has begun. -/
def NoLateClaim (s : Pool) (e : Event) : Prop :=
  ∀ w, e = .claim w → s.free = [] → s.shut = .serving

theorem lane_close_inv {s s' : Pool} {l : Label} (inv : CloseInv s) (move : LaneMove s s' l) :
    CloseInv s' := by
  have shut : s'.shut = s.shut := by rw [move.rest]
  have count := step_count move.fresh move.moved
  have fewer := step_fewer move.moved
  unfold CloseInv at inv ⊢
  rw [shut, count]
  split
  · trivial
  · next t at_shut =>
    simp only [at_shut] at inv
    rcases busy_op move.moved (closing_busy inv) with same | own
    · exact closing_same inv same count fewer
    · exact closing_operate inv own
  · simp only [*] at inv
    exact allClosed_fewer inv fewer
  · simp only [*] at inv
    exact allClosed_fewer inv fewer

theorem aside_close_inv {s s' : Pool} {e : Event} (inv : CloseInv s) (aside : Aside s e s')
    (prompt : NoLateClaim s e) (shut : s'.shut = s.shut) : CloseInv s' := by
  have lanes := aside_lanes aside
  have counted : s.shut = .serving ∨ s'.base.count = s.base.count := by
    rcases aside.count with same | ⟨w, claims, none_left⟩
    · exact .inr same
    · exact .inl (prompt w claims none_left)
  unfold CloseInv at inv ⊢
  rw [shut]
  rcases counted with serving | same
  · simp [serving]
  · rw [same]
    split
    · trivial
    · next t at_shut =>
      simp only [at_shut] at inv
      exact closing_same inv (aside.ops t (closing_busy inv)) same (by simp [lanes])
    · simp only [*] at inv
      exact allClosed_fewer inv (by simp [lanes])
    · simp only [*] at inv
      exact allClosed_fewer inv (by simp [lanes])

theorem crash_shut {mode : Mode} {s s' : Pool} {i : Nat} (moved : crash mode s i = some s') :
    s'.shut = s.shut := by
  unfold crash at moved
  split at moved
  · cases mode <;> cases moved <;> rfl
  · cases moved

theorem react_shut {s s' : Pool} {w t : Nat} (moved : react s w t = some s') :
    s'.shut = s.shut := by
  unfold react at moved
  split at moved
  · cases moved; rfl
  · cases moved; rfl
  · split at moved <;> cases moved
    rfl
  · split at moved <;> cases moved
    rfl
  · cases moved; rfl
  · cases moved; rfl
  · cases moved

theorem step_close_inv {mode : Mode} {s s' : Pool} {e : Event} (own : OwnInv s) (inv : CloseInv s)
    (prompt : NoLateClaim s e) (moved : poolStep mode s e = some s') : CloseInv s' := by
  rcases lane_or_aside own moved with ⟨l, rfl, move⟩ | aside
  · exact lane_close_inv inv move
  · cases e with
    | lane l => exact lane_close_inv inv (laneStep_move moved)
    | respond r =>
      cases moved
      exact aside_close_inv inv aside prompt rfl
    | supervise w =>
      simp only [poolStep] at moved
      split at moved <;> cases moved
      exact aside_close_inv inv aside prompt rfl
    | claim w =>
      simp only [poolStep] at moved
      split at moved
      · obtain ⟨⟨i, s₁⟩, took, rfl⟩ := Option.map_eq_some_iff.mp moved
        exact aside_close_inv inv aside prompt (claimSlot_claimed own took).rest.2.2.2.2.2
      · obtain ⟨⟨i, s₁⟩, took, rfl⟩ := Option.map_eq_some_iff.mp moved
        exact aside_close_inv inv aside prompt (claimSlot_claimed own took).rest.2.2.2.2.2
      · cases moved
    | launch w =>
      simp only [poolStep] at moved
      split at moved <;> cases moved
      exact aside_close_inv inv aside prompt rfl
    | crash i => exact aside_close_inv inv aside prompt (crash_shut moved)
    | join w retired =>
      cases join_joined moved with
      | clean ids retired at_pc after =>
        subst s'
        cases retired <;> exact aside_close_inv inv aside prompt rfl
      | died ids i at_pc ractor first dead after =>
        subst s'
        exact aside_close_inv inv aside prompt rfl
    | react w t => exact aside_close_inv inv aside prompt (react_shut moved)
    | beginClose t =>
      simp only [poolStep] at moved
      split at moved <;> cases moved
      simp only [CloseInv, Closing, State.operate, Function.update_self]
      exact ⟨trivial, fun i less => absurd less (Nat.not_lt_zero i)⟩
    | endClose =>
      simp only [poolStep] at moved
      split at moved
      · next t at_shut =>
        split at moved <;> cases moved
        next over_ => simpa [CloseInv, at_shut, Closing, over_] using inv
      · cases moved
    | drain =>
      simp only [poolStep] at moved
      split at moved <;> cases moved
      next at_shut => simpa [CloseInv, at_shut] using inv

structure QueueClosed (s : Pool) : Prop where
  lanes : ∀ i, i < s.base.count → laneOpen s.base i = false
  disconnected : ∀ i, i < s.base.count → (s.base.slots i).lane.tryRecv.1 ≠ .empty
  unsent : ∀ r p back i, i < s.base.count → s.base.disp r ≠ .sending p back i

/-- Once `close_queue` has returned, and from then on, no lane is open. -/
theorem closed_queue_stays_closed {mode : Mode} {s : Pool}
    (reached : ReachableBy (poolSystem mode) NoLateClaim s)
    (returned : s.shut = .closed ∨ s.shut = .flagged) : QueueClosed s := by
  obtain ⟨own, inv⟩ : OwnInv s ∧ CloseInv s := by
    refine invariant (fun s => OwnInv s ∧ CloseInv s) ?_ ?_ reached
    · intro s start
      cases start
      exact ⟨empty_own_inv, trivial⟩
    · intro s s' e inv prompt moved
      exact ⟨step_own_inv inv.1 moved, step_close_inv inv.1 inv.2 prompt moved⟩
  have shut : AllClosed s.base s.base.count := by
    unfold CloseInv at inv
    rcases returned with at_shut | at_shut <;> simpa only [at_shut] using inv
  refine ⟨shut, ?_, ?_⟩
  · intro i known empty
    have linked := own.base.opened.linked i
    have tx : (s.base.slots i).laneTx = false := shut i known
    rw [tx] at linked
    rcases Chan.tryRecv_cases (s.base.slots i).lane with
      ⟨r, rest, front, eq⟩ | ⟨_, _, eq⟩ | ⟨_, some_sender, eq⟩
    · simp [eq] at empty
    · simp [eq] at empty
    · exact some_sender (by simpa using linked)
  · intro r p back i known at_pc
    have opened := own.base.opened.held r i (by rw [at_pc]; rfl)
    simp [shut i known] at opened

def prompt (s : Pool) : Event → Bool
  | .claim _ => s.free ≠ [] || s.shut = .serving
  | _ => true

theorem prompt_sound (s : Pool) (e : Event) (checked : prompt s e = true) : NoLateClaim s e := by
  intro w claims none_left
  subst claims
  simpa [prompt, none_left] using checked

def crashEvents : List Event :=
  [Event.supervise 0, .claim 0, .launch 0, .crash 0, .join 0 false, .react 0 0, .react 0 0] ++
    List.replicate 5 (Event.lane (.operate 0)) ++ [Event.react 0 0, .react 0 0, .react 0 0]

def respawnFirst : List Event :=
  crashEvents ++ [Event.claim 0, .launch 0, .beginClose 1] ++
    List.replicate 7 (Event.lane (.operate 1)) ++ [Event.endClose, .drain]

theorem respawn_before_close : ∃ s,
    runBy (poolSystem .ractor) prompt empty respawnFirst = some s ∧ s.base.count = 2 ∧
      s.shut = .flagged ∧ laneOpen s.base 1 = false := by
  have ran : ∃ s, runBy (poolSystem .ractor) prompt empty respawnFirst = some s ∧
      s.base.count = 2 ∧ s.shut = .flagged := ⟨_, rfl, rfl, rfl⟩
  obtain ⟨s, ran, two, flagged⟩ := ran
  have closed := closed_queue_stays_closed
    (reachable_runBy prompt_sound (.start rfl) ran) (.inr flagged)
  exact ⟨s, ran, two, flagged, closed.lanes 1 (by omega)⟩

/-- The supervisor is past its question when `close_queue` runs, and registers after it. -/
def closeFirst : List Event :=
  crashEvents ++ [Event.beginClose 1] ++ List.replicate 4 (Event.lane (.operate 1)) ++
    [Event.endClose, .claim 0, .launch 0, .drain]

theorem late_respawn_opens_lane : ∃ s, run (poolSystem .ractor) empty closeFirst = some s ∧
    s.shut = .flagged ∧ 1 < s.base.count ∧ laneOpen s.base 1 = true :=
  ⟨_, rfl, rfl, by decide, rfl⟩

end KinoClosedQueue
