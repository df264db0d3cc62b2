import Kino.LaneSafety

/-!
`try_dispatch` (ext/kino/src/server.rs) as one call that nothing interferes with: three
passes over the slot table, each of which moves the request's context through the lanes
that refuse it. A read of a slot's flags is a read of the table as the call found it, as
nothing changes before the send that ends the call.
-/
namespace KinoTryDispatch
open Transitions Ownership KinoLaneDispatch

/-- A slot as the dispatcher sees it; `queue` is what its lane holds. -/
structure Lane (C : Type) where
  laneTx : Bool
  retired : Bool
  parked : Bool
  parkedAt : Nat
  queue : List C
  deriving DecidableEq, Repr

structure Table (C : Type) where
  slots : List (Lane C)
  cursor : Nat
  deriving DecidableEq, Repr

inductive Dispatch (C : Type) where
  | sent
  | full (ctx : C)
  | closed
  deriving DecidableEq, Repr

/-- The values of a `usize`. -/
def usizeValues : Nat := 2 ^ 64

variable {C : Type}

def Lane.push (ctx : C) (slot : Lane C) : Lane C := { slot with queue := slot.queue ++ [ctx] }

/-- `try_lane`, with the flag it sets. -/
def tryLane (slot : Lane C) (ctx : C) (anyOpen : Bool) : Bool × Except C (Lane C) :=
  if slot.laneTx = false then (anyOpen, .error ctx)
  else if slot.retired then (true, .error ctx)
  else if slot.queue.length < laneDepth then (true, .ok (slot.push ctx))
  else (true, .error ctx)

/-- A loop of `try_lane` over the slots at these positions. -/
def tryLanes (slots : List (Lane C)) : List Nat → C → Bool → Bool × Except C (List (Lane C))
  | [], ctx, anyOpen => (anyOpen, .error ctx)
  | i :: rest, ctx, anyOpen =>
    match slots[i]? with
    | none => tryLanes slots rest ctx anyOpen
    | some slot =>
      match tryLane slot ctx anyOpen with
      | (anyOpen, .ok slot) => (anyOpen, .ok (slots.set i slot))
      | (anyOpen, .error ctx) => tryLanes slots rest ctx anyOpen

/-- The positions `(start + k) % n` for `k` in `0..n`. -/
def cyclic (n start : Nat) : List Nat := (List.range n).map fun k => (start + k) % usizeValues % n

def awakeAt (slots : List (Lane C)) (i : Nat) : Bool := slots[i]?.any fun slot => !slot.parked

def asleepAt (slots : List (Lane C)) (i : Nat) : Bool :=
  slots[i]?.any fun slot => slot.parked && slot.queue.isEmpty

def parkedAtOf (slots : List (Lane C)) (i : Nat) : Nat := (slots[i]?.map Lane.parkedAt).getD 0

/-- `max_by_key` keeps the later of two equal keys. -/
def warmer (slots : List (Lane C)) : Option Nat → Nat → Option Nat
  | none, j => some j
  | some i, j => if parkedAtOf slots j < parkedAtOf slots i then some i else some j

def hottest (slots : List (Lane C)) : Option Nat :=
  ((List.range slots.length).filter (asleepAt slots)).foldl (warmer slots) none

def tryDispatch (t : Table C) (ctx : C) : Dispatch C × Table C :=
  let n := t.slots.length
  if n = 0 then (.full ctx, t)
  else
    let start := t.cursor
    let cursor := (t.cursor + 1) % usizeValues
    match tryLanes t.slots ((cyclic n start).filter (awakeAt t.slots)) ctx false with
    | (_, .ok slots) => (.sent, ⟨slots, cursor⟩)
    | (anyOpen, .error ctx) =>
      match tryLanes t.slots (hottest t.slots).toList ctx anyOpen with
      | (_, .ok slots) => (.sent, ⟨slots, cursor⟩)
      | (anyOpen, .error ctx) =>
        match tryLanes t.slots (cyclic n start) ctx anyOpen with
        | (_, .ok slots) => (.sent, ⟨slots, cursor⟩)
        | (anyOpen, .error ctx) => (if anyOpen then .full ctx else .closed, ⟨t.slots, cursor⟩)

def fits (slot : Lane C) : Bool := slot.laneTx && !slot.retired && slot.queue.length < laneDepth

def fitsAt (slots : List (Lane C)) (i : Nat) : Bool := slots[i]?.any fits

def openAt (slots : List (Lane C)) (i : Nat) : Bool := slots[i]?.any Lane.laneTx

theorem fitsAt_lt {slots : List (Lane C)} {i : Nat} (here : fitsAt slots i = true) : i < slots.length := by
  by_contra outside
  have none_there : slots[i]? = none := List.getElem?_eq_none (by omega)
  simp [fitsAt, none_there] at here

theorem tryLane_fits {slot : Lane C} (room : fits slot = true) (ctx : C) (anyOpen : Bool) :
    tryLane slot ctx anyOpen = (true, .ok (slot.push ctx)) := by
  simp [fits] at room
  simp [tryLane, room]

theorem tryLane_refuses {slot : Lane C} (none_left : fits slot = false) (ctx : C) (anyOpen : Bool) :
    tryLane slot ctx anyOpen = (anyOpen || slot.laneTx, .error ctx) := by
  unfold tryLane
  by_cases shut : slot.laneTx = false
  · simp [shut]
  · by_cases gone : slot.retired = true
    · simp [shut, gone]
    · have crowded : ¬slot.queue.length < laneDepth := by
        simp_all [fits]
      simp [shut, gone, crowded]

theorem tryLanes_eq (slots : List (Lane C)) (ids : List Nat) (ctx : C) (anyOpen : Bool) :
    tryLanes slots ids ctx anyOpen =
      match ids.find? (fitsAt slots) with
      | some i => (true, .ok (slots.modify i (Lane.push ctx)))
      | none => (anyOpen || ids.any (openAt slots), .error ctx) := by
  induction ids generalizing anyOpen with
  | nil => simp [tryLanes]
  | cons i rest ih =>
    cases there : slots[i]? with
    | none =>
      have refused : fitsAt slots i = false := by simp [fitsAt, there]
      have shut : openAt slots i = false := by simp [openAt, there]
      simp only [tryLanes, there, List.find?_cons, refused, List.any_cons, shut, Bool.false_or]
      exact ih anyOpen
    | some slot =>
      by_cases room : fits slot = true
      · have taken : fitsAt slots i = true := by simp [fitsAt, there, room]
        have pushed : slots.set i (slot.push ctx) = slots.modify i (Lane.push ctx) := by
          have : Inhabited (Lane C) := ⟨slot⟩
          rw [List.modify_eq_set, there]
          rfl
        simp [tryLanes, there, tryLane_fits room, taken, pushed]
      · have room' : fits slot = false := by simpa using room
        have refused : fitsAt slots i = false := by simp [fitsAt, there, room']
        have flag : openAt slots i = slot.laneTx := by simp [openAt, there]
        simp only [tryLanes, there, tryLane_refuses room', List.find?_cons, refused, List.any_cons, flag]
        rw [ih, Bool.or_assoc]

def chosen (t : Table C) : Option Nat :=
  (((cyclic t.slots.length t.cursor).filter (awakeAt t.slots)).find? (fitsAt t.slots)).or
    (((hottest t.slots).toList.find? (fitsAt t.slots)).or
      ((cyclic t.slots.length t.cursor).find? (fitsAt t.slots)))

theorem cyclic_position {n start : Nat} (whole : start + n < usizeValues) {k : Nat} (inside : k < n) :
    (start + k) % usizeValues % n = (start + k) % n := by
  rw [Nat.mod_eq_of_lt (by omega : start + k < usizeValues)]

theorem mem_cyclic {n start : Nat} (whole : start + n < usizeValues) (i : Nat) :
    i ∈ cyclic n start ↔ i < n := by
  simp only [cyclic, List.mem_map, List.mem_range]
  constructor
  · rintro ⟨k, inside, rfl⟩
    exact Nat.mod_lt _ (by omega)
  · intro inside
    obtain ⟨k, less, here⟩ := round_covers start inside
    exact ⟨k, less, (cyclic_position whole less).trans here⟩

theorem find_cyclic {n start i : Nat} (whole : start + n < usizeValues) {test : Nat → Bool}
    (found : (cyclic n start).find? test = some i) :
    ∃ k, k < n ∧ (start + k) % n = i ∧ test i = true ∧ ∀ j, j < k → test ((start + j) % n) = false := by
  rw [cyclic, List.find?_map, Option.map_eq_some_iff] at found
  obtain ⟨k, first, here⟩ := found
  rw [List.find?_range_eq_some] at first
  obtain ⟨passes, inside, before⟩ := first
  rw [List.mem_range] at inside
  rw [cyclic_position whole inside] at here
  refine ⟨k, inside, here, ?_, ?_⟩
  · rw [← here, ← cyclic_position whole inside]
    exact passes
  · intro j less
    have refused := before j less
    simp only [Function.comp_apply, cyclic_position whole (by omega : j < n)] at refused
    simpa using refused

theorem openAt_mem {slots : List (Lane C)} {i : Nat} (here : openAt slots i = true) :
    slots.any Lane.laneTx = true := by
  unfold openAt at here
  cases there : slots[i]? with
  | none => simp [there] at here
  | some slot =>
    rw [there] at here
    exact List.any_eq_true.mpr ⟨slot, List.mem_of_getElem? there, here⟩

theorem any_open {slots : List (Lane C)} {start : Nat} (whole : start + slots.length < usizeValues) :
    (cyclic slots.length start).any (openAt slots) = slots.any Lane.laneTx := by
  rw [Bool.eq_iff_iff]
  constructor
  · intro somewhere
    obtain ⟨i, _, here⟩ := List.any_eq_true.mp somewhere
    exact openAt_mem here
  · intro somewhere
    obtain ⟨slot, member, here⟩ := List.any_eq_true.mp somewhere
    obtain ⟨i, inside, rfl⟩ := List.mem_iff_getElem.mp member
    apply List.any_eq_true.mpr
    exact ⟨i, (mem_cyclic whole i).mpr inside, by simpa [openAt, inside] using here⟩

/-- What an earlier pass met open counts among all the lanes. -/
theorem met_open {slots : List (Lane C)} {start : Nat} (whole : start + slots.length < usizeValues)
    (first second : List Nat) :
    (false || first.any (openAt slots) || second.any (openAt slots) ||
      (cyclic slots.length start).any (openAt slots)) = slots.any Lane.laneTx := by
  have met : ∀ ids : List Nat, ids.any (openAt slots) = true → slots.any Lane.laneTx = true := by
    intro ids somewhere
    obtain ⟨i, _, here⟩ := List.any_eq_true.mp somewhere
    exact openAt_mem here
  rw [any_open whole]
  cases one : first.any (openAt slots) with
  | true => simp [met first one]
  | false =>
    cases two : second.any (openAt slots) with
    | true => simp [met second two]
    | false => simp

/-- The three passes in one: the chosen lane gets the request and nothing else changes. -/
theorem tryDispatch_eq (t : Table C) (ctx : C) (some_slot : t.slots ≠ [])
    (whole : t.cursor + t.slots.length < usizeValues) :
    tryDispatch t ctx =
      match chosen t with
      | some i => (.sent, ⟨t.slots.modify i (Lane.push ctx), t.cursor + 1⟩)
      | none => (if t.slots.any Lane.laneTx then .full ctx else .closed, ⟨t.slots, t.cursor + 1⟩) := by
  have occupied : 0 < t.slots.length := List.length_pos_iff.mpr some_slot
  have next : (t.cursor + 1) % usizeValues = t.cursor + 1 := Nat.mod_eq_of_lt (by omega)
  unfold tryDispatch chosen
  simp only [Nat.ne_of_gt occupied, if_false, next, tryLanes_eq]
  cases ((cyclic t.slots.length t.cursor).filter (awakeAt t.slots)).find? (fitsAt t.slots) with
  | some i => rfl
  | none =>
    cases (hottest t.slots).toList.find? (fitsAt t.slots) with
    | some i => rfl
    | none =>
      cases (cyclic t.slots.length t.cursor).find? (fitsAt t.slots) with
      | some i => rfl
      | none =>
        simp only [met_open whole]
        rfl

theorem chosen_fits {t : Table C} {i : Nat} (here : chosen t = some i) : fitsAt t.slots i = true := by
  unfold chosen at here
  rcases Option.or_eq_some_iff.mp here with first | ⟨_, later⟩
  · exact List.find?_some first
  · rcases Option.or_eq_some_iff.mp later with second | ⟨_, third⟩
    · exact List.find?_some second
    · exact List.find?_some third

theorem chosen_none {t : Table C} (whole : t.cursor + t.slots.length < usizeValues) (none_chosen : chosen t = none)
    (i : Nat) : fitsAt t.slots i = false := by
  unfold chosen at none_chosen
  have last := (Option.or_eq_none_iff.mp (Option.or_eq_none_iff.mp none_chosen).2).2
  by_cases inside : i < t.slots.length
  · simpa using List.find?_eq_none.mp last i ((mem_cyclic whole i).mpr inside)
  · by_contra room
    exact inside (fitsAt_lt (by simpa using room))

def FirstAwake (t : Table C) (i : Nat) : Prop :=
  ∃ k, k < t.slots.length ∧ (t.cursor + k) % t.slots.length = i ∧
    (awakeAt t.slots i = true ∧ fitsAt t.slots i = true) ∧
    ∀ j, j < k → ¬(awakeAt t.slots ((t.cursor + j) % t.slots.length) = true ∧
      fitsAt t.slots ((t.cursor + j) % t.slots.length) = true)

theorem chosen_awake {t : Table C} {i : Nat} (whole : t.cursor + t.slots.length < usizeValues)
    (here : chosen t = some i) (some_awake : ∃ j, awakeAt t.slots j = true ∧ fitsAt t.slots j = true) :
    FirstAwake t i := by
  obtain ⟨j, awake, room⟩ := some_awake
  unfold chosen at here
  rw [List.find?_filter] at here
  cases first : (cyclic t.slots.length t.cursor).find? fun a =>
      decide (awakeAt t.slots a = true ∧ fitsAt t.slots a = true) with
  | some a =>
    rw [first] at here
    cases here
    obtain ⟨k, inside, at_k, passes, before⟩ := find_cyclic whole first
    exact ⟨k, inside, at_k, of_decide_eq_true passes, fun j less => of_decide_eq_false (before j less)⟩
  | none =>
    have refused := List.find?_eq_none.mp first j ((mem_cyclic whole j).mpr (fitsAt_lt room))
    simp [awake, room] at refused

structure DispatchLaw (t : Table C) (ctx : C) : Prop where
  sent_iff : (tryDispatch t ctx).1 = .sent ↔ ∃ i, fitsAt t.slots i = true
  landed : (tryDispatch t ctx).1 = .sent → ∃ i, fitsAt t.slots i = true ∧
    (tryDispatch t ctx).2 = ⟨t.slots.modify i (Lane.push ctx), t.cursor + 1⟩ ∧
    ((∃ j, awakeAt t.slots j = true ∧ fitsAt t.slots j = true) → FirstAwake t i)
  full : (tryDispatch t ctx).1 ≠ .sent → t.slots = [] ∨ t.slots.any Lane.laneTx = true →
    (tryDispatch t ctx).1 = .full ctx
  closed : (tryDispatch t ctx).1 ≠ .sent → t.slots ≠ [] → t.slots.any Lane.laneTx = false →
    (tryDispatch t ctx).1 = .closed
  kept : (tryDispatch t ctx).1 ≠ .sent → (tryDispatch t ctx).2.slots = t.slots

theorem dispatch_law (t : Table C) (ctx : C) (whole : t.cursor + t.slots.length < usizeValues) :
    DispatchLaw t ctx := by
  by_cases empty : t.slots = []
  · have nothing : tryDispatch t ctx = (.full ctx, t) := by simp [tryDispatch, empty]
    constructor <;> simp [nothing, empty, fitsAt]
  · have equation := tryDispatch_eq t ctx empty whole
    cases settled : chosen t with
    | some i =>
      have room := chosen_fits settled
      rw [settled] at equation
      refine ⟨?_, ?_, ?_, ?_, ?_⟩
      · rw [equation]
        exact iff_of_true rfl ⟨i, room⟩
      · intro _
        exact ⟨i, room, by rw [equation], chosen_awake whole settled⟩
      · intro unsent
        simp [equation] at unsent
      · intro unsent
        simp [equation] at unsent
      · intro unsent
        simp [equation] at unsent
    | none =>
      have refused := chosen_none whole settled
      rw [settled] at equation
      refine ⟨?_, ?_, ?_, ?_, ?_⟩
      · rw [equation]
        apply iff_of_false
        · dsimp only
          split <;> simp
        · simp [refused]
      · intro sent
        rw [equation] at sent
        dsimp only at sent
        split at sent <;> cases sent
      · intro _ some_open
        simp [equation, some_open.resolve_left empty]
      · intro _ _ all_shut
        simp [equation, all_shut]
      · intro _
        rw [equation]

/-- An awake lane with a request in it is preferred to an empty parked one. -/
theorem awake_lane_preferred :
    DispatchLaw ⟨[⟨true, false, true, 1, []⟩, ⟨true, false, false, 0, [3]⟩], 4⟩ 7 ∧
    tryDispatch ⟨[⟨true, false, true, 1, []⟩, ⟨true, false, false, 0, [3]⟩], 4⟩ 7 =
      (.sent, ⟨[⟨true, false, true, 1, []⟩, ⟨true, false, false, 0, [3, 7]⟩], 5⟩) :=
  ⟨dispatch_law _ 7 (by decide), by decide⟩

/-- The greatest `parked_at` of these slots, the last one of several. -/
def Warmest (slots : List (Lane C)) (ids : List Nat) (m : Nat) : Prop :=
  m ∈ ids ∧ ∀ j ∈ ids, parkedAtOf slots j < parkedAtOf slots m ∨
    parkedAtOf slots j = parkedAtOf slots m ∧ j ≤ m

theorem foldl_warmer {slots : List (Lane C)} {ids : List Nat} {best : Nat}
    (sorted : (best :: ids).Pairwise (· < ·)) :
    ∃ m, ids.foldl (warmer slots) (some best) = some m ∧ Warmest slots (best :: ids) m := by
  induction ids generalizing best with
  | nil => exact ⟨best, rfl, by simp [Warmest]⟩
  | cons j rest ih =>
    have after := List.pairwise_cons.mp sorted
    have before_j : best < j := after.1 j (by simp)
    by_cases colder : parkedAtOf slots j < parkedAtOf slots best
    · have kept : (best :: rest).Pairwise (· < ·) := by
        apply List.pairwise_cons.mpr
        exact ⟨fun k here => after.1 k (by simp [here]), (List.pairwise_cons.mp after.2).2⟩
      obtain ⟨m, result, member, top⟩ := ih kept
      refine ⟨m, by simpa [warmer, colder] using result, ?_, ?_⟩
      · rcases List.mem_cons.mp member with same | here
        · simp [same]
        · simp [here]
      · intro k here
        have first := top best (by simp)
        rcases List.mem_cons.mp here with rfl | here
        · exact first
        · rcases List.mem_cons.mp here with rfl | here
          · omega
          · exact top k (by simp [here])
    · obtain ⟨m, result, member, top⟩ := ih after.2
      refine ⟨m, by simpa [warmer, colder] using result, by simp [member], ?_⟩
      intro k here
      have first := top j (by simp)
      rcases List.mem_cons.mp here with rfl | here
      · omega
      · exact top k here

theorem mem_asleep {slots : List (Lane C)} {i : Nat} :
    i ∈ (List.range slots.length).filter (asleepAt slots) ↔ asleepAt slots i = true := by
  rw [List.mem_filter, List.mem_range]
  constructor
  · exact fun here => here.2
  · intro asleep
    refine ⟨?_, asleep⟩
    by_contra outside
    have none_there : slots[i]? = none := List.getElem?_eq_none (by omega)
    simp [asleepAt, none_there] at asleep

theorem hottest_warmest {slots : List (Lane C)} {i : Nat} (asleep : asleepAt slots i = true) :
    ∃ m, hottest slots = some m ∧ asleepAt slots m = true ∧
      ∀ j, asleepAt slots j = true → parkedAtOf slots j < parkedAtOf slots m ∨
        parkedAtOf slots j = parkedAtOf slots m ∧ j ≤ m := by
  have sorted : ((List.range slots.length).filter (asleepAt slots)).Pairwise (· < ·) :=
    List.pairwise_lt_range.filter _
  have here : i ∈ (List.range slots.length).filter (asleepAt slots) := mem_asleep.mpr asleep
  have result : ∃ m, hottest slots = some m ∧
      Warmest slots ((List.range slots.length).filter (asleepAt slots)) m := by
    unfold hottest
    cases ids : (List.range slots.length).filter (asleepAt slots) with
    | nil => simp [ids] at here
    | cons best rest =>
      rw [ids] at sorted
      exact foldl_warmer sorted
  obtain ⟨m, found, member, top⟩ := result
  exact ⟨m, found, mem_asleep.mp member, fun j sleeps => top j (mem_asleep.mpr sleeps)⟩

/-- A worker that waits for work: parked, its lane open, not retired and empty. -/
def idleAt (slots : List (Lane C)) (i : Nat) : Bool :=
  slots[i]?.any fun slot => slot.parked && slot.laneTx && !slot.retired && slot.queue.isEmpty

def HottestIdle (slots : List (Lane C)) (i : Nat) : Prop :=
  idleAt slots i = true ∧ ∀ j, idleAt slots j = true → parkedAtOf slots j ≤ parkedAtOf slots i

/-- The request goes to the idle worker that parked last. -/
def Spreads (t : Table C) (ctx : C) : Prop :=
  ∃ i, HottestIdle t.slots i ∧
    tryDispatch t ctx = (.sent, ⟨t.slots.modify i (Lane.push ctx), t.cursor + 1⟩)

/-- Of all parked slots with an empty lane the warmest is an idle worker's; or else the first
    lane with room in cyclic order is that of the warmest idle worker anyway. -/
def WarmestAlive (t : Table C) : Prop :=
  (∃ i, idleAt t.slots i = true ∧ ∀ j, asleepAt t.slots j = true →
    parkedAtOf t.slots j < parkedAtOf t.slots i ∨
    parkedAtOf t.slots j = parkedAtOf t.slots i ∧ j ≤ i) ∨
  ∃ k, k < t.slots.length ∧ HottestIdle t.slots ((t.cursor + k) % t.slots.length) ∧
    ∀ j, j < k → fitsAt t.slots ((t.cursor + j) % t.slots.length) = false

theorem idleAt_iff {slots : List (Lane C)} {i : Nat} :
    idleAt slots i = true ↔ asleepAt slots i = true ∧ fitsAt slots i = true := by
  unfold idleAt asleepAt fitsAt
  cases slots[i]? with
  | none => simp
  | some slot =>
    simp only [Option.any_some, fits, Bool.and_eq_true, Bool.not_eq_true', List.isEmpty_iff,
      decide_eq_true_eq]
    constructor
    · rintro ⟨⟨⟨parked, opened⟩, staying⟩, empty⟩
      simp [parked, opened, staying, empty, laneDepth]
    · rintro ⟨⟨parked, empty⟩, ⟨opened, staying⟩, _⟩
      exact ⟨⟨⟨parked, opened⟩, staying⟩, empty⟩

theorem modify_push_inj {slots : List (Lane C)} {i j : Nat} (ctx : C) (inside : i < slots.length)
    (same : slots.modify i (Lane.push ctx) = slots.modify j (Lane.push ctx)) : i = j := by
  by_contra apart
  have at_i : (slots.modify i (Lane.push ctx))[i]? = (slots.modify j (Lane.push ctx))[i]? := by rw [same]
  simp [inside, Ne.symm apart] at at_i
  have longer := congrArg (fun slot : Lane C => slot.queue.length) at_i
  simp [Lane.push] at longer

theorem spreads_chosen {t : Table C} {i : Nat} (ctx : C) (some_slot : t.slots ≠ [])
    (whole : t.cursor + t.slots.length < usizeValues) (decided : chosen t = some i) :
    Spreads t ctx ↔ HottestIdle t.slots i := by
  have equation := tryDispatch_eq t ctx some_slot whole
  rw [decided] at equation
  refine ⟨?_, fun hot => ⟨i, hot, equation⟩⟩
  rintro ⟨j, hot, sent⟩
  rw [equation] at sent
  have same : i = j := by
    apply modify_push_inj ctx (fitsAt_lt (chosen_fits decided))
    simpa using sent
  rw [same]
  exact hot

/-- With no awake lane to take it and an idle worker there, a request goes to the idle worker
    that parked last exactly when no dead or retiring slot looks warmer. -/
theorem spreads_iff (t : Table C) (ctx : C) (whole : t.cursor + t.slots.length < usizeValues)
    (none_awake : ∀ j, awakeAt t.slots j = true → fitsAt t.slots j = false)
    (some_idle : ∃ j, idleAt t.slots j = true) : Spreads t ctx ↔ WarmestAlive t := by
  obtain ⟨l, idle⟩ := some_idle
  have room := (idleAt_iff.mp idle).2
  have some_slot : t.slots ≠ [] := by
    intro empty
    simp [empty, idleAt] at idle
  obtain ⟨m, found, asleep, top⟩ := hottest_warmest (idleAt_iff.mp idle).1
  have awake_none :
      ((cyclic t.slots.length t.cursor).filter (awakeAt t.slots)).find? (fitsAt t.slots) = none := by
    apply List.find?_eq_none.mpr
    intro j here
    simp [none_awake j (List.mem_filter.mp here).2]
  obtain ⟨i, decided⟩ : ∃ i, chosen t = some i := by
    cases decided : chosen t with
    | none =>
      have refused := chosen_none whole decided l
      rw [room] at refused
      cases refused
    | some i => exact ⟨i, rfl⟩
  rw [spreads_chosen ctx some_slot whole decided]
  cases alive : fitsAt t.slots m with
  | true =>
    have same : i = m := by
      simpa [chosen, awake_none, found, alive, eq_comm] using decided
    have idle_m : idleAt t.slots m = true := idleAt_iff.mpr ⟨asleep, alive⟩
    rw [same]
    apply iff_of_true
    · refine ⟨idle_m, fun j idle_j => ?_⟩
      have below := top j (idleAt_iff.mp idle_j).1
      omega
    · exact .inl ⟨m, idle_m, top⟩
  | false =>
    have first : (cyclic t.slots.length t.cursor).find? (fitsAt t.slots) = some i := by
      simpa [chosen, awake_none, found, alive] using decided
    obtain ⟨k, inside, at_k, fits_i, before⟩ := find_cyclic whole first
    constructor
    · intro hot
      exact .inr ⟨k, inside, by rw [at_k]; exact hot, before⟩
    · rintro (⟨j, idle_j, warm⟩ | ⟨k', inside', hot, before'⟩)
      · -- the warmest of all is dead, so it is no idle worker
        have below := warm m asleep
        have above := top j (idleAt_iff.mp idle_j).1
        have same : j = m := by omega
        have room_j := (idleAt_iff.mp idle_j).2
        rw [same, alive] at room_j
        cases room_j
      · have fits_k' := (idleAt_iff.mp hot.1).2
        rcases Nat.lt_trichotomy k k' with less | rfl | more
        · have refused := before' k less
          rw [at_k, fits_i] at refused
          cases refused
        · rw [← at_k]
          exact hot
        · have refused := before k' more
          rw [fits_k'] at refused
          cases refused

/-- Three idle workers, and the second parked last. -/
theorem second_parked_last :
    Spreads ⟨[⟨true, false, true, 1, []⟩, ⟨true, false, true, 3, []⟩, ⟨true, false, true, 2, []⟩], 0⟩ 7 := by
  apply (spreads_iff _ 7 (by decide) ?_ ⟨1, rfl⟩).mpr
  · refine .inl ⟨1, rfl, fun j asleep => ?_⟩
    match j with
    | 0 | 1 | 2 => decide
    | j + 3 => cases asleep
  · intro j awake
    match j with
    | 0 | 1 | 2 => cases awake
    | j + 3 => cases awake

def laneOf (slot : Slot) : Lane Nat :=
  ⟨slot.laneTx, slot.retired, slot.parked, slot.parkedAt, slot.lane.buf⟩

def view (s : State) : Table Nat := ⟨(List.range s.count).map fun i => laneOf (s.slots i), s.cursor⟩

def deadWarmest : List Label :=
  List.replicate 3 Label.register ++ [Label.take 0] ++ List.replicate 8 (Label.work 0) ++
    [Label.take 1] ++ List.replicate 8 (Label.work 1) ++ [Label.take 2] ++
    List.replicate 8 (Label.work 2) ++ [Label.call 0 (.abortSlot 2)] ++
    List.replicate 5 (Label.operate 0)

theorem dead_slot_looks_warmest :
    ¬∀ s, Reachable system s → ∀ r, (view s).cursor + (view s).slots.length < usizeValues →
      (∀ j, awakeAt (view s).slots j = true → fitsAt (view s).slots j = false) →
      (∃ j, idleAt (view s).slots j = true) → Spreads (view s) r := by
  intro spreads
  have ran : run system initial deadWarmest = some _ := rfl
  have reached := reachable_run (.start rfl) ran
  have here := spreads _ reached 7 (by decide) ?_ ⟨1, rfl⟩
  · obtain ⟨i, hot, sent⟩ := here
    have parked := hot.2 1 rfl
    have first : i = 0 := by
      apply modify_push_inj 7 (fitsAt_lt (idleAt_iff.mp hot.1).2)
      exact (congrArg (fun result => result.2.slots) sent).symm
    rw [first] at parked
    exact absurd parked (by decide)
  · intro j
    match j with
    | 0 | 1 | 2 => decide
    | j + 3 =>
      intro awake
      cases awake

end KinoTryDispatch
