import Kino.Ownership

/-!
Dispatch slots as the worker pools see them: the native flags and sensors of a slot
(ext/kino/src/registry.rs) and `SlotBank` (lib/kino/slot_bank.rb). A claim is a pop of the
free list and then a reset of the slot or, when the list was empty, a registration; each of
these and each native call is one step.
-/
namespace KinoSlotBank
open Ownership

/-- What a pool is started with; `ceiling` is the scaler's `max_workers`. -/
structure Config where
  workers : Nat
  threads : Nat
  lanes : Bool
  ceiling : Nat
  deriving DecidableEq, Repr

/-- `current` are the responders of the requests the slot's thread holds. -/
structure PoolSlot where
  retired : Bool
  quarantined : Bool
  current : List Nat
  inFlight : Nat
  laneTx : Bool
  deriving DecidableEq, Repr

def PoolSlot.new (lanes : Bool) : PoolSlot := ⟨false, false, [], 0, lanes⟩

/-- `WorkerSlot::reset`: lane and quarantine mark stay. -/
def PoolSlot.reset (slot : PoolSlot) : PoolSlot :=
  { slot with retired := false, current := [], inFlight := 0 }

/-- `abort_slot`: what it answers and drains is gone, and the lane's sender is taken. -/
def PoolSlot.abort (slot : PoolSlot) : PoolSlot :=
  { slot with current := [], inFlight := 0, laneTx := false }

def Fresh (lanes : Bool) (slot : PoolSlot) : Prop :=
  slot.retired = false ∧ slot.current = [] ∧ slot.inFlight = 0 ∧ slot.laneTx = lanes

structure Bank where
  slots : Nat → PoolSlot
  count : Nat
  free : List Nat

def Bank.put (b : Bank) (i : Nat) (slot : PoolSlot) : Bank :=
  { b with slots := Function.update b.slots i slot }

theorem put_same {A : Type} (field : PoolSlot → A) {b : Bank} {i : Nat} {slot : PoolSlot} (j : Nat)
    (same : field slot = field (b.slots i)) : field ((b.put i slot).slots j) = field (b.slots j) := by
  by_cases here : j = i
  · subst here
    simpa [Bank.put] using same
  · simp [Bank.put, here]

def Bank.retireSlot (b : Bank) (i : Nat) : Bank := b.put i { b.slots i with retired := true }

def Bank.quarantineSlot (b : Bank) (i : Nat) : Bank :=
  b.put i { b.slots i with quarantined := true }

def Bank.resetSlot (b : Bank) (i : Nat) : Bank := b.put i (b.slots i).reset

def Bank.abortInflight (b : Bank) (i : Nat) : Bank := b.put i (b.slots i).abort

def Bank.admitTo (b : Bank) (i r : Nat) : Bank :=
  b.put i { b.slots i with current := (b.slots i).current ++ [r], inFlight := (b.slots i).inFlight + 1 }

def Bank.checkout (b : Bank) (i : Nat) : Bank :=
  b.put i { b.slots i with current := [], inFlight := 0 }

def Bank.registerWorker (lanes : Bool) (b : Bank) : Bank :=
  { b.put b.count (.new lanes) with count := b.count + 1 }

def Bank.release (b : Bank) (ids : List Nat) : Bank := { b with free := b.free ++ ids }

/-- Where a thread is in `SlotBank#claim`. -/
inductive ClaimPc where
  | popping
  | resetting (i : Nat)
  | registering
  deriving DecidableEq, Repr

inductive Claimed where
  | going (pc : ClaimPc)
  | handed (i : Nat)
  deriving DecidableEq, Repr

def claim (lanes : Bool) (b : Bank) : ClaimPc → Bank × Claimed
  | .popping =>
    match b.free.getLast? with
    | some i => ({ b with free := b.free.dropLast }, .going (.resetting i))
    | none => (b, .going .registering)
  | .resetting i => (b.resetSlot i, .handed i)
  | .registering => (b.registerWorker lanes, .handed b.count)

def popped : ClaimPc → List Nat
  | .resetting i => [i]
  | _ => []

inductive ClaimMove (lanes : Bool) (b : Bank) : ClaimPc → Bank → Claimed → Prop where
  | pop (rest : List Nat) (i : Nat) (last : b.free = rest ++ [i]) :
      ClaimMove lanes b .popping { b with free := rest } (.going (.resetting i))
  | none_free (empty : b.free = []) : ClaimMove lanes b .popping b (.going .registering)
  | reset (i : Nat) : ClaimMove lanes b (.resetting i) (b.resetSlot i) (.handed i)
  | register : ClaimMove lanes b .registering (b.registerWorker lanes) (.handed b.count)

theorem claim_move (lanes : Bool) (b : Bank) (pc : ClaimPc) :
    ClaimMove lanes b pc (claim lanes b pc).1 (claim lanes b pc).2 := by
  cases pc with
  | popping =>
    unfold claim
    cases last : b.free.getLast? with
    | some i => exact .pop _ i (List.dropLast_append_getLast? i last).symm
    | none => exact .none_free (List.getLast?_eq_none_iff.mp last)
  | resetting i => exact .reset i
  | registering => exact .register

theorem claim_lanes {lanes : Bool} {b b' : Bank} {pc : ClaimPc} {next : Claimed}
    (claimed : ClaimMove lanes b pc b' next) (i : Nat) (inside : i < b'.count) :
    i < b.count ∧ (b'.slots i).laneTx = (b.slots i).laneTx ∨ (b'.slots i).laneTx = lanes := by
  cases claimed with
  | pop | none_free => exact .inl ⟨inside, rfl⟩
  | reset j => exact .inl ⟨inside, put_same PoolSlot.laneTx i (by rfl)⟩
  | register =>
    by_cases new : i = b.count
    · right
      simp [Bank.registerWorker, Bank.put, PoolSlot.new, new]
    · left
      change i < b.count + 1 at inside
      exact ⟨by omega, by simp [Bank.registerWorker, Bank.put, new]⟩

/-- A slot is handed out fresh when its lane was left open. -/
theorem claim_fresh {lanes : Bool} {b b' : Bank} {pc : ClaimPc} {i : Nat}
    (claimed : ClaimMove lanes b pc b' (.handed i))
    (kept : ∀ j, pc = .resetting j → (b.slots j).laneTx = lanes) : Fresh lanes (b'.slots i) := by
  cases claimed with
  | reset i => simpa [Fresh, Bank.resetSlot, Bank.put, PoolSlot.reset] using kept i rfl
  | register => simp [Fresh, Bank.registerWorker, Bank.put, PoolSlot.new]

end KinoSlotBank
