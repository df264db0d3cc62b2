import Mathlib

/- A watch channel: one value, with a version that every send raises, and receivers that each
   remember the version they have seen. A send that finds no receiver is refused and changes
   nothing. The sender outlives the receivers. -/
namespace Watches
variable {α : Type}

structure Watch (α : Type) where
  value : α
  version : Nat
  receivers : Nat
  deriving DecidableEq, Repr

def create (a : α) : Watch α := ⟨a, 0, 1⟩

def send (w : Watch α) (a : α) : Watch α :=
  if w.receivers = 0 then w else { w with value := a, version := w.version + 1 }

def subscribe (w : Watch α) : Watch α × Nat := ({ w with receivers := w.receivers + 1 }, w.version)

def dropReceiver (w : Watch α) : Watch α := { w with receivers := w.receivers - 1 }

def borrowAndUpdate (w : Watch α) : α × Nat := (w.value, w.version)

def changed (w : Watch α) (seen : Nat) : Bool := seen != w.version

@[simp] theorem subscribe_value (w : Watch α) : (subscribe w).1.value = w.value := rfl
@[simp] theorem subscribe_version (w : Watch α) : (subscribe w).1.version = w.version := rfl
@[simp] theorem dropReceiver_value (w : Watch α) : (dropReceiver w).value = w.value := rfl
@[simp] theorem dropReceiver_version (w : Watch α) : (dropReceiver w).version = w.version := rfl

theorem send_receivers (w : Watch α) (a : α) : (send w a).receivers = w.receivers := by
  unfold send
  split <;> rfl

theorem send_heard {w : Watch α} {a : α} (heard : 0 < w.receivers) :
    (send w a).value = a ∧ (send w a).version = w.version + 1 := by
  have some_receiver : w.receivers ≠ 0 := by omega
  simp [send, some_receiver]

theorem send_cases (w : Watch α) (a : α) :
    send w a = w ∨ ((send w a).value = a ∧ (send w a).version = w.version + 1) := by
  by_cases heard : 0 < w.receivers
  · exact .inr (send_heard heard)
  · left
    have no_receiver : w.receivers = 0 := by omega
    simp [send, no_receiver]

end Watches
