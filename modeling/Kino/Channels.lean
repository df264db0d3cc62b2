import Mathlib

/- The two channel kinds the programs here are built on. `Chan` is a bounded
   multi-producer multi-consumer queue: a send is refused when the buffer is full
   or the receiving side is gone, and the receiving side sees the end of the
   stream only once every sender is gone and the buffer is drained. `Oneshot`
   carries at most one value. -/
namespace Channels

structure Chan (α : Type) (cap : Nat) where
  buf : List α
  senders : Nat
  receiver : Bool
  bounded : buf.length ≤ cap

inductive SendOutcome where
  | sent
  | full
  | disconnected
  deriving DecidableEq, Repr

inductive RecvOutcome (α : Type) where
  | item (a : α)
  | empty
  | disconnected
  deriving DecidableEq, Repr

variable {α : Type} {cap : Nat}

namespace Chan

def create (α : Type) (cap : Nat) : Chan α cap := ⟨[], 1, true, Nat.zero_le _⟩

def absent (α : Type) (cap : Nat) : Chan α cap := ⟨[], 0, false, Nat.zero_le _⟩

def push (c : Chan α cap) (a : α) (room : c.buf.length < cap) : Chan α cap :=
  { c with buf := c.buf ++ [a], bounded := by simp; omega }

def trySend (c : Chan α cap) (a : α) : SendOutcome × Chan α cap :=
  if c.receiver = false then (.disconnected, c)
  else if room : c.buf.length < cap then (.sent, c.push a room)
  else (.full, c)

def pop (c : Chan α cap) : Chan α cap :=
  { c with buf := c.buf.tail, bounded := by have := c.bounded; simp; omega }

def popMany (c : Chan α cap) (n : Nat) : Chan α cap :=
  { c with buf := c.buf.drop n, bounded := by have := c.bounded; simp; omega }

def tryRecv (c : Chan α cap) : RecvOutcome α × Chan α cap :=
  match c.buf with
  | a :: _ => (.item a, c.pop)
  | [] => if c.senders = 0 then (.disconnected, c) else (.empty, c)

def cloneSender (c : Chan α cap) : Chan α cap := { c with senders := c.senders + 1 }
def dropSender (c : Chan α cap) : Chan α cap := { c with senders := c.senders - 1 }
def dropReceiver (c : Chan α cap) : Chan α cap := { c with receiver := false }

def Blocks (c : Chan α cap) : Prop := c.receiver = true ∧ c.buf.length = cap

instance (c : Chan α cap) : Decidable c.Blocks := inferInstanceAs (Decidable (_ ∧ _))

theorem trySend_cases (c : Chan α cap) (a : α) :
    (c.receiver = false ∧ c.trySend a = (.disconnected, c)) ∨
    (c.receiver = true ∧ ∃ room : c.buf.length < cap, c.trySend a = (.sent, c.push a room)) ∨
    (c.Blocks ∧ c.trySend a = (.full, c)) := by
  unfold trySend Blocks
  have := c.bounded
  by_cases alive : c.receiver = false
  · simp [alive]
  · by_cases room : c.buf.length < cap
    · simp [alive, room]
    · simp [alive, room]
      omega

theorem trySend_full_iff (c : Chan α cap) (a : α) :
    (c.trySend a).1 = .full ↔ c.Blocks := by
  rcases trySend_cases c a with ⟨gone, eq⟩ | ⟨_, room, eq⟩ | ⟨blocks, eq⟩
  · simp [eq, Blocks, gone]
  · simp only [eq, Blocks, reduceCtorEq, false_iff]
    omega
  · simp [eq, blocks]

theorem tryRecv_cases (c : Chan α cap) :
    (∃ a rest, c.buf = a :: rest ∧ c.tryRecv = (.item a, c.pop)) ∨
    (c.buf = [] ∧ c.senders = 0 ∧ c.tryRecv = (.disconnected, c)) ∨
    (c.buf = [] ∧ c.senders ≠ 0 ∧ c.tryRecv = (.empty, c)) := by
  unfold tryRecv
  cases c.buf with
  | cons a rest => simp
  | nil => by_cases gone : c.senders = 0 <;> simp [gone]

end Chan

structure Oneshot (α : Type) where
  value : Option α
  sender : Bool
  receiver : Bool

namespace Oneshot

def create (α : Type) : Oneshot α := ⟨none, true, true⟩

/-- Sending consumes the sender. A value sent to a dropped receiver is lost. -/
def send (c : Oneshot α) (a : α) : Bool × Oneshot α :=
  if c.receiver then (true, ⟨some a, false, true⟩) else (false, { c with sender := false })

def dropSender (c : Oneshot α) : Oneshot α := { c with sender := false }
def dropReceiver (c : Oneshot α) : Oneshot α := { c with receiver := false }

/-- A receiver that waits is answered: a value is there, or none can come. -/
def Settled (c : Oneshot α) : Prop := c.value.isSome ∨ c.sender = false

end Oneshot

end Channels
