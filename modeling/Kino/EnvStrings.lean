import Kino.Transitions
import Kino.LruCache
import Kino.PinSlab

/-!
The LRU caches behind the env hash (ext/kino/src/env_strings.rs): `get_or_insert`,
`set_host_env`, `set_authority_env`, `set_value_env` and `set_addr_env`, run by any number
of ractors. A cache's first locked lookup is one step. In the second locked section every
slab insert and release is a step of its own, with the lock held. Strings are their bytes;
a cached one also has its slab slot.
-/
namespace KinoEnvStrings
open Transitions Ownership LruCache KinoPinSlab

abbrev Bytes := List UInt8

variable {Ip : Type} [DecidableEq Ip]

def hostCacheCap : Nat := 256
def addrCacheCap : Nat := 1024
def valueCacheCap : Nat := 512

def cacheSlabCapacity : Nat :=
  (hostCacheCap + 1) * 3 + (addrCacheCap + 1) + (valueCacheCap + 1)

inductive Cache where
  | hosts
  | addrs
  | values
  deriving DecidableEq, Repr

def cacheCap : Cache → Nat
  | .hosts => hostCacheCap
  | .addrs => addrCacheCap
  | .values => valueCacheCap

theorem cacheCap_pos (c : Cache) : 0 < cacheCap c := by
  cases c <;> decide

inductive Key (Ip : Type) where
  | host (bytes : Bytes)
  | addr (ip : Ip)
  | value (bytes : Bytes)
  deriving DecidableEq, Repr

structure CachedStr where
  bytes : Bytes
  slot : Nat
  deriving DecidableEq, Repr

/-- A cache entry's strings: the one string of an address or a value, and name, port and
    perhaps the full authority of a host. -/
abbrev Entry := List CachedStr

/-- A call: for a host the key with the name and the port that `make` derives. -/
inductive Op (Ip : Type) where
  | value (bytes : Bytes)
  | addr (ip : Ip)
  | host (key name port : Bytes)
  | authority (key name port : Bytes)
  deriving DecidableEq, Repr

def Op.cache : Op Ip → Cache
  | .value _ => .values
  | .addr _ => .addrs
  | .host _ _ _ | .authority _ _ _ => .hosts

def Op.key : Op Ip → Key Ip
  | .value bytes => .value bytes
  | .addr ip => .addr ip
  | .host key _ _ | .authority key _ _ => .host key

def Op.want : Op Ip → Nat
  | .value _ | .addr _ => 1
  | .host _ _ _ => 2
  | .authority _ _ _ => 3

def Op.full (ipString : Ip → Bytes) : Op Ip → List Bytes
  | .value bytes => [bytes]
  | .addr ip => [ipString ip]
  | .host key name port | .authority key name port => [name, port, key]

def Op.fresh (ipString : Ip → Bytes) (op : Op Ip) : List Bytes := (op.full ipString).take op.want

/-- A ractor in a call. `missed` and `half` are past the first lookup with nothing found
    or only name and port found. `rooting`, `filling` and `dropping` hold the cache's lock:
    `dropping` clears the slots of an evicted entry, or of one that could not be rooted. -/
inductive Pc (Ip : Type) where
  | idle
  | lookup (op : Op Ip)
  | missed (op : Op Ip)
  | half (op : Op Ip) (got : List Bytes)
  | rooting (op : Op Ip) (got : Entry)
  | filling (op : Op Ip) (got : List Bytes)
  | dropping (op : Op Ip) (left : Entry)
  | done (op : Op Ip) (strings : List Bytes)
  deriving DecidableEq, Repr

structure State (Ip : Type) where
  slab : PinSlab Bytes
  caches : Cache → Lru (Key Ip) Entry
  lock : Cache → Option Nat
  pcs : Nat → Pc Ip

def initial (slabCapacity : Nat) : State Ip where
  slab := withCapacity slabCapacity
  caches := fun c => Lru.create (cacheCap c) (cacheCap_pos c)
  lock := fun _ => none
  pcs := fun _ => .idle

def State.goto (s : State Ip) (ρ : Nat) (pc : Pc Ip) : State Ip :=
  { s with pcs := Function.update s.pcs ρ pc }

def State.setLock (s : State Ip) (c : Cache) (holder : Option Nat) : State Ip :=
  { s with lock := Function.update s.lock c holder }

def State.setCache (s : State Ip) (c : Cache) (cache : Lru (Key Ip) Entry) : State Ip :=
  { s with caches := Function.update s.caches c cache }

/-- `get` or `get_mut` found the entry, which is now the one used last. -/
def State.touch (s : State Ip) (op : Op Ip) : State Ip :=
  s.setCache op.cache ((s.caches op.cache).touch op.key)

def bytesOf (e : Entry) : List Bytes := e.map CachedStr.bytes

inductive Label (Ip : Type) where
  | call (ρ : Nat) (op : Op Ip)
  | step (ρ : Nat)
  deriving DecidableEq, Repr

def advance (ipString : Ip → Bytes) (s : State Ip) (ρ : Nat) : Option (State Ip) :=
  match s.pcs ρ with
  | .lookup op =>
    if s.lock op.cache = none then
      match (s.caches op.cache).find op.key with
      | none => some (s.goto ρ (.missed op))
      | some e =>
        if op.want ≤ e.length then some ((s.touch op).goto ρ (.done op ((bytesOf e).take op.want)))
        else some ((s.touch op).goto ρ (.half op (bytesOf e)))
    else none
  | .missed op =>
    if s.lock op.cache = none then
      match (s.caches op.cache).find op.key with
      | none => some ((s.setLock op.cache (some ρ)).goto ρ (.rooting op []))
      | some e =>
        if op.want ≤ e.length then some ((s.touch op).goto ρ (.done op ((bytesOf e).take op.want)))
        else some (((s.touch op).setLock op.cache (some ρ)).goto ρ (.filling op (bytesOf e)))
    else none
  | .half op got =>
    if s.lock op.cache = none then
      match (s.caches op.cache).find op.key with
      | none =>
        -- evicted meanwhile: the strings in hand and the authority built here
        some (s.goto ρ (.done op (got ++ (op.full ipString).drop got.length)))
      | some e =>
        if op.want ≤ e.length then
          some ((s.touch op).goto ρ (.done op (got ++ ((bytesOf e).take op.want).drop got.length)))
        else some (((s.touch op).setLock op.cache (some ρ)).goto ρ (.filling op got))
    else none
  | .rooting op got =>
    match (op.fresh ipString)[got.length]? with
    | some string =>
      match s.slab.insert string with
      | (some i, slab) => some ({ s with slab := slab }.goto ρ (.rooting op (got ++ [(⟨string, i⟩ : CachedStr)])))
      | (none, slab) =>
        -- the locals of the failed `root` drop last first
        some ({ s with slab := slab }.goto ρ (.dropping op got.reverse))
    | none =>
      let put := (s.caches op.cache).put op.key got
      some ((s.setCache op.cache put.2).goto ρ (.dropping op (put.1.elim [] Prod.snd)))
  | .filling op got =>
    match (s.caches op.cache).find op.key, (op.full ipString)[got.length]? with
    | some e, some host =>
      let result := got ++ [host]
      match s.slab.insert host with
      | (some i, slab) =>
        let put := (s.caches op.cache).put op.key (e ++ [(⟨host, i⟩ : CachedStr)])
        some ((({ s with slab := slab }.setCache op.cache put.2).setLock op.cache none).goto ρ
          (.done op result))
      | (none, slab) =>
        some (({ s with slab := slab }.setLock op.cache none).goto ρ (.done op result))
    | _, _ => none
  | .dropping op (string :: left) =>
    some ({ s with slab := s.slab.release string.slot }.goto ρ (.dropping op left))
  | .dropping op [] =>
    some ((s.setLock op.cache none).goto ρ (.done op (op.fresh ipString)))
  | .done _ _ => some (s.goto ρ .idle)
  | .idle => none

def step (ipString : Ip → Bytes) (s : State Ip) : Label Ip → Option (State Ip)
  | .call ρ op => if s.pcs ρ = .idle then some (s.goto ρ (.lookup op)) else none
  | .step ρ => advance ipString s ρ

def system (ipString : Ip → Bytes) (slabCapacity : Nat) : System (State Ip) (Label Ip) :=
  ⟨fun s => s = initial slabCapacity, step ipString⟩

/-- A slab after an insert: at slot `i`, or only the cursor moved on. -/
def pinned (slab : PinSlab Bytes) (i : Nat) (string : Bytes) : PinSlab Bytes :=
  ⟨slab.slots.set i (some string), slab.cursor + 1⟩

def turned (slab : PinSlab Bytes) : PinSlab Bytes := ⟨slab.slots, slab.cursor + 1⟩

inductive Move (ipString : Ip → Bytes) (s : State Ip) (ρ : Nat) : State Ip → Prop where
  | call (op : Op Ip) (at_pc : s.pcs ρ = .idle) : Move ipString s ρ (s.goto ρ (.lookup op))
  | miss (op : Op Ip) (at_pc : s.pcs ρ = .lookup op) : Move ipString s ρ (s.goto ρ (.missed op))
  | hit (op : Op Ip) (e : Entry) (at_pc : s.pcs ρ = .lookup op ∨ s.pcs ρ = .missed op)
      (found : (s.caches op.cache).find op.key = some e) (enough : op.want ≤ e.length) :
      Move ipString s ρ ((s.touch op).goto ρ (.done op ((bytesOf e).take op.want)))
  | halve (op : Op Ip) (e : Entry) (at_pc : s.pcs ρ = .lookup op)
      (found : (s.caches op.cache).find op.key = some e) (short : e.length < op.want) :
      Move ipString s ρ ((s.touch op).goto ρ (.half op (bytesOf e)))
  | lockMissed (op : Op Ip) (at_pc : s.pcs ρ = .missed op) (free : s.lock op.cache = none)
      (absent : (s.caches op.cache).find op.key = none) :
      Move ipString s ρ ((s.setLock op.cache (some ρ)).goto ρ (.rooting op []))
  | lockFound (op : Op Ip) (e : Entry) (got : List Bytes)
      (at_pc : (s.pcs ρ = .missed op ∧ got = bytesOf e) ∨ s.pcs ρ = .half op got)
      (free : s.lock op.cache = none) (found : (s.caches op.cache).find op.key = some e)
      (short : e.length < op.want) :
      Move ipString s ρ (((s.touch op).setLock op.cache (some ρ)).goto ρ (.filling op got))
  | evicted (op : Op Ip) (got : List Bytes) (at_pc : s.pcs ρ = .half op got) :
      Move ipString s ρ (s.goto ρ (.done op (got ++ (op.full ipString).drop got.length)))
  | completed (op : Op Ip) (e : Entry) (got : List Bytes) (at_pc : s.pcs ρ = .half op got)
      (found : (s.caches op.cache).find op.key = some e) (enough : op.want ≤ e.length) :
      Move ipString s ρ
        ((s.touch op).goto ρ (.done op (got ++ ((bytesOf e).take op.want).drop got.length)))
  | root (op : Op Ip) (got : Entry) (string : Bytes) (i : Nat) (at_pc : s.pcs ρ = .rooting op got)
      (next : (op.fresh ipString)[got.length]? = some string) (empty : vacant s.slab i = true) :
      Move ipString s ρ
        ({ s with slab := pinned s.slab i string }.goto ρ (.rooting op (got ++ [(⟨string, i⟩ : CachedStr)])))
  | giveUp (op : Op Ip) (got : Entry) (at_pc : s.pcs ρ = .rooting op got) :
      Move ipString s ρ ({ s with slab := turned s.slab }.goto ρ (.dropping op got.reverse))
  | put (op : Op Ip) (got : Entry) (at_pc : s.pcs ρ = .rooting op got)
      (whole : (op.fresh ipString)[got.length]? = none) :
      Move ipString s ρ
        ((s.setCache op.cache ((s.caches op.cache).put op.key got).2).goto ρ
          (.dropping op (((s.caches op.cache).put op.key got).1.elim [] Prod.snd)))
  | fill (op : Op Ip) (got : List Bytes) (e : Entry) (host : Bytes) (i : Nat)
      (at_pc : s.pcs ρ = .filling op got) (found : (s.caches op.cache).find op.key = some e)
      (next : (op.full ipString)[got.length]? = some host) (empty : vacant s.slab i = true) :
      Move ipString s ρ
        ((({ s with slab := pinned s.slab i host }.setCache op.cache
          ((s.caches op.cache).put op.key (e ++ [(⟨host, i⟩ : CachedStr)])).2).setLock op.cache none).goto ρ
            (.done op (got ++ [host])))
  | leave (op : Op Ip) (got : List Bytes) (host : Bytes) (at_pc : s.pcs ρ = .filling op got)
      (next : (op.full ipString)[got.length]? = some host) :
      Move ipString s ρ
        (({ s with slab := turned s.slab }.setLock op.cache none).goto ρ (.done op (got ++ [host])))
  | drop (op : Op Ip) (string : CachedStr) (left : Entry)
      (at_pc : s.pcs ρ = .dropping op (string :: left)) :
      Move ipString s ρ ({ s with slab := s.slab.release string.slot }.goto ρ (.dropping op left))
  | unlock (op : Op Ip) (at_pc : s.pcs ρ = .dropping op []) :
      Move ipString s ρ ((s.setLock op.cache none).goto ρ (.done op (op.fresh ipString)))
  | finish (op : Op Ip) (strings : List Bytes) (at_pc : s.pcs ρ = .done op strings) :
      Move ipString s ρ (s.goto ρ .idle)

theorem advance_move {ipString : Ip → Bytes} {s s' : State Ip} {ρ : Nat}
    (moved : advance ipString s ρ = some s') : Move ipString s ρ s' := by
  unfold advance at moved
  cases at_pc : s.pcs ρ with
  | idle => simp [at_pc] at moved
  | lookup op =>
    simp only [at_pc] at moved
    split at moved
    · split at moved
      · cases moved
        exact .miss op at_pc
      · next e found =>
        split at moved <;> cases moved
        · exact .hit op e (.inl at_pc) found ‹_›
        · exact .halve op e at_pc found (by omega)
    · cases moved
  | missed op =>
    simp only [at_pc] at moved
    split at moved
    · next free =>
      split at moved
      · next absent =>
        cases moved
        exact .lockMissed op at_pc free absent
      · next e found =>
        split at moved <;> cases moved
        · exact .hit op e (.inr at_pc) found ‹_›
        · exact .lockFound op e _ (.inl ⟨at_pc, rfl⟩) free found (by omega)
    · cases moved
  | half op got =>
    simp only [at_pc] at moved
    split at moved
    · next free =>
      split at moved
      · cases moved
        exact .evicted op got at_pc
      · next e found =>
        split at moved <;> cases moved
        · exact .completed op e got at_pc found ‹_›
        · exact .lockFound op e got (.inr at_pc) free found (by omega)
    · cases moved
  | rooting op got =>
    simp only [at_pc] at moved
    split at moved
    · next string next =>
      rcases insert_cases s.slab string with ⟨i, empty, eq⟩ | ⟨_, eq⟩ <;>
        simp only [eq] at moved <;> cases moved
      · exact .root op got string i at_pc next empty
      · exact .giveUp op got at_pc
    · next whole =>
      cases moved
      exact .put op got at_pc whole
  | filling op got =>
    simp only [at_pc] at moved
    split at moved
    · next e host found next =>
      rcases insert_cases s.slab host with ⟨i, empty, eq⟩ | ⟨_, eq⟩ <;>
        simp only [eq] at moved <;> cases moved
      · exact .fill op got e host i at_pc found next empty
      · exact .leave op got host at_pc next
    · cases moved
  | dropping op left =>
    cases left with
    | cons string left =>
      simp only [at_pc] at moved
      cases moved
      exact .drop op string left at_pc
    | nil =>
      simp only [at_pc] at moved
      cases moved
      exact .unlock op at_pc
  | done op strings =>
    simp only [at_pc] at moved
    cases moved
    exact .finish op strings at_pc

def Label.ractor : Label Ip → Nat
  | .call ρ _ | .step ρ => ρ

theorem step_move {ipString : Ip → Bytes} {s s' : State Ip} {l : Label Ip}
    (moved : step ipString s l = some s') : Move ipString s l.ractor s' := by
  cases l with
  | call ρ op =>
    simp only [step] at moved
    split at moved <;> cases moved
    exact .call op ‹_›
  | step ρ => exact advance_move moved

end KinoEnvStrings
