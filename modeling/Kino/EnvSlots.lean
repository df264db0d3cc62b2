import Kino.EnvCache

/-!
How many slab slots the env-string caches use: the occupied slots are counted by the
strings in the three caches and in the hand of each cache's lock holder.
-/
namespace KinoEnvSlots
open Transitions Ownership LruCache KinoPinSlab KinoEnvStrings KinoEnvCache

variable {Ip : Type}

def entryMost : Cache → Nat
  | .hosts => 3
  | .addrs | .values => 1

def inCache (s : State Ip) (c : Cache) : Nat := Lru.total List.length (s.caches c).entries

def inHand (s : State Ip) (c : Cache) : Nat :=
  (s.lock c).elim 0 fun ρ => (hand (s.pcs ρ)).length

def weight (s : State Ip) (c : Cache) : Nat := inCache s c + inHand s c

def weights (s : State Ip) : Nat := weight s .hosts + weight s .addrs + weight s .values

theorem weights_change {s s' : State Ip} (c : Cache) {a b : Nat}
    (others : ∀ d, d ≠ c → weight s' d = weight s d) (mine : weight s' c + a = weight s c + b) :
    weights s' + a = weights s + b := by
  unfold weights
  cases c with
  | hosts =>
    rw [others .addrs (by simp), others .values (by simp)]
    omega
  | addrs =>
    rw [others .hosts (by simp), others .values (by simp)]
    omega
  | values =>
    rw [others .hosts (by simp), others .addrs (by simp)]
    omega

theorem weight_other {s s' : State Ip} {ρ : Nat} {pc : Pc Ip} {d : Cache} (locks : LockInv s)
    (pcs : s'.pcs = s.pcs) (lock : s'.lock d = s.lock d) (stored : inCache s' d = inCache s d)
    (without : holds (s.pcs ρ) ≠ some d) : weight (s'.goto ρ pc) d = weight s d := by
  unfold weight
  change inCache s' d + (s'.lock d).elim 0 _ = _
  rw [stored, lock]
  unfold inHand
  cases holder : s.lock d with
  | none => rfl
  | some τ =>
    have apart : τ ≠ ρ := by
      intro same
      subst same
      exact without ((locks d τ).mp holder)
    simp [goto_pcs, apart, pcs]

theorem weight_holding {s : State Ip} {ρ : Nat} {c : Cache} (locks : LockInv s)
    (inside : holds (s.pcs ρ) = some c) : weight s c = inCache s c + (hand (s.pcs ρ)).length := by
  unfold weight inHand
  rw [(locks c ρ).mpr inside, Option.elim_some]

theorem weight_free {s : State Ip} {c : Cache} (free : s.lock c = none) :
    weight s c = inCache s c := by
  unfold weight inHand
  rw [free]
  rfl

theorem weight_goto {s : State Ip} {ρ : Nat} {pc : Pc Ip} {c : Cache} (held : s.lock c = some ρ) :
    weight (s.goto ρ pc) c = inCache s c + (hand pc).length := by
  unfold weight inHand
  change inCache s c + (s.lock c).elim 0 _ = _
  rw [held, Option.elim_some, goto_pcs, if_pos rfl]

theorem inCache_setCache (s : State Ip) (c d : Cache) (cache : Lru (Key Ip) Entry) (other : d ≠ c) :
    inCache (s.setCache c cache) d = inCache s d := by
  simp [inCache, State.setCache, other]

theorem weights_outside {s s' : State Ip} {ρ : Nat} {pc : Pc Ip} (locks : LockInv s)
    (pcs : s'.pcs = s.pcs) (lock : s'.lock = s.lock) (stored : ∀ d, inCache s' d = inCache s d)
    (outside : holds (s.pcs ρ) = none) : weights (s'.goto ρ pc) = weights s := by
  unfold weights
  have each : ∀ d, weight (s'.goto ρ pc) d = weight s d := fun d =>
    weight_other locks pcs (congrFun lock d) (stored d) (by simp [outside])
  rw [each, each, each]

theorem weights_inside {s s' : State Ip} {ρ : Nat} {pc : Pc Ip} {c : Cache} {a b : Nat}
    (locks : LockInv s) (inside : holds (s.pcs ρ) = some c) (pcs : s'.pcs = s.pcs)
    (lock : s'.lock = s.lock) (others : ∀ d, d ≠ c → inCache s' d = inCache s d)
    (mine : inCache s' c + (hand pc).length + a = inCache s c + (hand (s.pcs ρ)).length + b) :
    weights (s'.goto ρ pc) + a = weights s + b := by
  apply weights_change c
  · intro d other
    refine weight_other locks pcs (congrFun lock d) (others d other) ?_
    rw [inside]
    exact fun same => other (Option.some.inj same).symm
  · rw [weight_goto (by rw [lock]; exact (locks c ρ).mpr inside), weight_holding locks inside]
    exact mine

theorem weights_acquire {s s' : State Ip} {ρ : Nat} {pc : Pc Ip} {c : Cache} (locks : LockInv s)
    (free : s.lock c = none) (outside : holds (s.pcs ρ) = none) (pcs : s'.pcs = s.pcs)
    (lock : s'.lock = Function.update s.lock c (some ρ))
    (stored : ∀ d, inCache s' d = inCache s d) (empty : hand pc = []) :
    weights (s'.goto ρ pc) = weights s := by
  refine weights_change (a := 0) (b := 0) c ?_ ?_
  · intro d other
    exact weight_other locks pcs (by simp [lock, other]) (stored d) (by simp [outside])
  · rw [weight_goto (by simp [lock]), weight_free free, stored, empty]
    rfl

theorem weights_release {s s' : State Ip} {ρ : Nat} {pc : Pc Ip} {c : Cache} {b : Nat}
    (locks : LockInv s) (inside : holds (s.pcs ρ) = some c) (pcs : s'.pcs = s.pcs)
    (lock : s'.lock = Function.update s.lock c none)
    (others : ∀ d, d ≠ c → inCache s' d = inCache s d)
    (mine : inCache s' c = inCache s c + b) (empty : hand (s.pcs ρ) = []) :
    weights (s'.goto ρ pc) = weights s + b := by
  refine weights_change (a := 0) (b := b) c ?_ ?_
  · intro d other
    refine weight_other locks pcs (by simp [lock, other]) (others d other) ?_
    rw [inside]
    exact fun same => other (Option.some.inj same).symm
  · rw [weight_free (by simp [State.goto, lock]), weight_holding locks inside, empty]
    exact mine

def Balanced (s : State Ip) : Prop := occupied s.slab = weights s

theorem want_le_most (op : Op Ip) : op.want ≤ entryMost op.cache := by
  cases op <;> simp [Op.want, Op.cache, entryMost]

theorem stored_most {ipString : Ip → Bytes} {a : Op Ip} {e : Entry}
    (stored : Stored ipString a e) : e.length ≤ entryMost a.cache := by
  have whole : (a.full ipString).length = entryMost a.cache := by
    cases a <;> simp [Op.full, Op.cache, entryMost]
  have counted := congrArg List.length stored.1
  rw [bytesOf_length, List.length_take, whole] at counted
  omega

def HandInv (s : State Ip) : Prop :=
  ∀ ρ c, holds (s.pcs ρ) = some c → (hand (s.pcs ρ)).length ≤ entryMost c

theorem hand_goto {s s' : State Ip} {ρ : Nat} {pc : Pc Ip} (hands : HandInv s)
    (pcs : s'.pcs = s.pcs) (mine : ∀ c, holds pc = some c → (hand pc).length ≤ entryMost c) :
    HandInv (s'.goto ρ pc) := by
  intro τ c inside
  rw [goto_pcs, pcs] at inside ⊢
  split at inside
  · next same =>
    rw [if_pos same]
    exact mine c inside
  · next other =>
    rw [if_neg other]
    exact hands τ c inside

structure SizeInv (slabCapacity : Nat) (s : State Ip) : Prop where
  caps : ∀ c, (s.caches c).cap = cacheCap c
  slots : s.slab.slots.length = slabCapacity

theorem size_set {slabCapacity : Nat} {s s' : State Ip} (sizes : SizeInv slabCapacity s)
    (caps : ∀ c, (s'.caches c).cap = (s.caches c).cap)
    (slots : s'.slab.slots.length = s.slab.slots.length) : SizeInv slabCapacity s' :=
  ⟨fun c => (caps c).trans (sizes.caps c), slots.trans sizes.slots⟩

theorem setCache_cap {s : State Ip} {c : Cache} {cache : Lru (Key Ip) Entry}
    (same : cache.cap = (s.caches c).cap) (d : Cache) :
    ((s.setCache c cache).caches d).cap = (s.caches d).cap := by
  by_cases here : d = c
  · subst here
    simp [State.setCache, same]
  · simp [State.setCache, here]

theorem fresh_of_key {ipString : Ip → Bytes} {a op : Op Ip} (same : a.key = op.key)
    (single : op.cache ≠ .hosts) : a.full ipString = op.full ipString := by
  cases a <;> cases op <;> simp_all [Op.key, Op.full, Op.cache]

variable [DecidableEq Ip]

theorem inCache_touch (s : State Ip) (op : Op Ip) (d : Cache) :
    inCache (s.touch op) d = inCache s d := by
  by_cases here : d = op.cache
  · subst here
    simp [inCache, State.touch, State.setCache, Lru.total_touch]
  · exact inCache_setCache s op.cache d _ here

theorem move_balanced {ipString : Ip → Bytes} {known : Op Ip → Prop} {s s' : State Ip} {ρ : Nat}
    (balanced : Balanced s) (locks : LockInv s) (pins : Pinned (strs s) s.slab)
    (inv : Sourced ipString known s) (move : Move ipString s ρ s') : Balanced s' := by
  have still : ∀ d, inCache s d = inCache s d := fun _ => rfl
  unfold Balanced at balanced ⊢
  cases move with
  | call op at_pc | miss op at_pc | evicted op got at_pc | finish op strings at_pc =>
    refine balanced.trans (Eq.symm ?_)
    exact weights_outside locks rfl rfl still (by simp [at_pc, holds])
  | hit op e at_pc found enough =>
    have outside : holds (s.pcs ρ) = none := by
      rcases at_pc with at_pc | at_pc <;> simp [at_pc, holds]
    refine balanced.trans (Eq.symm ?_)
    exact weights_outside locks rfl rfl (inCache_touch s op) outside
  | halve op e at_pc found short | completed op e got at_pc found enough =>
    have outside : holds (s.pcs ρ) = none := by simp [at_pc, holds]
    refine balanced.trans (Eq.symm ?_)
    exact weights_outside locks rfl rfl (inCache_touch s op) outside
  | lockMissed op at_pc free absent =>
    have outside : holds (s.pcs ρ) = none := by simp [at_pc, holds]
    refine balanced.trans (Eq.symm ?_)
    exact weights_acquire locks free outside rfl rfl still rfl
  | lockFound op e got at_pc free found short =>
    have outside : holds (s.pcs ρ) = none := by
      rcases at_pc with ⟨at_pc, -⟩ | at_pc <;> simp [at_pc, holds]
    refine balanced.trans (Eq.symm ?_)
    exact weights_acquire locks free outside rfl rfl (inCache_touch s op) rfl
  | root op got string i at_pc next empty =>
    have inside : holds (s.pcs ρ) = some op.cache := by simp [at_pc, holds]
    have filled : occupied (pinned s.slab i string) = occupied s.slab + 1 :=
      occupied_insert string empty
    refine (filled.trans (congrArg (· + 1) balanced)).trans (Eq.symm ?_)
    refine weights_inside (a := 0) (b := 1) locks inside rfl rfl (fun d _ => rfl) ?_
    simp only [at_pc, hand, List.length_append, List.length_singleton]
    rfl
  | giveUp op got at_pc =>
    have inside : holds (s.pcs ρ) = some op.cache := by simp [at_pc, holds]
    refine balanced.trans (Eq.symm ?_)
    refine weights_inside (a := 0) (b := 0) locks inside rfl rfl
      (fun d _ => rfl) ?_
    simp only [at_pc, hand, List.length_reverse]
    rfl
  | put op got at_pc whole =>
    have mine := inv.pcs ρ
    rw [at_pc] at mine
    have weighed := Lru.total_put List.length (s.caches op.cache) op.key got
    rw [mine.2.1] at weighed
    have inside : holds (s.pcs ρ) = some op.cache := by simp [at_pc, holds]
    refine balanced.trans (Eq.symm ?_)
    refine weights_inside (a := 0) (b := 0) locks inside rfl rfl
      (fun d other => inCache_setCache s op.cache d _ other) ?_
    simp only [at_pc, hand, inCache, State.setCache, Function.update_self]
    cases evicts : ((s.caches op.cache).put op.key got).1 with
    | none =>
      simp only [evicts, Option.elim_none, List.length_nil] at weighed ⊢
      exact weighed
    | some pair =>
      simp only [evicts, Option.elim_none, Option.elim_some] at weighed ⊢
      exact weighed
  | fill op got e host i at_pc found next empty =>
    have weighed := Lru.total_put List.length (s.caches op.cache) op.key
      (e ++ [(⟨host, i⟩ : CachedStr)])
    rw [found, Lru.put_present found] at weighed
    have inside : holds (s.pcs ρ) = some op.cache := by simp [at_pc, holds]
    have filled : occupied (pinned s.slab i host) = occupied s.slab + 1 :=
      occupied_insert host empty
    refine (filled.trans (congrArg (· + 1) balanced)).trans (Eq.symm ?_)
    refine weights_release (b := 1) locks inside rfl rfl
      (fun d other => inCache_setCache s op.cache d _ other) ?_ (by simp [at_pc, hand])
    simp only [inCache, State.setCache, State.setLock, Function.update_self, Option.elim_some,
      Option.elim_none, List.length_append, List.length_singleton] at weighed ⊢
    omega
  | leave op got host at_pc next =>
    have inside : holds (s.pcs ρ) = some op.cache := by simp [at_pc, holds]
    refine balanced.trans (Eq.symm ?_)
    exact weights_release (b := 0) locks inside rfl rfl
      (fun d other => rfl) rfl (by simp [at_pc, hand])
  | drop op string left at_pc =>
    have inside : holds (s.pcs ρ) = some op.cache := by simp [at_pc, holds]
    have rooted := pins.rooted (.hand ρ) string (by simp [strs, at_pc, hand])
    have released := occupied_release rooted
    have fewer : weights ({ s with slab := s.slab.release string.slot }.goto ρ
        (.dropping op left)) + 1 = weights s + 0 := by
      refine weights_inside locks inside rfl rfl (fun d _ => rfl) ?_
      simp only [at_pc, hand, List.length_cons]
      rfl
    change occupied (s.slab.release string.slot) = _
    omega
  | unlock op at_pc =>
    have inside : holds (s.pcs ρ) = some op.cache := by simp [at_pc, holds]
    refine balanced.trans (Eq.symm ?_)
    exact weights_release (b := 0) locks inside rfl rfl
      (fun d other => rfl) rfl (by simp [at_pc, hand])

theorem entry_most {ipString : Ip → Bytes} {known : Op Ip → Prop} {s : State Ip}
    (inv : Sourced ipString known s) {c : Cache} {k : Key Ip} {e : Entry}
    (found : (s.caches c).find k = some e) : e.length ≤ entryMost c := by
  obtain ⟨a, _, rfl, _, stored⟩ := inv.entries c k e found
  exact stored_most stored

theorem move_hands {ipString : Ip → Bytes} {known : Op Ip → Prop} {s s' : State Ip} {ρ : Nat}
    (hands : HandInv s) (inv : Sourced ipString known s) (move : Move ipString s ρ s') :
    HandInv s' := by
  cases move with
  | call | miss | hit | halve | evicted | completed | leave | unlock | finish | lockMissed
  | lockFound | fill =>
    exact hand_goto hands rfl (by simp [holds, hand])
  | root op got string i at_pc next empty =>
    refine hand_goto hands rfl ?_
    intro c inside
    simp only [holds, Option.some.injEq] at inside
    subst inside
    obtain ⟨below, _⟩ := List.getElem?_eq_some_iff.mp next
    rw [fresh_length] at below
    have most := want_le_most op
    simp only [hand, List.length_append, List.length_singleton]
    omega
  | giveUp op got at_pc =>
    refine hand_goto hands rfl ?_
    intro c inside
    have before := hands ρ c (by rw [at_pc]; exact inside)
    simpa [at_pc, hand] using before
  | put op got at_pc whole =>
    refine hand_goto hands rfl ?_
    intro c inside
    simp only [holds, Option.some.injEq] at inside
    subst inside
    cases evicts : ((s.caches op.cache).put op.key got).1 with
    | none => simp [hand]
    | some pair => exact entry_most inv (Lru.put_evicts evicts).2
  | drop op string left at_pc =>
    refine hand_goto hands rfl ?_
    intro c inside
    have before := hands ρ c (by rw [at_pc]; exact inside)
    simp only [at_pc, hand, List.length_cons] at before ⊢
    omega

theorem move_sizes {ipString : Ip → Bytes} {slabCapacity : Nat} {s s' : State Ip} {ρ : Nat}
    (sizes : SizeInv slabCapacity s) (move : Move ipString s ρ s') : SizeInv slabCapacity s' := by
  cases move with
  | call | miss | evicted | unlock | finish | lockMissed | leave | giveUp =>
    exact size_set sizes (fun c => rfl) rfl
  | hit | halve | completed | lockFound =>
    exact size_set sizes (fun c => setCache_cap (Lru.touch_cap _ _) c) rfl
  | root | drop => exact size_set sizes (fun c => rfl) (List.length_set ..)
  | put => exact size_set sizes (fun c => setCache_cap (Lru.put_cap _ _ _) c) rfl
  | fill => exact size_set sizes (fun c => setCache_cap (Lru.put_cap _ _ _) c) (List.length_set ..)

structure CacheInv (ipString : Ip → Bytes) (known : Op Ip → Prop) (slabCapacity : Nat)
    (s : State Ip) : Prop where
  locks : LockInv s
  sourced : Sourced ipString known s
  pins : Pinned (strs s) s.slab
  balanced : Balanced s
  hands : HandInv s
  sizes : SizeInv slabCapacity s

def callsKnown (known : Op Ip → Prop) (_ : State Ip) (l : Label Ip) : Prop :=
  ∀ ρ op, l = .call ρ op → known op

theorem lookup_called {ipString : Ip → Bytes} {s s' : State Ip} {l : Label Ip} {op : Op Ip}
    (moved : step ipString s l = some s') (at_pc : s'.pcs l.ractor = .lookup op) :
    l = .call l.ractor op := by
  cases l with
  | call ρ asked =>
    simp only [step] at moved
    split at moved <;> cases moved
    simp only [Label.ractor, State.goto, Function.update_self, Pc.lookup.injEq] at at_pc
    rw [at_pc]
    rfl
  | step ρ =>
    have move := advance_move moved
    simp only [Label.ractor] at at_pc
    cases move with
    | call op idle => simp [step, advance, idle] at moved
    | _ => simp [State.goto] at at_pc

theorem initial_inv (ipString : Ip → Bytes) (known : Op Ip → Prop) (slabCapacity : Nat) :
    CacheInv ipString known slabCapacity (initial slabCapacity) := by
  have nowhere : slotsOf (strs (initial slabCapacity : State Ip)) = fun _ => [] := by
    funext p
    cases p <;> rfl
  have empty : ∀ i v, ¬Roots (withCapacity slabCapacity : PinSlab Bytes) i v := by
    intro i v rooted
    simp [Roots, withCapacity, List.getElem?_replicate] at rooted
  constructor
  · intro c ρ
    simp [initial, holds]
  · constructor
    · intro c k e found
      cases found
    · intro ρ
      trivial
  · constructor
    · refine ⟨fun _ => none, ?_, ?_⟩
      · rw [nowhere]
        exact located_empty
      · intro i
        constructor
        · rintro ⟨p, here⟩
          cases here
        · rintro ⟨v, rooted⟩
          exact absurd rooted (empty i v)
    · intro p x here
      cases p <;> cases here
  · simp [Balanced, occupied, withCapacity, initial, weights, weight, inCache, inHand, Lru.total,
      Lru.create, List.countP_replicate]
  · intro ρ c inside
    cases inside
  · exact ⟨fun c => rfl, List.length_replicate⟩

theorem step_cache_inv {ipString : Ip → Bytes} {known : Op Ip → Prop} {slabCapacity : Nat}
    {s s' : State Ip} {l : Label Ip} (inv : CacheInv ipString known slabCapacity s)
    (permitted : callsKnown known s l) (moved : step ipString s l = some s') :
    CacheInv ipString known slabCapacity s' := by
  have move := step_move moved
  have asked : ∀ op, s'.pcs l.ractor = .lookup op → known op := fun op at_pc =>
    permitted _ _ (lookup_called moved at_pc)
  exact ⟨move_lock_inv inv.locks move, move_sourced inv.sourced inv.locks asked move,
    move_pinned inv.pins inv.sourced move,
    move_balanced inv.balanced inv.locks inv.pins inv.sourced move,
    move_hands inv.hands inv.sourced move, move_sizes inv.sizes move⟩

theorem reachable_cache_inv {ipString : Ip → Bytes} {known : Op Ip → Prop} {slabCapacity : Nat}
    {s : State Ip} (reached : ReachableBy (system ipString slabCapacity) (callsKnown known) s) :
    CacheInv ipString known slabCapacity s := by
  refine invariant (CacheInv ipString known slabCapacity) ?_ ?_ reached
  · rintro s rfl
    exact initial_inv ipString known slabCapacity
  · intro s t l inv permitted moved
    exact step_cache_inv inv permitted moved

theorem reachable_any {ipString : Ip → Bytes} {slabCapacity : Nat} {s : State Ip}
    (reached : Reachable (system ipString slabCapacity) s) :
    CacheInv ipString (fun _ => True) slabCapacity s := by
  apply reachable_cache_inv
  exact reached.weaken fun _ _ _ _ _ _ => trivial

def stepsLeft : Pc Ip → Nat
  | .idle => 0
  | .done _ _ => 1
  | .filling _ _ => 2
  | .dropping _ left => 2 + left.length
  | .half _ _ => 3
  | .rooting _ got => 9 - got.length
  | .missed _ => 10
  | .lookup _ => 11

theorem most_le (c : Cache) : entryMost c ≤ 3 := by
  cases c <;> simp [entryMost]

theorem advance_lowers {ipString : Ip → Bytes} {known : Op Ip → Prop} {slabCapacity : Nat}
    {s s' : State Ip} {ρ : Nat} (inv : CacheInv ipString known slabCapacity s)
    (moved : advance ipString s ρ = some s') : stepsLeft (s'.pcs ρ) < stepsLeft (s.pcs ρ) := by
  have few : ∀ c, holds (s.pcs ρ) = some c → (hand (s.pcs ρ)).length ≤ 3 := fun c inside =>
    (inv.hands ρ c inside).trans (most_le c)
  have arrive : ∀ (t : State Ip) pc, (t.goto ρ pc).pcs ρ = pc := fun t pc => by simp [State.goto]
  cases advance_move moved with
  | call op idle => simp [advance, idle] at moved
  | miss op at_pc | finish op strings at_pc | evicted op got at_pc | halve op e at_pc
  | completed op e got at_pc | lockMissed op at_pc =>
    rw [arrive, at_pc]
    simp [stepsLeft]
  | hit op e at_pc =>
    rw [arrive]
    rcases at_pc with at_pc | at_pc <;> simp [at_pc, stepsLeft]
  | lockFound op e got at_pc =>
    rw [arrive]
    rcases at_pc with ⟨at_pc, -⟩ | at_pc <;> simp [at_pc, stepsLeft]
  | leave op got host at_pc | fill op got e host i at_pc =>
    rw [arrive, at_pc]
    simp [stepsLeft]
  | unlock op at_pc =>
    rw [arrive, at_pc]
    simp [stepsLeft]
  | root op got string i at_pc next empty =>
    have short := few op.cache (by simp [at_pc, holds])
    rw [at_pc] at short
    rw [arrive, at_pc]
    simp only [stepsLeft, hand, List.length_append, List.length_singleton] at short ⊢
    omega
  | giveUp op got at_pc =>
    have short := few op.cache (by simp [at_pc, holds])
    rw [at_pc] at short
    rw [arrive, at_pc]
    simp only [stepsLeft, hand, List.length_reverse] at short ⊢
    omega
  | put op got at_pc whole =>
    have short := few op.cache (by simp [at_pc, holds])
    rw [at_pc] at short
    have after := (move_hands inv.hands inv.sourced (.put op got at_pc whole)) ρ op.cache
      (by rw [arrive]; rfl)
    have most := most_le op.cache
    rw [arrive] at after ⊢
    rw [at_pc]
    simp only [stepsLeft, hand] at short after ⊢
    omega
  | drop op string left at_pc =>
    rw [arrive, at_pc]
    simp [stepsLeft]

theorem holder_advances {ipString : Ip → Bytes} {known : Op Ip → Prop} {s : State Ip} {ρ : Nat}
    {c : Cache} (inv : Sourced ipString known s) (inside : holds (s.pcs ρ) = some c) :
    ∃ s', advance ipString s ρ = some s' := by
  have mine := inv.pcs ρ
  unfold advance
  cases at_pc : s.pcs ρ with
  | rooting op got =>
    dsimp only
    split
    · next string _ =>
      rcases insert_cases s.slab string with ⟨i, _, eq⟩ | ⟨_, eq⟩ <;> simp [eq]
    · exact ⟨_, rfl⟩
  | filling op got =>
    rw [at_pc] at mine
    obtain ⟨_, three, two, e, found, _⟩ := mine
    have third : ∃ host, (op.full ipString)[got.length]? = some host := by
      rw [taken_length three two]
      exact ⟨_, List.getElem?_eq_getElem (by rw [full_three ipString three]; omega)⟩
    obtain ⟨host, next⟩ := third
    simp only [found, next]
    rcases insert_cases s.slab host with ⟨i, _, eq⟩ | ⟨_, eq⟩ <;> simp [eq]
  | dropping op left => cases left <;> exact ⟨_, rfl⟩
  | idle | lookup | missed | half | done => simp [at_pc, holds] at inside

/-- A ractor in a call can go on, or waits for a lock whose holder can. -/
theorem some_advances {ipString : Ip → Bytes} {known : Op Ip → Prop} {s : State Ip} {ρ : Nat}
    (inv : Sourced ipString known s) (locks : LockInv s) (busy : s.pcs ρ ≠ .idle) :
    ∃ τ s', (τ = ρ ∨ ∃ c, s.lock c = some τ) ∧ advance ipString s τ = some s' := by
  have waits : ∀ op : Op Ip, (s.lock op.cache = none → ∃ s', advance ipString s ρ = some s') →
      ∃ τ s', (τ = ρ ∨ ∃ c, s.lock c = some τ) ∧ advance ipString s τ = some s' := by
    intro op enabled
    cases holder : s.lock op.cache with
    | none =>
      obtain ⟨s', moved⟩ := enabled holder
      exact ⟨ρ, s', .inl rfl, moved⟩
    | some τ =>
      obtain ⟨s', moved⟩ := holder_advances inv ((locks op.cache τ).mp holder)
      exact ⟨τ, s', .inr ⟨op.cache, holder⟩, moved⟩
  cases at_pc : s.pcs ρ with
  | idle => exact absurd at_pc busy
  | lookup op | missed op | half op got =>
    apply waits op
    intro free
    simp only [advance, at_pc, if_pos free]
    split
    · exact ⟨_, rfl⟩
    · split <;> exact ⟨_, rfl⟩
  | rooting op got | filling op got | dropping op got =>
    have inside : holds (s.pcs ρ) = some op.cache := by simp [at_pc, holds]
    obtain ⟨s', moved⟩ := holder_advances inv inside
    exact ⟨ρ, s', .inl rfl, moved⟩
  | done op strings =>
    exact ⟨ρ, s.goto ρ .idle, .inl rfl, by simp [advance, at_pc]⟩

/-- Each call on the values and addrs caches returns what an uncached build gives, and can
    always go on to do so; a cache has one entry a key and at most its capacity; every
    occupied slot belongs to one string of one entry, in a cache or with the ractor that
    has the cache's lock, and every such string has its slot. -/
theorem interned_strings_law (ipString : Ip → Bytes) (slabCapacity : Nat) {s : State Ip}
    (reached : Reachable (system ipString slabCapacity) s) :
    (∀ ρ op strings, s.pcs ρ = .done op strings → op.cache ≠ .hosts →
      strings = op.fresh ipString) ∧
    (∀ ρ, s.pcs ρ ≠ .idle → ∃ τ s', (τ = ρ ∨ ∃ c, s.lock c = some τ) ∧
      advance ipString s τ = some s' ∧ stepsLeft (s'.pcs τ) < stepsLeft (s.pcs τ)) ∧
    (∀ c, ((s.caches c).entries.map Prod.fst).Nodup ∧
      (s.caches c).entries.length ≤ cacheCap c) ∧
    (∀ i v, Roots s.slab i v →
      ∃ p, ExactlyAt (slotsOf (strs s)) i p ∧ (⟨v, i⟩ : CachedStr) ∈ strs s p) ∧
    (∀ p x, x ∈ strs s p → Roots s.slab x.slot x.bytes) ∧
    ∀ ρ, strs s (.hand ρ) ≠ [] → ∃ c, s.lock c = some ρ := by
  have inv := reachable_any reached
  refine ⟨?_, ?_, ?_, ?_, inv.pins.rooted, ?_⟩
  · intro ρ op strings at_pc single
    have mine := inv.sourced.pcs ρ
    rw [at_pc] at mine
    obtain ⟨_, a, _, same, rfl⟩ := mine
    rw [fresh_of_key same single]
    rfl
  · intro ρ busy
    obtain ⟨τ, s', who, moved⟩ := some_advances inv.sourced inv.locks busy
    exact ⟨τ, s', who, moved, advance_lowers inv moved⟩
  · intro c
    refine ⟨(s.caches c).once, ?_⟩
    rw [← inv.sizes.caps c]
    exact (s.caches c).bounded
  · intro i v rooted
    obtain ⟨loc, located, occupied⟩ := inv.pins.placed
    obtain ⟨p, here⟩ := (occupied i).mpr ⟨v, rooted⟩
    have exactly := located_exactly located here
    refine ⟨p, exactly, ?_⟩
    have listed : i ∈ slotsOf (strs s) p := List.count_pos_iff.mp (by rw [exactly.1]; omega)
    obtain ⟨x, inside, rfl⟩ := List.mem_map.mp listed
    have same := inv.pins.rooted p x inside
    unfold Roots at same rooted
    rw [rooted] at same
    cases same
    exact inside
  · intro ρ some_there
    have inside : ∃ c, holds (s.pcs ρ) = some c := by
      simp only [strs] at some_there
      cases at_pc : s.pcs ρ <;> simp_all [hand, holds]
    obtain ⟨c, inside⟩ := inside
    exact ⟨c, (inv.locks c ρ).mpr inside⟩

def racedCalls : List (Label Nat) :=
  [Label.call 0 (.value [65]), .call 1 (.value [65]), .step 0, .step 1, .step 0, .step 0, .step 0,
    .step 0, .step 1, .call 2 (.addr 7), .step 2, .step 2, .step 2, .step 2]

theorem full_slab_returns_fresh :
    ∃ s strings, Reachable (system (fun ip : Nat => [UInt8.ofNat ip]) 1) s ∧
      s.pcs 1 = .done (.value [65]) [[65]] ∧ s.pcs 2 = .done (.addr 7) strings ∧
      strings = [[7]] ∧ ∃ p, ExactlyAt (slotsOf (strs s)) 0 p := by
  have ran : run (system (fun ip : Nat => [UInt8.ofNat ip]) 1) (initial 1) racedCalls = some _ := rfl
  have reached := reachable_run (.start rfl) ran
  have law := interned_strings_law (fun ip : Nat => [UInt8.ofNat ip]) 1 reached
  obtain ⟨p, exactly, _⟩ := law.2.2.2.1 0 [65] rfl
  exact ⟨_, _, reached, rfl, rfl, law.1 2 (.addr 7) _ rfl (by decide), p, exactly⟩

def inserting (ipString : Ip → Bytes) : Pc Ip → Option Bytes
  | .rooting op got => (op.fresh ipString)[got.length]?
  | .filling op got => (op.full ipString)[got.length]?
  | _ => none

theorem weight_le {ipString : Ip → Bytes} {known : Op Ip → Prop} {slabCapacity : Nat}
    {s : State Ip} (inv : CacheInv ipString known slabCapacity s) (c : Cache) :
    weight s c ≤ entryMost c * (cacheCap c + 1) := by
  have stored := Lru.total_bound (f := List.length) (s.caches c) fun k e => entry_most inv.sourced
  rw [inv.sizes.caps c] at stored
  have held : inHand s c ≤ entryMost c := by
    unfold inHand
    cases holder : s.lock c with
    | none => simp
    | some ρ => exact inv.hands ρ c ((inv.locks c ρ).mp holder)
  unfold weight inCache
  rw [Nat.mul_succ]
  omega

theorem weight_lt {ipString : Ip → Bytes} {known : Op Ip → Prop} {slabCapacity : Nat}
    {s : State Ip} {ρ : Nat} {string : Bytes} (inv : CacheInv ipString known slabCapacity s)
    (next : inserting ipString (s.pcs ρ) = some string) :
    ∃ c, weight s c < entryMost c * (cacheCap c + 1) := by
  have short : ∃ c, holds (s.pcs ρ) = some c ∧ (hand (s.pcs ρ)).length < entryMost c := by
    cases at_pc : s.pcs ρ with
    | rooting op got =>
      rw [at_pc] at next
      obtain ⟨below, _⟩ := List.getElem?_eq_some_iff.mp next
      rw [fresh_length] at below
      exact ⟨op.cache, rfl, below.trans_le (want_le_most op)⟩
    | filling op got =>
      refine ⟨op.cache, rfl, ?_⟩
      cases op <;> simp [hand, Op.cache, entryMost]
    | idle | lookup | missed | half | dropping | done => simp [at_pc, inserting] at next
  obtain ⟨c, inside, less⟩ := short
  refine ⟨c, ?_⟩
  have stored := Lru.total_bound (f := List.length) (s.caches c) fun k e => entry_most inv.sourced
  rw [inv.sizes.caps c] at stored
  rw [weight_holding inv.locks inside, Nat.mul_succ]
  unfold inCache
  omega

theorem weights_room {ipString : Ip → Bytes} {known : Op Ip → Prop} {s : State Ip} {ρ : Nat}
    {string : Bytes} (inv : CacheInv ipString known cacheSlabCapacity s)
    (next : inserting ipString (s.pcs ρ) = some string) :
    occupied s.slab < cacheSlabCapacity := by
  have balanced := inv.balanced
  unfold Balanced weights at balanced
  have hosts := weight_le inv .hosts
  have addrs := weight_le inv .addrs
  have values := weight_le inv .values
  obtain ⟨c, less⟩ := weight_lt inv next
  simp only [cacheSlabCapacity, hostCacheCap, addrCacheCap, valueCacheCap]
  cases c <;>
    simp only [entryMost, cacheCap, hostCacheCap, addrCacheCap, valueCacheCap] at hosts addrs values less <;>
    omega

theorem slab_room {ipString : Ip → Bytes} {known : Op Ip → Prop} {s : State Ip} {ρ : Nat}
    {string : Bytes} (inv : CacheInv ipString known cacheSlabCapacity s)
    (next : inserting ipString (s.pcs ρ) = some string) : (s.slab.insert string).1 ≠ none := by
  apply insert_room string
  rw [inv.sizes.slots]
  exact weights_room inv next

/-- The slab has room for whatever the caches insert. -/
theorem slab_never_full (ipString : Ip → Bytes) {s : State Ip}
    (reached : Reachable (system ipString cacheSlabCapacity) s) :
    occupied s.slab ≤ cacheSlabCapacity ∧
    ∀ ρ string, inserting ipString (s.pcs ρ) = some string →
      occupied s.slab < cacheSlabCapacity ∧ (s.slab.insert string).1 ≠ none := by
  have inv := reachable_any reached
  constructor
  · rw [← inv.sizes.slots]
    exact List.countP_le_length
  · intro ρ string next
    exact ⟨weights_room inv next, slab_room inv next⟩

theorem first_value_fits :
    ∃ s, Reachable (system (fun ip : Nat => [UInt8.ofNat ip]) cacheSlabCapacity) s ∧
      inserting (fun ip : Nat => [UInt8.ofNat ip]) (s.pcs 0) = some [65] ∧
      (s.slab.insert [65]).1 ≠ none := by
  have ran : run (system (fun ip : Nat => [UInt8.ofNat ip]) cacheSlabCapacity)
      (initial cacheSlabCapacity) [Label.call 0 (.value [65]), .step 0, .step 0] = some _ := rfl
  have reached := reachable_run (.start rfl) ran
  exact ⟨_, reached, rfl, ((slab_never_full _ reached).2 0 [65] rfl).2⟩

end KinoEnvSlots
