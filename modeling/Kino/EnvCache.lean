import Kino.EnvStrings

/-!
What the env-string caches keep over any interleaving of ractors: whose strings an entry
holds, who holds a cache's lock, and which entry or hand each occupied slab slot belongs
to.
-/
namespace KinoEnvCache
open Transitions Ownership LruCache KinoPinSlab KinoEnvStrings

variable {Ip : Type}

def holds : Pc Ip → Option Cache
  | .rooting op _ | .filling op _ | .dropping op _ => some op.cache
  | _ => none

def hand : Pc Ip → Entry
  | .rooting _ got => got
  | .dropping _ left => left
  | _ => []

def LockInv (s : State Ip) : Prop := Exclusive s.lock fun ρ => holds (s.pcs ρ)

theorem goto_pcs (s : State Ip) (ρ τ : Nat) (pc : Pc Ip) :
    (s.goto ρ pc).pcs τ = if τ = ρ then pc else s.pcs τ := by
  by_cases same : τ = ρ <;> simp [State.goto, same]

theorem holds_goto (s : State Ip) (ρ : Nat) (pc : Pc Ip) :
    (fun τ => holds ((s.goto ρ pc).pcs τ)) =
      Function.update (fun τ => holds (s.pcs τ)) ρ (holds pc) := by
  funext τ
  rw [goto_pcs]
  by_cases same : τ = ρ <;> simp [same]

theorem lock_same {s s' : State Ip} {ρ : Nat} {pc : Pc Ip} (inv : LockInv s)
    (lock : s'.lock = s.lock) (pcs : s'.pcs = s.pcs) (same : holds pc = holds (s.pcs ρ)) :
    LockInv (s'.goto ρ pc) := by
  unfold LockInv
  rw [holds_goto, pcs, same]
  change Exclusive s'.lock _
  rw [lock]
  have kept : Function.update (fun τ => holds (s.pcs τ)) ρ (holds (s.pcs ρ)) =
      fun τ => holds (s.pcs τ) := Function.update_eq_self ρ _
  rw [kept]
  exact inv

theorem lock_acquire {s s' : State Ip} {ρ : Nat} {c : Cache} {pc : Pc Ip} (inv : LockInv s)
    (lock : s'.lock = Function.update s.lock c (some ρ)) (pcs : s'.pcs = s.pcs)
    (free : s.lock c = none) (before : holds (s.pcs ρ) = none) (after : holds pc = some c) :
    LockInv (s'.goto ρ pc) := by
  unfold LockInv
  rw [holds_goto, pcs, after]
  change Exclusive s'.lock _
  rw [lock]
  exact exclusive_acquire inv free before

theorem lock_release {s s' : State Ip} {ρ : Nat} {c : Cache} {pc : Pc Ip} (inv : LockInv s)
    (lock : s'.lock = Function.update s.lock c none) (pcs : s'.pcs = s.pcs)
    (before : holds (s.pcs ρ) = some c) (after : holds pc = none) : LockInv (s'.goto ρ pc) := by
  unfold LockInv
  rw [holds_goto, pcs, after]
  change Exclusive s'.lock _
  rw [lock]
  exact exclusive_release inv before

theorem one_inside {s : State Ip} (inv : LockInv s) {ρ τ : Nat} {c : Cache}
    (mine : holds (s.pcs ρ) = some c) (theirs : holds (s.pcs τ) = some c) : ρ = τ := by
  have locked := (inv c ρ).mpr mine
  rw [(inv c τ).mpr theirs] at locked
  exact (Option.some.inj locked).symm

theorem key_cache {a b : Op Ip} (same : a.key = b.key) : a.cache = b.cache := by
  cases a <;> cases b <;> simp_all [Op.key, Op.cache]

def least : Op Ip → Nat
  | .value _ | .addr _ => 1
  | .host _ _ _ | .authority _ _ _ => 2

theorem key_least {a b : Op Ip} (same : a.key = b.key) : least a = least b := by
  cases a <;> cases b <;> simp_all [Op.key, least]

theorem least_le_want (op : Op Ip) : least op ≤ op.want := by
  cases op <;> simp [least, Op.want]

def Stored (ipString : Ip → Bytes) (op : Op Ip) (e : Entry) : Prop :=
  bytesOf e = (op.full ipString).take e.length ∧ least op ≤ e.length

def Taken (ipString : Ip → Bytes) (known : Op Ip → Prop) (op : Op Ip) (n : Nat)
    (got : List Bytes) : Prop :=
  ∃ a, known a ∧ a.key = op.key ∧ got = (a.full ipString).take n

/-- Calls for one key have as many strings, and the same ones past name and port. -/
theorem full_key (ipString : Ip → Bytes) {a b : Op Ip} (same : a.key = b.key) :
    (a.full ipString).drop 2 = (b.full ipString).drop 2 ∧
      (a.full ipString).length = (b.full ipString).length := by
  cases a <;> cases b <;> simp_all [Op.key, Op.full]

theorem want_le_full (ipString : Ip → Bytes) (op : Op Ip) :
    op.want ≤ (op.full ipString).length := by
  cases op <;> simp [Op.want, Op.full]

theorem fresh_length (ipString : Ip → Bytes) (op : Op Ip) :
    (op.fresh ipString).length = op.want := by
  unfold Op.fresh
  rw [List.length_take, Nat.min_eq_left (want_le_full ipString op)]

theorem short_entry {op : Op Ip} {n : Nat} (some_there : least op ≤ n) (short : n < op.want) :
    op.want = 3 ∧ n = 2 := by
  cases op <;> simp_all [least, Op.want] <;> omega

theorem full_three (ipString : Ip → Bytes) {op : Op Ip} (three : op.want = 3) :
    (op.full ipString).length = 3 := by
  cases op <;> simp_all [Op.want, Op.full]

theorem taken_join {ipString : Ip → Bytes} {known : Op Ip → Prop} {op b : Op Ip}
    {got : List Bytes} (three : op.want = 3) (two : Taken ipString known op 2 got)
    (same : b.key = op.key) :
    Taken ipString known op op.want (got ++ (b.full ipString).drop 2) := by
  obtain ⟨a, asked, key, rfl⟩ := two
  refine ⟨a, asked, key, ?_⟩
  have whole := (full_key ipString key).2
  rw [full_three ipString three] at whole
  rw [(full_key ipString (same.trans key.symm)).1, List.take_append_drop, three,
    ← whole, List.take_length]

theorem taken_length {ipString : Ip → Bytes} {known : Op Ip → Prop} {op : Op Ip}
    {got : List Bytes} (three : op.want = 3) (two : Taken ipString known op 2 got) :
    got.length = 2 := by
  obtain ⟨a, _, key, rfl⟩ := two
  have whole := (full_key ipString key).2
  rw [full_three ipString three] at whole
  rw [List.length_take, whole]
  rfl

theorem full_third {ipString : Ip → Bytes} {op : Op Ip} {host : Bytes} (three : op.want = 3)
    (next : (op.full ipString)[2]? = some host) : (op.full ipString).drop 2 = [host] := by
  have length := full_three ipString three
  obtain ⟨inside, rfl⟩ := List.getElem?_eq_some_iff.mp next
  rw [List.drop_eq_getElem_cons inside, List.drop_of_length_le (by omega)]

theorem stored_take {ipString : Ip → Bytes} {a : Op Ip} {e : Entry} {n : Nat}
    (stored : Stored ipString a e) (enough : n ≤ e.length) :
    (bytesOf e).take n = (a.full ipString).take n := by
  rw [stored.1, List.take_take, Nat.min_eq_left enough]

theorem bytesOf_length (e : Entry) : (bytesOf e).length = e.length := List.length_map _

variable [DecidableEq Ip]

theorem move_lock_inv {ipString : Ip → Bytes} {s s' : State Ip} {ρ : Nat} (inv : LockInv s)
    (move : Move ipString s ρ s') : LockInv s' := by
  cases move with
  | call op at_pc | miss op at_pc | evicted op got at_pc | finish op strings at_pc =>
    exact lock_same inv rfl rfl (by simp [at_pc, holds])
  | hit op e at_pc found enough =>
    exact lock_same inv rfl rfl (by rcases at_pc with at_pc | at_pc <;> simp [at_pc, holds])
  | halve op e at_pc found short => exact lock_same inv rfl rfl (by simp [at_pc, holds])
  | completed op e got at_pc found enough => exact lock_same inv rfl rfl (by simp [at_pc, holds])
  | lockMissed op at_pc free absent =>
    exact lock_acquire inv rfl rfl free (by simp [at_pc, holds]) rfl
  | lockFound op e got at_pc free found short =>
    refine lock_acquire inv rfl rfl free ?_ rfl
    rcases at_pc with ⟨at_pc, -⟩ | at_pc <;> simp [at_pc, holds]
  | root op got string i at_pc next empty => exact lock_same inv rfl rfl (by simp [at_pc, holds])
  | giveUp op got at_pc => exact lock_same inv rfl rfl (by simp [at_pc, holds])
  | put op got at_pc whole => exact lock_same inv rfl rfl (by simp [at_pc, holds])
  | drop op string left at_pc => exact lock_same inv rfl rfl (by simp [at_pc, holds])
  | fill op got e host i at_pc found next empty =>
    exact lock_release inv rfl rfl (by simp [at_pc, holds]) rfl
  | leave op got host at_pc next => exact lock_release inv rfl rfl (by simp [at_pc, holds]) rfl
  | unlock op at_pc => exact lock_release inv rfl rfl (by simp [at_pc, holds]) rfl

def PcOk (ipString : Ip → Bytes) (known : Op Ip → Prop) (s : State Ip) : Pc Ip → Prop
  | .idle => True
  | .lookup op | .missed op | .dropping op _ => known op
  | .half op got => known op ∧ op.want = 3 ∧ Taken ipString known op 2 got
  | .rooting op got => known op ∧ (s.caches op.cache).find op.key = none ∧
      bytesOf got = (op.fresh ipString).take got.length
  | .filling op got => known op ∧ op.want = 3 ∧ Taken ipString known op 2 got ∧
      ∃ e, (s.caches op.cache).find op.key = some e ∧ e.length = 2
  | .done op strings => known op ∧ Taken ipString known op op.want strings

structure Sourced (ipString : Ip → Bytes) (known : Op Ip → Prop) (s : State Ip) : Prop where
  entries : ∀ c k e, (s.caches c).find k = some e →
    ∃ a, known a ∧ a.cache = c ∧ a.key = k ∧ Stored ipString a e
  pcs : ∀ ρ, PcOk ipString known s (s.pcs ρ)

theorem taken_hit {ipString : Ip → Bytes} {known : Op Ip → Prop} {s : State Ip} {op : Op Ip}
    {e : Entry} (inv : Sourced ipString known s)
    (found : (s.caches op.cache).find op.key = some e) (enough : op.want ≤ e.length) :
    Taken ipString known op op.want ((bytesOf e).take op.want) := by
  obtain ⟨a, asked, _, key, stored⟩ := inv.entries _ _ _ found
  exact ⟨a, asked, key, stored_take stored enough⟩

theorem taken_short {ipString : Ip → Bytes} {known : Op Ip → Prop} {s : State Ip} {op : Op Ip}
    {e : Entry} (inv : Sourced ipString known s)
    (found : (s.caches op.cache).find op.key = some e) (short : e.length < op.want) :
    op.want = 3 ∧ e.length = 2 ∧ Taken ipString known op 2 (bytesOf e) := by
  obtain ⟨a, asked, _, key, stored⟩ := inv.entries _ _ _ found
  have least_here := stored.2
  rw [key_least key] at least_here
  obtain ⟨three, two⟩ := short_entry least_here short
  refine ⟨three, two, a, asked, key, ?_⟩
  rw [stored.1, two]

theorem pc_ok_frame {ipString : Ip → Bytes} {known : Op Ip → Prop} {s s' : State Ip} {pc : Pc Ip}
    (ok : PcOk ipString known s pc)
    (same : ∀ c, holds pc = some c → ∀ k, (s'.caches c).find k = (s.caches c).find k) :
    PcOk ipString known s' pc := by
  cases pc with
  | rooting op got =>
    obtain ⟨asked, absent, built⟩ := ok
    exact ⟨asked, (same op.cache rfl op.key).trans absent, built⟩
  | filling op got =>
    obtain ⟨asked, three, two, e, found, length⟩ := ok
    exact ⟨asked, three, two, e, (same op.cache rfl op.key).trans found, length⟩
  | idle | lookup | missed | half | dropping | done => exact ok

theorem sourced_same {ipString : Ip → Bytes} {known : Op Ip → Prop} {s s' : State Ip} {ρ : Nat}
    {pc : Pc Ip} (inv : Sourced ipString known s) (pcs : s'.pcs = s.pcs)
    (same : ∀ c k, (s'.caches c).find k = (s.caches c).find k)
    (mine : PcOk ipString known s pc) : Sourced ipString known (s'.goto ρ pc) := by
  constructor
  · intro c k e found
    exact inv.entries c k e ((same c k).symm.trans found)
  · intro τ
    rw [goto_pcs, pcs]
    split
    · exact pc_ok_frame mine fun c _ k => same c k
    · exact pc_ok_frame (inv.pcs τ) fun c _ k => same c k

theorem sourced_put {ipString : Ip → Bytes} {known : Op Ip → Prop} {s s' : State Ip} {ρ : Nat}
    {op a : Op Ip} {e : Entry} {pc : Pc Ip} (inv : Sourced ipString known s) (locks : LockInv s)
    (inside : holds (s.pcs ρ) = some op.cache) (pcs : s'.pcs = s.pcs)
    (caches : s'.caches =
      Function.update s.caches op.cache ((s.caches op.cache).put op.key e).2)
    (asked : known a) (key : a.key = op.key) (stored : Stored ipString a e)
    (mine : ∀ t, PcOk ipString known t pc) : Sourced ipString known (s'.goto ρ pc) := by
  constructor
  · intro c k e' found
    change (s'.caches c).find k = some e' at found
    rw [caches] at found
    by_cases here : c = op.cache
    · subst c
      rw [Function.update_self, Lru.find_put] at found
      split at found
      · next same =>
        cases found
        exact ⟨a, asked, key_cache key, key.trans same.symm, stored⟩
      · split at found
        · cases found
        · exact inv.entries _ _ _ found
    · rw [Function.update_of_ne here] at found
      exact inv.entries _ _ _ found
  · intro τ
    rw [goto_pcs, pcs]
    split
    · exact mine _
    · next other =>
      apply pc_ok_frame (inv.pcs τ)
      intro c theirs k
      have apart : c ≠ op.cache := by
        intro same
        subst same
        exact other (one_inside locks theirs inside)
      change (s'.caches c).find k = _
      rw [caches, Function.update_of_ne apart]

theorem touch_find (s : State Ip) (op : Op Ip) (c : Cache) (k : Key Ip) :
    ((s.touch op).caches c).find k = (s.caches c).find k := by
  unfold State.touch State.setCache
  by_cases here : c = op.cache
  · subst here
    simp
  · simp [here]

theorem move_sourced {ipString : Ip → Bytes} {known : Op Ip → Prop} {s s' : State Ip} {ρ : Nat}
    (inv : Sourced ipString known s) (locks : LockInv s)
    (asked : ∀ op, s'.pcs ρ = .lookup op → known op) (move : Move ipString s ρ s') :
    Sourced ipString known s' := by
  have mine := inv.pcs ρ
  have still : ∀ c k, (s.caches c).find k = (s.caches c).find k := fun _ _ => rfl
  cases move with
  | call op at_pc => exact sourced_same inv rfl still (asked op (by simp [State.goto]))
  | miss op at_pc =>
    rw [at_pc] at mine
    exact sourced_same inv rfl still mine
  | hit op e at_pc found enough =>
    have asked_op : known op := by
      rcases at_pc with at_pc | at_pc <;> rw [at_pc] at mine <;> exact mine
    exact sourced_same inv rfl (touch_find s op) ⟨asked_op, taken_hit inv found enough⟩
  | halve op e at_pc found short =>
    rw [at_pc] at mine
    obtain ⟨three, _, two⟩ := taken_short inv found short
    exact sourced_same inv rfl (touch_find s op) ⟨mine, three, two⟩
  | lockMissed op at_pc free absent =>
    rw [at_pc] at mine
    exact sourced_same inv rfl still ⟨mine, absent, rfl⟩
  | lockFound op e got at_pc free found short =>
    obtain ⟨three, length, two⟩ := taken_short inv found short
    have in_hand : known op ∧ Taken ipString known op 2 got := by
      rcases at_pc with ⟨at_pc, rfl⟩ | at_pc
      · rw [at_pc] at mine
        exact ⟨mine, two⟩
      · rw [at_pc] at mine
        exact ⟨mine.1, mine.2.2⟩
    exact sourced_same inv rfl (touch_find s op) ⟨in_hand.1, three, in_hand.2, e, found, length⟩
  | evicted op got at_pc =>
    rw [at_pc] at mine
    obtain ⟨asked_op, three, two⟩ := mine
    refine sourced_same inv rfl still ⟨asked_op, ?_⟩
    rw [taken_length three two]
    exact taken_join three two rfl
  | completed op e got at_pc found enough =>
    rw [at_pc] at mine
    obtain ⟨asked_op, three, two⟩ := mine
    obtain ⟨b, _, _, key, stored⟩ := inv.entries _ _ _ found
    refine sourced_same inv rfl (touch_find s op) ⟨asked_op, ?_⟩
    have whole := (full_key ipString key).2
    rw [full_three ipString three] at whole
    rw [stored_take stored enough, taken_length three two, three, ← whole, List.take_length]
    have joined := taken_join three two key
    rwa [three, ← whole] at joined
  | root op got string i at_pc next empty =>
    rw [at_pc] at mine
    obtain ⟨asked_op, absent, built⟩ := mine
    refine sourced_same inv rfl still ⟨asked_op, absent, ?_⟩
    obtain ⟨inside, rfl⟩ := List.getElem?_eq_some_iff.mp next
    rw [List.length_append, List.length_singleton, List.take_succ_eq_append_getElem inside, ← built]
    simp [bytesOf]
  | giveUp op got at_pc =>
    rw [at_pc] at mine
    exact sourced_same inv rfl still mine.1
  | put op got at_pc whole =>
    rw [at_pc] at mine
    obtain ⟨asked_op, absent, built⟩ := mine
    have most : op.want ≤ got.length := by
      have past := List.getElem?_eq_none_iff.mp whole
      rwa [fresh_length] at past
    have all : bytesOf got = op.fresh ipString := by
      rw [built, List.take_of_length_le (by rw [fresh_length]; exact most)]
    have exact_length : got.length = op.want := by
      rw [← bytesOf_length, all, fresh_length]
    refine sourced_put (a := op) (e := got) inv locks (by simp [at_pc, holds]) rfl rfl asked_op rfl ?_ fun _ => asked_op
    constructor
    · rw [all, exact_length]
      rfl
    · rw [exact_length]
      exact least_le_want op
  | fill op got e host i at_pc found next empty =>
    rw [at_pc] at mine
    obtain ⟨asked_op, three, two, e', found', length⟩ := mine
    rw [found] at found'
    cases found'
    rw [taken_length three two] at next
    have last := full_third three next
    obtain ⟨a, asked_a, _, key, stored⟩ := inv.entries _ _ _ found
    have whole := (full_key ipString key).2
    rw [full_three ipString three] at whole
    refine sourced_put inv locks (by simp [at_pc, holds]) rfl rfl asked_a key ?_ fun _ => ⟨asked_op, ?_⟩
    · constructor
      · have tail := (full_key ipString key).1
        rw [last] at tail
        rw [List.length_append, length, List.take_of_length_le (by simp [whole])]
        conv_rhs => rw [← List.take_append_drop 2 (a.full ipString), tail]
        rw [← length, ← stored.1]
        simp [bytesOf]
      · exact stored.2.trans (by simp)
    · rw [← last]
      exact taken_join three two rfl
  | leave op got host at_pc next =>
    rw [at_pc] at mine
    obtain ⟨asked_op, three, two, _⟩ := mine
    rw [taken_length three two] at next
    refine sourced_same inv rfl still ⟨asked_op, ?_⟩
    rw [← full_third three next]
    exact taken_join three two rfl
  | drop op string left at_pc =>
    rw [at_pc] at mine
    exact sourced_same inv rfl still mine
  | unlock op at_pc =>
    rw [at_pc] at mine
    exact sourced_same inv rfl still ⟨mine, op, mine, rfl, rfl⟩
  | finish op strings at_pc => exact sourced_same inv rfl still trivial

inductive Place (Ip : Type) where
  | entry (c : Cache) (k : Key Ip)
  | hand (ρ : Nat)
  deriving DecidableEq, Repr

def strs (s : State Ip) : Place Ip → Entry
  | .entry c k => ((s.caches c).find k).getD []
  | .hand ρ => hand (s.pcs ρ)

def slotsOf (strings : Place Ip → Entry) (p : Place Ip) : List Nat :=
  (strings p).map CachedStr.slot

structure Pinned (strings : Place Ip → Entry) (slab : PinSlab Bytes) : Prop where
  placed : ∃ loc, Located (slotsOf strings) loc ∧
    ∀ i, (∃ p, loc i = some p) ↔ ∃ v, Roots slab i v
  rooted : ∀ p x, x ∈ strings p → Roots slab x.slot x.bytes

theorem pinned_turned {strings : Place Ip → Entry} {slab : PinSlab Bytes}
    (pins : Pinned strings slab) : Pinned strings (turned slab) := ⟨pins.placed, pins.rooted⟩

theorem slotsOf_update (strings : Place Ip → Entry) (p : Place Ip) (e : Entry) :
    slotsOf (Function.update strings p e) =
      Function.update (slotsOf strings) p (e.map CachedStr.slot) := by
  funext q
  by_cases same : q = p
  · subst same
    simp [slotsOf]
  · simp [slotsOf, same]

theorem pinned_enter {strings : Place Ip → Entry} {slab : PinSlab Bytes} {p : Place Ip} {i : Nat}
    (pins : Pinned strings slab) (string : Bytes) (empty : vacant slab i = true) :
    Pinned (Function.update strings p (strings p ++ [(⟨string, i⟩ : CachedStr)]))
      (pinned slab i string) := by
  obtain ⟨loc, located, occupied⟩ := pins.placed
  have no_root : ¬∃ v, Roots slab i v := by
    rintro ⟨v, rooted⟩
    unfold Roots at rooted
    rw [(vacant_iff slab i).mp empty] at rooted
    cases rooted
  have outside : loc i = none := by
    cases at_i : loc i with
    | none => rfl
    | some q => exact absurd ((occupied i).mp ⟨q, at_i⟩) no_root
  constructor
  · refine ⟨Function.update loc i (some p), ?_, ?_⟩
    · rw [slotsOf_update, List.map_append]
      exact located_enter located outside
    · intro j
      by_cases same : j = i
      · subst j
        rw [Function.update_self]
        exact ⟨fun _ => ⟨string, roots_insert string empty⟩, fun _ => ⟨p, rfl⟩⟩
      · rw [Function.update_of_ne same, occupied j]
        exact exists_congr fun v => (roots_set same).symm
  · intro q x here
    by_cases mine : q = p
    · subst q
      rw [Function.update_self, List.mem_append, List.mem_singleton] at here
      rcases here with old | rfl
      · have was := pins.rooted p x old
        have apart : x.slot ≠ i := fun same => no_root ⟨x.bytes, same ▸ was⟩
        exact (roots_set apart).mpr was
      · exact roots_insert string empty
    · rw [Function.update_of_ne mine] at here
      have was := pins.rooted q x here
      have apart : x.slot ≠ i := fun same => no_root ⟨x.bytes, same ▸ was⟩
      exact (roots_set apart).mpr was

theorem pinned_swap {strings : Place Ip → Entry} {slab : PinSlab Bytes} (pins : Pinned strings slab)
    (p q : Place Ip) : Pinned (fun o => strings (Equiv.swap p q o)) slab := by
  obtain ⟨loc, located, occupied⟩ := pins.placed
  constructor
  · refine ⟨fun i => (loc i).map (Equiv.swap p q), located_swap located p q, ?_⟩
    intro i
    rw [← occupied i]
    constructor
    · rintro ⟨o, turned⟩
      obtain ⟨r, was, _⟩ := Option.map_eq_some_iff.mp turned
      exact ⟨r, was⟩
    · rintro ⟨r, was⟩
      exact ⟨Equiv.swap p q r, by simp [was]⟩
  · intro o x here
    exact pins.rooted _ x here

theorem pinned_drop {strings : Place Ip → Entry} {slab : PinSlab Bytes} {p : Place Ip}
    {x : CachedStr} {left : Entry} (pins : Pinned strings slab) (first : strings p = x :: left) :
    Pinned (Function.update strings p left) (slab.release x.slot) := by
  obtain ⟨loc, located, occupied⟩ := pins.placed
  have here : x.slot ∈ slotsOf strings p := by simp [slotsOf, first]
  have gone := located_erase located here
  have rest : (slotsOf strings p).erase x.slot = left.map CachedStr.slot := by
    simp [slotsOf, first]
  rw [rest, ← slotsOf_update] at gone
  have inside : x.slot < slab.slots.length := by
    have rooted := pins.rooted p x (by simp [first])
    by_contra outside
    unfold Roots at rooted
    rw [List.getElem?_eq_none (Nat.le_of_not_lt outside)] at rooted
    cases rooted
  constructor
  · refine ⟨Function.update loc x.slot none, gone, ?_⟩
    intro i
    by_cases same : i = x.slot
    · subst i
      simp [Roots, PinSlab.release, inside]
    · rw [Function.update_of_ne same, occupied i]
      exact exists_congr fun v => (roots_set same).symm
  · intro q y there
    have apart : y.slot ≠ x.slot := by
      intro same
      have listed : y.slot ∈ slotsOf (Function.update strings p left) q :=
        List.mem_map.mpr ⟨y, there, rfl⟩
      have lost := located_mem gone listed
      rw [same, Function.update_self] at lost
      cases lost
    apply (roots_set apart).mpr
    by_cases mine : q = p
    · subst q
      rw [Function.update_self] at there
      exact pins.rooted p y (by simp [first, there])
    · rw [Function.update_of_ne mine] at there
      exact pins.rooted q y there

theorem pinned_reverse {strings : Place Ip → Entry} {slab : PinSlab Bytes} (p : Place Ip)
    (pins : Pinned strings slab) : Pinned (Function.update strings p (strings p).reverse) slab := by
  obtain ⟨loc, located, occupied⟩ := pins.placed
  constructor
  · refine ⟨loc, ?_, occupied⟩
    intro q i
    rw [← located q i]
    by_cases mine : q = p
    · subst q
      simp [slotsOf, List.map_reverse]
    · simp [slotsOf, mine]
  · intro q x here
    by_cases mine : q = p
    · subst q
      rw [Function.update_self, List.mem_reverse] at here
      exact pins.rooted p x here
    · rw [Function.update_of_ne mine] at here
      exact pins.rooted q x here

theorem strs_goto (s : State Ip) (ρ : Nat) (pc : Pc Ip) :
    strs (s.goto ρ pc) = Function.update (strs s) (.hand ρ) (hand pc) := by
  funext p
  cases p with
  | entry c k =>
    rw [Function.update_of_ne (by simp)]
    rfl
  | hand τ =>
    by_cases same : τ = ρ
    · subst same
      simp [strs, State.goto]
    · have apart : Place.hand τ ≠ (Place.hand ρ : Place Ip) := by simpa using same
      rw [Function.update_of_ne apart]
      simp [strs, State.goto, same]

theorem strs_same {s s' : State Ip} {ρ : Nat} {pc : Pc Ip} (pcs : s'.pcs = s.pcs)
    (finds : ∀ c k, (s'.caches c).find k = (s.caches c).find k)
    (same : hand pc = hand (s.pcs ρ)) : strs (s'.goto ρ pc) = strs s := by
  have before : strs s' = strs s := by
    funext p
    cases p with
    | entry c k => simp [strs, finds]
    | hand τ => simp [strs, pcs]
  rw [strs_goto, before, same]
  exact Function.update_eq_self (Place.hand ρ) (strs s)

theorem strs_put {s : State Ip} {op : Op Ip} {e : Entry} (c : Cache) (k : Key Ip) :
    strs (s.setCache op.cache ((s.caches op.cache).put op.key e).2) (.entry c k) =
      if c = op.cache ∧ k = op.key then e
      else if c = op.cache ∧ ((s.caches op.cache).put op.key e).1.map Prod.fst = some k then []
      else strs s (.entry c k) := by
  unfold strs State.setCache
  by_cases here : c = op.cache
  · subst here
    simp only [Function.update_self, Lru.find_put, true_and]
    split
    · rfl
    · split <;> rfl
  · simp [here]

/-- A `put` of the strings in hand under a key that has no entry: the entry and the hand
    change places, and then the hand and the evicted entry do. -/
theorem strs_put_evicts {s : State Ip} {ρ : Nat} {op : Op Ip} {got : Entry}
    (at_pc : s.pcs ρ = .rooting op got) (absent : (s.caches op.cache).find op.key = none)
    {j : Key Ip} {u : Entry} (evicts : ((s.caches op.cache).put op.key got).1 = some (j, u)) :
    strs ((s.setCache op.cache ((s.caches op.cache).put op.key got).2).goto ρ (.dropping op u)) =
      fun o => strs s (Equiv.swap (.hand ρ) (.entry op.cache op.key)
        (Equiv.swap (.hand ρ) (.entry op.cache j) o)) := by
  obtain ⟨other, found⟩ := Lru.put_evicts evicts
  funext p
  rw [strs_goto]
  cases p with
  | hand τ =>
    by_cases same : τ = ρ
    · subst same
      rw [Function.update_self, Equiv.swap_apply_left, Equiv.swap_apply_of_ne_of_ne (by simp)
        (by simpa using other)]
      simp [strs, found, hand]
    · have apart : Place.hand τ ≠ (Place.hand ρ : Place Ip) := by simpa using same
      rw [Function.update_of_ne apart, Equiv.swap_apply_of_ne_of_ne apart (by simp),
        Equiv.swap_apply_of_ne_of_ne apart (by simp)]
      rfl
  | entry c k =>
    rw [Function.update_of_ne (by simp), strs_put]
    by_cases mine : c = op.cache ∧ k = op.key
    · obtain ⟨rfl, rfl⟩ := mine
      have inner : Equiv.swap (Place.hand ρ) (.entry op.cache j) (.entry op.cache op.key) =
          .entry op.cache op.key :=
        Equiv.swap_apply_of_ne_of_ne (by simp) (by simpa using other.symm)
      rw [inner, Equiv.swap_apply_right]
      simp [strs, at_pc, hand]
    · rw [if_neg mine]
      by_cases gone : c = op.cache ∧ k = j
      · obtain ⟨rfl, rfl⟩ := gone
        rw [Equiv.swap_apply_right, Equiv.swap_apply_left]
        simp [evicts, strs, absent]
      · have inner : Equiv.swap (Place.hand ρ) (.entry op.cache j) (.entry c k) = .entry c k :=
          Equiv.swap_apply_of_ne_of_ne (by simp) (by simpa using gone)
        rw [if_neg (by simpa [evicts, eq_comm] using gone), inner,
          Equiv.swap_apply_of_ne_of_ne (by simp) (by simpa using mine)]

theorem strs_put_fits {s : State Ip} {ρ : Nat} {op : Op Ip} {got : Entry}
    (at_pc : s.pcs ρ = .rooting op got) (absent : (s.caches op.cache).find op.key = none)
    (fits : ((s.caches op.cache).put op.key got).1 = none) :
    strs ((s.setCache op.cache ((s.caches op.cache).put op.key got).2).goto ρ (.dropping op [])) =
      fun o => strs s (Equiv.swap (.hand ρ) (.entry op.cache op.key) o) := by
  funext p
  rw [strs_goto]
  cases p with
  | hand τ =>
    by_cases same : τ = ρ
    · subst same
      rw [Function.update_self, Equiv.swap_apply_left]
      simp [strs, absent, hand]
    · have apart : Place.hand τ ≠ (Place.hand ρ : Place Ip) := by simpa using same
      rw [Function.update_of_ne apart, Equiv.swap_apply_of_ne_of_ne apart (by simp)]
      rfl
  | entry c k =>
    rw [Function.update_of_ne (by simp), strs_put]
    by_cases mine : c = op.cache ∧ k = op.key
    · obtain ⟨rfl, rfl⟩ := mine
      rw [Equiv.swap_apply_right]
      simp [strs, at_pc, hand]
    · rw [if_neg mine, fits, Equiv.swap_apply_of_ne_of_ne (by simp) (by simpa using mine)]
      simp

theorem strs_fill {s : State Ip} {ρ : Nat} {op : Op Ip} {e : Entry} (e' : Entry) (pc : Pc Ip)
    (found : (s.caches op.cache).find op.key = some e) (same : hand pc = hand (s.pcs ρ)) :
    strs ((s.setCache op.cache ((s.caches op.cache).put op.key e').2).goto ρ pc) =
      Function.update (strs s) (.entry op.cache op.key) e' := by
  funext p
  rw [strs_goto, same]
  cases p with
  | hand τ =>
    have elsewhere : Place.hand τ ≠ (Place.entry op.cache op.key : Place Ip) := by simp
    rw [Function.update_of_ne elsewhere]
    by_cases mine : τ = ρ
    · subst mine
      rw [Function.update_self]
      rfl
    · have apart : Place.hand τ ≠ (Place.hand ρ : Place Ip) := by simpa using mine
      rw [Function.update_of_ne apart]
      rfl
  | entry c k =>
    rw [Function.update_of_ne (by simp), strs_put, Lru.put_present found]
    by_cases mine : c = op.cache ∧ k = op.key
    · obtain ⟨rfl, rfl⟩ := mine
      simp
    · rw [if_neg mine, Function.update_of_ne (by simpa using mine)]
      simp

theorem pinned_same {s s' : State Ip} {ρ : Nat} {pc : Pc Ip} (pins : Pinned (strs s) s.slab)
    (pcs : s'.pcs = s.pcs) (finds : ∀ c k, (s'.caches c).find k = (s.caches c).find k)
    (slab : s'.slab = s.slab ∨ s'.slab = turned s.slab) (same : hand pc = hand (s.pcs ρ)) :
    Pinned (strs (s'.goto ρ pc)) (s'.goto ρ pc).slab := by
  rw [strs_same pcs finds same]
  change Pinned (strs s) s'.slab
  rcases slab with slab | slab <;> rw [slab]
  · exact pins
  · exact pinned_turned pins

theorem move_pinned {ipString : Ip → Bytes} {known : Op Ip → Prop} {s s' : State Ip} {ρ : Nat}
    (pins : Pinned (strs s) s.slab) (inv : Sourced ipString known s)
    (move : Move ipString s ρ s') : Pinned (strs s') s'.slab := by
  have still : ∀ c k, (s.caches c).find k = (s.caches c).find k := fun _ _ => rfl
  cases move with
  | call op at_pc | miss op at_pc | evicted op got at_pc | lockMissed op at_pc free absent
  | finish op strings at_pc =>
    exact pinned_same pins rfl still (.inl rfl) (by simp [at_pc, hand])
  | hit op e at_pc found enough =>
    refine pinned_same pins rfl (touch_find s op) (.inl rfl) ?_
    rcases at_pc with at_pc | at_pc <;> simp [at_pc, hand]
  | halve op e at_pc found short | completed op e got at_pc found enough =>
    exact pinned_same pins rfl (touch_find s op) (.inl rfl) (by simp [at_pc, hand])
  | lockFound op e got at_pc free found short =>
    refine pinned_same pins rfl (touch_find s op) (.inl rfl) ?_
    rcases at_pc with ⟨at_pc, -⟩ | at_pc <;> simp [at_pc, hand]
  | root op got string i at_pc next empty =>
    have entered := pinned_enter (p := .hand ρ) pins string empty
    have mine : strs s (.hand ρ) = got := by simp [strs, at_pc, hand]
    rw [mine] at entered
    rw [strs_goto]
    exact entered
  | giveUp op got at_pc =>
    have turned_back := pinned_reverse (.hand ρ) (pinned_turned pins)
    have mine : strs s (.hand ρ) = got := by simp [strs, at_pc, hand]
    rw [mine] at turned_back
    rw [strs_goto]
    exact turned_back
  | put op got at_pc whole =>
    have mine := inv.pcs ρ
    rw [at_pc] at mine
    cases evicts : ((s.caches op.cache).put op.key got).1 with
    | none =>
      rw [Option.elim_none, strs_put_fits at_pc mine.2.1 evicts]
      exact pinned_swap pins _ _
    | some pair =>
      rw [Option.elim_some, strs_put_evicts at_pc mine.2.1 evicts]
      exact pinned_swap (pinned_swap pins _ _) _ _
  | fill op got e host i at_pc found next empty =>
    have entered := pinned_enter (p := .entry op.cache op.key) pins host empty
    have mine : strs s (.entry op.cache op.key) = e := by simp [strs, found]
    rw [mine] at entered
    have empty_hand : hand (Pc.done op (got ++ [host])) = hand (s.pcs ρ) := by simp [at_pc, hand]
    have after := strs_fill (e ++ [(⟨host, i⟩ : CachedStr)]) _ found empty_hand
    rw [← after] at entered
    exact entered
  | leave op got host at_pc next =>
    exact pinned_same pins rfl still (.inr rfl) (by simp [at_pc, hand])
  | drop op string left at_pc =>
    rw [strs_goto]
    exact pinned_drop pins (by simp [strs, at_pc, hand])
  | unlock op at_pc =>
    exact pinned_same pins rfl still (.inl rfl) (by simp [at_pc, hand])

end KinoEnvCache
