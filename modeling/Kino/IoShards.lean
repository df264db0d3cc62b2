import Kino.Transitions
import Kino.Ownership

/-!
The sharded I/O runtime (ext/kino/src/io_shards.rs): the accept thread takes a permit, accepts
a connection and hands it to the least loaded shard it has not found dead; the shards serve
what they are handed. The acceptor's accesses to the load counters are steps of their own;
the two drops at the end of a connection, of its permit and of its load guard, are one step.
-/
namespace KinoIoShards
open Transitions Ownership

/-- `alive` is the receiving half of the channel. -/
structure Shard where
  chan : List Nat
  serving : List Nat
  alive : Bool
  load : Nat
  deriving DecidableEq, Repr

/-- `since` are the shards not yet found dead when the connection was accepted, `reads` the
    loads that `least_loaded` has read. -/
inductive Acceptor where
  | waiting
  | permitted
  | detaching (c : Nat)
  | scanning (c : Nat) (since : Nat → Bool) (i : Nat) (reads : List (Nat × Nat))
  | chosen (c : Nat) (since : Nat → Bool) (k : Nat) (reads : List (Nat × Nat))
  | sending (c : Nat) (since : Nat → Bool) (k : Nat) (reads : List (Nat × Nat))
  | lowering (c : Nat) (since : Nat → Bool) (k : Nat)
  | ended

structure Handoff where
  conn : Nat
  shard : Nat
  live : Nat → Bool
  reads : List (Nat × Nat)

/-- Connections are numbered as they are accepted. The fields from `returned` on are history:
    the connections whose permit is back, those that could not be detached, the handoffs, the
    refused sends, and the connection that no shard was left for. -/
structure State where
  available : Nat
  acceptor : Acceptor
  live : Nat → Bool
  shards : Nat → Shard
  draining : Bool
  next : Nat
  returned : List Nat
  undetached : List Nat
  handed : List Handoff
  refusals : List (Nat × Nat)
  stranded : Option (Nat × (Nat → Bool))

inductive Label where
  | acquire
  | shutdown
  | accept
  | acceptError
  | detachError
  | advance
  | receive (i : Nat)
  | finish (i c : Nat)
  | die (i : Nat)
  deriving DecidableEq, Repr

def advance (n : Nat) (s : State) : Option State :=
  match s.acceptor with
  | .detaching c => some { s with acceptor := .scanning c s.live 0 [] }
  | .scanning c since i reads =>
    if i < n then
      if s.live i then
        some { s with acceptor := .scanning c since (i + 1) (reads ++ [(i, (s.shards i).load)]) }
      else some { s with acceptor := .scanning c since (i + 1) reads }
    else
      match reads.argmin Prod.snd with
      | some (k, _) => some { s with acceptor := .chosen c since k reads }
      | none =>
        some { s with
          acceptor := .ended
          draining := true
          available := s.available + 1
          returned := s.returned ++ [c]
          stranded := some (c, since) }
  | .chosen c since k reads =>
    let shard := s.shards k
    some { s with
      shards := Function.update s.shards k { shard with load := shard.load + 1 }
      acceptor := .sending c since k reads }
  | .sending c since k reads =>
    let shard := s.shards k
    if shard.alive then
      some { s with
        shards := Function.update s.shards k { shard with chan := shard.chan ++ [c] }
        acceptor := .waiting
        handed := s.handed ++ [⟨c, k, s.live, reads⟩] }
    else some { s with acceptor := .lowering c since k, refusals := s.refusals ++ [(c, k)] }
  | .lowering c since k =>
    let shard := s.shards k
    some { s with
      shards := Function.update s.shards k { shard with load := shard.load - 1 }
      acceptor := .scanning c since 0 []
      live := Function.update s.live k false }
  | _ => none

def step (n : Nat) (s : State) : Label → Option State
  | .acquire =>
    match s.acceptor, s.available with
    | .waiting, available + 1 => some { s with available := available, acceptor := .permitted }
    | _, _ => none
  | .shutdown =>
    match s.acceptor with
    | .waiting => some { s with acceptor := .ended }
    | .permitted => some { s with acceptor := .ended, available := s.available + 1 }
    | _ => none
  | .accept =>
    match s.acceptor with
    | .permitted => some { s with acceptor := .detaching s.next, next := s.next + 1 }
    | _ => none
  | .acceptError =>
    match s.acceptor with
    | .permitted => some { s with acceptor := .waiting, available := s.available + 1 }
    | _ => none
  | .detachError =>
    match s.acceptor with
    | .detaching c =>
      some { s with
        acceptor := .waiting
        available := s.available + 1
        returned := s.returned ++ [c]
        undetached := s.undetached ++ [c] }
    | _ => none
  | .advance => advance n s
  | .receive i =>
    let shard := s.shards i
    match shard.alive, shard.chan with
    | true, c :: rest =>
      some { s with
        shards := Function.update s.shards i
          { shard with chan := rest, serving := shard.serving ++ [c] } }
    | _, _ => none
  | .finish i c =>
    let shard := s.shards i
    if c ∈ shard.serving then
      some { s with
        shards := Function.update s.shards i
          { shard with serving := shard.serving.erase c, load := shard.load - 1 }
        available := s.available + 1
        returned := s.returned ++ [c] }
    else none
  | .die i =>
    let shard := s.shards i
    if shard.alive then
      some { s with
        shards := Function.update s.shards i { shard with alive := false, chan := [] }
        available := s.available + shard.chan.length
        returned := s.returned ++ shard.chan }
    else none

def initial (maxConnections : Nat) : State where
  available := maxConnections
  acceptor := .waiting
  live := fun _ => true
  shards := fun _ => ⟨[], [], true, 0⟩
  draining := false
  next := 0
  returned := []
  undetached := []
  handed := []
  refusals := []
  stranded := none

/-- `spawn` boots at least one shard. -/
def shardThreads (shardCount : Nat) : Nat := max shardCount 1

def system (maxConnections shardCount : Nat) : System State Label :=
  ⟨fun s => s = initial maxConnections, step (shardThreads shardCount)⟩

inductive Move (n : Nat) (s : State) : State → Prop where
  | acquire (at_pc : s.acceptor = .waiting) (room : 0 < s.available) :
      Move n s { s with available := s.available - 1, acceptor := .permitted }
  | stop (at_pc : s.acceptor = .waiting) : Move n s { s with acceptor := .ended }
  | stopPermitted (at_pc : s.acceptor = .permitted) :
      Move n s { s with acceptor := .ended, available := s.available + 1 }
  | accept (at_pc : s.acceptor = .permitted) :
      Move n s { s with acceptor := .detaching s.next, next := s.next + 1 }
  | acceptError (at_pc : s.acceptor = .permitted) :
      Move n s { s with acceptor := .waiting, available := s.available + 1 }
  | detachError (c : Nat) (at_pc : s.acceptor = .detaching c) :
      Move n s { s with
        acceptor := .waiting
        available := s.available + 1
        returned := s.returned ++ [c]
        undetached := s.undetached ++ [c] }
  | detach (c : Nat) (at_pc : s.acceptor = .detaching c) :
      Move n s { s with acceptor := .scanning c s.live 0 [] }
  | read (c : Nat) (since : Nat → Bool) (i : Nat) (reads : List (Nat × Nat))
      (at_pc : s.acceptor = .scanning c since i reads) (inside : i < n) (live : s.live i = true) :
      Move n s { s with
        acceptor := .scanning c since (i + 1) (reads ++ [(i, (s.shards i).load)]) }
  | skip (c : Nat) (since : Nat → Bool) (i : Nat) (reads : List (Nat × Nat))
      (at_pc : s.acceptor = .scanning c since i reads) (inside : i < n) (dead : s.live i = false) :
      Move n s { s with acceptor := .scanning c since (i + 1) reads }
  | choose (c : Nat) (since : Nat → Bool) (i : Nat) (reads : List (Nat × Nat)) (k v : Nat)
      (at_pc : s.acceptor = .scanning c since i reads) (past : n ≤ i)
      (least : reads.argmin Prod.snd = some (k, v)) :
      Move n s { s with acceptor := .chosen c since k reads }
  | strand (c : Nat) (since : Nat → Bool) (i : Nat)
      (at_pc : s.acceptor = .scanning c since i []) (past : n ≤ i) :
      Move n s { s with
        acceptor := .ended
        draining := true
        available := s.available + 1
        returned := s.returned ++ [c]
        stranded := some (c, since) }
  | raise (c : Nat) (since : Nat → Bool) (k : Nat) (reads : List (Nat × Nat))
      (at_pc : s.acceptor = .chosen c since k reads) :
      Move n s { s with
        shards := Function.update s.shards k { s.shards k with load := (s.shards k).load + 1 }
        acceptor := .sending c since k reads }
  | send (c : Nat) (since : Nat → Bool) (k : Nat) (reads : List (Nat × Nat))
      (at_pc : s.acceptor = .sending c since k reads) (alive : (s.shards k).alive = true) :
      Move n s { s with
        shards := Function.update s.shards k { s.shards k with chan := (s.shards k).chan ++ [c] }
        acceptor := .waiting
        handed := s.handed ++ [⟨c, k, s.live, reads⟩] }
  | refuse (c : Nat) (since : Nat → Bool) (k : Nat) (reads : List (Nat × Nat))
      (at_pc : s.acceptor = .sending c since k reads) (dead : (s.shards k).alive = false) :
      Move n s { s with acceptor := .lowering c since k, refusals := s.refusals ++ [(c, k)] }
  | lower (c : Nat) (since : Nat → Bool) (k : Nat) (at_pc : s.acceptor = .lowering c since k) :
      Move n s { s with
        shards := Function.update s.shards k { s.shards k with load := (s.shards k).load - 1 }
        acceptor := .scanning c since 0 []
        live := Function.update s.live k false }
  | receive (i c : Nat) (rest : List Nat) (alive : (s.shards i).alive = true)
      (front : (s.shards i).chan = c :: rest) :
      Move n s { s with
        shards := Function.update s.shards i
          { s.shards i with chan := rest, serving := (s.shards i).serving ++ [c] } }
  | finish (i c : Nat) (here : c ∈ (s.shards i).serving) :
      Move n s { s with
        shards := Function.update s.shards i { s.shards i with
          serving := (s.shards i).serving.erase c, load := (s.shards i).load - 1 }
        available := s.available + 1
        returned := s.returned ++ [c] }
  | die (i : Nat) (alive : (s.shards i).alive = true) :
      Move n s { s with
        shards := Function.update s.shards i { s.shards i with alive := false, chan := [] }
        available := s.available + (s.shards i).chan.length
        returned := s.returned ++ (s.shards i).chan }

theorem advance_move {n : Nat} {s s' : State} (moved : advance n s = some s') : Move n s s' := by
  unfold advance at moved
  cases at_pc : s.acceptor with
  | detaching c =>
    simp only [at_pc, Option.some.injEq] at moved
    subst moved
    exact .detach c at_pc
  | scanning c since i reads =>
    simp only [at_pc] at moved
    split at moved
    · next inside =>
      split at moved
      · next live =>
        cases moved
        exact .read c since i reads at_pc inside live
      · next dead =>
        cases moved
        exact .skip c since i reads at_pc inside (by simpa using dead)
    · next past =>
      split at moved
      · next k v least =>
        cases moved
        exact .choose c since i reads k v at_pc (by omega) least
      · next none_left =>
        cases moved
        have empty := List.argmin_eq_none.mp none_left
        subst empty
        exact .strand c since i at_pc (by omega)
  | chosen c since k reads =>
    simp only [at_pc, Option.some.injEq] at moved
    subst moved
    exact .raise c since k reads at_pc
  | sending c since k reads =>
    simp only [at_pc] at moved
    split at moved
    · next alive =>
      cases moved
      exact .send c since k reads at_pc alive
    · next dead =>
      cases moved
      exact .refuse c since k reads at_pc (by simpa using dead)
  | lowering c since k =>
    simp only [at_pc, Option.some.injEq] at moved
    subst moved
    exact .lower c since k at_pc
  | _ => simp [at_pc] at moved

theorem step_move {n : Nat} {s s' : State} {l : Label} (moved : step n s l = some s') :
    Move n s s' := by
  cases l with
  | acquire =>
    simp only [step] at moved
    split at moved
    · next available at_pc room =>
      cases moved
      have less : available = s.available - 1 := by omega
      rw [less]
      exact .acquire at_pc (by omega)
    · cases moved
  | shutdown =>
    simp only [step] at moved
    split at moved
    · next at_pc =>
      cases moved
      exact .stop at_pc
    · next at_pc =>
      cases moved
      exact .stopPermitted at_pc
    · cases moved
  | accept =>
    simp only [step] at moved
    split at moved
    · next at_pc =>
      cases moved
      exact .accept at_pc
    · cases moved
  | acceptError =>
    simp only [step] at moved
    split at moved
    · next at_pc =>
      cases moved
      exact .acceptError at_pc
    · cases moved
  | detachError =>
    simp only [step] at moved
    split at moved
    · next c at_pc =>
      cases moved
      exact .detachError c at_pc
    · cases moved
  | advance => exact advance_move moved
  | receive i =>
    simp only [step] at moved
    split at moved
    · next c rest alive front =>
      cases moved
      exact .receive i c rest alive front
    · cases moved
  | finish i c =>
    simp only [step] at moved
    split at moved
    · next here =>
      cases moved
      exact .finish i c here
    · cases moved
  | die i =>
    simp only [step] at moved
    split at moved
    · next alive =>
      cases moved
      exact .die i alive
    · cases moved

/-! Where the connections are. -/

inductive Place where
  | hand
  | chan (i : Nat)
  | serving (i : Nat)
  deriving DecidableEq, Repr

def Acceptor.inHand : Acceptor → Option Nat
  | .detaching c | .scanning c _ _ _ | .chosen c _ _ _ | .sending c _ _ _ | .lowering c _ _ => some c
  | .waiting | .permitted | .ended => none

def places (hand : Option Nat) (shards : Nat → Shard) : Place → List Nat
  | .hand => hand.toList
  | .chan i => (shards i).chan
  | .serving i => (shards i).serving

def contents (s : State) : Place → List Nat := places s.acceptor.inHand s.shards

structure Placed (s : State) : Prop where
  located : ∃ loc, Located (contents s) loc ∧ ∀ c, loc c = none ↔ s.next ≤ c ∨ c ∈ s.returned
  once : s.returned.Nodup
  accepted : ∀ c ∈ s.returned, c < s.next

theorem places_enter (shards : Nat → Shard) (c : Nat) :
    places (some c) shards =
      Function.update (places none shards) .hand (places none shards .hand ++ [c]) := by
  funext p
  cases p with
  | hand => simp [places]
  | chan i => simp [places]
  | serving i => simp [places]

theorem places_leave (shards : Nat → Shard) (c : Nat) :
    places none shards =
      Function.update (places (some c) shards) .hand ((places (some c) shards .hand).erase c) := by
  funext p
  cases p with
  | hand => simp [places]
  | chan i => simp [places]
  | serving i => simp [places]

theorem places_shard (hand : Option Nat) (shards : Nat → Shard) (i : Nat) (shard : Shard) :
    places hand (Function.update shards i shard) =
      Function.update (Function.update (places hand shards) (.chan i) shard.chan) (.serving i)
        shard.serving := by
  funext p
  cases p with
  | hand => simp [places]
  | chan j =>
    by_cases same : j = i
    · simp [places, same]
    · simp [places, same]
  | serving j =>
    by_cases same : j = i
    · simp [places, same]
    · simp [places, same]

theorem places_chan (hand : Option Nat) (shards : Nat → Shard) (i : Nat) {shard : Shard}
    (same : shard.serving = (shards i).serving) :
    places hand (Function.update shards i shard) =
      Function.update (places hand shards) (.chan i) shard.chan := by
  rw [places_shard, same]
  apply Function.update_eq_self_iff.mpr
  simp [places]

theorem places_serving (hand : Option Nat) (shards : Nat → Shard) (i : Nat) {shard : Shard}
    (same : shard.chan = (shards i).chan) :
    places hand (Function.update shards i shard) =
      Function.update (places hand shards) (.serving i) shard.serving := by
  rw [places_shard, same]
  congr 1
  exact Function.update_eq_self (Place.chan i) (places hand shards)

theorem places_load (hand : Option Nat) (shards : Nat → Shard) (i load : Nat) :
    places hand (Function.update shards i { shards i with load := load }) = places hand shards := by
  rw [places_chan hand shards i]
  · exact Function.update_eq_self (Place.chan i) (places hand shards)
  · rfl

theorem places_send (shards : Nat → Shard) (c k : Nat) :
    places none (Function.update shards k { shards k with chan := (shards k).chan ++ [c] }) =
      Function.update (Function.update (places (some c) shards) .hand []) (.chan k)
        (places (some c) shards (.chan k) ++ [c]) := by
  have left : places none shards = Function.update (places (some c) shards) .hand [] := by
    rw [places_leave shards c]
    simp [places]
  rw [places_chan none shards k, left]
  · rfl
  · rfl

theorem placed_same {s s' : State} (inv : Placed s) (same : contents s' = contents s)
    (next : s'.next = s.next) (returned : s'.returned = s.returned) : Placed s' := by
  obtain ⟨⟨loc, located, away⟩, once, accepted⟩ := inv
  constructor
  · refine ⟨loc, ?_, ?_⟩
    · rw [same]
      exact located
    · rw [next, returned]
      exact away
  · rw [returned]
    exact once
  · rw [next, returned]
    exact accepted

theorem placed_moves {s s' : State} {c : Nat} {p q : Place} {rest : List Nat} (inv : Placed s)
    (apart : p ≠ q) (front : contents s p = c :: rest)
    (moved : contents s' =
      Function.update (Function.update (contents s) p rest) q (contents s q ++ [c]))
    (next : s'.next = s.next) (returned : s'.returned = s.returned) : Placed s' := by
  obtain ⟨⟨loc, located, away⟩, once, accepted⟩ := inv
  have was : loc c = some p := located_mem located (by simp [front])
  constructor
  · refine ⟨Function.update loc c (some q), ?_, ?_⟩
    · rw [moved]
      exact located_move located apart front
    · intro d
      rw [next, returned, ← away d]
      by_cases same : d = c
      · simp [same, was]
      · simp [same]
  · rw [returned]
    exact once
  · rw [next, returned]
    exact accepted

theorem placed_ends {s s' : State} {c : Nat} {p : Place} (inv : Placed s) (here : c ∈ contents s p)
    (moved : contents s' = Function.update (contents s) p ((contents s p).erase c))
    (next : s'.next = s.next) (returned : s'.returned = s.returned ++ [c]) : Placed s' := by
  obtain ⟨⟨loc, located, away⟩, once, accepted⟩ := inv
  have was : loc c = some p := located_mem located here
  have within : ¬(s.next ≤ c ∨ c ∈ s.returned) := by
    rw [← away c, was]
    simp
  constructor
  · refine ⟨Function.update loc c none, ?_, ?_⟩
    · rw [moved]
      exact located_erase located here
    · intro d
      rw [next, returned]
      by_cases same : d = c
      · simp [same]
      · simp [same, away d]
  · rw [returned, List.nodup_append]
    refine ⟨once, by simp, ?_⟩
    intro a back b last
    simp only [List.mem_singleton] at last
    rintro rfl
    exact within (.inr (by rw [← last]; exact back))
  · intro d back
    rw [returned, List.mem_append, List.mem_singleton] at back
    rw [next]
    rcases back with before | rfl
    · exact accepted d before
    · omega

theorem placed_die {s : State} (inv : Placed s) (i : Nat) (available : Nat) :
    Placed { s with
      shards := Function.update s.shards i { s.shards i with alive := false, chan := [] }
      available := available
      returned := s.returned ++ (s.shards i).chan } := by
  obtain ⟨⟨loc, located, away⟩, once, accepted⟩ := inv
  have listed : ∀ c, c ∈ (s.shards i).chan → loc c = some (.chan i) := fun c here =>
    located_mem located (p := .chan i) here
  have within : ∀ c, c ∈ (s.shards i).chan → c < s.next ∧ c ∉ s.returned := by
    intro c here
    have not_away := (away c).not.mp (by rw [listed c here]; simp)
    rw [not_or] at not_away
    exact ⟨by omega, not_away.2⟩
  constructor
  · refine ⟨fun c => if c ∈ (s.shards i).chan then none else loc c, ?_, ?_⟩
    · have cleared := located_clear located (.chan i)
      rw [contents, places_chan s.acceptor.inHand s.shards i]
      · exact cleared
      · rfl
    · intro c
      change _ ↔ s.next ≤ c ∨ c ∈ s.returned ++ (s.shards i).chan
      rw [List.mem_append]
      by_cases here : c ∈ (s.shards i).chan
      · simp [here]
      · simp [here, away c]
  · change (s.returned ++ (s.shards i).chan).Nodup
    rw [List.nodup_append]
    refine ⟨once, ?_, ?_⟩
    · rw [List.nodup_iff_count_le_one]
      intro c
      have counted := located (.chan i) c
      change (s.shards i).chan.count c = _ at counted
      rw [counted]
      split
      · omega
      · omega
    · intro a back b here
      rintro rfl
      exact (within a here).2 back
  · intro c back
    change c ∈ s.returned ++ (s.shards i).chan at back
    rcases List.mem_append.mp back with before | here
    · exact accepted c before
    · exact (within c here).1

theorem move_placed {n : Nat} {s s' : State} (inv : Placed s) (moved : Move n s s') : Placed s' := by
  have hand : ∀ c, s.acceptor.inHand = some c → c ∈ contents s .hand := by
    intro c at_hand
    simp [contents, places, at_hand]
  cases moved with
  | acquire at_pc | stop at_pc | stopPermitted at_pc | acceptError at_pc | detach _ at_pc
  | read _ _ _ _ at_pc | skip _ _ _ _ at_pc | choose _ _ _ _ _ _ at_pc | refuse _ _ _ _ at_pc =>
    apply placed_same inv
    · simp [contents, at_pc, Acceptor.inHand]
    · rfl
    · rfl
  | accept at_pc =>
    obtain ⟨⟨loc, located, away⟩, once, accepted⟩ := inv
    have outside : loc s.next = none := (away s.next).mpr (.inl (le_refl _))
    constructor
    · refine ⟨Function.update loc s.next (some .hand), ?_, ?_⟩
      · change Located (places (some s.next) s.shards) _
        rw [places_enter]
        have entered := located_enter located (p := .hand) outside
        rw [contents, at_pc] at entered
        exact entered
      · intro c
        change _ ↔ s.next + 1 ≤ c ∨ c ∈ s.returned
        by_cases same : c = s.next
        · have fresh : s.next ∉ s.returned := by
            intro back
            have := accepted s.next back
            omega
          simp [same, fresh]
        · rw [Function.update_of_ne same, away c]
          constructor
          · rintro (later | back)
            · exact .inl (by omega)
            · exact .inr back
          · rintro (later | back)
            · exact .inl (by omega)
            · exact .inr back
    · exact once
    · intro c back
      have := accepted c back
      change c < s.next + 1
      omega
  | detachError c at_pc | strand c _ _ at_pc =>
    apply placed_ends inv (hand c (by simp [at_pc, Acceptor.inHand]))
    · have left := places_leave s.shards c
      simpa [contents, at_pc, Acceptor.inHand] using left
    · rfl
    · rfl
  | raise c since k reads at_pc =>
    apply placed_same inv
    · have same := places_load (some c) s.shards k ((s.shards k).load + 1)
      simpa [contents, at_pc, Acceptor.inHand] using same
    · rfl
    · rfl
  | lower c since k at_pc =>
    apply placed_same inv
    · have same := places_load (some c) s.shards k ((s.shards k).load - 1)
      simpa [contents, at_pc, Acceptor.inHand] using same
    · rfl
    · rfl
  | send c since k reads at_pc =>
    have front : contents s .hand = c :: [] := by simp [contents, places, at_pc, Acceptor.inHand]
    apply placed_moves inv (show Place.hand ≠ .chan k by simp) front
    · have sent := places_send s.shards c k
      simpa [contents, at_pc, Acceptor.inHand] using sent
    · rfl
    · rfl
  | receive i c rest alive front =>
    apply placed_moves inv (show Place.chan i ≠ .serving i by simp) front
    · exact places_shard s.acceptor.inHand s.shards i _
    · rfl
    · rfl
  | finish i c here =>
    apply placed_ends inv (show c ∈ contents s (.serving i) from here)
    · apply places_serving
      rfl
    · rfl
    · rfl
  | die i alive => exact placed_die inv i _

/-! The permits and the load counters. -/

def permitHeld : Acceptor → Nat
  | .permitted => 1
  | _ => 0

def Permits (maxConnections : Nat) (s : State) : Prop :=
  s.available + s.next + permitHeld s.acceptor = maxConnections + s.returned.length

theorem move_permits {m n : Nat} {s s' : State} (inv : Permits m s) (moved : Move n s s') :
    Permits m s' := by
  unfold Permits at inv ⊢
  cases moved with
  | acquire at_pc room =>
    simp only [at_pc, permitHeld] at inv ⊢
    omega
  | stop at_pc | stopPermitted at_pc | accept at_pc | acceptError at_pc | detach _ at_pc
  | read _ _ _ _ at_pc | skip _ _ _ _ at_pc | choose _ _ _ _ _ _ at_pc | raise _ _ _ _ at_pc
  | send _ _ _ _ at_pc | refuse _ _ _ _ at_pc | lower _ _ _ at_pc =>
    simp only [at_pc, permitHeld] at inv ⊢
    omega
  | detachError c at_pc | strand c _ _ at_pc =>
    simp only [at_pc, permitHeld, List.length_append, List.length_singleton] at inv ⊢
    omega
  | receive i c rest alive front => exact inv
  | finish i c here =>
    simp only [List.length_append, List.length_singleton] at inv ⊢
    omega
  | die i alive =>
    simp only [List.length_append] at inv ⊢
    omega

def handing : Acceptor → Nat → Nat
  | .sending _ _ k _, i => if i = k then 1 else 0
  | .lowering _ _ k, i => if i = k then 1 else 0
  | _, _ => 0

def handedOver (s : State) (i : Nat) : Nat :=
  (s.shards i).chan.length + (s.shards i).serving.length + handing s.acceptor i

structure Loads (s : State) : Prop where
  covered : ∀ i, handedOver s i ≤ (s.shards i).load
  exactly : ∀ i, (s.shards i).alive = true → (s.shards i).load = handedOver s i
  refused : ∀ c since k, s.acceptor = .lowering c since k → (s.shards k).alive = false

theorem alive_update {shards : Nat → Shard} {k i : Nat} {shard : Shard}
    (keep : shard.alive = true → (shards k).alive = true)
    (alive : (Function.update shards k shard i).alive = true) : (shards i).alive = true := by
  by_cases same : i = k
  · rw [same, Function.update_self] at alive
    rw [same]
    exact keep alive
  · rw [Function.update_of_ne same] at alive
    exact alive

theorem dead_update {shards : Nat → Shard} {k i : Nat} {shard : Shard}
    (keep : shard.alive = true → (shards k).alive = true) (dead : (shards i).alive = false) :
    (Function.update shards k shard i).alive = false := by
  rw [Bool.eq_false_iff] at dead ⊢
  exact fun alive => dead (alive_update keep alive)

theorem loads_same {s s' : State} (inv : Loads s) (shards : s'.shards = s.shards)
    (raised : handing s'.acceptor = handing s.acceptor)
    (refused : ∀ c since k, s'.acceptor = .lowering c since k → (s.shards k).alive = false) :
    Loads s' := by
  have same : ∀ i, handedOver s' i = handedOver s i := by
    intro i
    unfold handedOver
    rw [shards, raised]
  constructor
  · intro i
    rw [same, shards]
    exact inv.covered i
  · intro i alive
    rw [shards] at alive
    rw [same, shards]
    exact inv.exactly i alive
  · rw [shards]
    exact refused

theorem loads_shard {s s' : State} {k : Nat} {shard : Shard} (inv : Loads s)
    (shards : s'.shards = Function.update s.shards k shard)
    (raised : ∀ i, i ≠ k → handing s'.acceptor i = handing s.acceptor i)
    (covered : shard.chan.length + shard.serving.length + handing s'.acceptor k ≤ shard.load)
    (exactly : shard.alive = true →
      shard.load = shard.chan.length + shard.serving.length + handing s'.acceptor k)
    (refused : ∀ c since j, s'.acceptor = .lowering c since j → (s'.shards j).alive = false) :
    Loads s' := by
  constructor
  · intro i
    by_cases same : i = k
    · simp only [handedOver, shards, same, Function.update_self]
      exact covered
    · simp only [handedOver, shards, raised i same, Function.update_of_ne same]
      exact inv.covered i
  · intro i alive
    by_cases same : i = k
    · simp only [handedOver, shards, same, Function.update_self] at alive ⊢
      exact exactly alive
    · simp only [handedOver, shards, raised i same, Function.update_of_ne same] at alive ⊢
      exact inv.exactly i alive
  · exact refused

theorem move_loads {n : Nat} {s s' : State} (inv : Loads s) (moved : Move n s s') : Loads s' := by
  cases moved with
  | acquire at_pc | stop at_pc | stopPermitted at_pc | accept at_pc | acceptError at_pc
  | detachError _ at_pc | detach _ at_pc | read _ _ _ _ at_pc | skip _ _ _ _ at_pc
  | choose _ _ _ _ _ _ at_pc | strand _ _ _ at_pc =>
    apply loads_same inv
    · rfl
    · funext i
      simp [at_pc, handing]
    · intro c since k lowering
      cases lowering
  | raise c since k reads at_pc =>
    have covered := inv.covered k
    have exactly := inv.exactly k
    simp only [handedOver, at_pc, handing, Nat.add_zero] at covered exactly
    apply loads_shard inv rfl
    · intro i other
      simp [at_pc, handing, other]
    · simp only [handing, if_true]
      omega
    · intro alive
      have := exactly alive
      simp only [handing, if_true]
      omega
    · intro c' since' j lowering
      cases lowering
  | send c since k reads at_pc alive =>
    have covered := inv.covered k
    have exactly := inv.exactly k
    simp only [handedOver, at_pc, handing, if_true] at covered exactly
    apply loads_shard inv rfl
    · intro i other
      simp [at_pc, handing, other]
    · simp only [handing, List.length_append, List.length_singleton]
      omega
    · intro _
      have := exactly alive
      simp only [handing, List.length_append, List.length_singleton]
      omega
    · intro c' since' j lowering
      cases lowering
  | refuse c since k reads at_pc dead =>
    apply loads_same inv
    · rfl
    · funext i
      simp [at_pc, handing]
    · intro c' since' j lowering
      cases lowering
      exact dead
  | lower c since k at_pc =>
    have covered := inv.covered k
    have dead := inv.refused c since k at_pc
    simp only [handedOver, at_pc, handing, if_true] at covered
    apply loads_shard inv rfl
    · intro i other
      simp [at_pc, handing, other]
    · simp only [handing]
      omega
    · intro alive
      rw [dead] at alive
      cases alive
    · intro c' since' j lowering
      cases lowering
  | receive i c rest alive front =>
    have covered := inv.covered i
    have exactly := inv.exactly i
    simp only [handedOver, front, List.length_cons] at covered exactly
    apply loads_shard inv rfl
    · intro j _
      rfl
    · simp only [List.length_append, List.length_singleton]
      omega
    · intro _
      have := exactly alive
      simp only [List.length_append, List.length_singleton]
      omega
    · intro c' since' j lowering
      exact dead_update (fun _ => alive) (inv.refused c' since' j lowering)
  | finish i c here =>
    have covered := inv.covered i
    have exactly := inv.exactly i
    have pos := List.length_pos_of_mem here
    have less := List.length_erase_of_mem here
    simp only [handedOver] at covered exactly
    apply loads_shard inv rfl
    · intro j _
      rfl
    · simp only [less]
      omega
    · intro alive
      have := exactly alive
      simp only [less]
      omega
    · intro c' since' j lowering
      exact dead_update id (inv.refused c' since' j lowering)
  | die i alive =>
    have covered := inv.covered i
    simp only [handedOver] at covered
    apply loads_shard inv rfl
    · intro j _
      rfl
    · simp only [List.length_nil]
      omega
    · intro dead
      cases dead
    · intro c' since' j lowering
      exact dead_update (fun _ => alive) (inv.refused c' since' j lowering)

/-! What becomes of an accepted connection. -/

def settled (s : State) : List Nat :=
  s.handed.map Handoff.conn ++ (s.undetached ++ (s.stranded.toList.map Prod.fst ++ s.acceptor.inHand.toList))

/-- The choice of `least_loaded`: among the live shards' loads as read, the first of the least. -/
def Picked (n : Nat) (live : Nat → Bool) (k : Nat) (reads : List (Nat × Nat)) : Prop :=
  reads.map Prod.fst = (List.range n).filter live ∧ ∃ v, (k, v) ∈ reads ∧ ∀ r ∈ reads, v ≤ r.2

structure Fates (s : State) : Prop where
  settled : (settled s).Perm (List.range s.next)
  housed : ∀ i c, c ∈ (s.shards i).chan ∨ c ∈ (s.shards i).serving →
    ∃ h ∈ s.handed, h.conn = c ∧ h.shard = i
  finished : s.stranded.isSome = true → s.acceptor = .ended

theorem fates_same {s s' : State} (inv : Fates s) (hand : s'.acceptor.inHand = s.acceptor.inHand)
    (going : s.acceptor ≠ .ended) (next : s'.next = s.next) (handed : s'.handed = s.handed)
    (undetached : s'.undetached = s.undetached) (stranded : s'.stranded = s.stranded)
    (shards : ∀ i, (s'.shards i).chan = (s.shards i).chan ∧
      (s'.shards i).serving = (s.shards i).serving) : Fates s' := by
  constructor
  · have same : KinoIoShards.settled s' = KinoIoShards.settled s := by
      simp only [KinoIoShards.settled, hand, handed, undetached, stranded]
    rw [same, next]
    exact inv.settled
  · intro i c here
    rw [(shards i).1, (shards i).2] at here
    rw [handed]
    exact inv.housed i c here
  · intro some_stranded
    rw [stranded] at some_stranded
    exact absurd (inv.finished some_stranded) going

theorem fates_shards {s : State} (inv : Fates s) {shards : Nat → Shard} {available : Nat}
    {returned : List Nat}
    (housed : ∀ i c, c ∈ (shards i).chan ∨ c ∈ (shards i).serving →
      c ∈ (s.shards i).chan ∨ c ∈ (s.shards i).serving) :
    Fates { s with shards := shards, available := available, returned := returned } := by
  constructor
  · exact inv.settled
  · intro i c here
    exact inv.housed i c (housed i c here)
  · exact inv.finished

theorem move_fates {n : Nat} {s s' : State} (inv : Fates s) (moved : Move n s s') : Fates s' := by
  have not_over : s.acceptor ≠ .ended → s.stranded = none := by
    intro going
    cases stranded : s.stranded with
    | none => rfl
    | some last => exact absurd (inv.finished (by simp [stranded])) going
  have perm := inv.settled
  unfold settled at perm
  cases moved with
  | acquire at_pc | stop at_pc | stopPermitted at_pc | acceptError at_pc | detach _ at_pc
  | read _ _ _ _ at_pc | skip _ _ _ _ at_pc | choose _ _ _ _ _ _ at_pc | refuse _ _ _ _ at_pc =>
    apply fates_same inv
    · simp [at_pc, Acceptor.inHand]
    · simp [at_pc]
    · rfl
    · rfl
    · rfl
    · rfl
    · intro i
      exact ⟨rfl, rfl⟩
  | raise c since k reads at_pc | lower c since k at_pc =>
    apply fates_same inv
    · simp [at_pc, Acceptor.inHand]
    · simp [at_pc]
    · rfl
    · rfl
    · rfl
    · rfl
    · intro i
      by_cases same : i = k
      · simp [same]
      · simp [same]
  | accept at_pc =>
    simp only [at_pc, Acceptor.inHand, Option.toList_none, List.append_nil] at perm
    constructor
    · simp only [settled, Acceptor.inHand, Option.toList_some, List.range_succ, ← List.append_assoc]
      simp only [← List.append_assoc] at perm
      exact perm.append_right _
    · exact inv.housed
    · intro some_stranded
      rw [not_over (by simp [at_pc])] at some_stranded
      cases some_stranded
  | detachError c at_pc =>
    have none_stranded := not_over (by simp [at_pc])
    simp only [at_pc, Acceptor.inHand, Option.toList_some, none_stranded, Option.toList_none,
      List.map_nil, List.nil_append] at perm
    constructor
    · simpa [settled, Acceptor.inHand, none_stranded] using perm
    · exact inv.housed
    · intro some_stranded
      rw [none_stranded] at some_stranded
      cases some_stranded
  | strand c since i at_pc =>
    have none_stranded := not_over (by simp [at_pc])
    simp only [at_pc, Acceptor.inHand, Option.toList_some, none_stranded, Option.toList_none,
      List.map_nil, List.nil_append] at perm
    constructor
    · simpa [settled, Acceptor.inHand] using perm
    · exact inv.housed
    · intro _
      rfl
  | send c since k reads at_pc alive =>
    have none_stranded := not_over (by simp [at_pc])
    simp only [at_pc, Acceptor.inHand, Option.toList_some, none_stranded, Option.toList_none,
      List.map_nil, List.nil_append] at perm
    constructor
    · simp only [settled, Acceptor.inHand, none_stranded, Option.toList_none, List.map_nil,
        List.append_nil, List.map_append, List.map_cons, List.append_assoc]
      exact (List.Perm.append_left _ List.perm_append_comm).trans perm
    · intro i d here
      by_cases same : i = k
      · subst i
        simp only [Function.update_self, List.mem_append, List.mem_singleton] at here
        rcases here with (before | rfl) | serving
        · obtain ⟨h, listed, same⟩ := inv.housed k d (.inl before)
          exact ⟨h, by simp [listed], same⟩
        · exact ⟨⟨d, k, s.live, reads⟩, by simp, rfl, rfl⟩
        · obtain ⟨h, listed, same⟩ := inv.housed k d (.inr serving)
          exact ⟨h, by simp [listed], same⟩
      · simp only [Function.update_of_ne same] at here
        obtain ⟨h, listed, same⟩ := inv.housed i d here
        exact ⟨h, by simp [listed], same⟩
    · intro some_stranded
      rw [none_stranded] at some_stranded
      cases some_stranded
  | receive i c rest alive front =>
    apply fates_shards inv
    intro j d here
    by_cases same : j = i
    · simp only [same, Function.update_self, List.mem_append, List.mem_singleton] at here ⊢
      rw [front]
      rcases here with later | before | rfl
      · exact .inl (by simp [later])
      · exact .inr before
      · exact .inl (by simp)
    · simpa only [Function.update_of_ne same] using here
  | finish i c served =>
    apply fates_shards inv
    intro j d here
    by_cases same : j = i
    · simp only [same, Function.update_self] at here ⊢
      exact here.imp_right List.mem_of_mem_erase
    · simpa only [Function.update_of_ne same] using here
  | die i alive =>
    apply fates_shards inv
    intro j d here
    by_cases same : j = i
    · simp only [same, Function.update_self, List.not_mem_nil, false_or] at here ⊢
      exact .inr here
    · simpa only [Function.update_of_ne same] using here

structure Choices (n : Nat) (s : State) : Prop where
  scanned : ∀ c since i reads, s.acceptor = .scanning c since i reads →
    i ≤ n ∧ reads.map Prod.fst = (List.range i).filter s.live
  picked : ∀ c since k reads,
    s.acceptor = .chosen c since k reads ∨ s.acceptor = .sending c since k reads →
    Picked n s.live k reads
  lowered : ∀ c since k, s.acceptor = .lowering c since k → k < n ∧ s.live k = true
  chosen : ∀ h ∈ s.handed, Picked n h.live h.shard h.reads

theorem choices_idle {n : Nat} {s s' : State} (inv : Choices n s) (handed : s'.handed = s.handed)
    (scanned : ∀ c since i reads, s'.acceptor = .scanning c since i reads →
      i ≤ n ∧ reads.map Prod.fst = (List.range i).filter s'.live)
    (picked : ∀ c since k reads,
      s'.acceptor = .chosen c since k reads ∨ s'.acceptor = .sending c since k reads →
      Picked n s'.live k reads)
    (lowered : ∀ c since k, s'.acceptor = .lowering c since k → k < n ∧ s'.live k = true) :
    Choices n s' := by
  constructor
  · exact scanned
  · exact picked
  · exact lowered
  · rw [handed]
    exact inv.chosen

theorem Picked.live {n k : Nat} {live : Nat → Bool} {reads : List (Nat × Nat)}
    (picked : Picked n live k reads) : k < n ∧ live k = true := by
  obtain ⟨listed, v, here, _⟩ := picked
  have member : k ∈ (List.range n).filter live := by
    rw [← listed]
    exact List.mem_map_of_mem here
  simpa using member

theorem range_filter_succ (live : Nat → Bool) (i : Nat) :
    (List.range (i + 1)).filter live =
      (List.range i).filter live ++ if live i = true then [i] else [] := by
  rw [List.range_succ, List.filter_append, List.filter_singleton]
  cases live i
  · rfl
  · rfl

theorem move_choices {n : Nat} {s s' : State} (inv : Choices n s) (moved : Move n s s') :
    Choices n s' := by
  cases moved with
  | acquire | stop | stopPermitted | accept | acceptError | detachError | strand =>
    apply choices_idle inv
    · rfl
    · intro _ _ _ _ other
      cases other
    · rintro _ _ _ _ (other | other)
      · cases other
      · cases other
    · intro _ _ _ other
      cases other
  | refuse c since k reads at_pc =>
    have picked := inv.picked c since k reads (.inr at_pc)
    apply choices_idle inv
    · rfl
    · intro _ _ _ _ other
      cases other
    · rintro _ _ _ _ (other | other)
      · cases other
      · cases other
    · intro _ _ _ same
      cases same
      exact picked.live
  | detach c at_pc | lower c since k at_pc =>
    apply choices_idle inv
    · rfl
    · intro _ _ _ _ same
      cases same
      exact ⟨Nat.zero_le n, rfl⟩
    · rintro _ _ _ _ (other | other)
      · cases other
      · cases other
    · intro _ _ _ other
      cases other
  | read c since i reads at_pc inside live =>
    obtain ⟨_, listed⟩ := inv.scanned c since i reads at_pc
    apply choices_idle inv
    · rfl
    · intro _ _ _ _ same
      cases same
      constructor
      · omega
      · rw [List.map_append, listed, range_filter_succ, if_pos live]
        rfl
    · rintro _ _ _ _ (other | other)
      · cases other
      · cases other
    · intro _ _ _ other
      cases other
  | skip c since i reads at_pc inside dead =>
    obtain ⟨_, listed⟩ := inv.scanned c since i reads at_pc
    apply choices_idle inv
    · rfl
    · intro _ _ _ _ same
      cases same
      constructor
      · omega
      · rw [listed, range_filter_succ, dead]
        simp
    · rintro _ _ _ _ (other | other)
      · cases other
      · cases other
    · intro _ _ _ other
      cases other
  | choose c since i reads k v at_pc past least =>
    obtain ⟨most, listed⟩ := inv.scanned c since i reads at_pc
    have whole : i = n := by omega
    subst i
    apply choices_idle inv
    · rfl
    · intro _ _ _ _ other
      cases other
    · rintro _ _ _ _ (same | other)
      · cases same
        refine ⟨listed, v, List.argmin_mem least, ?_⟩
        intro r here
        exact List.le_of_mem_argmin here least
      · cases other
    · intro _ _ _ other
      cases other
  | raise c since k reads at_pc =>
    have picked := inv.picked c since k reads (.inl at_pc)
    apply choices_idle inv
    · rfl
    · intro _ _ _ _ other
      cases other
    · rintro _ _ _ _ (other | same)
      · cases other
      · cases same
        exact picked
    · intro _ _ _ other
      cases other
  | send c since k reads at_pc alive =>
    have picked := inv.picked c since k reads (.inr at_pc)
    constructor
    · intro _ _ _ _ other
      cases other
    · rintro _ _ _ _ (other | other)
      · cases other
      · cases other
    · intro _ _ _ other
      cases other
    · intro h here
      rcases List.mem_append.mp here with before | last
      · exact inv.chosen h before
      · rw [List.mem_singleton] at last
        rw [last]
        exact picked
  | receive | finish | die => exact ⟨inv.scanned, inv.picked, inv.lowered, inv.chosen⟩

def Acceptor.carried : Acceptor → Option (Nat × (Nat → Bool))
  | .scanning c since _ _ | .chosen c since _ _ | .sending c since _ _ | .lowering c since _ =>
    some (c, since)
  | _ => none

structure Refusals (n : Nat) (s : State) : Prop where
  dead : ∀ i, s.live i = false → (s.shards i).alive = false
  refused : ∀ r ∈ s.refusals, (s.shards r.2).alive = false
  lowering : ∀ c since k, s.acceptor = .lowering c since k → (c, k) ∈ s.refusals
  since : ∀ c since, s.acceptor.carried = some (c, since) →
    ∀ i, since i = true → s.live i = true ∨ (c, i) ∈ s.refusals
  stranded : ∀ c since, s.stranded = some (c, since) → s.draining = true ∧
    ∀ i, i < n → s.live i = false ∧ (since i = true → (c, i) ∈ s.refusals)
  draining : s.draining = true → s.stranded.isSome = true

theorem refusals_same {n : Nat} {s s' : State} (inv : Refusals n s) (live : s'.live = s.live)
    (shards : ∀ i, (s'.shards i).alive = true → (s.shards i).alive = true)
    (refusals : s'.refusals = s.refusals) (stranded : s'.stranded = s.stranded)
    (draining : s'.draining = s.draining)
    (lowering : ∀ c since k, s'.acceptor = .lowering c since k → (c, k) ∈ s.refusals)
    (since : ∀ c since, s'.acceptor.carried = some (c, since) →
      ∀ i, since i = true → s.live i = true ∨ (c, i) ∈ s.refusals) : Refusals n s' := by
  have stays : ∀ i, (s.shards i).alive = false → (s'.shards i).alive = false := by
    intro i dead
    rw [Bool.eq_false_iff] at dead ⊢
    exact fun alive => dead (shards i alive)
  constructor
  · intro i found
    rw [live] at found
    exact stays i (inv.dead i found)
  · intro r here
    rw [refusals] at here
    exact stays r.2 (inv.refused r here)
  · rw [refusals]
    exact lowering
  · rw [live, refusals]
    exact since
  · rw [live, refusals, stranded, draining]
    exact inv.stranded
  · rw [stranded, draining]
    exact inv.draining

theorem move_refusals {n : Nat} {s s' : State} (inv : Refusals n s) (fates : Fates s)
    (choices : Choices n s) (moved : Move n s s') : Refusals n s' := by
  have not_over : s.acceptor ≠ .ended → s.stranded = none := by
    intro going
    cases stranded : s.stranded with
    | none => rfl
    | some last => exact absurd (fates.finished (by simp [stranded])) going
  cases moved with
  | acquire at_pc | stop at_pc | stopPermitted at_pc | accept at_pc | acceptError at_pc
  | detachError _ at_pc =>
    apply refusals_same inv
    · rfl
    · exact fun _ alive => alive
    · rfl
    · rfl
    · rfl
    · intro _ _ _ other
      cases other
    · intro _ _ other
      cases other
  | detach c at_pc =>
    apply refusals_same inv
    · rfl
    · exact fun _ alive => alive
    · rfl
    · rfl
    · rfl
    · intro _ _ _ other
      cases other
    · intro _ _ same i live
      cases same
      exact .inl live
  | read c since _ _ at_pc | skip c since _ _ at_pc | choose c since _ _ _ _ at_pc =>
    apply refusals_same inv
    · rfl
    · exact fun _ alive => alive
    · rfl
    · rfl
    · rfl
    · intro _ _ _ other
      cases other
    · intro _ _ same
      cases same
      exact inv.since c since (by simp [at_pc, Acceptor.carried])
  | strand c since i at_pc past =>
    obtain ⟨_, listed⟩ := choices.scanned c since i [] at_pc
    have all_dead : ∀ j, j < n → s.live j = false := by
      intro j inside
      have absent : j ∉ (List.range i).filter s.live := by simp [← listed]
      rw [Bool.eq_false_iff]
      intro live
      exact absent (List.mem_filter.mpr ⟨List.mem_range.mpr (by omega), live⟩)
    constructor
    · exact inv.dead
    · exact inv.refused
    · intro _ _ _ other
      cases other
    · intro _ _ other
      cases other
    · intro _ _ same
      cases same
      refine ⟨rfl, ?_⟩
      intro j inside
      refine ⟨all_dead j inside, ?_⟩
      intro live
      rcases inv.since c since (by simp [at_pc, Acceptor.carried]) j live with still | refused
      · rw [all_dead j inside] at still
        cases still
      · exact refused
    · intro _
      rfl
  | raise c since k reads at_pc =>
    apply refusals_same inv
    · rfl
    · exact fun _ => alive_update id
    · rfl
    · rfl
    · rfl
    · intro _ _ _ other
      cases other
    · intro _ _ same
      cases same
      exact inv.since c since (by simp [at_pc, Acceptor.carried])
  | send c since k reads at_pc alive =>
    apply refusals_same inv
    · rfl
    · exact fun _ => alive_update id
    · rfl
    · rfl
    · rfl
    · intro _ _ _ other
      cases other
    · intro _ _ other
      cases other
  | refuse c since k reads at_pc dead =>
    have none_stranded := not_over (by simp [at_pc])
    constructor
    · exact inv.dead
    · intro r here
      rcases List.mem_append.mp here with before | last
      · exact inv.refused r before
      · rw [List.mem_singleton] at last
        rw [last]
        exact dead
    · intro _ _ _ same
      cases same
      simp
    · intro _ _ same i live
      cases same
      rcases inv.since c since (by simp [at_pc, Acceptor.carried]) i live with still | refused
      · exact .inl still
      · exact .inr (by simp [refused])
    · intro _ _ other
      change s.stranded = _ at other
      rw [none_stranded] at other
      cases other
    · exact inv.draining
  | lower c since k at_pc =>
    have none_stranded := not_over (by simp [at_pc])
    have listed := inv.lowering c since k at_pc
    have alive : ∀ i, (Function.update s.shards k
        { s.shards k with load := (s.shards k).load - 1 } i).alive = (s.shards i).alive := by
      intro i
      by_cases same : i = k
      · simp [same]
      · simp [same]
    constructor
    · intro i found
      change Function.update s.live k false i = false at found
      change (Function.update s.shards k _ i).alive = false
      rw [alive]
      by_cases same : i = k
      · rw [same]
        exact inv.refused (c, k) listed
      · rw [Function.update_of_ne same] at found
        exact inv.dead i found
    · intro r here
      change (Function.update s.shards k _ r.2).alive = false
      rw [alive]
      exact inv.refused r here
    · intro _ _ _ other
      cases other
    · intro _ _ same i live
      cases same
      change Function.update s.live k false i = true ∨ _
      by_cases here : i = k
      · rw [here]
        exact .inr listed
      · rw [Function.update_of_ne here]
        exact inv.since c since (by simp [at_pc, Acceptor.carried]) i live
    · intro _ _ other
      change s.stranded = _ at other
      rw [none_stranded] at other
      cases other
    · exact inv.draining
  | receive i c rest alive front =>
    apply refusals_same inv
    · rfl
    · exact fun _ => alive_update id
    · rfl
    · rfl
    · rfl
    · exact inv.lowering
    · exact inv.since
  | finish i c here =>
    apply refusals_same inv
    · rfl
    · exact fun _ => alive_update id
    · rfl
    · rfl
    · rfl
    · exact inv.lowering
    · exact inv.since
  | die i alive =>
    apply refusals_same inv
    · rfl
    · exact fun _ => alive_update fun _ => alive
    · rfl
    · rfl
    · rfl
    · exact inv.lowering
    · exact inv.since

structure Invariant (maxConnections n : Nat) (s : State) : Prop where
  placed : Placed s
  permits : Permits maxConnections s
  loads : Loads s
  fates : Fates s
  choices : Choices n s
  refusals : Refusals n s

theorem initial_inv (maxConnections n : Nat) :
    Invariant maxConnections n (initial maxConnections) := by
  constructor
  · constructor
    · refine ⟨fun _ => none, ?_, ?_⟩
      · intro p c
        cases p with
        | hand => simp [contents, places, initial, Acceptor.inHand]
        | chan i => simp [contents, places, initial]
        | serving i => simp [contents, places, initial]
      · simp [initial]
    · simp [initial]
    · simp [initial]
  · simp [Permits, initial, permitHeld]
  · constructor
    · simp [handedOver, handing, initial]
    · simp [handedOver, handing, initial]
    · simp [initial]
  · constructor
    · simp [settled, initial, Acceptor.inHand]
    · simp [initial]
    · simp [initial]
  · constructor
    · simp [initial]
    · simp [initial]
    · simp [initial]
    · simp [initial]
  · constructor
    · simp [initial]
    · simp [initial]
    · simp [initial]
    · simp [initial, Acceptor.carried]
    · simp [initial]
    · simp [initial]

theorem move_inv {m n : Nat} {s s' : State} (inv : Invariant m n s) (moved : Move n s s') :
    Invariant m n s' := by
  constructor
  · exact move_placed inv.placed moved
  · exact move_permits inv.permits moved
  · exact move_loads inv.loads moved
  · exact move_fates inv.fates moved
  · exact move_choices inv.choices moved
  · exact move_refusals inv.refusals inv.fates inv.choices moved

theorem reachable_inv {m shardCount : Nat} {s : State}
    (reached : Reachable (system m shardCount) s) : Invariant m (shardThreads shardCount) s := by
  apply reachable_invariant (Invariant m (shardThreads shardCount)) ?_ ?_ reached
  · intro s start
    cases start
    exact initial_inv m (shardThreads shardCount)
  · intro s s' l inv moved
    exact move_inv inv (step_move moved)

/-! How long the acceptor holds a connection, and whom it picks when nobody disturbs it. -/

def remaining (n : Nat) (s : State) : Nat :=
  let rounds := ((List.range n).filter s.live).length * (n + 5)
  match s.acceptor with
  | .detaching _ => rounds + n + 5
  | .scanning _ _ i _ => rounds + (n - i) + 4
  | .chosen _ _ _ _ => rounds + 3
  | .sending _ _ _ _ => rounds + 2
  | .lowering _ _ _ => rounds + 1
  | .waiting | .permitted | .ended => 0

theorem filter_update_length {n k : Nat} {live : Nat → Bool} (inside : k < n)
    (still : live k = true) :
    ((List.range n).filter (Function.update live k false)).length <
      ((List.range n).filter live).length := by
  have split : (List.range n).filter (Function.update live k false) =
      ((List.range n).filter live).filter (fun i => decide (i ≠ k)) := by
    rw [List.filter_filter]
    congr 1
    funext i
    by_cases same : i = k
    · simp [same]
    · simp [same]
  rw [split, List.length_filter_lt_length_iff_exists]
  exact ⟨k, by simp [inside, still], by simp⟩

theorem advance_enabled {n : Nat} {s : State} {c : Nat} (holds : s.acceptor.inHand = some c) :
    ∃ s', advance n s = some s' := by
  unfold advance
  cases at_pc : s.acceptor with
  | waiting | permitted | ended => simp [at_pc, Acceptor.inHand] at holds
  | detaching d => exact ⟨_, rfl⟩
  | scanning d since i reads =>
    simp only
    split
    · split
      · exact ⟨_, rfl⟩
      · exact ⟨_, rfl⟩
    · split
      · exact ⟨_, rfl⟩
      · exact ⟨_, rfl⟩
  | chosen d since k reads => exact ⟨_, rfl⟩
  | sending d since k reads =>
    simp only
    split
    · exact ⟨_, rfl⟩
    · exact ⟨_, rfl⟩
  | lowering d since k => exact ⟨_, rfl⟩

/-- And each of its steps brings it nearer to the end. -/
theorem advance_remaining {n : Nat} {s s' : State} (choices : Choices n s)
    (moved : advance n s = some s') : remaining n s' < remaining n s := by
  unfold advance at moved
  cases at_pc : s.acceptor with
  | waiting | permitted | ended => simp [at_pc] at moved
  | detaching d =>
    simp only [at_pc, Option.some.injEq] at moved
    subst moved
    simp only [remaining, at_pc]
    omega
  | scanning d since i reads =>
    obtain ⟨most, _⟩ := choices.scanned d since i reads at_pc
    simp only [at_pc] at moved
    split at moved
    · split at moved
      all_goals
        cases moved
        simp only [remaining, at_pc]
        omega
    · split at moved
      all_goals
        cases moved
        simp only [remaining, at_pc]
        omega
  | chosen d since k reads =>
    simp only [at_pc, Option.some.injEq] at moved
    subst moved
    simp only [remaining, at_pc]
    omega
  | sending d since k reads =>
    simp only [at_pc] at moved
    split at moved
    all_goals
      cases moved
      simp only [remaining, at_pc]
      omega
  | lowering d since k =>
    obtain ⟨inside, still⟩ := choices.lowered d since k at_pc
    have fewer := filter_update_length inside still
    have rounds := Nat.mul_le_mul_right (n + 5) (Nat.succ_le_of_lt fewer)
    simp only [at_pc, Option.some.injEq] at moved
    subst moved
    simp only [remaining, at_pc]
    rw [Nat.succ_mul] at rounds
    omega

theorem step_remaining {n : Nat} {s s' : State} {l : Label} {c : Nat}
    (holds : s.acceptor.inHand = some c) (other : l ≠ .advance) (moved : step n s l = some s') :
    remaining n s' ≤ remaining n s := by
  cases l with
  | advance => exact absurd rfl other
  | acquire | shutdown | accept | acceptError =>
    simp only [step] at moved
    split at moved
    all_goals simp_all [Acceptor.inHand]
  | detachError =>
    simp only [step] at moved
    split at moved
    · cases moved
      exact Nat.zero_le _
    · cases moved
  | receive i =>
    simp only [step] at moved
    split at moved
    · cases moved
      exact le_refl _
    · cases moved
  | finish i c =>
    simp only [step] at moved
    split at moved
    · cases moved
      exact le_refl _
    · cases moved
  | die i =>
    simp only [step] at moved
    split at moved
    · cases moved
      exact le_refl _
    · cases moved

def readings (s : State) (i : Nat) : List (Nat × Nat) :=
  ((List.range i).filter s.live).map fun j => (j, (s.shards j).load)

theorem scan_alone {m shardCount : Nat} {s : State} {c : Nat} {since : Nat → Bool} {i : Nat} (left : Nat)
    (at_pc : s.acceptor = .scanning c since i (readings s i))
    (ends : i + left = shardThreads shardCount) :
    run (system m shardCount) s (List.replicate left .advance) =
      some { s with acceptor := .scanning c since (i + left) (readings s (i + left)) } := by
  induction left generalizing i s with
  | zero =>
    rw [Nat.add_zero, ← at_pc]
    rfl
  | succ left ih =>
    have inside : i < shardThreads shardCount := by omega
    have moved : (system m shardCount).step s .advance =
        some { s with acceptor := .scanning c since (i + 1) (readings s (i + 1)) } := by
      change advance (shardThreads shardCount) s = _
      cases live : s.live i with
      | true => simp [advance, at_pc, inside, live, readings, range_filter_succ]
      | false => simp [advance, at_pc, inside, live, readings, range_filter_succ]
    rw [List.replicate_succ, run, moved, Option.bind_some, ih]
    · rw [show i + 1 + left = i + (left + 1) by omega]
      rfl
    · rfl
    · omega

/-- Read without a change in between, the loads give a shard of least load. -/
theorem choose_alone {m shardCount : Nat} {s : State} {c : Nat} {since : Nat → Bool}
    (at_pc : s.acceptor = .scanning c since 0 []) :
    ∃ s', run (system m shardCount) s (List.replicate (shardThreads shardCount + 1) .advance) =
        some s' ∧
      ((∃ k reads, s' = { s with acceptor := .chosen c since k reads } ∧
          k < shardThreads shardCount ∧ s.live k = true ∧
          ∀ i < shardThreads shardCount, s.live i = true →
            (s.shards k).load ≤ (s.shards i).load) ∨
        s'.stranded = some (c, since) ∧
          ∀ i < shardThreads shardCount, s.live i = false) := by
  have scanned := scan_alone (m := m) (shardThreads shardCount) at_pc (Nat.zero_add _)
  rw [Nat.zero_add] at scanned
  cases least : (readings s (shardThreads shardCount)).argmin Prod.snd with
  | some r =>
    obtain ⟨k, v⟩ := r
    have listed := List.argmin_mem least
    simp only [readings, List.mem_map, List.mem_filter, List.mem_range, Prod.mk.injEq] at listed
    obtain ⟨j, ⟨inside, live⟩, rfl, rfl⟩ := listed
    refine ⟨_, ?_, .inl ⟨j, readings s (shardThreads shardCount), rfl, inside, live, ?_⟩⟩
    · rw [List.replicate_succ', run_append scanned, run]
      simp [system, step, advance, least, run]
    · intro i within alive
      have here : (i, (s.shards i).load) ∈ readings s (shardThreads shardCount) := by
        simp [readings, within, alive]
      have low := List.le_of_mem_argmin (f := Prod.snd) here least
      exact low
  | none =>
    refine ⟨{ s with
      acceptor := .ended
      draining := true
      available := s.available + 1
      returned := s.returned ++ [c]
      stranded := some (c, since) }, ?_, .inr ⟨rfl, ?_⟩⟩
    · rw [List.replicate_succ', run_append scanned, run]
      simp [system, step, advance, least, run]
    · have empty := List.argmin_eq_none.mp least
      simp only [readings, List.map_eq_nil_iff, List.filter_eq_nil_iff, List.mem_range] at empty
      intro i within
      simpa using empty i within

/-! The law of the sharded accept loop. -/

def openConnections (s : State) : List Nat :=
  (List.range s.next).filter fun c => decide (c ∉ s.returned)

theorem open_length {s : State} (placed : Placed s) :
    (openConnections s).length + s.returned.length = s.next := by
  have back : ((List.range s.next).filter fun c => decide (c ∈ s.returned)).Perm s.returned := by
    rw [List.perm_ext_iff_of_nodup (List.nodup_range.filter _) placed.once]
    intro c
    simp only [List.mem_filter, List.mem_range, decide_eq_true_eq]
    exact ⟨fun both => both.2, fun here => ⟨placed.accepted c here, here⟩⟩
  have counted := List.length_eq_length_filter_add (l := List.range s.next)
    fun c => decide (c ∈ s.returned)
  rw [back.length_eq, List.length_range] at counted
  simp only [openConnections, decide_not]
  omega

theorem returned_iff {s : State} (placed : Placed s) {c : Nat} (accepted : c < s.next) :
    c ∈ s.returned ↔ ∀ p, c ∉ contents s p := by
  obtain ⟨⟨loc, located, away⟩, _, _⟩ := placed
  constructor
  · intro back p here
    have nowhere := (away c).mpr (.inr back)
    rw [located_mem located here] at nowhere
    cases nowhere
  · intro nowhere
    cases at_place : loc c with
    | none =>
      rcases (away c).mp at_place with later | back
      · omega
      · exact back
    | some p =>
      have counted := located p c
      rw [if_pos at_place] at counted
      exact absurd (List.count_pos_iff.mp (by omega)) (nowhere p)

/-- The shards' connections never exceed the limit, each gives its permit back once, a live
    shard's counter is the connections handed to it and the one being handed, and an accepted
    connection that can be detached goes to one shard of least load as read, or strands the
    loop when every shard has refused it. -/
theorem io_shards_law (maxConnections shardCount : Nat) :
    (∀ s, Reachable (system maxConnections shardCount) s →
      (openConnections s).length ≤ maxConnections ∧
      s.available + permitHeld s.acceptor + (openConnections s).length = maxConnections ∧
      s.returned.Nodup ∧ (∀ c, c < s.next → (c ∈ s.returned ↔ ∀ p, c ∉ contents s p)) ∧
      (∀ i, (s.shards i).alive = true → (s.shards i).load =
        (s.shards i).chan.length + (s.shards i).serving.length + handing s.acceptor i) ∧
      (∀ i, (s.shards i).serving ≠ [] ∨ handing s.acceptor i = 1 → 0 < (s.shards i).load) ∧
      (settled s).Perm (List.range s.next) ∧
      (∀ i c, c ∈ (s.shards i).chan ∨ c ∈ (s.shards i).serving →
        ∃ h ∈ s.handed, h.conn = c ∧ h.shard = i) ∧
      (∀ h ∈ s.handed, Picked (shardThreads shardCount) h.live h.shard h.reads) ∧
      (∀ i, s.live i = false → (s.shards i).alive = false) ∧
      (s.draining = true ↔ s.stranded.isSome = true) ∧
      ∀ c since, s.stranded = some (c, since) → s.acceptor = .ended ∧
        ∀ i, i < shardThreads shardCount →
          s.live i = false ∧ (since i = true → (c, i) ∈ s.refusals)) ∧
    (∀ s c since, s.acceptor = .scanning c since 0 [] →
      ∃ s', run (system maxConnections shardCount) s
          (List.replicate (shardThreads shardCount + 1) .advance) = some s' ∧
        ((∃ k reads, s' = { s with acceptor := .chosen c since k reads } ∧
            k < shardThreads shardCount ∧ s.live k = true ∧
            ∀ i < shardThreads shardCount, s.live i = true →
              (s.shards k).load ≤ (s.shards i).load) ∨
          s'.stranded = some (c, since) ∧ ∀ i < shardThreads shardCount, s.live i = false)) ∧
    ∀ s c, Reachable (system maxConnections shardCount) s → s.acceptor.inHand = some c →
      (∃ s', (system maxConnections shardCount).step s .advance = some s' ∧
        remaining (shardThreads shardCount) s' < remaining (shardThreads shardCount) s) ∧
      ∀ s' l, l ≠ .advance → (system maxConnections shardCount).step s l = some s' →
        remaining (shardThreads shardCount) s' ≤ remaining (shardThreads shardCount) s := by
  refine ⟨?_, fun _ _ _ => choose_alone, ?_⟩
  · intro s reached
    have inv := reachable_inv reached
    have counted := open_length inv.placed
    have permits := inv.permits
    unfold Permits at permits
    refine ⟨by omega, by omega, inv.placed.once, fun c => returned_iff inv.placed,
      inv.loads.exactly, ?_, inv.fates.settled, inv.fates.housed, inv.choices.chosen,
      inv.refusals.dead, ⟨inv.refusals.draining, ?_⟩, ?_⟩
    · intro i busy
      have covered := inv.loads.covered i
      unfold handedOver at covered
      rcases busy with serving | raised
      · have := List.length_pos_iff.mpr serving
        omega
      · omega
    · intro some_stranded
      obtain ⟨⟨c, since⟩, at_c⟩ := Option.isSome_iff_exists.mp some_stranded
      exact (inv.refusals.stranded c since at_c).1
    · intro c since at_c
      exact ⟨inv.fates.finished (by simp [at_c]), (inv.refusals.stranded c since at_c).2⟩
  · intro s c reached holds
    have inv := reachable_inv reached
    constructor
    · obtain ⟨s', moved⟩ := advance_enabled (n := shardThreads shardCount) holds
      exact ⟨s', moved, advance_remaining inv.choices moved⟩
    · intro s' l other moved
      exact step_remaining holds other moved

def rerouted : List Label :=
  [Label.acquire, Label.accept] ++ List.replicate 6 Label.advance ++
    [Label.receive 0, Label.die 1, Label.acquire, Label.accept] ++ List.replicate 11 Label.advance

def reroutedState : State := (run (system 2 2) (initial 2) rerouted).getD (initial 2)

theorem refused_connection_rerouted :
    (reroutedState.shards 0).load = 2 ∧ (openConnections reroutedState).length ≤ 2 ∧
      (settled reroutedState).Perm [0, 1] := by
  have ran : run (system 2 2) (initial 2) rerouted = some reroutedState := rfl
  have reached : Reachable (system 2 2) reroutedState := reachable_run (.start rfl) ran
  obtain ⟨few, _, _, _, load, _, settled, _⟩ := (io_shards_law 2 2).1 reroutedState reached
  exact ⟨load 0 rfl, few, settled⟩

/-- A raise before the send, a stream that cannot be detached, and loads read one by one. -/
theorem handoff_gaps :
    (¬ ∀ m shardCount s, Reachable (system m shardCount) s → ∀ i, (s.shards i).alive = true →
      (s.shards i).load = (s.shards i).chan.length + (s.shards i).serving.length) ∧
    (¬ ∀ m shardCount s, Reachable (system m shardCount) s → s.acceptor = .waiting →
      ∀ c, c < s.next → ∃ h ∈ s.handed, h.conn = c) ∧
    ¬ ∀ m shardCount s c since k reads, Reachable (system m shardCount) s →
      s.acceptor = .chosen c since k reads → ∀ i, i < shardThreads shardCount →
        s.live i = true → (s.shards k).load ≤ (s.shards i).load := by
  refine ⟨?_, ?_, ?_⟩
  · intro exact_load
    have ran : run (system 1 1) (initial 1)
        ([[.acquire, .accept], List.replicate 4 .advance].flatten) = some _ := rfl
    have same := exact_load 1 1 _ (reachable_run (.start rfl) ran) 0 rfl
    cases same
  · intro always_handed
    have ran : run (system 1 1) (initial 1) [.acquire, .accept, .detachError] = some _ := rfl
    obtain ⟨h, listed, _⟩ := always_handed 1 1 _ (reachable_run (.start rfl) ran) rfl 0 (by decide)
    cases listed
  · intro least
    have ran : run (system 3 2) (initial 3)
        ([[.acquire, .accept], List.replicate 6 .advance, [.acquire, .accept],
          List.replicate 6 .advance, [.receive 1, .acquire, .accept], List.replicate 3 .advance,
          [.finish 1 1, .advance]].flatten) = some _ := rfl
    have low := least 3 2 _ _ _ _ _ (reachable_run (.start rfl) ran) rfl 1 (by decide) rfl
    cases low

end KinoIoShards
