import Kino.Transitions
import Kino.Tallies
import Kino.Watches

/-!
The default accept loop and its connections (ext/kino/src/server.rs: accept_loop, serve_conn,
serve_connection, drain_signal), from the permit a connection takes to the end of its task,
with the drain signal of stop_accepting and the teardown of shutdown_runtime. A `select!`
takes any of its branches that is ready. What the protocol layer does is left open: a
connection may come to its end at any time.
-/
namespace KinoConnectionDrain
open Transitions Tallies Watches

/-- `permitted`: with a permit, in the `select!` around `accept`. Each holds what its
    receiver has seen. -/
inductive Acceptor where
  | waiting (seen : Nat)
  | permitted (seen : Nat)
  | ended
  deriving DecidableEq, Repr

inductive End where
  | refused
  | served
  | cut
  deriving DecidableEq, Repr

/-- A connection's task: in the TLS handshake, before it subscribes, before `drain_signal`
    looks at the value, waiting for a change, and after `graceful_shutdown`. -/
inductive Conn where
  | handshaking
  | accepted
  | checking (seen : Nat)
  | watching (seen : Nat)
  | draining
  | closed (how : End)
  deriving DecidableEq, Repr

def live : Conn → Bool
  | .closed _ => false
  | _ => true

def subscribed : Conn → Bool
  | .checking _ | .watching _ | .draining => true
  | _ => false

structure State where
  shutdown : Watch Bool
  available : Nat
  acceptor : Acceptor
  conns : List Conn
  torn : Bool
  deriving DecidableEq, Repr

inductive Label where
  | stopAccepting
  | teardown
  | acquire
  | accept
  | acceptError
  | acceptorDrains
  | acceptorCut
  | handshake (i : Nat)
  | refuse (i : Nat)
  | subscribe (i : Nat)
  | check (i : Nat)
  | notice (i : Nat)
  | finish (i : Nat)
  | cut (i : Nat)
  deriving DecidableEq, Repr

def State.put (s : State) (i : Nat) (c : Conn) : State := { s with conns := s.conns.set i c }

def State.close (s : State) (i : Nat) (c : Conn) (how : End) : State :=
  { s with
    conns := s.conns.set i (.closed how)
    available := s.available + 1
    shutdown := if subscribed c then dropReceiver s.shutdown else s.shutdown }

def State.endAcceptor (s : State) (held : Nat) : State :=
  { s with
    acceptor := .ended
    available := s.available + held
    shutdown := dropReceiver s.shutdown }

/-- `tls`: a connection begins with a handshake. -/
def step (tls : Bool) (s : State) : Label → Option State
  | .stopAccepting => some { s with shutdown := send s.shutdown true }
  | .teardown => some { s with shutdown := send s.shutdown true, torn := true }
  | .acquire =>
    match s.acceptor with
    | .waiting seen =>
      if 0 < s.available then
        some { s with acceptor := .permitted seen, available := s.available - 1 }
      else none
    | _ => none
  | .accept =>
    match s.acceptor with
    | .permitted seen =>
      some { s with
        acceptor := .waiting seen
        conns := s.conns ++ [if tls then .handshaking else .accepted] }
    | _ => none
  | .acceptError =>
    match s.acceptor with
    | .permitted seen => some { s with acceptor := .waiting seen, available := s.available + 1 }
    | _ => none
  | .acceptorDrains =>
    match s.acceptor with
    | .waiting seen => if changed s.shutdown seen then some (s.endAcceptor 0) else none
    | .permitted seen => if changed s.shutdown seen then some (s.endAcceptor 1) else none
    | .ended => none
  | .acceptorCut =>
    if s.torn then
      match s.acceptor with
      | .waiting _ => some (s.endAcceptor 0)
      | .permitted _ => some (s.endAcceptor 1)
      | .ended => none
    else none
  | .handshake i =>
    match s.conns[i]? with
    | some .handshaking => some (s.put i .accepted)
    | _ => none
  | .refuse i =>
    match s.conns[i]? with
    | some .handshaking => some (s.close i .handshaking .refused)
    | _ => none
  | .subscribe i =>
    match s.conns[i]? with
    | some .accepted =>
      let (shutdown, seen) := Watches.subscribe s.shutdown
      some { s.put i (.checking seen) with shutdown }
    | _ => none
  | .check i =>
    match s.conns[i]? with
    | some (.checking _) =>
      match borrowAndUpdate s.shutdown with
      | (true, _) => some (s.put i .draining)
      | (false, seen) => some (s.put i (.watching seen))
    | _ => none
  | .notice i =>
    match s.conns[i]? with
    | some (.watching seen) => if changed s.shutdown seen then some (s.put i .draining) else none
    | _ => none
  | .finish i =>
    match s.conns[i]? with
    | some c => if subscribed c then some (s.close i c .served) else none
    | none => none
  | .cut i =>
    match s.conns[i]? with
    | some c => if s.torn && live c then some (s.close i c .cut) else none
    | none => none

def initial (maxConnections : Nat) : State := ⟨create false, maxConnections, .waiting 0, [], false⟩

def system (tls : Bool) (maxConnections : Nat) : System State Label :=
  ⟨fun s => s = initial maxConnections, step tls⟩

/-! What a step can do. -/

def holds : Acceptor → Nat
  | .permitted _ => 1
  | _ => 0

def listens : Acceptor → Nat
  | .ended => 0
  | _ => 1

inductive Turn (shutdown : Watch Bool) : Conn → Conn → Prop where
  | handshake : Turn shutdown .handshaking .accepted
  | told {seen : Nat} (begun : shutdown.value = true) : Turn shutdown (.checking seen) .draining
  | waits {seen : Nat} (quiet : shutdown.value = false) :
      Turn shutdown (.checking seen) (.watching shutdown.version)
  | notice {seen : Nat} (news : seen ≠ shutdown.version) : Turn shutdown (.watching seen) .draining

inductive Move (s : State) : State → Prop where
  | signal (torn : Bool) (later : s.torn = true → torn = true) :
      Move s { s with shutdown := send s.shutdown true, torn }
  | acquire {seen : Nat} (waiting : s.acceptor = .waiting seen) (some_left : 0 < s.available) :
      Move s { s with acceptor := .permitted seen, available := s.available - 1 }
  | accept {seen : Nat} (held : s.acceptor = .permitted seen) (c : Conn)
      (fresh : c = .handshaking ∨ c = .accepted) :
      Move s { s with acceptor := .waiting seen, conns := s.conns ++ [c] }
  | acceptError {seen : Nat} (held : s.acceptor = .permitted seen) :
      Move s { s with acceptor := .waiting seen, available := s.available + 1 }
  | ends {seen : Nat} (there : s.acceptor = .waiting seen ∨ s.acceptor = .permitted seen)
      (cause : seen ≠ s.shutdown.version ∨ s.torn = true) : Move s (s.endAcceptor (holds s.acceptor))
  | turn {i : Nat} {a b : Conn} (there : s.conns[i]? = some a) (turned : Turn s.shutdown a b) :
      Move s (s.put i b)
  | subscribe {i : Nat} (there : s.conns[i]? = some .accepted) :
      Move s { s.put i (.checking s.shutdown.version) with
        shutdown := (Watches.subscribe s.shutdown).1 }
  | close {i : Nat} {c : Conn} (there : s.conns[i]? = some c) (alive : live c = true) (how : End)
      (cause : how = .cut → s.torn = true) : Move s (s.close i c how)

theorem subscribed_live {c : Conn} (on : subscribed c = true) : live c = true := by
  cases c <;> first | rfl | cases on

theorem step_move {tls : Bool} {s t : State} {l : Label} (moved : step tls s l = some t) :
    Move s t := by
  cases l with
  | stopAccepting =>
    cases moved
    exact .signal s.torn id
  | teardown =>
    cases moved
    exact .signal true fun _ => rfl
  | acquire =>
    simp only [step] at moved
    split at moved
    · next seen waiting =>
      split at moved
      · next some_left =>
        cases moved
        exact .acquire waiting some_left
      · cases moved
    · cases moved
  | accept =>
    simp only [step] at moved
    split at moved
    · next seen held =>
      cases moved
      cases tls with
      | true => exact .accept held .handshaking (.inl rfl)
      | false => exact .accept held .accepted (.inr rfl)
    · cases moved
  | acceptError =>
    simp only [step] at moved
    split at moved
    · next seen held =>
      cases moved
      exact .acceptError held
    · cases moved
  | acceptorDrains =>
    simp only [step, changed, bne_iff_ne, ne_eq] at moved
    split at moved
    · next seen waiting =>
      split at moved
      · next news =>
        cases moved
        have ended := Move.ends (.inl waiting) (.inl news)
        rwa [waiting] at ended
      · cases moved
    · next seen held =>
      split at moved
      · next news =>
        cases moved
        have ended := Move.ends (.inr held) (.inl news)
        rwa [held] at ended
      · cases moved
    · cases moved
  | acceptorCut =>
    simp only [step] at moved
    split at moved
    · next torn =>
      split at moved
      · next seen waiting =>
        cases moved
        have ended := Move.ends (.inl waiting) (.inr torn)
        rwa [waiting] at ended
      · next seen held =>
        cases moved
        have ended := Move.ends (.inr held) (.inr torn)
        rwa [held] at ended
      · cases moved
    · cases moved
  | handshake i =>
    simp only [step] at moved
    split at moved
    · next there =>
      cases moved
      exact .turn there .handshake
    · cases moved
  | refuse i =>
    simp only [step] at moved
    split at moved
    · next there =>
      cases moved
      exact .close there rfl .refused nofun
    · cases moved
  | subscribe i =>
    simp only [step] at moved
    split at moved
    · next there =>
      cases moved
      exact .subscribe there
    · cases moved
  | check i =>
    simp only [step] at moved
    split at moved
    · next seen there =>
      split at moved
      · next look =>
        cases moved
        exact .turn there (.told (congrArg Prod.fst look))
      · next look =>
        cases moved
        have looked : s.shutdown.version = _ := congrArg Prod.snd look
        subst looked
        exact .turn there (.waits (congrArg Prod.fst look))
    · cases moved
  | notice i =>
    simp only [step, changed, bne_iff_ne, ne_eq] at moved
    split at moved
    · next seen there =>
      split at moved
      · next news =>
        cases moved
        exact .turn there (.notice news)
      · cases moved
    · cases moved
  | finish i =>
    simp only [step] at moved
    split at moved
    · next c there =>
      split at moved
      · next on =>
        cases moved
        exact .close there (subscribed_live on) .served nofun
      · cases moved
    · cases moved
  | cut i =>
    simp only [step, Bool.and_eq_true] at moved
    split at moved
    · next c there =>
      split at moved
      · next both =>
        cases moved
        exact .close there both.2 .cut fun _ => both.1
      · cases moved
    · cases moved

/-! The permits, and who hears the signal. -/

def Acceptor.Unaware : Acceptor → Prop
  | .waiting seen | .permitted seen => seen = 0
  | .ended => True

def Conn.Unaware : Conn → Prop
  | .watching seen => seen = 0
  | _ => True

def Conn.Early : Conn → Prop
  | .draining | .closed .cut => False
  | _ => True

structure Invariant (maxConnections : Nat) (s : State) : Prop where
  permits : s.available + holds s.acceptor + s.conns.countP live = maxConnections
  receivers : s.shutdown.receivers = listens s.acceptor + s.conns.countP subscribed
  versions : s.shutdown.value = true ↔ 0 < s.shutdown.version
  acceptor_unaware : s.acceptor.Unaware
  unaware : ∀ (i : Nat) (c : Conn), s.conns[i]? = some c → c.Unaware
  early : s.shutdown.value = false →
    s.acceptor ≠ .ended ∧ s.torn = false ∧
      ∀ (i : Nat) (c : Conn), s.conns[i]? = some c → c.Early
  uncut : s.torn = false → ∀ (i : Nat) (c : Conn), s.conns[i]? = some c → c ≠ .closed .cut

variable {maxConnections : Nat} {s t : State}

theorem initial_invariant : Invariant maxConnections (initial maxConnections) where
  permits := by simp [initial, holds]
  receivers := by simp [initial, create, listens]
  versions := by simp [initial, create]
  acceptor_unaware := rfl
  unaware := by simp [initial]
  early := by simp [initial]
  uncut := by simp [initial]

theorem heard (inv : Invariant maxConnections s) (quiet : s.shutdown.value = false) :
    0 < s.shutdown.receivers := by
  have listening := (inv.early quiet).1
  rw [inv.receivers]
  cases at_acceptor : s.acceptor with
  | waiting seen => simp [listens]
  | permitted seen => simp [listens]
  | ended => exact absurd at_acceptor listening

theorem send_begun (inv : Invariant maxConnections s) :
    (send s.shutdown true).value = true ∧ 0 < (send s.shutdown true).version := by
  cases value : s.shutdown.value with
  | false =>
    obtain ⟨told, counted⟩ := send_heard (a := true) (heard inv value)
    exact ⟨told, by omega⟩
  | true =>
    rcases send_cases s.shutdown true with same | ⟨told, counted⟩
    · rw [same]
      exact ⟨value, inv.versions.mp value⟩
    · exact ⟨told, by omega⟩

theorem signal_keeps (inv : Invariant maxConnections s) {torn : Bool}
    (later : s.torn = true → torn = true) :
    Invariant maxConnections { s with shutdown := send s.shutdown true, torn } where
  permits := inv.permits
  receivers := by
    rw [← inv.receivers]
    exact send_receivers s.shutdown true
  versions := ⟨fun _ => (send_begun inv).2, fun _ => (send_begun inv).1⟩
  acceptor_unaware := inv.acceptor_unaware
  unaware := inv.unaware
  early := by
    intro quiet
    change (send s.shutdown true).value = false at quiet
    rw [(send_begun inv).1] at quiet
    cases quiet
  uncut := by
    intro whole
    apply inv.uncut
    cases before : s.torn with
    | false => rfl
    | true => exact absurd whole (by simp [later before])

theorem acceptor_keeps (inv : Invariant maxConnections s) {acceptor : Acceptor} {available : Nat}
    (permits : available + holds acceptor = s.available + holds s.acceptor)
    (listening : listens acceptor = listens s.acceptor) (unaware : acceptor.Unaware)
    (going : acceptor ≠ .ended) : Invariant maxConnections { s with acceptor, available } where
  permits := by
    have before := inv.permits
    dsimp only
    omega
  receivers := by
    rw [listening]
    exact inv.receivers
  versions := inv.versions
  acceptor_unaware := unaware
  unaware := inv.unaware
  early := fun quiet => ⟨going, (inv.early quiet).2⟩
  uncut := inv.uncut

theorem accept_keeps (inv : Invariant maxConnections s) {seen : Nat}
    (held : s.acceptor = .permitted seen) {c : Conn} (fresh : c = .handshaking ∨ c = .accepted) :
    Invariant maxConnections { s with acceptor := .waiting seen, conns := s.conns ++ [c] } where
  permits := by
    have before := inv.permits
    rw [held] at before
    have alive : live c = true := by rcases fresh with rfl | rfl <;> rfl
    simp only [holds, List.countP_append, List.countP_singleton, alive, if_true] at before ⊢
    omega
  receivers := by
    have before := inv.receivers
    rw [held] at before
    have outside : subscribed c = false := by rcases fresh with rfl | rfl <;> rfl
    simpa [listens, List.countP_append, List.countP_singleton, outside] using before
  versions := inv.versions
  acceptor_unaware := by
    have before := inv.acceptor_unaware
    rw [held] at before
    exact before
  unaware := forall_join inv.unaware (by rcases fresh with rfl | rfl <;> trivial)
  early := by
    intro quiet
    obtain ⟨_, whole, each⟩ := inv.early quiet
    refine ⟨nofun, whole, forall_join each ?_⟩
    rcases fresh with rfl | rfl <;> trivial
  uncut := by
    intro whole
    apply forall_join (inv.uncut whole)
    rcases fresh with rfl | rfl <;> nofun

theorem quiet_version (inv : Invariant maxConnections s) (quiet : s.shutdown.value = false) :
    s.shutdown.version = 0 := by
  apply Nat.eq_zero_of_not_pos
  intro sent
  rw [inv.versions.mpr sent] at quiet
  cases quiet

theorem ends_keeps (inv : Invariant maxConnections s) {seen : Nat}
    (there : s.acceptor = .waiting seen ∨ s.acceptor = .permitted seen)
    (cause : seen ≠ s.shutdown.version ∨ s.torn = true) :
    Invariant maxConnections (s.endAcceptor (holds s.acceptor)) where
  permits := inv.permits
  receivers := by
    have before := inv.receivers
    have listening : listens s.acceptor = 1 := by rcases there with eq | eq <;> rw [eq] <;> rfl
    simp only [State.endAcceptor, dropReceiver, listens]
    omega
  versions := inv.versions
  acceptor_unaware := trivial
  unaware := inv.unaware
  early := by
    intro quiet
    have unaware : seen = 0 := by
      have before := inv.acceptor_unaware
      rcases there with eq | eq <;> rw [eq] at before <;> exact before
    rcases cause with news | torn
    · exact absurd (unaware.trans (quiet_version inv quiet).symm) news
    · rw [(inv.early quiet).2.1] at torn
      cases torn
  uncut := inv.uncut

theorem turn_alive {shutdown : Watch Bool} {a b : Conn} (turned : Turn shutdown a b) :
    live b = live a ∧ subscribed b = subscribed a := by
  cases turned <;> exact ⟨rfl, rfl⟩

theorem turn_keeps (inv : Invariant maxConnections s) {i : Nat} {a b : Conn}
    (there : s.conns[i]? = some a) (turned : Turn s.shutdown a b) :
    Invariant maxConnections (s.put i b) where
  permits := by
    have same : (s.conns.set i b).countP live = s.conns.countP live :=
      (tallied_same rfl there (turn_alive turned).1).symm
    rw [State.put, same]
    exact inv.permits
  receivers := by
    have same : (s.conns.set i b).countP subscribed = s.conns.countP subscribed :=
      (tallied_same rfl there (turn_alive turned).2).symm
    rw [State.put, same]
    exact inv.receivers
  versions := inv.versions
  acceptor_unaware := inv.acceptor_unaware
  unaware := by
    apply forall_set inv.unaware
    cases turned with
    | waits quiet => exact quiet_version inv quiet
    | _ => trivial
  early := by
    intro quiet
    obtain ⟨going, whole, each⟩ := inv.early quiet
    refine ⟨going, whole, forall_set each ?_⟩
    cases turned with
    | told begun =>
      change s.shutdown.value = false at quiet
      rw [begun] at quiet
      cases quiet
    | notice news =>
      have unaware : _ = 0 := inv.unaware i _ there
      exact absurd (unaware.trans (quiet_version inv quiet).symm) news
    | _ => trivial
  uncut := by
    intro whole
    apply forall_set (inv.uncut whole)
    cases turned <;> nofun

theorem subscribe_keeps (inv : Invariant maxConnections s) {i : Nat}
    (there : s.conns[i]? = some .accepted) :
    Invariant maxConnections { s.put i (.checking s.shutdown.version) with
      shutdown := (Watches.subscribe s.shutdown).1 } where
  permits := by
    have same : Tallied (s.conns.countP live) live (s.conns.set i (.checking s.shutdown.version)) :=
      tallied_same rfl there rfl
    have before := inv.permits
    unfold Tallied at same
    simp only [State.put]
    omega
  receivers := by
    have one_more : s.conns.countP subscribed + 1 =
        (s.conns.set i (.checking s.shutdown.version)).countP subscribed :=
      tallied_enter rfl there rfl rfl
    have before := inv.receivers
    simp only [State.put, Watches.subscribe]
    omega
  versions := inv.versions
  acceptor_unaware := inv.acceptor_unaware
  unaware := forall_set inv.unaware trivial
  early := by
    intro quiet
    obtain ⟨going, whole, each⟩ := inv.early quiet
    exact ⟨going, whole, forall_set each trivial⟩
  uncut := fun whole => forall_set (inv.uncut whole) nofun

theorem close_keeps (inv : Invariant maxConnections s) {i : Nat} {c : Conn}
    (there : s.conns[i]? = some c) (alive : live c = true) {how : End}
    (cause : how = .cut → s.torn = true) : Invariant maxConnections (s.close i c how) where
  permits := by
    have one_less := countP_set live (.closed how) there
    have before := inv.permits
    have gone : live (.closed how) = false := rfl
    simp only [alive, gone, if_true, Bool.false_eq_true, if_false] at one_less
    simp only [State.close]
    omega
  receivers := by
    have change := countP_set subscribed (.closed how) there
    have before := inv.receivers
    have gone : subscribed (.closed how) = false := rfl
    cases on : subscribed c with
    | true =>
      simp only [on, gone, if_true, Bool.false_eq_true, if_false] at change
      simp only [State.close, on, if_true, dropReceiver]
      omega
    | false =>
      simp only [on, gone, Bool.false_eq_true, if_false] at change
      simp only [State.close, on, Bool.false_eq_true, if_false]
      omega
  versions := by
    simp only [State.close]
    split
    · exact inv.versions
    · exact inv.versions
  acceptor_unaware := inv.acceptor_unaware
  unaware := forall_set inv.unaware trivial
  early := by
    intro quiet
    have before : s.shutdown.value = false := by
      simp only [State.close] at quiet
      split at quiet
      · exact quiet
      · exact quiet
    obtain ⟨going, whole, each⟩ := inv.early before
    refine ⟨going, whole, forall_set each ?_⟩
    cases how with
    | cut =>
      rw [cause rfl] at whole
      cases whole
    | _ => trivial
  uncut := by
    intro whole
    apply forall_set (inv.uncut whole)
    intro same
    cases same
    rw [State.close, cause rfl] at whole
    cases whole

theorem move_invariant (inv : Invariant maxConnections s) (move : Move s t) :
    Invariant maxConnections t := by
  cases move with
  | signal torn later => exact signal_keeps inv later
  | @acquire seen waiting some_left =>
    have unaware : (Acceptor.permitted seen).Unaware := by
      have before := inv.acceptor_unaware
      rwa [waiting] at before
    apply acceptor_keeps inv _ (by rw [waiting]; rfl) unaware nofun
    rw [waiting]
    simp only [holds]
    omega
  | accept held c fresh => exact accept_keeps inv held fresh
  | @acceptError seen held =>
    have unaware : (Acceptor.waiting seen).Unaware := by
      have before := inv.acceptor_unaware
      rwa [held] at before
    apply acceptor_keeps inv _ (by rw [held]; rfl) unaware nofun
    rw [held]
    rfl
  | ends there cause => exact ends_keeps inv there cause
  | turn there turned => exact turn_keeps inv there turned
  | subscribe there => exact subscribe_keeps inv there
  | close there alive how cause => exact close_keeps inv there alive cause

theorem reachable_invariant {tls : Bool}
    (reached : Reachable (system tls maxConnections) s) : Invariant maxConnections s :=
  Transitions.reachable_invariant (Invariant maxConnections)
    (fun _ start => by
      cases start
      exact initial_invariant)
    (fun _ _ _ inv moved => move_invariant inv (step_move moved)) reached

/-! Once the drain has begun, everyone comes to it by steps of its own. -/

def settled : Conn → Bool
  | .draining | .closed _ => true
  | _ => false

/-- The steps of the accept loop and of the connections' tasks that wait for no client; a
    handshake that is not over runs into its time limit. -/
def own : Label → Bool
  | .acceptorDrains | .refuse _ | .subscribe _ | .check _ | .notice _ => true
  | _ => false

structure SettledBy (m : System State Label) (s : State) (i : Nat) (ls : List Label) (t : State) :
    Prop where
  ran : run m s ls = some t
  own_steps : ls.all own = true
  short : ls.length ≤ 2
  begun : t.shutdown.value = true
  acceptor : t.acceptor = s.acceptor
  row : t.conns.length = s.conns.length
  others : ∀ j : Nat, j ≠ i → t.conns[j]? = s.conns[j]?
  done : ∀ c : Conn, t.conns[i]? = some c → settled c = true

theorem settled_already {m : System State Label} {i : Nat} (begun : s.shutdown.value = true)
    (done : ∀ c : Conn, s.conns[i]? = some c → settled c = true) : SettledBy m s i [] s where
  ran := rfl
  own_steps := rfl
  short := Nat.zero_le 2
  begun := begun
  acceptor := rfl
  row := rfl
  others := fun _ _ => rfl
  done := done

theorem settled_set {m : System State Label} {i : Nat} {c : Conn} {ls : List Label}
    (ran : run m s ls = some t) (own_steps : ls.all own = true) (short : ls.length ≤ 2)
    (begun : t.shutdown.value = true) (acceptor : t.acceptor = s.acceptor)
    (row : t.conns = s.conns.set i c) (calm : settled c = true) : SettledBy m s i ls t where
  ran := ran
  own_steps := own_steps
  short := short
  begun := begun
  acceptor := acceptor
  row := by rw [row, List.length_set]
  others := by
    intro j other
    rw [row, List.getElem?_set_ne (Ne.symm other)]
  done := by
    intro d there
    rw [row] at there
    rcases set_cases there with ⟨_, rfl⟩ | ⟨other, _⟩
    · exact calm
    · exact absurd rfl other

theorem settle_one {tls : Bool} (reached : Reachable (system tls maxConnections) s)
    (begun : s.shutdown.value = true) (i : Nat) :
    ∃ ls t, SettledBy (system tls maxConnections) s i ls t := by
  have inv := reachable_invariant reached
  cases there : s.conns[i]? with
  | none => exact ⟨[], s, settled_already begun (by simp [there])⟩
  | some c =>
    cases c with
    | handshaking =>
      have ran : run (system tls maxConnections) s [.refuse i] =
          some (s.close i .handshaking .refused) := by
        simp [run, system, step, there]
      exact ⟨_, _, settled_set ran rfl (by simp) begun rfl rfl rfl⟩
    | accepted =>
      have inside : i < s.conns.length := (List.getElem?_eq_some_iff.mp there).1
      let u : State := { s.put i (.checking s.shutdown.version) with
        shutdown := (Watches.subscribe s.shutdown).1 }
      have there_now : u.conns[i]? = some (.checking s.shutdown.version) := by
        simp [u, State.put, inside]
      have still : u.shutdown.value = true := begun
      have first : step tls s (.subscribe i) = some u := by
        simp [step, there, Watches.subscribe, u]
      have second : step tls u (.check i) = some (u.put i .draining) := by
        simp [step, there_now, borrowAndUpdate, still]
      have ran : run (system tls maxConnections) s [.subscribe i, .check i] =
          some (u.put i .draining) := by
        simp [run, system, first, second]
      have row : (u.put i .draining).conns = s.conns.set i .draining := by simp [u, State.put]
      exact ⟨_, _, settled_set ran rfl (by simp) begun rfl row rfl⟩
    | checking seen =>
      have ran : run (system tls maxConnections) s [.check i] = some (s.put i .draining) := by
        simp [run, system, step, there, borrowAndUpdate, begun]
      exact ⟨_, _, settled_set ran rfl (by simp) begun rfl rfl rfl⟩
    | watching seen =>
      have unaware : seen = 0 := inv.unaware i _ there
      have sent := inv.versions.mp begun
      have news : changed s.shutdown seen = true := by
        simp only [changed, bne_iff_ne]
        omega
      have ran : run (system tls maxConnections) s [.notice i] = some (s.put i .draining) := by
        simp [run, system, step, there, news]
      exact ⟨_, _, settled_set ran rfl (by simp) begun rfl rfl rfl⟩
    | draining =>
      refine ⟨[], s, settled_already begun ?_⟩
      intro c here
      rw [there] at here
      cases here
      rfl
    | closed how =>
      refine ⟨[], s, settled_already begun ?_⟩
      intro c here
      rw [there] at here
      cases here
      rfl

theorem settle_first {tls : Bool} (reached : Reachable (system tls maxConnections) s)
    (begun : s.shutdown.value = true) (k : Nat) :
    ∃ ls t, run (system tls maxConnections) s ls = some t ∧ ls.all own = true ∧
      ls.length ≤ 2 * k ∧ t.shutdown.value = true ∧ t.acceptor = s.acceptor ∧
      t.conns.length = s.conns.length ∧
      ∀ (j : Nat) (c : Conn), j < k → t.conns[j]? = some c → settled c = true := by
  induction k with
  | zero => exact ⟨[], s, rfl, rfl, Nat.le_refl 0, begun, rfl, rfl, fun _ _ small => by omega⟩
  | succ k ih =>
    obtain ⟨ls, t, ran, own_steps, short, later, acceptor, row, done⟩ := ih
    obtain ⟨ks, u, last⟩ := settle_one (reachable_run reached ran) later k
    refine ⟨ls ++ ks, u, ?_, ?_, ?_, last.begun, last.acceptor.trans acceptor, last.row.trans row, ?_⟩
    · rw [run_append ran]
      exact last.ran
    · rw [List.all_append, own_steps, last.own_steps]
      rfl
    · have two := last.short
      rw [List.length_append]
      omega
    · intro j c small there
      by_cases same : j = k
      · subst same
        exact last.done c there
      · rw [last.others j same] at there
        exact done j c (by omega) there

theorem acceptor_stops (tls : Bool) (inv : Invariant maxConnections s)
    (begun : s.shutdown.value = true) :
    s.acceptor = .ended ∨ ∃ held, step tls s .acceptorDrains = some (s.endAcceptor held) := by
  have sent := inv.versions.mp begun
  have unaware := inv.acceptor_unaware
  cases at_acceptor : s.acceptor with
  | waiting seen =>
    rw [at_acceptor] at unaware
    have news : changed s.shutdown seen = true := by
      have zero : seen = 0 := unaware
      simp only [changed, bne_iff_ne]
      omega
    exact .inr ⟨0, by simp [step, at_acceptor, news]⟩
  | permitted seen =>
    rw [at_acceptor] at unaware
    have news : changed s.shutdown seen = true := by
      have zero : seen = 0 := unaware
      simp only [changed, bne_iff_ne]
      omega
    exact .inr ⟨1, by simp [step, at_acceptor, news]⟩
  | ended => exact .inl rfl

theorem drains {tls : Bool} (reached : Reachable (system tls maxConnections) s)
    (begun : s.shutdown.value = true) :
    ∃ ls t, run (system tls maxConnections) s ls = some t ∧ ls.all own = true ∧
      ls.length ≤ 2 * s.conns.length + 1 ∧ t.acceptor = .ended ∧
      ∀ c ∈ t.conns, settled c = true := by
  obtain ⟨ls, t, ran, own_steps, short, later, acceptor, row, done⟩ :=
    settle_first reached begun s.conns.length
  have all_done : ∀ c ∈ t.conns, settled c = true := by
    intro c member
    obtain ⟨j, inside, rfl⟩ := List.getElem_of_mem member
    exact done j _ (by omega) (List.getElem?_eq_getElem inside)
  rcases acceptor_stops tls (reachable_invariant (reachable_run reached ran)) later with
    ended | ⟨held, stops⟩
  · exact ⟨ls, t, ran, own_steps, by omega, ended, all_done⟩
  · refine ⟨ls ++ [.acceptorDrains], t.endAcceptor held, ?_, ?_, ?_, rfl, all_done⟩
    · rw [run_append ran]
      simp [run, system, stops]
    · rw [List.all_append, own_steps]
      rfl
    · rw [List.length_append, List.length_singleton]
      omega

theorem signal_stays (inv : Invariant maxConnections s) (move : Move s t)
    (begun : s.shutdown.value = true) : t.shutdown.value = true := by
  cases move with
  | signal torn later => exact (send_begun inv).1
  | close there alive how cause =>
    simp only [State.close]
    split
    · exact begun
    · exact begun
  | _ => exact begun

theorem settled_stays (move : Move s t) {i : Nat} {c : Conn} (there : s.conns[i]? = some c)
    (calm : settled c = true) : ∃ d, t.conns[i]? = some d ∧ settled d = true := by
  have kept : ∀ {j : Nat} {a b : Conn}, s.conns[j]? = some a →
      (settled a = true → settled b = true) →
      ∃ d, (s.conns.set j b)[i]? = some d ∧ settled d = true := by
    intro j a b here calms
    by_cases same : i = j
    · subst same
      rw [there] at here
      cases here
      have inside : i < s.conns.length := (List.getElem?_eq_some_iff.mp there).1
      exact ⟨b, List.getElem?_set_self inside, calms calm⟩
    · exact ⟨c, by rw [List.getElem?_set_ne (Ne.symm same), there], calm⟩
  cases move with
  | turn here turned =>
    apply kept here
    cases turned with
    | handshake => exact id
    | told begun => exact fun _ => rfl
    | waits quiet => exact id
    | notice news => exact fun _ => rfl
  | subscribe here => exact kept here nofun
  | close here alive how cause => exact kept here fun _ => rfl
  | accept held d fresh =>
    have inside : i < s.conns.length := (List.getElem?_eq_some_iff.mp there).1
    exact ⟨c, by rw [List.getElem?_append_left inside, there], calm⟩
  | _ => exact ⟨c, there, calm⟩

/-- Every permit is with the semaphore, the accept loop or a living connection. Nobody stops
    before the drain has begun, `stop_accepting` always begins it, for good, and from then on
    the accept loop and every connection, also one that was accepted just before or after,
    come to it by steps of their own; only the teardown cuts a connection. -/
theorem drain_law {tls : Bool} {maxConnections : Nat} {s : State}
    (reached : Reachable (system tls maxConnections) s) :
    s.available + holds s.acceptor + s.conns.countP live = maxConnections ∧
    (s.shutdown.value = false → s.acceptor ≠ .ended ∧ .draining ∉ s.conns) ∧
    (∃ t, step tls s .stopAccepting = some t ∧ t.shutdown.value = true) ∧
    (s.shutdown.value = true →
      (∀ l t, step tls s l = some t → t.shutdown.value = true ∧
        ∀ (i : Nat) (c : Conn), s.conns[i]? = some c → settled c = true →
          ∃ d, t.conns[i]? = some d ∧ settled d = true) ∧
      ∃ ls t, run (system tls maxConnections) s ls = some t ∧ ls.all own = true ∧
        ls.length ≤ 2 * s.conns.length + 1 ∧ t.acceptor = .ended ∧
        ∀ c ∈ t.conns, settled c = true) ∧
    (s.torn = false → .closed .cut ∉ s.conns) := by
  have inv := reachable_invariant reached
  refine ⟨inv.permits, ?_, ⟨_, rfl, (send_begun inv).1⟩, ?_, ?_⟩
  · intro quiet
    obtain ⟨going, _, each⟩ := inv.early quiet
    refine ⟨going, ?_⟩
    intro member
    obtain ⟨i, there⟩ := List.mem_iff_getElem?.mp member
    exact each i _ there
  · intro begun
    refine ⟨fun l t moved => ?_, drains reached begun⟩
    have move := step_move moved
    exact ⟨signal_stays inv move begun, fun i c there calm => settled_stays move there calm⟩
  · intro whole member
    obtain ⟨i, there⟩ := List.mem_iff_getElem?.mp member
    exact inv.uncut whole i _ there rfl

/-- The drain begins between the accept of the second connection and its `subscribe`. -/
def lateSubscriber : List Label :=
  [.acquire, .accept, .subscribe 0, .check 0, .acquire, .accept, .stopAccepting, .subscribe 1]

theorem late_subscriber_drains : ∃ s, run (system false 2) (initial 2) lateSubscriber = some s ∧
    s.conns = [.watching 0, .checking 1] ∧ s.available = 0 ∧
    ∃ ls t, run (system false 2) s ls = some t ∧ ls.all own = true ∧ ls.length ≤ 5 ∧
      t.acceptor = .ended ∧ ∀ c ∈ t.conns, settled c = true := by
  have ran : run (system false 2) (initial 2) lateSubscriber = some
      ⟨⟨true, 1, 3⟩, 0, .waiting 0, [.watching 0, .checking 1], false⟩ := by
    decide
  have law := drain_law (reachable_run (.start rfl) ran)
  exact ⟨_, ran, rfl, rfl, (law.2.2.2.1 rfl).2⟩

end KinoConnectionDrain
