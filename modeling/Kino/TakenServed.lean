import Kino.Worker

/-!
Whether a request a worker has taken reaches the app. The fused delivery takes the next
request before the body of the last one is closed, inside the `rescue` of `serve`, and
an error raised in between loses what was taken. An error that cannot be logged leaves
`serve` and ends the worker, with the rest of its batch in hand.
-/
namespace KinoTakenServed
open Programs KinoWorker

variable {H B T : Type}

/-- The app's answer goes out through the fused delivery: it returned, the body is
    array-like and joins, and the head is accepted. -/
def fuses : Except Exn (Reply H B) → Bool
  | .error _ => false
  | .ok reply =>
    match reply.toAry, reply.status, reply.head with
    | some (.ok _), .ok _, .ok (some _) => true
    | _, _, _ => false

def closeRaises : Except Exn (Reply H B) → Bool
  | .error _ => false
  | .ok reply =>
    match reply.close with
    | .raises _ => true
    | _ => false

def losesTake (hook : Bool) (answer : Except Exn (Reply H B)) : Bool :=
  !hook && fuses answer && closeRaises answer

/-! What a request raises, inside `serve` and out of it. -/

def accepts : Except Exn (Option H) → Except Exn Unit
  | .error e => .error e
  | .ok none => .error invalidResponse
  | .ok (some _) => .ok ()

def closes : Close → Except Exn Unit
  | .absent | .returns => .ok ()
  | .raises e => .error e

def streams (client : Client B) (reply : Reply H B) : Except Exn Unit :=
  match (deliverStreaming (poolNative client) reply ()).1 with
  | .raised e => .error e
  | .ok _ | .stuck => .ok ()

def completes (outcomes : Outcomes) (status : Int) : Except Exn Unit :=
  match outcomes.afterRequestComplete with
  | some fire => fire status
  | none => .ok ()

def delivers (client : Client B) (outcomes : Outcomes) (reply : Reply H B) : Except Exn Unit :=
  match reply.toAry with
  | some joined => do
    let _ ← joined
    let status ← reply.status
    accepts reply.head
    closes reply.close
    completes outcomes status
  | none => do
    let status ← reply.status
    streams client reply
    completes outcomes status

def reports (outcomes : Outcomes) : Except Exn Unit → Except Exn Unit
  | .ok _ => .ok ()
  | .error e => do
    outcomes.exception e
    outcomes.onError e

section App
variable (app : App H B) (clients : Nat → Client B) (hooks : Hooks)

def answers (env : Nat) : Except Exn Unit := do
  let reply ← app env
  delivers (clients env) (hooks.outcomes env) reply

/-- The error that a request lets out of `serve`, if any. -/
def serves (env : Nat) : Except Exn Unit :=
  reports (hooks.outcomes env) (answers app clients hooks env)

def escapes (env : Nat) : Bool :=
  match serves app clients hooks env with
  | .error _ => true
  | .ok _ => false

/-- Of each of these batches, taken one after the other, all is called: only its last request
    may end the worker, and only the last batch may end in a delivery that loses a take. -/
def CallsAll : List (List Nat) → Prop
  | [] => True
  | batch :: rest =>
    (∀ r ∈ batch.dropLast, escapes app clients hooks r = false) ∧
    ∀ r, batch.getLast? = some r →
      (losesTake hooks.completes (app r) = true → rest = []) ∧
      (escapes app clients hooks r = false → CallsAll rest)

end App

def Pool.record (s : Pool) (envs : List Nat) : Pool := { s with called := s.called ++ envs }

theorem closeBody_closes (close : Close) :
    (closeBody close : Prog Exn Pool Unit) = fromExcept (closes close) := by
  cases close <;> rfl

theorem respondSimple_accepts (head : Except Exn (Option H)) :
    (respondSimple head : Prog Exn Pool Unit) = fromExcept (accepts head) := by
  rcases head with e | _ | h <;> rfl

theorem poolNative_erasing (client : Client B) :
    Erasing (fun _ : Pool => ()) (poolNative client : Native Pool H B) (poolNative client) := by
  have same : ∀ head : Except Exn (Option H),
      Erases (fun _ : Pool => ()) (respondSimple head) (respondSimple head) := by
    intro head
    rcases head with e | _ | h
    · exact erases_raise e
    · exact erases_raise invalidResponse
    · exact erases_pure ()
  constructor
  · exact fun head _ => same head
  · exact same
  · exact fun chunk => erases_fromExcept (client.write chunk)
  · exact erases_pure ()
  · exact erases_fromExcept client.read
  · exact erases_pure ()

theorem heads_keep (keep : Pool → Prop) (head : Except Exn (Option H)) :
    Keeps keep (respondSimple head : Prog Exn Pool Unit) := by
  rw [respondSimple_accepts]
  exact keeps_fromExcept keep _

theorem deliverStreaming_ends (client : Client B) (reply : Reply H B) :
    Ends (deliverStreaming (poolNative client : Native Pool H B) reply) := by
  have write : ∀ chunk, Ends ((poolNative client : Native Pool H B).writeChunk chunk) :=
    fun chunk => ends_fromExcept (client.write chunk)
  have heads : Ends (respondSimple reply.head : Prog Exn Pool Unit) := by
    rw [respondSimple_accepts]
    exact ends_fromExcept _
  refine ends_bind heads fun _ => ?_
  split
  · have ended := perform_ends (poolNative client : Native Pool H B) (ends_pure ())
      (ends_fromExcept client.read) write
    exact ends_object (ends_ensure (ends_script ended _) (close_ends (ends_pure ())))
  · refine ends_ensure (ends_bind ?_ fun _ => ends_pure ()) (closeBody_ends _)
    exact ends_script write _

theorem deliverStreaming_streams (client : Client B) (reply : Reply H B) :
    (deliverStreaming (poolNative client) reply : Prog Exn Pool Unit) =
      fromExcept (streams client reply) := by
  funext s
  have same : Keeps (fun t => t = s) (deliverStreaming (poolNative client) reply) :=
    deliverStreaming_keeps (heads_keep _) (keeps_pure _ ()) (keeps_fromExcept _ client.read)
      (fun chunk => keeps_fromExcept _ (client.write chunk)) closeBody_keeps reply
  have same := same s rfl
  have ended := deliverStreaming_ends client reply s
  have alike := deliverStreaming_erases (poolNative_erasing (H := H) client)
    (fun c => erases_closeBody c) reply s
  have first : (deliverStreaming (poolNative client : Native Pool H B) reply s).1 =
      (deliverStreaming (poolNative client : Native Unit H B) reply ()).1 := congrArg Prod.fst alike
  unfold streams
  rw [← first]
  cases eq : deliverStreaming (poolNative client : Native Pool H B) reply s with
  | mk o t =>
    rw [eq] at same ended
    dsimp only at same
    subst t
    cases o with
    | ok a => rfl
    | raised e => rfl
    | stuck => exact absurd rfl ended

/-- What `serve` returns for a request of which `x` came. -/
def rescued (x : Except Exn Unit) (fine : Fused T) : Fused T :=
  match x with
  | .ok _ => fine
  | .error _ => .notFused

def told (outcomes : Outcomes) (x : Except Exn Unit) (fine : Fused T) : Prog Exn Pool (Fused T) := do
  fromExcept (reports outcomes x)
  pure (rescued x fine)

theorem giveUp_told (client : Client B) (outcomes : Outcomes) (e : Exn) (fine : Fused T) :
    (giveUp (poolNative client : Native Pool H B) outcomes.reports e : Prog Exn Pool (Fused T)) =
      told outcomes (.error e) fine := by
  funext s
  simp only [giveUp, told, reports, rescued, Outcomes.reports, poolNative]
  cases outcomes.exception e with
  | error e' => rfl
  | ok a => cases outcomes.onError e <;> rfl

theorem rescue_told {p : Prog Exn Pool (Fused T)} {client : Client B} {outcomes : Outcomes}
    {x : Except Exn Unit} {fine : Fused T} {s t : Pool}
    (ran : p s = (do fromExcept x; pure fine : Prog Exn Pool (Fused T)) t) :
    rescue p (giveUp (poolNative client : Native Pool H B) outcomes.reports) s =
      told outcomes x fine t := by
  cases x with
  | ok a => exact rescue_ok ran
  | error e =>
    rw [rescue_raised (e := e) (t := t) ran, giveUp_told client outcomes e fine]

theorem fireAfterRequestComplete_completes (outcomes : Outcomes) (status : Int) :
    (outcomes.reports : Reports Pool).fireAfterRequestComplete status =
      fromExcept (completes outcomes status) := by
  unfold Reports.fireAfterRequestComplete completes Outcomes.reports
  cases outcomes.afterRequestComplete <;> rfl

theorem fromExcept_then {α β : Type} (x : Except Exn α) (f : α → Except Exn β) :
    (fromExcept (x >>= f) : Prog Exn Pool β) = fromExcept x >>= fun a => fromExcept (f a) := by
  cases x <;> rfl

theorem fuses_isOk {reply : Reply H B} {chunks : B} {code : Int}
    (joined : reply.toAry = some (.ok chunks)) (status : reply.status = .ok code) :
    fuses (.ok reply) = (accepts reply.head).isOk := by
  simp only [fuses, joined, status]
  rcases reply.head with e | _ | h <;> rfl

theorem respond_pool {client : Client B} {outcomes : Outcomes} {reply : Reply H B}
    {take : Prog Exn Pool (Fused T)} {s t : Pool} {result : Fused T}
    (taken : take s = (.ok result, t)) :
    respond (poolNative client) closeBody outcomes.reports
        (fun head _ => do respondSimple head; take) reply s =
      (do
        fromExcept (delivers client outcomes reply)
        pure (if !outcomes.completes && fuses (.ok reply) then result else .notFused) :
          Prog Exn Pool (Fused T))
        (if !outcomes.completes && fuses (.ok reply) then t else s) := by
  unfold respond delivers
  cases joined : reply.toAry with
  | none =>
    have fused : fuses (.ok reply) = false := by simp [fuses, joined]
    have streaming := deliverStreaming_streams client reply
    unfold deliverStreaming at streaming
    simp only [fireAfterRequestComplete_completes, streaming, fused, fromExcept_then, bind_then,
      Bool.and_false, Bool.false_eq_true, if_false]
  | some joined' =>
    simp only [fromExcept_then, bind_then, respondSimple_accepts, closeBody_closes]
    cases joined' with
    | error e => simp only [fuses, joined, fromExcept_error_bind, Bool.and_false, Bool.false_eq_true,
        if_false]
    | ok chunks =>
      simp only [fromExcept_ok_bind]
      cases status : reply.status with
      | error e => simp only [fuses, joined, status, fromExcept_error_bind, Bool.and_false,
          Bool.false_eq_true, if_false]
      | ok code =>
        simp only [fromExcept_ok_bind, fuses_isOk joined status]
        have simple : (poolNative client : Native Pool H B).sendSimple reply.head chunks =
            fromExcept (accepts reply.head) := respondSimple_accepts reply.head
        cases set : outcomes.afterRequestComplete with
        | some fire =>
          simp only [Outcomes.reports, Outcomes.completes, completes, set, simple, Option.map_some,
            Option.isSome_some, Bool.not_true, Bool.false_and, Bool.false_eq_true, if_false]
        | none =>
          simp only [Outcomes.reports, Outcomes.completes, completes, set, Option.map_none,
            Option.isSome_none, Bool.not_false, Bool.true_and]
          cases accepts reply.head with
          | error e => simp only [fromExcept_error_bind, Except.isOk, Except.toBool,
              Bool.false_eq_true, if_false]
          | ok a =>
            simp only [fromExcept_ok_bind, Except.isOk, Except.toBool, if_true, bind_ok taken]
            cases closes reply.close <;> rfl

section Requests
variable {app : App H B} {clients : Nat → Client B} {hooks : Hooks}

theorem outcomes_completes (hooks : Hooks) (env : Nat) :
    (hooks.outcomes env).completes = hooks.completes := by
  simp [Outcomes.completes, Hooks.outcomes, Hooks.completes]

theorem serve_pool {env : Nat} {take : Prog Exn Pool (Fused T)} {s t : Pool} {result : Fused T}
    (taken : take (Pool.record s [env]) = (.ok result, t)) :
    (pooled app clients hooks).serve env take s =
      told (hooks.outcomes env) (answers app clients hooks env)
        (if !hooks.completes && fuses (app env) then result else .notFused)
        (if !hooks.completes && fuses (app env) then t else Pool.record s [env]) := by
  have called : callApp app env s = fromExcept (app env) (Pool.record s [env]) := rfl
  apply rescue_told
  unfold answers
  cases answer : app env with
  | error e =>
    rw [answer] at called
    have raised : callApp app env s = (.raised e, Pool.record s [env]) := called
    rw [bind_raised raised]
    simp only [fuses, Bool.and_false, Bool.false_eq_true, if_false]
    rfl
  | ok reply =>
    rw [answer] at called
    have got : callApp app env s = (.ok reply, Pool.record s [env]) := called
    rw [bind_ok got, respond_pool taken, outcomes_completes]
    rfl

theorem fused_delivers {client : Client B} {outcomes : Outcomes} {reply : Reply H B}
    (no_hook : outcomes.completes = false) (fused : fuses (.ok reply) = true) :
    delivers client outcomes reply = closes reply.close := by
  have missing : outcomes.afterRequestComplete = none := by
    simpa [Outcomes.completes] using no_hook
  unfold fuses at fused
  dsimp only at fused
  split at fused
  · next joined status head =>
    simp only [delivers, completes, missing, joined, status, head, accepts]
    cases closes reply.close <;> rfl
  · cases fused

/-- One request: it is called, and the take fused with its delivery is made when the answer
    allows, and lost when closing the body raises. -/
theorem serve_pool_cases (app : App H B) (clients : Nat → Client B) (hooks : Hooks) {env : Nat}
    {take : Prog Exn Pool (Fused T)} {s t : Pool} {result : Fused T}
    (taken : take (Pool.record s [env]) = (.ok result, t)) :
    let served := (pooled app clients hooks).serve env take s
    let unfused := (do
      fromExcept (serves app clients hooks env)
      pure .notFused : Prog Exn Pool (Fused T))
    (losesTake hooks.completes (app env) = true ∧ served = unfused t) ∨
    (losesTake hooks.completes (app env) = false ∧
      (served = (.ok result, t) ∧ serves app clients hooks env = .ok () ∨
        served = unfused (Pool.record s [env]))) := by
  simp only [serve_pool taken]
  have same : serves app clients hooks env =
      reports (hooks.outcomes env) (answers app clients hooks env) := rfl
  unfold told losesTake
  rw [same]
  cases fused : !hooks.completes && fuses (app env) with
  | false =>
    right
    refine ⟨rfl, .inr ?_⟩
    simp only [Bool.false_eq_true, if_false]
    cases answers app clients hooks env <;> rfl
  | true =>
    obtain ⟨no_hook, fits⟩ : hooks.completes = false ∧ fuses (app env) = true := by
      simpa using fused
    cases answer : app env with
    | error e => simp [answer, fuses] at fits
    | ok reply =>
      have delivered : answers app clients hooks env = closes reply.close := by
        unfold answers
        rw [answer] at fits ⊢
        exact fused_delivers ((outcomes_completes hooks env).trans no_hook) fits
      rw [delivered]
      simp only [if_true, Bool.true_and, closeRaises]
      cases close : reply.close with
      | absent => exact .inr ⟨rfl, .inl ⟨rfl, rfl⟩⟩
      | returns => exact .inr ⟨rfl, .inl ⟨rfl, rfl⟩⟩
      | raises e => exact .inl ⟨rfl, rfl⟩

end Requests

theorem takeBatch_ok (max : Nat) (s : Pool) : ∃ b t, takeBatch max s = (.ok b, t) := by
  unfold takeBatch
  split <;> exact ⟨_, _, rfl⟩

theorem takeOne_ok (s : Pool) : ∃ b t, takeOne s = (.ok b, t) := by
  unfold takeOne
  split <;> exact ⟨_, _, rfl⟩

theorem record_append (s : Pool) (a b : List Nat) :
    Pool.record (Pool.record s a) b = Pool.record s (a ++ b) := by
  simp [Pool.record]

def afterBatch {α : Type} (take : Prog Exn Pool α) (lost : Bool) (ended : Except Exn Unit) :
    Prog Exn Pool α :=
  if lost then do
    let _ ← take
    fromExcept ended
    take
  else do
    fromExcept ended
    take

theorem afterBatch_lost {α : Type} {take : Prog Exn Pool α} {s t : Pool} {b : α}
    (taken : take s = (.ok b, t)) (ended : Except Exn Unit) :
    afterBatch take true ended s = (do fromExcept ended; take) t :=
  bind_ok taken

section Batches
variable (app : App H B) (clients : Nat → Client B) (hooks : Hooks)

def losesNext (batch : List Nat) : Bool :=
  match batch.getLast? with
  | some r => losesTake hooks.completes (app r)
  | none => false

def ends (batch : List Nat) : Except Exn Unit :=
  match batch.getLast? with
  | some r => serves app clients hooks r
  | none => .ok ()

def cut (batch : List Nat) : Bool := batch.dropLast.any (escapes app clients hooks)

inductive Does {α : Type} (take : Prog Exn Pool α) (envs : List Nat) (s : Pool) :
    Outcome Exn α × Pool → Prop where
  | whole (uncut : cut app clients hooks envs = false) :
      Does take envs s
        (afterBatch take (losesNext app hooks envs) (ends app clients hooks envs) (Pool.record s envs))
  | part (isCut : cut app clients hooks envs = true) {called rest : List Nat}
      (split : envs = called ++ rest) (more : rest ≠ []) (e : Exn) :
      Does take envs s (.raised e, Pool.record s called)

/-- The last request of a batch, with the take that may be fused with its delivery. -/
theorem last_served {α : Type} {take : Prog Exn Pool (Option α)} {env : Nat} {s t : Pool}
    {next : Option α} (taken : take (Pool.record s [env]) = (.ok next, t))
    {f : Fused α → Prog Exn Pool (Option α)} (unfused : f .notFused = take)
    (given : ∀ next, f (.next next) = pure next) :
    Does app clients hooks take [env] s
      (((pooled app clients hooks).serve env (do
        let next ← take
        pure (.next next)) >>= f) s) := by
  have fused : (do let n ← take; pure (Fused.next n)) (Pool.record s [env]) =
      (.ok (.next next), t) := bind_ok taken
  have whole : Does app clients hooks take [env] s (afterBatch take
      (losesTake hooks.completes (app env)) (serves app clients hooks env) (Pool.record s [env])) :=
    .whole rfl
  rcases serve_pool_cases app clients hooks fused with
    ⟨lost, served⟩ | ⟨kept, ⟨served, quiet⟩ | served⟩
  · rw [lost, afterBatch_lost taken] at whole
    rw [bind_same served, bind_then]
    simp only [pure_then, unfused]
    exact whole
  · rw [kept, quiet] at whole
    rw [bind_ok served, given next]
    have took : (pure next : Prog Exn Pool (Option α)) t =
        afterBatch take false (.ok ()) (Pool.record s [env]) := taken.symm
    rwa [took]
  · rw [kept] at whole
    rw [bind_same served, bind_then]
    simp only [pure_then, unfused]
    exact whole

theorem handleOne_does (env : Nat) (s : Pool) :
    Does app clients hooks takeOne [env] s (handleOne (pooled app clients hooks) env s) := by
  obtain ⟨next, t, taken⟩ := takeOne_ok (Pool.record s [env])
  exact last_served app clients hooks taken rfl fun _ => rfl

theorem other_served {env : Nat} {s : Pool} {α : Type} (f : Fused (List Nat) → Prog Exn Pool α) :
    ((pooled app clients hooks).serve env (pure .notFused) >>= f) s =
      (do
        fromExcept (serves app clients hooks env)
        f .notFused) (Pool.record s [env]) := by
  have plain : (pure Fused.notFused : Prog Exn Pool (Fused (List Nat)))
      (Pool.record s [env]) = (.ok .notFused, Pool.record s [env]) := rfl
  have served : (pooled app clients hooks).serve env
      (pure .notFused : Prog Exn Pool (Fused (List Nat))) s =
      (do
        fromExcept (serves app clients hooks env)
        pure .notFused : Prog Exn Pool (Fused (List Nat))) (Pool.record s [env]) := by
    rcases serve_pool_cases app clients hooks plain with
      ⟨-, served⟩ | ⟨-, ⟨served, quiet⟩ | served⟩
    · exact served
    · rw [served, quiet]
      rfl
    · exact served
  rw [bind_same served, bind_then]
  rfl

/-- A batch from any point on: every request in it is called in turn, and then the next
    take is made. -/
theorem processFrom_does (max size : Nat) (envs : List Nat) (index : Nat) (s : Pool)
    (sized : index + envs.length = size) :
    Does app clients hooks (takeBatch max) envs s
      (processFrom (pooled app clients hooks) max size index envs s) := by
  induction envs generalizing index s with
  | nil =>
    have same : (pooled app clients hooks).take (takeBatch max) s =
        afterBatch (takeBatch max) (losesNext app hooks []) (ends app clients hooks [])
          (Pool.record s []) := by
      simp [pooled, losesNext, ends, afterBatch, Pool.record, fromExcept_ok_bind]
    unfold processFrom
    rw [same]
    exact .whole rfl
  | cons env rest ih =>
    unfold processFrom
    cases rest with
    | nil =>
      have at_last : index = size - 1 := by simp at sized; omega
      obtain ⟨next, t, taken⟩ := takeBatch_ok max (Pool.record s [env])
      simp only [at_last, if_true]
      exact last_served app clients hooks taken rfl fun _ => rfl
    | cons other more =>
      have before_last : ¬ index = size - 1 := by simp at sized; omega
      simp only [before_last, if_false]
      rw [other_served app clients hooks]
      have first : cut app clients hooks (env :: other :: more) =
          (escapes app clients hooks env || cut app clients hooks (other :: more)) := by
        simp [cut]
      cases served : serves app clients hooks env with
      | error e =>
        have escaped : escapes app clients hooks env = true := by simp [escapes, served]
        have split : env :: other :: more = [env] ++ other :: more := rfl
        exact .part (by simp [first, escaped]) split (by simp) e
      | ok a =>
        have stays : escapes app clients hooks env = false := by simp [escapes, served]
        have later := ih (index + 1) (Pool.record s [env]) (by simp at sized ⊢; omega)
        rw [fromExcept_ok_bind]
        dsimp only
        generalize processFrom (pooled app clients hooks) max size (index + 1) (other :: more)
          (Pool.record s [env]) = out at later
        rw [stays, Bool.false_or] at first
        cases later with
        | whole uncut =>
          rw [record_append]
          have whole : Does app clients hooks (takeBatch max) (env :: other :: more) s _ :=
            .whole (first.trans uncut)
          simpa [losesNext, ends] using whole
        | part isCut split nonempty e =>
          rw [record_append]
          have part : env :: other :: more = env :: _ ++ _ := congrArg (env :: ·) split
          exact .part (first.trans isCut) part nonempty e

theorem callsAll_cons {batch : List Nat} {rest : List (List Nat)} (nonempty : batch ≠ []) :
    CallsAll app clients hooks (batch :: rest) ↔ cut app clients hooks batch = false ∧
      (losesNext app hooks batch = true → rest = []) ∧
      (ends app clients hooks batch = .ok () → CallsAll app clients hooks rest) := by
  have last : batch.getLast? = some (batch.getLast nonempty) := List.getLast?_eq_some_getLast nonempty
  have stays : escapes app clients hooks (batch.getLast nonempty) = false ↔
      serves app clients hooks (batch.getLast nonempty) = .ok () := by
    unfold escapes
    cases serves app clients hooks (batch.getLast nonempty) <;> simp
  rw [CallsAll]
  simp [cut, losesNext, ends, last, stays]

end Batches

def batches (max : Nat) (waiting : Nat → Nat) : Nat → List Nat → List (List Nat)
  | _, [] => []
  | k, r :: rest =>
    let more := min (max - 1) (waiting k)
    (r :: rest.take more) :: batches max waiting (k + 1) (rest.drop more)
termination_by _ queue => queue.length
decreasing_by simp

def Pool.batches (max : Nat) (s : Pool) : List (List Nat) :=
  KinoTakenServed.batches max s.waiting s.takes s.queue

structure Ended (s : Pool) (o : Outcome Exn Unit) (t : Pool) : Prop where
  ends : o ≠ .stuck
  all : t.taken ++ t.queue = s.taken ++ s.queue
  emptied : o = .ok () → t.queue = []

section Loop
variable {α : Type} {max : Nat} {take : Prog Exn Pool (Option α)} {envs : α → List Nat}
  {body : α → Prog Exn Pool (Option α)} {app : App H B} {clients : Nat → Client B} {hooks : Hooks}

def Takes (max : Nat) (take : Prog Exn Pool (Option α)) (envs : α → List Nat) : Prop :=
  ∀ s, (s.queue = [] ∧ take s = (.ok none, s)) ∨
    ∃ a t, take s = (.ok (some a), t) ∧ Pool.batches max s = envs a :: Pool.batches max t ∧
      t.called = s.called ∧ t.queue.length < s.queue.length ∧
      t.taken = s.taken ++ envs a ∧ t.taken ++ t.queue = s.taken ++ s.queue ∧ envs a ≠ []

theorem batches_record (s : Pool) (called : List Nat) :
    Pool.batches max (Pool.record s called) = Pool.batches max s := rfl

theorem batches_empty {s : Pool} (empty : s.queue = []) : Pool.batches max s = [] := by
  unfold Pool.batches
  rw [empty, KinoTakenServed.batches]

/-- What is called falls short of what was taken, and no later call makes up for it. -/
theorem short_differs {s : Pool} (short : s.called.length < s.taken.length) : s.called ≠ s.taken := by
  intro same
  rw [same] at short
  exact Nat.lt_irrefl _ short

/-- The program comes to its end, with all called that was taken exactly if so. -/
def Finishes (p : Prog Exn Pool Unit) (s : Pool) (so : Prop) : Prop :=
  ∃ o t, p s = (o, t) ∧ Ended s o t ∧ (t.called = t.taken ↔ so)

theorem finishes_same {p q : Prog Exn Pool Unit} {s t : Pool} {so so' : Prop} (same : p s = q t)
    (queued : t.taken ++ t.queue = s.taken ++ s.queue) (iff : so' ↔ so) (finishes : Finishes q t so) :
    Finishes p s so' := by
  obtain ⟨o, u, ran, ⟨ended, all, emptied⟩, calls⟩ := finishes
  exact ⟨o, u, same.trans ran, ⟨ended, all.trans queued, emptied⟩, calls.trans iff.symm⟩

/-- After a batch: the worker ends, finds the queue empty, or has the next batch in hand. -/
theorem next_finishes (takes : Takes max take envs) {fuel : Nat}
    (later : ∀ a s, s.queue.length < fuel → envs a ≠ [] →
      s.called.length + (envs a).length ≤ s.taken.length →
      Finishes (loop body fuel (some a)) s (s.called ++ envs a = s.taken ∧
        CallsAll app clients hooks (envs a :: Pool.batches max s)))
    (ended : Except Exn Unit) (s : Pool) (enough : s.queue.length < fuel + 1)
    (even : s.called.length ≤ s.taken.length) :
    Finishes ((do fromExcept ended; take) >>= loop body fuel) s (s.called = s.taken ∧
      (ended = .ok () → CallsAll app clients hooks (Pool.batches max s))) := by
  cases ended with
  | error e => exact ⟨.raised e, s, rfl, ⟨nofun, rfl, nofun⟩, by simp⟩
  | ok u =>
    have entered : ((do fromExcept (.ok u); take) >>= loop body fuel) s =
        (take >>= loop body fuel) s := bind_same (fromExcept_ok_bind u (fun _ => take) s) _
    rcases takes s with ⟨empty, taken⟩ | ⟨a, t, taken, split, called, shorter, grown, all, nonempty⟩
    · have out : (take >>= loop body fuel) s = (.ok (), s) :=
        (bind_ok taken).trans (loop_none body fuel s)
      refine ⟨.ok (), s, entered.trans out, ⟨nofun, rfl, fun _ => empty⟩, ?_⟩
      simp [batches_empty empty, CallsAll]
    · have same : ((do fromExcept (.ok u); take) >>= loop body fuel) s = loop body fuel (some a) t :=
        entered.trans (bind_ok taken)
      refine finishes_same same all ?_ (later a t (by omega) nonempty ?_)
      · rw [called, grown, split, List.append_cancel_right_eq]
        simp
      · rw [called, grown]
        simp
        omega

theorem loop_finishes (takes : Takes max take envs)
    (does : ∀ a s, Does app clients hooks take (envs a) s (body a s)) (fuel : Nat) (a : α) (s : Pool)
    (enough : s.queue.length < fuel) (nonempty : envs a ≠ [])
    (even : s.called.length + (envs a).length ≤ s.taken.length) :
    Finishes (loop body fuel (some a)) s (s.called ++ envs a = s.taken ∧
      CallsAll app clients hooks (envs a :: Pool.batches max s)) := by
  induction fuel generalizing a s with
  | zero => exact absurd enough (Nat.not_lt_zero _)
  | succ fuel ih =>
    have unrolled : loop body (fuel + 1) (some a) s = (body a >>= loop body fuel) s := rfl
    rw [callsAll_cons app clients hooks nonempty]
    have did := does a s
    generalize ran : body a s = out at did
    cases did with
    | part isCut split more e =>
      refine ⟨_, _, unrolled.trans (bind_raised ran), ⟨nofun, rfl, nofun⟩, iff_of_false ?_ ?_⟩
      · apply short_differs
        have some_left := List.length_pos_iff.mpr more
        rw [split] at even
        simp [Pool.record] at even ⊢
        omega
      · simp [isCut]
    | whole uncut =>
      have next := next_finishes takes fun b s enough nonempty even => ih b s enough nonempty even
      have level : (Pool.record s (envs a)).called.length ≤ (Pool.record s (envs a)).taken.length := by
        simpa [Pool.record] using even
      have after := unrolled.trans (bind_same ran _)
      cases lost : losesNext app hooks (envs a) with
      | false =>
        rw [lost] at after
        refine finishes_same after rfl ?_ (next _ (Pool.record s (envs a)) enough level)
        simp [uncut, Pool.record, Pool.batches]
      | true =>
        rw [lost] at after
        rcases takes (Pool.record s (envs a)) with
          ⟨empty, taken⟩ | ⟨b, t, taken, split, called, shorter, grown, all, some_env⟩
        · -- a lost take and the one after it both find nothing
          rw [bind_same (afterBatch_lost taken _)] at after
          refine finishes_same after rfl ?_ (next _ (Pool.record s (envs a)) enough level)
          have none_left : Pool.batches max s = [] := batches_empty empty
          rw [batches_record, none_left]
          simp [uncut, Pool.record]
        · rw [bind_same (afterBatch_lost taken _)] at after
          have shorter : t.queue.length < s.queue.length := shorter
          have fewer : t.called.length < t.taken.length := by
            have some_left := List.length_pos_iff.mpr some_env
            rw [called, grown]
            simp [Pool.record] at even ⊢
            omega
          refine finishes_same after all ?_ (next _ t (by omega) (Nat.le_of_lt fewer))
          refine iff_of_false ?_ fun both => short_differs fewer both.1
          rintro ⟨-, -, none_left, -⟩
          rw [batches_record] at split
          simp [split] at none_left

end Loop

theorem takeBatch_takes (max : Nat) : Takes max (takeBatch max) id := by
  intro s
  cases queue : s.queue with
  | nil => exact .inl ⟨rfl, by simp [takeBatch, queue]⟩
  | cons r rest =>
    obtain ⟨b, t, taken⟩ := takeBatch_ok max s
    have unfolded := taken
    simp only [takeBatch, queue, Prod.mk.injEq, Outcome.ok.injEq] at unfolded
    obtain ⟨rfl, rfl⟩ := unfolded
    refine .inr ⟨_, _, taken, ?_, rfl, by simp, rfl, by simp, by simp⟩
    unfold Pool.batches
    rw [queue, KinoTakenServed.batches]
    rfl

theorem takeOne_takes {max : Nat} (single : max ≤ 1) : Takes max takeOne fun env => [env] := by
  intro s
  cases queue : s.queue with
  | nil => exact .inl ⟨rfl, by simp [takeOne, queue]⟩
  | cons r rest =>
    have no_more : min (max - 1) (s.waiting s.takes) = 0 := by omega
    obtain ⟨b, t, taken⟩ := takeOne_ok s
    have unfolded := taken
    simp only [takeOne, queue, Prod.mk.injEq, Outcome.ok.injEq] at unfolded
    obtain ⟨rfl, rfl⟩ := unfolded
    refine .inr ⟨_, _, taken, ?_, rfl, by simp, rfl, by simp, by simp⟩
    unfold Pool.batches
    rw [queue, KinoTakenServed.batches]
    simp [no_more]

section Run
variable (app : App H B) (clients : Nat → Client B) (hooks : Hooks)

theorem run_finishes (batchSize fuel : Nat) (s : Pool) (enough : s.queue.length < fuel)
    (even : s.called.length ≤ s.taken.length) :
    Finishes (runPool app clients hooks batchSize fuel) s (s.called = s.taken ∧
      (hooks.afterWorkerBoot = .ok () →
        CallsAll app clients hooks (Pool.batches batchSize s))) := by
  unfold runPool run
  split
  · next single =>
    rw [← bind_then]
    apply next_finishes (takeOne_takes single) _ _ s (by omega) even
    intro env s enough nonempty even
    exact loop_finishes (takeOne_takes single) (handleOne_does app clients hooks) fuel env s enough
      nonempty even
  · rw [← bind_then]
    apply next_finishes (takeBatch_takes batchSize) _ _ s (by omega) even
    intro batch s enough nonempty even
    refine loop_finishes (takeBatch_takes batchSize) ?_ fuel batch s enough nonempty even
    intro batch s
    exact processFrom_does app clients hooks batchSize _ batch 0 s (by simp)

end Run

def badClose : Reply Nat String :=
  ⟨.ok 200, .ok (some 200), some (.ok "hi"), none, none, .raises "close failed"⟩

def goodClose : Reply Nat String :=
  ⟨.ok 200, .ok (some 200), some (.ok "hi"), none, none, .returns⟩

def listener : Client String := ⟨fun _ => .ok (), .ok none⟩

def logged : Hooks where
  afterWorkerBoot := .ok ()
  afterRequestComplete := none
  exception _ e :=
    match e with
    | .text _ => .ok ()
    | .bytes _ => .error "incompatible character encodings: UTF-8 and BINARY (ASCII-8BIT)"
  onError _ _ := .ok ()

end KinoTakenServed
