import Kino.TakenServed
import Kino.StreamEnd

/-!
The hooks in the worker's loop (lib/kino/worker.rb with hook_fire.rb and worker_hooks.rb) and
its measuring for the access log. A hook and the app do as they like with a world of their own;
`hooks` being nil is the same as all of them missing.
-/
namespace KinoWorkerHooks
open Programs KinoWorker KinoTakenServed

variable {W σ H B T : Type}

structure WorkerHooks (W : Type) where
  onError : Option (Exn → Nat → Prog Exn W Unit)
  afterWorkerBoot : Option (Nat → Prog Exn W Unit)
  afterRequestComplete : Option (Nat → Int → Prog Exn W Unit)
  accessTiming : Bool

def WorkerHooks.completes (hooks : WorkerHooks W) : Bool := hooks.afterRequestComplete.isSome

structure Vm (W : Type) where
  totalTime : W → Nat
  totalAllocatedObjects : W → Nat
  effect : Nat → W → W

structure Log where
  error : String → Exn → Except Exn Unit
  exception : Nat → Exn → Except Exn Unit

inductive Event (σ : Type) where
  | booted (workerId : Nat) (found : σ)
  | called (env : Nat)
  | timing (env gcNanos allocs : Nat)
  | completed (env : Nat) (status : Int) (found : σ)
  | report (env : Nat) (e : Exn)
  | failed (env : Nat) (e : Exn) (found : σ)
  | hookRaised (name : String) (e : Exn)

structure Aside (W σ : Type) where
  world : W
  events : List (Event σ)

def record (event : σ → Event σ) : Prog Exn (Aside W σ × σ) Unit :=
  update fun s => ({ s.1 with events := s.1.events ++ [event s.2] }, s.2)

def onWorld (p : Prog Exn W Unit) : Prog Exn (Aside W σ × σ) Unit := fun s =>
  ((p s.1.world).1, { s.1 with world := (p s.1.world).2 }, s.2)

def reading (total : W → Nat) : Prog Exn (Aside W σ × σ) Nat := fun s => (.ok (total s.1.world), s)

/-- `HookFire.fire`, and the call itself on record. Nothing rescues an error of the log. -/
def fire (log : Log) (hook : Option (Prog Exn W Unit)) (name : String) (event : σ → Event σ) :
    Prog Exn (Aside W σ × σ) Unit :=
  match hook with
  | none => pure ()
  | some call => do
    record event
    rescue (onWorld call) fun e => do
      fromExcept (log.error name e)
      record fun _ => .hookRaised name e

def fireAfterWorkerBoot (log : Log) (hooks : WorkerHooks W) (workerId : Nat) :
    Prog Exn (Aside W σ × σ) Unit :=
  fire log (hooks.afterWorkerBoot.map fun hook => hook workerId) "after_worker_boot"
    (.booted workerId)

def reports (log : Log) (hooks : WorkerHooks W) (env : Nat) : Reports (Aside W σ × σ) where
  afterRequestComplete := hooks.afterRequestComplete.map fun hook status =>
    fire log (some (hook env status)) "after_request_complete" (.completed env status)
  exception e := do
    fromExcept (log.exception env e)
    record fun _ => .report env e
  onError e := fire log (hooks.onError.map fun hook => hook e env) "on_error" (.failed env e)

/-- `app.call(env)`, and what it does to the world. -/
def appCall (vm : Vm W) (call : Prog Exn σ (Reply H B)) (env : Nat) :
    Prog Exn (Aside W σ × σ) (Reply H B) := do
  update fun s => ({ s.1 with world := vm.effect env s.1.world }, s.2)
  lift call

def timedCall (vm : Vm W) (call : Prog Exn σ (Reply H B)) (hooks : WorkerHooks W) (env : Nat) :
    Prog Exn (Aside W σ × σ) (Reply H B) := do
  record fun _ => .called env
  if hooks.accessTiming then
    let gcBefore ← reading vm.totalTime
    let allocatedBefore ← reading vm.totalAllocatedObjects
    let reply ← appCall vm call env
    let gcAfter ← reading vm.totalTime
    let allocated ← reading vm.totalAllocatedObjects
    record fun _ => .timing env (gcAfter - gcBefore) (allocated - allocatedBefore)
    pure reply
  else appCall vm call env

def serve (native : Native σ H B) (vm : Vm W) (log : Log) (call : Prog Exn σ (Reply H B))
    (hooks : WorkerHooks W) (env : Nat)
    (deliver : Except Exn (Option H) → B → Prog Exn σ (Fused T)) :
    Prog Exn (Aside W σ × σ) (Fused T) :=
  KinoWorker.serve native.lifted (timedCall vm call hooks env) (reports log hooks env)
    fun head chunks => lift (deliver head chunks)

def hooked (vm : Vm W) (log : Log) (app : App H B) (clients : Nat → Client B)
    (hooks : WorkerHooks W) : Serving (Aside W Pool × Pool) where
  serve env next :=
    serve (poolNative (clients env)) vm log (callApp app env) hooks env fun head _ => do
      respondSimple head
      next
  take p := lift p

def run (vm : Vm W) (log : Log) (app : App H B) (clients : Nat → Client B) (hooks : WorkerHooks W)
    (workerId batchSize fuel : Nat) : Prog Exn (Aside W Pool × Pool) Unit :=
  KinoWorker.run (hooked vm log app clients hooks) (fireAfterWorkerBoot log hooks workerId)
    batchSize fuel

/-! One request. -/

structure WorkerHooks.Return (hooks : WorkerHooks W) : Prop where
  onError : ∀ hook ∈ hooks.onError, ∀ e env, Ends (hook e env)
  afterWorkerBoot : ∀ hook ∈ hooks.afterWorkerBoot, ∀ workerId, Ends (hook workerId)
  afterRequestComplete : ∀ hook ∈ hooks.afterRequestComplete, ∀ env status, Ends (hook env status)

structure Log.Takes (log : Log) : Prop where
  error : ∀ name e, log.error name e = .ok ()
  exception : ∀ env e, log.exception env e = .ok ()

/-- A hook's call, if there is a hook, and what became of it. -/
inductive Fired (name : String) (event : Event σ) : Bool → List (Event σ) → Prop where
  | missing : Fired name event false []
  | called : Fired name event true [event]
  | raised (e : Exn) : Fired name event true [event, .hookRaised name e]

section Takes
variable {log : Log} (takes : log.Takes)
include takes

theorem fire_tells (hook : Option (Prog Exn W Unit)) (name : String) (event : σ → Event σ)
    (a : Aside W σ) (s : σ) :
    ∃ o b told, fire log hook name event (a, s) = (o, b, s) ∧
      Fired name (event s) hook.isSome told ∧ b.events = a.events ++ told ∧
      (o = .ok () ∨ o = .stuck ∧ ∃ call ∈ hook, ¬Ends call) := by
  cases hook with
  | none => exact ⟨.ok (), a, [], rfl, .missing, by simp, .inl rfl⟩
  | some call =>
    let b : Aside W σ := { a with events := a.events ++ [event s] }
    have recorded : fire log (some call) name event (a, s) =
        rescue (onWorld call) (fun e => record fun _ => .hookRaised name e) (b, s) := by
      unfold fire
      simp only [takes.error]
      rfl
    rw [recorded]
    cases ran : call a.world with
    | mk o w =>
      have ran' : onWorld call (b, s) = (o, { b with world := w }, s) := by
        simp only [onWorld, b, ran]
      cases o with
      | ok u =>
        have done : rescue (onWorld call) (fun e => record fun _ => .hookRaised name e) (b, s) =
            (.ok (), { b with world := w }, s) := by simp only [rescue, ran']
        exact ⟨.ok (), { b with world := w }, [event s], done, .called, rfl, .inl rfl⟩
      | raised e =>
        refine ⟨.ok (), { b with world := w, events := b.events ++ [.hookRaised name e] },
          [event s, .hookRaised name e], ?_, .raised e, by simp [b], .inl rfl⟩
        rw [rescue_raised ran']
        rfl
      | stuck =>
        refine ⟨.stuck, { b with world := w }, [event s], rescue_stuck ran', .called, rfl, ?_⟩
        right
        exact ⟨rfl, call, rfl, fun ends => ends a.world (by rw [ran])⟩

theorem fire_then (hook : Option (Prog Exn W Unit)) (name : String) (event : σ → Event σ)
    (a : Aside W σ) (s : σ) {α : Type} (x : α) :
    ∃ o b told, (do fire log hook name event; pure x) (a, s) = (o, b, s) ∧
      Fired name (event s) hook.isSome told ∧ b.events = a.events ++ told ∧
      (o = .ok x ∨ o = .stuck ∧ ∃ call ∈ hook, ¬Ends call) := by
  obtain ⟨o, b, told, ran, fired, events, done | ⟨hangs, why⟩⟩ :=
    fire_tells takes hook name event a s
  · subst done
    exact ⟨.ok x, b, told, bind_ok ran, fired, events, .inl rfl⟩
  · subst hangs
    refine ⟨.stuck, b, told, ?_, fired, events, .inr ⟨rfl, why⟩⟩
    simp only [bind, ran]

end Takes

theorem fireAfterRequestComplete_fires (log : Log) (hooks : WorkerHooks W) (env : Nat)
    (status : Int) :
    (reports log hooks env : Reports (Aside W σ × σ)).fireAfterRequestComplete status =
      fire log (hooks.afterRequestComplete.map fun hook => hook env status)
        "after_request_complete" (.completed env status) := by
  unfold Reports.fireAfterRequestComplete reports
  cases hooks.afterRequestComplete <;> rfl

theorem quiet_completes (hook : Bool) (status : Int) :
    ((Outcomes.quiet hook).reports : Reports σ).fireAfterRequestComplete status = pure () := by
  cases hook <;> rfl

/-- What `serve` without hooks does with the app's reply. -/
def answered (native : Native σ H B) (completes : Bool)
    (deliver : Except Exn (Option H) → B → Prog Exn σ (Fused T)) (reply : Reply H B) :
    Prog Exn σ (Fused T) :=
  respond native closeBody (Outcomes.quiet completes).reports deliver reply

/-- `status.to_i`, where it does not raise. -/
def statusOf (reply : Reply H B) : Int := reply.status.toOption.getD 0

theorem respond_answered (native : Native σ H B) (log : Log) (hooks : WorkerHooks W) (env : Nat)
    (deliver : Except Exn (Option H) → B → Prog Exn σ (Fused T)) (reply : Reply H B) :
    respond native.lifted closeBody (reports log hooks env)
        (fun head chunks => lift (deliver head chunks)) reply = (do
      let result ← lift (answered native hooks.completes deliver reply)
      (reports log hooks env : Reports (Aside W σ × σ)).fireAfterRequestComplete (statusOf reply)
      pure result) := by
  have fires := fireAfterRequestComplete_fires (σ := σ) log hooks env
  have streams : deliverStreamingWith (native.lifted : Native (Aside W σ × σ) H B) closeBody reply =
      lift (deliverStreamingWith native closeBody reply) := deliverStreaming_lifted native reply
  unfold answered respond statusOf
  cases reply.toAry with
  | none =>
    cases reply.status with
    | error e => simp only [error_then, lift_raise, raise_then]
    | ok code => simp only [ok_then, streams, quiet_completes, lift_bind, bind_then, pure_then,
        lift_pure, Except.toOption, Option.getD_some]
  | some joined =>
    cases joined with
    | error e => simp only [error_then, lift_raise, raise_then]
    | ok chunks =>
      cases reply.status with
      | error e => simp only [ok_then, error_then, lift_raise, raise_then]
      | ok code =>
        simp only [ok_then, fires, closeBody_lifted, Except.toOption, Option.getD_some]
        unfold reports Outcomes.quiet WorkerHooks.completes
        cases hooks.afterRequestComplete with
        | none =>
          simp only [Outcomes.reports, Option.isSome_none, Option.map_none, Bool.false_eq_true,
            if_false, lift_bind, bind_then, pure_then, lift_pure, fire]
        | some hook =>
          simp only [Outcomes.reports, Option.isSome_some, Option.map_some, if_true, lift_bind,
            bind_then, pure_then, lift_pure, ok_then]
          rfl

def opening (vm : Vm W) (hooks : WorkerHooks W) (env : Nat) (w : W) : List (Event σ) :=
  .called env :: if hooks.accessTiming then
    [.timing env (vm.totalTime (vm.effect env w) - vm.totalTime w)
      (vm.totalAllocatedObjects (vm.effect env w) - vm.totalAllocatedObjects w)]
  else []

section Serve
variable {native : Native σ H B} {vm : Vm W} {call : Prog Exn σ (Reply H B)} {log : Log}
  {hooks : WorkerHooks W} {env : Nat} {deliver : Except Exn (Option H) → B → Prog Exn σ (Fused T)}

theorem timedCall_returns {reply : Reply H B} {s t : σ} (said : call s = (.ok reply, t))
    (a : Aside W σ) :
    timedCall vm call hooks env (a, s) = (.ok reply,
      ⟨vm.effect env a.world, a.events ++ opening vm hooks env a.world⟩, t) := by
  unfold timedCall opening
  cases timing : hooks.accessTiming <;>
    simp [bind, record, update, reading, appCall, lift, said, pure]

theorem timedCall_raises (vm : Vm W) (hooks : WorkerHooks W) (env : Nat) {e : Exn} {s t : σ}
    (said : call s = (.raised e, t)) (a : Aside W σ) :
    timedCall vm call hooks env (a, s) = (.raised e,
      ⟨vm.effect env a.world, a.events ++ [.called env]⟩, t) := by
  unfold timedCall
  cases timing : hooks.accessTiming <;>
    simp [bind, record, update, reading, appCall, lift, said]

/-- One request's part of the record, whatever its hooks come to. `found` is the state of the
    requests when the request is done with. -/
inductive Tale (vm : Vm W) (hooks : WorkerHooks W) (env : Nat) (found : σ) (w : W) :
    Except Exn (Reply H B) → List (Event σ) → Prop where
  | completed (reply : Reply H B) {code : Int} {told : List (Event σ)}
      (status : reply.status = .ok code)
      (fired : Fired "after_request_complete" (.completed env code found) hooks.completes told) :
      Tale vm hooks env found w (.ok reply) (opening vm hooks env w ++ told)
  | undelivered (reply : Reply H B) (e : Exn) {told : List (Event σ)}
      (fired : Fired "on_error" (.failed env e found) hooks.onError.isSome told) :
      Tale vm hooks env found w (.ok reply) (opening vm hooks env w ++ .report env e :: told)
  | raised (e : Exn) {told : List (Event σ)}
      (fired : Fired "on_error" (.failed env e found) hooks.onError.isSome told) :
      Tale vm hooks env found w (.error e) (.called env :: .report env e :: told)

structure Follows (hooks : WorkerHooks W) (hooked : Outcome Exn (Fused T) × Aside W σ × σ)
    (plain : Outcome Exn (Fused T) × σ) : Prop where
  state : hooked.2.2 = plain.2
  outcome : hooked.1 = plain.1 ∨ hooked.1 = .stuck ∧ (∃ r, plain.1 = .ok r) ∧ ¬hooks.Return

def plainServe (native : Native σ H B) (call : Prog Exn σ (Reply H B)) (hooks : WorkerHooks W)
    (deliver : Except Exn (Option H) → B → Prog Exn σ (Fused T)) : Prog Exn σ (Fused T) :=
  KinoWorker.serve native call (Outcomes.quiet hooks.completes).reports deliver

theorem plain_raised {s t : σ} {e : Exn} {r : Fused T}
    (raised : (call >>= answered native hooks.completes deliver) s = (.raised e, t))
    (done : (plainServe native call hooks deliver s).1 = .ok r) :
    ∃ u, native.abort t = (.ok (), u) ∧
      plainServe native call hooks deliver s = (.ok .notFused, u) := by
  have same : plainServe native call hooks deliver s = (do
      native.abort
      pure .notFused : Prog Exn σ (Fused T)) t := rescue_raised raised
  rw [same] at done ⊢
  cases aborted : native.abort t with
  | mk o u =>
    cases o with
    | ok _ => exact ⟨u, rfl, bind_ok aborted⟩
    | raised e' => simp [bind_raised aborted] at done
    | stuck => simp [bind, aborted] at done

theorem answered_status {completes : Bool} {reply : Reply H B} {s t : σ} {r : Fused T}
    (ran : answered native completes deliver reply s = (.ok r, t)) :
    reply.status = .ok (statusOf reply) := by
  unfold answered respond at ran
  unfold statusOf
  cases status : reply.status with
  | ok code => rfl
  | error e =>
    cases joined : reply.toAry with
    | none => simp only [joined, status, error_then, raise_run, Prod.mk.injEq, reduceCtorEq,
        false_and] at ran
    | some joined' =>
      cases joined' <;>
        simp only [joined, status, ok_then, error_then, raise_run, Prod.mk.injEq, reduceCtorEq,
          false_and] at ran

variable (takes : log.Takes)
include takes

theorem completed_follows (hooks : WorkerHooks W) (env : Nat) (a : Aside W σ) (t : σ)
    (status : Int) (result : Fused T) :
    Follows hooks ((do
      (reports log hooks env).fireAfterRequestComplete status
      pure result) (a, t)) (.ok result, t) ∧
    ∃ told, ((do
      (reports log hooks env).fireAfterRequestComplete status
      pure result : Prog Exn (Aside W σ × σ) (Fused T)) (a, t)).2.1.events = a.events ++ told ∧
      Fired "after_request_complete" (.completed env status t) hooks.completes told := by
  obtain ⟨o, b, told, ran, fired, events, out⟩ := fire_then takes
    (hooks.afterRequestComplete.map fun hook => hook env status) "after_request_complete"
    (.completed env status) a t result
  rw [Option.isSome_map] at fired
  rw [fireAfterRequestComplete_fires, ran]
  refine ⟨⟨rfl, ?_⟩, told, events, fired⟩
  rcases out with done | ⟨hangs, call, member, endless⟩
  · exact .inl done
  · refine .inr ⟨hangs, ⟨result, rfl⟩, fun returns => ?_⟩
    obtain ⟨hook, set, rfl⟩ := Option.mem_map.mp member
    exact endless (returns.afterRequestComplete hook set env status)

/-- After the abort, the report has been made and the error's hook is the last to run. -/
theorem giveUp_follows (hooks : WorkerHooks W) (env : Nat) (a : Aside W σ) {s t : σ} (e : Exn)
    (aborted : native.abort s = (.ok (), t)) :
    Follows hooks ((giveUp native.lifted (reports log hooks env) e : Prog Exn _ (Fused T)) (a, s))
      (.ok .notFused, t) ∧
    ∃ told, ((giveUp native.lifted (reports log hooks env) e : Prog Exn _ (Fused T))
        (a, s)).2.1.events = a.events ++ .report env e :: told ∧
      Fired "on_error" (.failed env e t) hooks.onError.isSome told := by
  have same : (giveUp native.lifted (reports log hooks env) e : Prog Exn _ (Fused T)) (a, s) = (do
      fire log (hooks.onError.map fun hook => hook e env) "on_error" (.failed env e)
      pure .notFused : Prog Exn _ (Fused T))
        ({ a with events := a.events ++ [.report env e] }, t) := by
    have reported : (reports log hooks env : Reports (Aside W σ × σ)).exception e =
        record fun _ => .report env e := by
      simp only [reports, takes.exception, ok_then]
    unfold giveUp
    rw [reported]
    simp only [bind, record, update, Native.lifted, lift, aborted]
    rfl
  obtain ⟨o, b, told, ran, fired, events, out⟩ := fire_then takes
    (hooks.onError.map fun hook => hook e env) "on_error" (.failed env e)
    { a with events := a.events ++ [.report env e] } t (Fused.notFused (T := T))
  rw [Option.isSome_map] at fired
  rw [same, ran]
  refine ⟨⟨rfl, ?_⟩, told, by simp [events], fired⟩
  rcases out with done | ⟨hangs, call, member, endless⟩
  · exact .inl done
  · refine .inr ⟨hangs, ⟨.notFused, rfl⟩, fun returns => ?_⟩
    obtain ⟨hook, set, rfl⟩ := Option.mem_map.mp member
    exact endless (returns.onError hook set e env)

/-- One request with its hooks against the same request without them. -/
theorem serve_tells (vm : Vm W) (env : Nat) {x : Except Exn (Reply H B)} {s t : σ}
    (said : call s = fromExcept x t) (a : Aside W σ) {r : Fused T}
    (done : (plainServe native call hooks deliver s).1 = .ok r) :
    Follows hooks (serve native vm log call hooks env deliver (a, s))
      (plainServe native call hooks deliver s) ∧
    ∃ tale, (serve native vm log call hooks env deliver (a, s)).2.1.events = a.events ++ tale ∧
      Tale vm hooks env (plainServe native call hooks deliver s).2 a.world x tale := by
  cases x with
  | error e =>
    have raised : (call >>= answered native hooks.completes deliver) s = (.raised e, t) :=
      bind_raised said
    obtain ⟨u, aborted, plain⟩ := plain_raised raised done
    have hooked : serve native vm log call hooks env deliver (a, s) =
        giveUp native.lifted (reports log hooks env) e _ :=
      rescue_raised (bind_raised (timedCall_raises vm hooks env said a))
    rw [hooked, plain]
    obtain ⟨follows, told, events, fired⟩ := giveUp_follows (T := T) takes hooks env
      ⟨vm.effect env a.world, a.events ++ [.called env]⟩ e aborted
    exact ⟨follows, .called env :: .report env e :: told, by simp [events], .raised e fired⟩
  | ok reply =>
    let b : Aside W σ := ⟨vm.effect env a.world, a.events ++ opening vm hooks env a.world⟩
    have entered : (do
        let reply ← timedCall vm call hooks env
        respond native.lifted closeBody (reports log hooks env)
          (fun head chunks => lift (deliver head chunks)) reply) (a, s) = (do
          let result ← lift (answered native hooks.completes deliver reply)
          (reports log hooks env).fireAfterRequestComplete (statusOf reply)
          pure result : Prog Exn (Aside W σ × σ) (Fused T)) (b, t) := by
      rw [bind_ok (timedCall_returns said a), respond_answered]
    have first : (call >>= answered native hooks.completes deliver) s =
        answered native hooks.completes deliver reply t := bind_ok said
    cases ran : answered native hooks.completes deliver reply t with
    | mk o u =>
      have lifted : (lift (answered native hooks.completes deliver reply) :
          Prog Exn (Aside W σ × σ) (Fused T)) (b, t) = (o, b, u) := by simp only [lift, ran]
      cases o with
      | ok result =>
        have plain : plainServe native call hooks deliver s = (.ok result, u) :=
          rescue_ok (first.trans ran)
        obtain ⟨follows, told, events, fired⟩ :=
          completed_follows takes hooks env b u (statusOf reply) result
        obtain ⟨o, c, v, fires⟩ : ∃ o c v, (do
            (reports log hooks env).fireAfterRequestComplete (statusOf reply)
            pure result : Prog Exn (Aside W σ × σ) (Fused T)) (b, u) = (o, c, v) := ⟨_, _, _, rfl⟩
        rw [fires] at follows events
        have unraised : ∀ e, o ≠ .raised e := by
          rintro e rfl
          rcases follows.outcome with same | ⟨same, -⟩ <;> cases same
        have hooked : serve native vm log call hooks env deliver (a, s) = (o, c, v) := by
          unfold serve KinoWorker.serve serveWith rescue
          rw [entered, bind_ok lifted, fires]
          cases o with
          | ok _ => rfl
          | raised e => exact absurd rfl (unraised e)
          | stuck => rfl
        rw [hooked, plain]
        exact ⟨follows, opening vm hooks env a.world ++ told,
          events.trans (List.append_assoc _ _ _), .completed reply (answered_status ran) fired⟩
      | raised e =>
        obtain ⟨v, aborted, plain⟩ := plain_raised (first.trans ran) done
        have hooked : serve native vm log call hooks env deliver (a, s) =
            giveUp native.lifted (reports log hooks env) e (b, u) :=
          rescue_raised (entered.trans (bind_raised lifted))
        rw [hooked, plain]
        obtain ⟨follows, told, events, fired⟩ := giveUp_follows (T := T) takes hooks env b e aborted
        exact ⟨follows, opening vm hooks env a.world ++ .report env e :: told, by simp [events, b],
          .undelivered reply e fired⟩
      | stuck =>
        have plain : plainServe native call hooks deliver s = (.stuck, u) :=
          rescue_stuck (first.trans ran)
        rw [plain] at done
        cases done

end Serve

/-! The whole loop. -/

def Recorded (vm : Vm W) (hooks : WorkerHooks W) (app : App H B) (boot : List (Event Pool))
    (s : Aside W Pool × Pool) : Prop :=
  ∃ tales, s.1.events = boot ++ tales.flatten ∧
    List.Forall₂ (fun env tale => ∃ found w, Tale vm hooks env found w (app env) tale)
      s.2.called tales

section Runs
variable {vm : Vm W} {hooks : WorkerHooks W} {app : App H B} {boot : List (Event Pool)}

def Gives {α : Type} (next : Prog Exn Pool α) : Prop :=
  ∀ s, ∃ result t, next s = (.ok result, t) ∧ t.called = s.called

theorem gives_pure {α : Type} (a : α) : Gives (pure a : Prog Exn Pool α) := fun s => ⟨a, s, rfl, rfl⟩

theorem gives_bind {α β : Type} {p : Prog Exn Pool α} {f : α → Prog Exn Pool β} (first : Gives p)
    (second : ∀ a, Gives (f a)) : Gives (p >>= f) := by
  intro s
  obtain ⟨a, t, ran, same⟩ := first s
  obtain ⟨b, u, ran', same'⟩ := second a t
  exact ⟨b, u, (bind_ok ran).trans ran', same'.trans same⟩

theorem takeOne_gives : Gives takeOne := by
  intro s
  unfold takeOne
  split
  · exact ⟨none, s, rfl, rfl⟩
  · exact ⟨_, _, rfl, rfl⟩

theorem takeBatch_gives (max : Nat) : Gives (takeBatch max) := by
  intro s
  unfold takeBatch
  split
  · exact ⟨none, s, rfl, rfl⟩
  · exact ⟨_, _, rfl, rfl⟩

theorem quiet_serves (app : App H B) (clients : Nat → Client B) (hook : Bool) (env : Nat) :
    serves app clients (Hooks.quiet hook) env = .ok () := by
  unfold serves KinoTakenServed.reports
  cases answers app clients (Hooks.quiet hook) env <;> rfl

def plain (app : App H B) (clients : Nat → Client B) (hooks : WorkerHooks W) : Serving Pool :=
  pooled app clients (Hooks.quiet hooks.completes)

theorem plain_serve (app : App H B) (clients : Nat → Client B) (hooks : WorkerHooks W) (env : Nat)
    (next : Prog Exn Pool (Fused T)) :
    (plain app clients hooks).serve env next =
      plainServe (poolNative (clients env)) (callApp app env) hooks
        (fun head _ => do respondSimple head; next) := by
  have same : (Hooks.quiet hooks.completes).outcomes env = Outcomes.quiet hooks.completes := by
    unfold Hooks.quiet Hooks.outcomes Outcomes.quiet
    cases hooks.completes <;> rfl
  change KinoWorker.serve _ _ ((Hooks.quiet hooks.completes).outcomes env).reports _ = _
  rw [same]
  rfl

theorem serve_gives (app : App H B) (clients : Nat → Client B) (hooks : WorkerHooks W) (env : Nat)
    {next : Prog Exn Pool (Fused T)} (gives : Gives next) (s : Pool) :
    ∃ r t, (plain app clients hooks).serve env next s = (.ok r, t) ∧
      t.called = s.called ++ [env] := by
  obtain ⟨result, t, taken, same⟩ := gives (Pool.record s [env])
  have cases := serve_pool_cases app clients (Hooks.quiet hooks.completes) taken
  rw [quiet_serves] at cases
  rcases cases with ⟨-, served⟩ | ⟨-, ⟨served, -⟩ | served⟩
  · exact ⟨.notFused, t, served, same⟩
  · exact ⟨result, t, served, same⟩
  · exact ⟨.notFused, Pool.record s [env], served, rfl⟩

structure Alike {α : Type} (vm : Vm W) (hooks : WorkerHooks W) (app : App H B)
    (boot : List (Event Pool)) (q : Prog Exn (Aside W Pool × Pool) α) (p : Prog Exn Pool α) : Prop where
  erases : hooks.Return → Erases Prod.snd q p
  records : Keeps (Recorded vm hooks app boot) q

theorem alike_pure {α : Type} (a : α) : Alike vm hooks app boot (pure a) (pure a) :=
  ⟨fun _ => erases_pure a, keeps_pure _ a⟩

theorem alike_bind {α β : Type} {q : Prog Exn (Aside W Pool × Pool) α} {p : Prog Exn Pool α}
    {g : α → Prog Exn (Aside W Pool × Pool) β} {f : α → Prog Exn Pool β}
    (first : Alike vm hooks app boot q p) (second : ∀ a, Alike vm hooks app boot (g a) (f a)) :
    Alike vm hooks app boot (q >>= g) (p >>= f) :=
  ⟨fun returns => erases_bind (first.erases returns) fun a => (second a).erases returns,
    keeps_bind first.records fun a => (second a).records⟩

theorem alike_take {α : Type} {p : Prog Exn Pool α} (gives : Gives p) :
    Alike vm hooks app boot (lift p) p := by
  refine ⟨fun _ => erases_lift p, ?_⟩
  rintro s ⟨tales, events, each⟩
  obtain ⟨a, t, ran, same⟩ := gives s.2
  refine ⟨tales, events, ?_⟩
  simp only [lift, ran]
  rwa [same]

variable {log : Log} (takes : log.Takes) (clients : Nat → Client B)
include takes

theorem alike_serve (env : Nat) {next : Prog Exn Pool (Fused T)} (gives : Gives next) :
    Alike vm hooks app boot ((hooked vm log app clients hooks).serve env next)
      ((plain app clients hooks).serve env next) := by
  constructor
  · intro returns s
    obtain ⟨r, t, served, -⟩ := serve_gives app clients hooks env gives s.2
    rw [plain_serve] at served ⊢
    have said : callApp app env s.2 = fromExcept (app env) (Pool.record s.2 [env]) := rfl
    obtain ⟨⟨state, outcome⟩, -⟩ := serve_tells takes vm env said s.1 (congrArg Prod.fst served)
    refine Prod.ext ?_ state
    rcases outcome with same | ⟨-, -, endless⟩
    · exact same
    · exact absurd returns endless
  · rintro s ⟨tales, events, each⟩
    obtain ⟨r, t, served, called⟩ := serve_gives app clients hooks env gives s.2
    rw [plain_serve] at served
    have said : callApp app env s.2 = fromExcept (app env) (Pool.record s.2 [env]) := rfl
    obtain ⟨⟨state, -⟩, tale, told, about⟩ :=
      serve_tells takes vm env said s.1 (congrArg Prod.fst served)
    rw [served] at state
    refine ⟨tales ++ [tale], ?_, ?_⟩
    · refine Eq.trans told ?_
      rw [events]
      simp
    · have found : ((hooked vm log app clients hooks).serve env next s).2.2.called =
          s.2.called ++ [env] := (congrArg Pool.called state).trans called
      rw [found]
      exact List.rel_append each (.cons ⟨_, _, about⟩ .nil)

theorem handleOne_alike (env : Nat) :
    Alike vm hooks app boot (handleOne (hooked vm log app clients hooks) env)
      (handleOne (plain app clients hooks) env) := by
  have gives : Gives (do let next ← takeOne; pure (Fused.next next)) :=
    gives_bind takeOne_gives fun next => gives_pure (Fused.next next)
  refine alike_bind (alike_serve takes clients env gives) fun result => ?_
  cases result with
  | notFused => exact alike_take takeOne_gives
  | next next => exact alike_pure next

theorem processFrom_alike (batchSize size index : Nat) (batch : List Nat) :
    Alike vm hooks app boot
      (processFrom (hooked vm log app clients hooks) batchSize size index batch)
      (processFrom (plain app clients hooks) batchSize size index batch) := by
  induction batch generalizing index with
  | nil => exact alike_take (takeBatch_gives batchSize)
  | cons env rest ih =>
    have gives : Gives (if index = size - 1 then do
          let next ← takeBatch batchSize
          pure (Fused.next next)
        else pure Fused.notFused) := by
      split
      · exact gives_bind (takeBatch_gives batchSize) fun next => gives_pure (Fused.next next)
      · exact gives_pure Fused.notFused
    refine alike_bind (alike_serve takes clients env gives) fun result => ?_
    cases result with
    | notFused => exact ih (index + 1)
    | next next =>
      by_cases last : index = size - 1
      · simp only [last, if_true]
        exact alike_pure next
      · simp only [last, if_false]
        exact ih (index + 1)

omit takes in
theorem loop_alike {α : Type} {body' : α → Prog Exn (Aside W Pool × Pool) (Option α)}
    {body : α → Prog Exn Pool (Option α)} (each : ∀ a, Alike vm hooks app boot (body' a) (body a))
    (fuel : Nat) (start : Option α) :
    Alike vm hooks app boot (loop body' fuel start) (loop body fuel start) :=
  ⟨fun returns => erases_loop (fun a => (each a).erases returns) fuel start,
    keeps_loop (fun a => (each a).records) fuel start⟩

theorem run_alike (batchSize fuel : Nat) :
    Alike vm hooks app boot
      (KinoWorker.run (hooked vm log app clients hooks) (pure ()) batchSize fuel)
      (KinoWorker.run (plain app clients hooks) (pure ()) batchSize fuel) := by
  unfold KinoWorker.run
  refine alike_bind (alike_pure ()) fun _ => ?_
  split
  · refine alike_bind (alike_take takeOne_gives) fun env => ?_
    exact loop_alike (handleOne_alike takes clients) fuel env
  · refine alike_bind (alike_take (takeBatch_gives batchSize)) fun batch => ?_
    exact loop_alike (fun b => processFrom_alike takes clients batchSize b.length 0 b) fuel batch

end Runs

/-- Where every line can be logged no request ends the worker; with the completion hook set no
    delivery is fused with a take, and none is lost. -/
theorem quiet_calls_all (app : App H B) (clients : Nat → Client B) (bs : List (List Nat)) :
    CallsAll app clients (Hooks.quiet true) bs := by
  induction bs with
  | nil => trivial
  | cons b rest ih =>
    have stays : ∀ r, escapes app clients (Hooks.quiet true) r = false := by
      intro r
      simp [escapes, quiet_serves]
    refine ⟨fun r _ => stays r, fun r _ => ⟨fun lost => ?_, fun _ => ih⟩⟩
    simp [losesTake, Hooks.quiet, Hooks.completes] at lost

theorem takes_safe {α : Type} {p : Prog Exn Pool α} (gives : Gives p) : Safe p := by
  intro s e
  obtain ⟨a, t, ran, -⟩ := gives s
  simp [ran]

theorem quiet_safe (app : App H B) (clients : Nat → Client B) (hook : Bool) (env : Nat)
    (next : Prog Exn Pool (Fused T)) :
    Safe ((pooled app clients (Hooks.quiet hook)).serve env next) :=
  safe_rescue fun _ => safe_pure Fused.notFused

/-- Without a line that cannot be logged the worker ends with its queue. -/
theorem plain_safe (app : App H B) (clients : Nat → Client B) (hook : Bool) (batchSize fuel : Nat) :
    Safe (runPool app clients (Hooks.quiet hook) batchSize fuel) := by
  have one := takes_safe takeOne_gives
  have many := takes_safe (takeBatch_gives batchSize)
  have single : ∀ env, Safe (handleOne (pooled app clients (Hooks.quiet hook)) env) := by
    intro env
    refine safe_bind (quiet_safe app clients hook env _) fun result => ?_
    cases result with
    | notFused => exact one
    | next next => exact safe_pure next
  have batch : ∀ (size index : Nat) (envs : List Nat),
      Safe (processFrom (pooled app clients (Hooks.quiet hook)) batchSize size index envs) := by
    intro size index envs
    induction envs generalizing index with
    | nil => exact many
    | cons env rest ih =>
      refine safe_bind (quiet_safe app clients hook env _) fun result => ?_
      cases result with
      | notFused => exact ih (index + 1)
      | next next =>
        dsimp only
        split
        · exact safe_pure next
        · exact ih (index + 1)
  unfold runPool KinoWorker.run
  refine safe_bind (safe_pure ()) fun _ => ?_
  split
  · exact safe_bind one (safe_loop single fuel)
  · have whole : ∀ b, Safe (process (pooled app clients (Hooks.quiet hook)) batchSize b) :=
      fun b => batch b.length 0 b
    exact safe_bind many (safe_loop whole fuel)

theorem plain_run (app : App H B) (clients : Nat → Client B) (hook : Bool)
    {batchSize fuel : Nat} {queue : List Nat} {waiting : Nat → Nat} (enough : queue.length < fuel) :
    ∃ t, runPool app clients (Hooks.quiet hook) batchSize fuel (Pool.start queue waiting) =
        (.ok (), t) ∧ (hook = true → t.called = queue) := by
  obtain ⟨o, t, ran, ⟨ended, all, emptied⟩, calls⟩ := run_finishes app clients
    (Hooks.quiet hook) batchSize fuel (Pool.start queue waiting) enough (Nat.le_refl 0)
  have safe := plain_safe app clients hook batchSize fuel (Pool.start queue waiting)
  rw [ran] at safe
  cases o with
  | raised e => exact absurd rfl (safe e)
  | stuck => exact absurd rfl ended
  | ok u =>
    refine ⟨t, ran, fun set => ?_⟩
    subst set
    have same := calls.mpr ⟨rfl, fun _ => quiet_calls_all app clients _⟩
    have none_left := emptied rfl
    rw [same]
    simpa [none_left, Pool.start] using all

def touchy : WorkerHooks Nat :=
  ⟨some fun _ _ => raise "a", some fun _ => raise "b", some fun _ _ => raise "c", true⟩

def sometimes : App Nat String := fun env => if env = 0 then .ok goodClose else .error "boom"

def patient : Log := ⟨fun _ _ => .ok (), fun _ _ => .ok ()⟩

end KinoWorkerHooks
