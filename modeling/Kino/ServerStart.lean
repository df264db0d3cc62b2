import Kino.Pidfile
import Kino.Programs

/-!
`Server#start` (lib/kino/server.rb), with the native boot (`server_start` in
ext/kino/src/server.rs, `spawn` in io_shards.rs, `start` in control.rs) and the pools and
monitors. The state is what a start has made and not released; the answers to the calls that
may fail are the environment. Other processes act on the pidfile until it is claimed.
-/
namespace KinoServerStart
open Programs
abbrev Text := KinoPidfile.Text

inductive Mode where
  | ractor
  | threaded
  deriving DecidableEq, Repr

/-- How a hook ends: `HookFire.fire` rescues a `StandardError` only. -/
inductive HookEnd where
  | returns
  | standardError
  | exception (message : String)
  deriving DecidableEq, Repr

/-- What `start` reads of the server's settings; `unix` is a bind to a unix socket. -/
structure Config where
  pid : Nat
  pidfile : Option String
  unix : Bool
  tlsCert : Option String
  tlsKey : Option String
  controlBind : Bool
  logRequests : Bool
  ioShards : Bool
  ioThreads : Nat
  mode : Mode
  workers : Nat
  maxWorkers : Nat
  threads : Nat
  rubyMaxCpu : Nat
  quarantineTimeout : Bool
  afterBoot : Option HookEnd
  deriving DecidableEq, Repr

/-- `raised` is the exception of a call as it comes. -/
inductive Error where
  | eexist
  | kino (message : String)
  | argument (message : String)
  | runtime (message : String)
  | raised (message : String)
  deriving DecidableEq, Repr

inductive Call where
  | writePidfile
  | unlinkStale
  | readOwn
  | unlinkOwn
  | config
  | tls
  | bind
  | port
  | controlConfig
  | controlBind
  | logSink
  | shard (i : Nat)
  | accept
  | tokio
  | listenerSetup
  | controlThread
  | pinKeeper
  | logWarn
  | registerWorker (group slot : Nat)
  | spawnThread (group slot : Nat)
  | supervise (worker : Nat)
  | setActiveWorkers
  | quarantineMonitor
  | poolScaler
  | controlReady
  | logError
  deriving DecidableEq, Repr

/-- `fails` has the message of a call that fails. The two attempts to create the pidfile say
    whether they did or met an entry; `entry` is what is read there, if it is not gone. -/
structure Env where
  fails : Call → Option String
  opened : Except String Bool
  entry : Except String (Option Text)
  alive : Nat → Except String Bool
  reopened : Except String Bool

/-- `workers` counts the threads of the pool, `shards` those of the sharded runtime; the
    listener is `accepting` once an accept loop has it. -/
structure State where
  started : Bool
  pidfile : Option Text
  listener : Bool
  controlListener : Bool
  logThread : Bool
  runtime : Bool
  shards : Nat
  accepting : Bool
  controlThread : Bool
  registered : Bool
  workers : Nat
  quarantineMonitor : Bool
  poolScaler : Bool
  deriving DecidableEq, Repr

def idle (started : Bool) : State where
  started := started
  pidfile := none
  listener := false
  controlListener := false
  logThread := false
  runtime := false
  shards := 0
  accepting := false
  controlThread := false
  registered := false
  workers := 0
  quarantineMonitor := false
  poolScaler := false

def State.LeftNothing (s : State) : Prop := s = idle s.started

instance (s : State) : Decidable s.LeftNothing := inferInstanceAs (Decidable (_ = _))

def call (env : Env) (c : Call) : Prog Error State Unit :=
  match env.fails c with
  | some message => raise (.raised message)
  | none => pure ()

def io (env : Env) (what : String) (c : Call) : Prog Error State Unit :=
  match env.fails c with
  | some message => raise (.runtime (what ++ ": " ++ message))
  | none => pure ()

def claimPidfile (cfg : Config) (env : Env) (opened : Except String Bool) :
    Prog Error State Unit :=
  match opened with
  | .error message => raise (.raised message)
  | .ok false => raise .eexist
  | .ok true => do
    update fun s => { s with pidfile := some [] }
    call env .writePidfile
    update fun s => { s with pidfile := some (KinoPidfile.pidText cfg.pid) }

def refuseUnlessStale (env : Env) (path : String) : Prog Error State Unit :=
  match env.entry with
  | .error message => raise (.raised message)
  | .ok none => pure ()
  | .ok (some content) =>
    match KinoPidfile.holds content with
    | none => raise (.kino ("refusing to overwrite " ++ path ++ ": does not hold a pid"))
    | some pid =>
      match env.alive pid with
      | .error message => raise (.raised message)
      | .ok true => raise (.kino ("already running (pid " ++ toString pid ++ ", per " ++ path ++ ")"))
      | .ok false => pure ()

def writePidfile (cfg : Config) (env : Env) (path : String) : Prog Error State Unit :=
  rescue (claimPidfile cfg env env.opened) fun
    | .eexist => do
      refuseUnlessStale env path
      call env .unlinkStale
      rescue (claimPidfile cfg env env.reopened) fun
        | .eexist => raise (.kino ("lost the race for " ++ path ++ ": another instance is starting"))
        | e => raise e
    | e => raise e

def removePidfile (cfg : Config) (env : Env) : Prog Error State Unit := do
  call env .readOwn
  fun s =>
    if s.pidfile = some (KinoPidfile.pidText cfg.pid) then
      (do
        call env .unlinkOwn
        update fun s => { s with pidfile := none }) s
    else (.ok (), s)

def buildAcceptor (cfg : Config) (env : Env) : Prog Error State Unit :=
  match cfg.tlsCert, cfg.tlsKey with
  | some _, some _ => io env "TLS" .tls
  | none, none => pure ()
  | _, _ => raise (.argument "TLS requires both cert and key")

def joinAll (s : State) : State := { s with shards := 0 }

def spawnShards (cfg : Config) (env : Env) : Prog Error State Unit := do
  (List.range (max cfg.ioThreads 1)).forM fun i => do
    dropping (io env "sharded runtime failed" (.shard i)) joinAll
    update fun s => { s with shards := s.shards + 1 }
  dropping (io env "sharded runtime failed" .accept) joinAll
  update fun s => { s with listener := false, accepting := true }

def buildRuntime (env : Env) : Prog Error State Unit := do
  io env "tokio runtime failed" .tokio
  update fun s => { s with runtime := true }
  dropping (io env "listener setup failed" .listenerSetup) fun s => { s with runtime := false }
  update fun s => { s with listener := false, accepting := true }

def bootRuntime (cfg : Config) (env : Env) : Prog Error State Unit :=
  if cfg.ioShards then spawnShards cfg env else buildRuntime env

def stopRuntime (s : State) : State := { s with accepting := false, runtime := false, shards := 0 }

def startControl (cfg : Config) (env : Env) : Prog Error State Unit :=
  onlyIf cfg.controlBind do
    dropping (io env "control start failed" .controlThread) stopRuntime
    update fun s => { s with controlListener := false, controlThread := true }

/-- `server_start`. A listener that nothing has taken over, and the server with its log
    thread, are dropped on the way out. -/
def serverStart (cfg : Config) (env : Env) : Prog Error State Unit := do
  call env .config
  buildAcceptor cfg env
  io env "bind failed" .bind
  update fun s => { s with listener := true }
  dropping (do
    onlyIf (cfg.tlsCert.isSome && cfg.unix)
      (raise (.argument "TLS is not supported on a unix socket bind"))
    io env "listener setup failed" .port
    call env .controlConfig
    onlyIf cfg.controlBind do
      io env "control bind failed" .controlBind
      update fun s => { s with controlListener := true }
    dropping (do
      onlyIf cfg.logRequests do
        call env .logSink
        update fun s => { s with logThread := true }
      dropping (do
        bootRuntime cfg env
        startControl cfg env) fun s => { s with logThread := false })
      fun s => { s with controlListener := false })
    fun s => { s with listener := false }
  update fun s => { s with registered := true }

def unlessBooted (p : Prog Error State Unit) : Prog Error (Bool × State) Unit :=
  fun s => if s.1 then (.ok (), s) else lift p s

/-- From `booted = false` to the `ensure`. -/
def boot (cfg : Config) (env : Env) : Prog Error State Unit :=
  withObject false
    (ensure (do
      lift (serverStart cfg env)
      update fun s => (true, s.2))
      (if cfg.pidfile.isSome then unlessBooted (removePidfile cfg env) else pure ()))

/-- `ThreadedPool#start`. -/
def startThreads (cfg : Config) (env : Env) : Prog Error State Unit := do
  (List.range cfg.workers).forM fun group =>
    (List.range cfg.threads).forM fun slot => do
      call env (.registerWorker group slot)
      call env (.spawnThread group slot)
      update fun s => { s with workers := s.workers + 1 }
  call env .setActiveWorkers

/-- `RactorSupervisor#start`. -/
def startSupervisors (cfg : Config) (env : Env) : Prog Error State Unit := do
  (List.range cfg.workers).forM fun worker => do
    call env (.supervise worker)
    update fun s => { s with workers := s.workers + 1 }
  call env .setActiveWorkers

def startPool (cfg : Config) (env : Env) : Prog Error State Unit :=
  match cfg.mode with
  | .ractor => do
    onlyIf (cfg.rubyMaxCpu < cfg.maxWorkers) (call env .logWarn)
    startSupervisors cfg env
  | .threaded => startThreads cfg env

def fire (env : Env) : Option HookEnd → Prog Error State Unit
  | none | some .returns => pure ()
  | some .standardError => call env .logError
  | some (.exception message) => raise (.raised message)

/-- What `start` does between the boot and its last line. -/
def startWorkers (cfg : Config) (env : Env) : Prog Error State Unit := do
  call env .pinKeeper
  startPool cfg env
  onlyIf cfg.quarantineTimeout do
    call env .quarantineMonitor
    update fun s => { s with quarantineMonitor := true }
  onlyIf (cfg.workers < cfg.maxWorkers) do
    call env .poolScaler
    update fun s => { s with poolScaler := true }
  call env .controlReady
  fire env cfg.afterBoot

def refuseStarted : Prog Error State Unit := fun s =>
  if s.started then (.raised (.kino "server already started"), s) else (.ok (), s)

def claim (cfg : Config) (env : Env) : Prog Error State Unit :=
  match cfg.pidfile with
  | some path => writePidfile cfg env path
  | none => pure ()

def start (cfg : Config) (env : Env) : Prog Error State Unit := do
  refuseStarted
  claim cfg env
  boot cfg env
  startWorkers cfg env
  update fun s => { s with started := true }

/-- What `shutdown` does to a server that has started is left open. -/
def shutdown (teardown : Prog Error State Unit) : Prog Error State Unit := fun s =>
  if s.started then teardown s else (.ok (), s)

/-- All the native boot needs. -/
structure Boots (cfg : Config) (env : Env) : Prop where
  config : env.fails .config = none
  pair : cfg.tlsCert.isSome = cfg.tlsKey.isSome
  tls : cfg.tlsCert.isSome = true → env.fails .tls = none
  bind : env.fails .bind = none
  plain : ¬(cfg.tlsCert.isSome = true ∧ cfg.unix = true)
  port : env.fails .port = none
  controlConfig : env.fails .controlConfig = none
  controlBind : cfg.controlBind = true → env.fails .controlBind = none
  logSink : cfg.logRequests = true → env.fails .logSink = none
  shards : cfg.ioShards = true →
    (∀ i < max cfg.ioThreads 1, env.fails (.shard i) = none) ∧ env.fails .accept = none
  tokio : cfg.ioShards = false → env.fails .tokio = none ∧ env.fails .listenerSetup = none
  control : cfg.controlBind = true → env.fails .controlThread = none

def State.booted (s : State) (cfg : Config) : State :=
  { s with
    logThread := cfg.logRequests
    runtime := !cfg.ioShards
    shards := if cfg.ioShards then max cfg.ioThreads 1 else 0
    accepting := true
    controlThread := cfg.controlBind
    registered := true }

section Boot
variable {cfg : Config} {env : Env} {s : State} {bad : State → Prop}

theorem call_commits (c : Call) (so : bad s) :
    Commits (call env c) (env.fails c = none) s s bad := by
  unfold call
  cases failed : env.fails c with
  | none => exact commits_iff commits_pure (by simp)
  | some message => exact commits_iff (commits_raise so) (by simp)

theorem io_commits (what : String) (c : Call) (so : bad s) :
    Commits (io env what c) (env.fails c = none) s s bad := by
  unfold io
  cases failed : env.fails c with
  | none => exact commits_iff commits_pure (by simp)
  | some message => exact commits_iff (commits_raise so) (by simp)

theorem buildAcceptor_commits (so : bad s) :
    Commits (buildAcceptor cfg env) (cfg.tlsCert.isSome = cfg.tlsKey.isSome ∧
      (cfg.tlsCert.isSome = true → env.fails .tls = none)) s s bad := by
  unfold buildAcceptor
  cases cert : cfg.tlsCert with
  | none =>
    cases key : cfg.tlsKey with
    | none => exact commits_iff commits_pure (by simp)
    | some => exact commits_iff (commits_raise so) (by simp)
  | some =>
    cases key : cfg.tlsKey with
    | none => exact commits_iff (commits_raise so) (by simp)
    | some => exact commits_iff (io_commits "TLS" .tls so) (by simp)

theorem shards_added (s : State) (n : Nat) :
    (fun s : State => { s with shards := s.shards + 1 })^[n] s = { s with shards := s.shards + n } := by
  induction n with
  | zero => rfl
  | succ n ih =>
    rw [Function.iterate_succ_apply', ih]
    rfl

theorem spawnShards_commits (none_yet : s.shards = 0) (so : bad s) :
    Commits (spawnShards cfg env)
      ((∀ i < max cfg.ioThreads 1, env.fails (.shard i) = none) ∧ env.fails .accept = none) s
      { s with shards := max cfg.ioThreads 1, listener := false, accepting := true } bad := by
  have all_but {n : Nat} : joinAll { s with shards := n } = s := by
    rw [joinAll, ← none_yet]
  have one_more : ∀ i t, joinAll t = s → Commits
      (do
        dropping (io env "sharded runtime failed" (.shard i)) joinAll
        update fun s => { s with shards := s.shards + 1 } : Prog Error State Unit)
      (env.fails (.shard i) = none) t { t with shards := t.shards + 1 } bad ∧
      joinAll { t with shards := t.shards + 1 } = s := by
    intro i t joined
    refine ⟨?_, joined⟩
    have so_here : bad (joinAll t) := joined.symm ▸ so
    exact commits_iff (commits_bind (commits_dropping (io_commits _ _ so_here)) (commits_update _))
      (by simp)
  have loop := commits_forM one_more (List.range (max cfg.ioThreads 1)) (all_but (n := s.shards))
  have total : s.shards + max cfg.ioThreads 1 = max cfg.ioThreads 1 := by omega
  rw [List.length_range, shards_added, total] at loop
  unfold spawnShards
  apply commits_iff
  · apply commits_bind loop
    apply commits_bind
    · apply commits_dropping
      apply io_commits
      rw [all_but]
      exact so
    · exact commits_update _
  · simp

theorem buildRuntime_commits (none_yet : s.runtime = false) (so : bad s) :
    Commits (buildRuntime env) (env.fails .tokio = none ∧ env.fails .listenerSetup = none) s
      { s with runtime := true, listener := false, accepting := true } bad := by
  have dropped : { s with runtime := false } = s := by rw [← none_yet]
  apply commits_iff
  · apply commits_bind (io_commits _ _ so)
    apply commits_bind (commits_update _)
    apply commits_bind
    · apply commits_dropping
      apply io_commits
      rw [dropped]
      exact so
    · exact commits_update _
  · simp

theorem bootRuntime_commits (no_shards : s.shards = 0) (no_runtime : s.runtime = false) (so : bad s) :
    Commits (bootRuntime cfg env)
      ((cfg.ioShards = true → (∀ i < max cfg.ioThreads 1, env.fails (.shard i) = none) ∧
        env.fails .accept = none) ∧
      (cfg.ioShards = false → env.fails .tokio = none ∧ env.fails .listenerSetup = none)) s
      { s with
        runtime := !cfg.ioShards, shards := if cfg.ioShards then max cfg.ioThreads 1 else 0,
        listener := false, accepting := true } bad := by
  unfold bootRuntime
  cases sharded : cfg.ioShards with
  | true =>
    rw [if_pos rfl]
    apply commits_to
    · exact commits_iff (spawnShards_commits no_shards so) (by simp)
    · simp [no_runtime]
  | false =>
    rw [if_neg Bool.false_ne_true]
    apply commits_to
    · exact commits_iff (buildRuntime_commits no_runtime so) (by simp)
    · simp [no_shards]

theorem startControl_commits (none_yet : s.controlThread = false)
    (bound : s.controlListener = cfg.controlBind) (so : bad (stopRuntime s)) :
    Commits (startControl cfg env) (cfg.controlBind = true → env.fails .controlThread = none) s
      { s with controlListener := false, controlThread := cfg.controlBind } bad := by
  apply commits_onlyIf
  · intro on
    rw [on]
    apply commits_iff
    · exact commits_bind (commits_dropping (io_commits _ _ so)) (commits_update _)
    · simp
  · intro off
    rw [off] at bound ⊢
    cases s
    cases none_yet
    cases bound
    rfl

def claimed (started : Bool) (entry : Option Text) : State := { idle started with pidfile := entry }

theorem serverStart_commits {started : Bool} {entry : Option Text} (so : bad (claimed started entry)) :
    Commits (serverStart cfg env) (Boots cfg env) (claimed started entry)
      ((claimed started entry).booted cfg) bad := by
  unfold serverStart
  apply commits_iff
  · apply commits_bind
    · exact call_commits _ so
    apply commits_bind
    · exact buildAcceptor_commits so
    apply commits_bind
    · exact io_commits _ _ so
    apply commits_bind (commits_update _)
    apply commits_bind
    · apply commits_dropping
      apply commits_bind
      · apply commits_onlyIf
        · intro mixed
          exact commits_raise so
        · exact fun _ => rfl
      apply commits_bind
      · exact io_commits _ _ so
      apply commits_bind
      · exact call_commits _ so
      apply commits_bind
      · apply commits_onlyIf (t := { claimed started entry with
          listener := true, controlListener := cfg.controlBind })
        · intro on
          rw [on]
          apply commits_bind
          · exact io_commits _ _ so
          · exact commits_update _
        · intro off
          rw [off]
          rfl
      · apply commits_dropping
        apply commits_bind
        · apply commits_onlyIf (t := { claimed started entry with
            listener := true, controlListener := cfg.controlBind, logThread := cfg.logRequests })
          · intro on
            rw [on]
            apply commits_bind
            · exact call_commits _ so
            · exact commits_update _
          · intro off
            rw [off]
            rfl
        · apply commits_dropping
          apply commits_bind
          · exact bootRuntime_commits rfl rfl so
          · exact startControl_commits rfl rfl so
    · exact commits_update _
  · constructor
    · intro boots
      have plain : (cfg.tlsCert.isSome && cfg.unix) = true → False := by
        intro mixed
        exact boots.plain (Bool.and_eq_true_iff.mp mixed)
      exact ⟨boots.config, ⟨boots.pair, boots.tls⟩, boots.bind, trivial, ⟨plain, boots.port,
        boots.controlConfig, fun on => ⟨boots.controlBind on, trivial⟩,
        fun on => ⟨boots.logSink on, trivial⟩, ⟨boots.shards, boots.tokio⟩, boots.control⟩, trivial⟩
    · intro ⟨config, ⟨pair, tls⟩, bind, _, ⟨plain, port, controlConfig, controlBind, logSink,
        ⟨shards, tokio⟩, control⟩, _⟩
      constructor
      · exact config
      · exact pair
      · exact tls
      · exact bind
      · intro both
        exact plain (Bool.and_eq_true_iff.mpr both)
      · exact port
      · exact controlConfig
      · intro on
        exact (controlBind on).1
      · intro on
        exact (logSink on).1
      · exact shards
      · exact tokio
      · exact control

end Boot

def Env.stale (env : Env) : Bool :=
  match env.entry with
  | .error _ => false
  | .ok none => true
  | .ok (some content) =>
    match KinoPidfile.holds content with
    | none => false
    | some pid =>
      match env.alive pid with
      | .ok false => true
      | .ok true | .error _ => false

def Env.creates (env : Env) : Bool :=
  match env.opened with
  | .error _ => false
  | .ok true => true
  | .ok false =>
    match env.reopened with
    | .ok true => env.stale && (env.fails .unlinkStale).isNone
    | .ok false | .error _ => false

def Env.writes (env : Env) : Bool := env.creates && (env.fails .writePidfile).isNone

def Env.removes (env : Env) : Bool := (env.fails .readOwn).isNone && (env.fails .unlinkOwn).isNone

section Pidfile
variable {cfg : Config} {env : Env} {started : Bool}

def ownEntry (cfg : Config) : Option Text := cfg.pidfile.map fun _ => KinoPidfile.pidText cfg.pid

theorem refuse_commits {s : State} {bad : State → Prop} (path : String) (so : bad s) :
    Commits (refuseUnlessStale env path) (env.stale = true) s s bad := by
  unfold refuseUnlessStale Env.stale
  cases entry : env.entry with
  | error message => exact commits_iff (commits_raise so) (by simp)
  | ok read =>
    cases read with
    | none => exact commits_iff commits_pure (by simp)
    | some content =>
      cases holder : KinoPidfile.holds content with
      | none =>
        simp only [holder]
        exact commits_iff (commits_raise so) (by simp)
      | some pid =>
        cases alive : env.alive pid with
        | error message =>
          simp only [holder, alive]
          exact commits_iff (commits_raise so) (by simp)
        | ok living =>
          cases living with
          | true =>
            simp only [holder, alive]
            exact commits_iff (commits_raise so) (by simp)
          | false =>
            simp only [holder, alive]
            exact commits_iff commits_pure (by simp)

def halfClaimed (env : Env) (started : Bool) : State :=
  claimed started (if env.creates then some [] else none)

theorem claim_created (created : env.creates = true)
    {handler : Error → Prog Error State Unit}
    (others : ∀ message, handler (.raised message) = raise (.raised message)) :
    Commits (rescue (claimPidfile cfg env (.ok true)) handler) (env.fails .writePidfile = none)
      (idle started) (claimed started (some (KinoPidfile.pidText cfg.pid)))
      (· = halfClaimed env started) := by
  have half : halfClaimed env started = claimed started (some []) := by
    rw [halfClaimed, if_pos created]
  rw [half]
  cases written : env.fails .writePidfile with
  | none =>
    constructor
    · intro _
      simp only [rescue, claimPidfile, call, written]
      rfl
    · intro failed
      exact absurd rfl failed
  | some message =>
    constructor
    · intro fine
      cases fine
    · intro _
      have raised : claimPidfile cfg env (.ok true) (idle started) =
          (.raised (.raised message), claimed started (some [])) := by
        simp only [claimPidfile, call, written]
        rfl
      refine ⟨.raised message, claimed started (some []), ?_, rfl⟩
      rw [rescue_raised raised, others]
      rfl

theorem nothing_made (refused : env.creates = false) : idle started = halfClaimed env started := by
  rw [halfClaimed, refused]
  rfl

theorem reclaim_commits (path : String) (opened : env.opened = .ok false) :
    Commits (writePidfile cfg env path) (env.writes = true) (idle started)
      (claimed started (some (KinoPidfile.pidText cfg.pid))) (· = halfClaimed env started) := by
  have creates : env.creates = true ↔
      env.stale = true ∧ env.fails .unlinkStale = none ∧ env.reopened = .ok true := by
    cases again : env.reopened with
    | error message => simp [Env.creates, opened, again]
    | ok created => cases created <;> simp [Env.creates, opened, again]
  have refused (missing : ¬(env.stale = true ∧ env.fails .unlinkStale = none ∧
      env.reopened = .ok true)) : idle started = halfClaimed env started := by
    apply nothing_made
    rw [← Bool.not_eq_true, creates]
    exact missing
  have judged : Commits (refuseUnlessStale env path) (env.stale = true) (idle started)
      (idle started) (· = halfClaimed env started) := by
    apply commits_weaken (refuse_commits path rfl)
    intro u fresh same
    rw [← same]
    exact refused fun all => fresh all.1
  have unlinked : Commits (call env .unlinkStale) (env.fails .unlinkStale = none) (idle started)
      (idle started) (· = halfClaimed env started) := by
    apply commits_weaken (call_commits .unlinkStale rfl)
    intro u failed same
    rw [← same]
    exact refused fun all => failed all.2.1
  have met : claimPidfile cfg env env.opened (idle started) = (.raised .eexist, idle started) := by
    rw [opened]
    rfl
  apply commits_iff
  · apply commits_rescue met
    apply commits_then judged
    intro stale
    apply commits_then unlinked
    intro unlinks
    show Commits _ (env.reopened = .ok true ∧ env.fails .writePidfile = none) _ _ _
    cases again : env.reopened with
    | error message =>
      apply commits_iff
      · apply commits_raised rfl
        exact refused (by simp [again])
      · simp
    | ok created =>
      cases created with
      | false =>
        apply commits_iff
        · apply commits_raised rfl
          exact refused (by simp [again])
        · simp
      | true =>
        apply commits_iff
        · exact claim_created (creates.mpr ⟨stale, unlinks, again⟩) fun _ => rfl
        · simp
  · simp [Env.writes, creates]
    tauto

theorem writePidfile_commits (path : String) :
    Commits (writePidfile cfg env path) (env.writes = true) (idle started)
      (claimed started (some (KinoPidfile.pidText cfg.pid))) (· = halfClaimed env started) := by
  cases opened : env.opened with
  | error message =>
    have refused : env.creates = false := by simp only [Env.creates, opened]
    unfold writePidfile
    rw [opened]
    apply commits_iff
    · apply commits_raised rfl
      exact nothing_made refused
    · simp [Env.writes, refused]
  | ok created =>
    cases created with
    | true =>
      have creates : env.creates = true := by simp only [Env.creates, opened]
      unfold writePidfile
      rw [opened]
      apply commits_iff
      · exact claim_created creates fun _ => rfl
      · simp [Env.writes, creates]
    | false => exact reclaim_commits path opened

theorem claim_commits :
    Commits (claim cfg env) (cfg.pidfile.isSome = true → env.writes = true) (idle started)
      (claimed started (ownEntry cfg)) (· = halfClaimed env started) := by
  unfold claim ownEntry
  cases configured : cfg.pidfile with
  | none => exact commits_iff commits_pure (by simp)
  | some path => exact commits_iff (writePidfile_commits path) (by simp)

theorem removePidfile_commits :
    Commits (removePidfile cfg env) (env.removes = true)
      (claimed started (some (KinoPidfile.pidText cfg.pid))) (idle started)
      (· = claimed started (some (KinoPidfile.pidText cfg.pid))) := by
  apply commits_iff
  · apply commits_bind
    · exact call_commits .readOwn rfl
    · show Commits _ (env.fails .unlinkOwn = none) _ _ _
      have unlinked : Commits (do
          call env .unlinkOwn
          update fun s => { s with pidfile := none }) (env.fails .unlinkOwn = none ∧ True)
          (claimed started (some (KinoPidfile.pidText cfg.pid))) (idle started)
          (· = claimed started (some (KinoPidfile.pidText cfg.pid))) := by
        apply commits_bind
        · exact call_commits .unlinkOwn rfl
        · exact commits_update _
      constructor
      · intro fine
        exact (if_pos rfl).trans (unlinked.done ⟨fine, trivial⟩)
      · intro failed
        obtain ⟨e, u, raised, so⟩ := unlinked.failed fun both => failed both.1
        exact ⟨e, u, (if_pos rfl).trans raised, so⟩
  · simp [Env.removes]

theorem boot_commits :
    Commits (boot cfg env) (Boots cfg env) (claimed started (ownEntry cfg))
      ((claimed started (ownEntry cfg)).booted cfg)
      (· = claimed started (if env.removes then none else ownEntry cfg)) := by
  have native : Commits (serverStart cfg env) (Boots cfg env) (claimed started (ownEntry cfg))
      ((claimed started (ownEntry cfg)).booted cfg) (· = claimed started (ownEntry cfg)) :=
    serverStart_commits rfl
  constructor
  · intro boots
    have ran := native.done boots
    have marked : (do
        lift (serverStart cfg env)
        update fun s => (true, s.2) : Prog Error (Bool × State) Unit)
        (false, claimed started (ownEntry cfg)) =
        (.ok (), true, (claimed started (ownEntry cfg)).booted cfg) := by
      apply (bind_ok (s := (false, claimed started (ownEntry cfg))) (a := ())
        (t := (false, (claimed started (ownEntry cfg)).booted cfg)) _).trans rfl
      simp only [lift, ran]
    unfold boot withObject ensure
    simp only [marked]
    cases cfg.pidfile with
    | none => rfl
    | some path => rfl
  · intro fails
    obtain ⟨e, u, raised, rfl⟩ := native.failed fails
    have marked : (do
        lift (serverStart cfg env)
        update fun s => (true, s.2) : Prog Error (Bool × State) Unit)
        (false, claimed started (ownEntry cfg)) =
        (.raised e, false, claimed started (ownEntry cfg)) := by
      apply bind_raised
      simp only [lift, raised]
    unfold boot withObject ensure
    simp only [marked]
    cases configured : cfg.pidfile with
    | none =>
      have unclaimed : ownEntry cfg = none := by rw [ownEntry, configured, Option.map_none]
      refine ⟨e, _, rfl, ?_⟩
      rw [unclaimed, ite_self]
      rfl
    | some path =>
      have removal : Commits (removePidfile cfg env) (env.removes = true)
          (claimed started (ownEntry cfg)) (idle started) (· = claimed started (ownEntry cfg)) := by
        rw [ownEntry, configured]
        exact removePidfile_commits
      by_cases removes : env.removes = true
      · have removed := removal.done removes
        refine ⟨e, idle started, ?_, ?_⟩
        · simp only [Option.isSome_some, if_true, unlessBooted, Bool.false_eq_true, if_false, lift,
            removed]
        · rw [if_pos removes]
          rfl
      · obtain ⟨e', u, raised, rfl⟩ := removal.failed removes
        refine ⟨e', _, ?_, (congrArg (claimed started) (if_neg removes)).symm⟩
        simp only [Option.isSome_some, if_true, unlessBooted, Bool.false_eq_true, if_false, lift,
          raised]

end Pidfile

structure LeftServing (cfg : Config) (s : State) : Prop where
  accepting : s.accepting = true
  registered : s.registered = true
  controlThread : s.controlThread = cfg.controlBind
  pidfile : s.pidfile = ownEntry cfg
  unstarted : s.started = false

/-- A start that raises leaves nothing: it is refused before it has made anything, or the
    native boot fails and the pidfile, if there is one, can be written and removed. -/
def CleanFailure (cfg : Config) (env : Env) (started : Bool) : Prop :=
  started = true ∨ (cfg.pidfile.isSome = true ∧ env.creates = false) ∨
    (¬Boots cfg env ∧ (cfg.pidfile.isSome = true → env.writes = true ∧ env.removes = true))

section Start
variable {cfg : Config} {env : Env} {started : Bool}

theorem call_keeps {keep : State → Prop} (env : Env) (c : Call) : Keeps keep (call env c) := by
  unfold call
  cases env.fails c with
  | none => exact keeps_pure keep ()
  | some message => exact keeps_raise keep _

theorem hired_keeps : Keeps (LeftServing cfg)
    (update fun s => { s with workers := s.workers + 1 } : Prog Error State Unit) := by
  apply keeps_update
  intro s serving
  exact ⟨serving.accepting, serving.registered, serving.controlThread, serving.pidfile,
    serving.unstarted⟩

theorem startPool_keeps : Keeps (LeftServing cfg) (startPool cfg env) := by
  unfold startPool
  cases cfg.mode with
  | ractor =>
    apply keeps_bind
    · apply keeps_onlyIf
      exact call_keeps env _
    intro _
    apply keeps_bind
    · apply keeps_forM
      intro worker
      apply keeps_bind
      · exact call_keeps env _
      · exact fun _ => hired_keeps
    · exact fun _ => call_keeps env _
  | threaded =>
    apply keeps_bind
    · apply keeps_forM
      intro group
      apply keeps_forM
      intro slot
      apply keeps_bind
      · exact call_keeps env _
      intro _
      apply keeps_bind
      · exact call_keeps env _
      · exact fun _ => hired_keeps
    · exact fun _ => call_keeps env _

theorem fire_keeps (hook : Option HookEnd) : Keeps (LeftServing cfg) (fire env hook) := by
  cases hook with
  | none => exact keeps_pure _ ()
  | some ends =>
    cases ends with
    | returns => exact keeps_pure _ ()
    | standardError => exact call_keeps env _
    | exception message => exact keeps_raise _ _

theorem startWorkers_keeps : Keeps (LeftServing cfg) (startWorkers cfg env) := by
  unfold startWorkers
  apply keeps_bind
  · exact call_keeps env _
  intro _
  apply keeps_bind
  · exact startPool_keeps
  intro _
  apply keeps_bind
  · apply keeps_onlyIf
    apply keeps_bind
    · exact call_keeps env _
    intro _
    apply keeps_update
    intro s serving
    exact ⟨serving.accepting, serving.registered, serving.controlThread, serving.pidfile,
      serving.unstarted⟩
  intro _
  apply keeps_bind
  · apply keeps_onlyIf
    apply keeps_bind
    · exact call_keeps env _
    intro _
    apply keeps_update
    intro s serving
    exact ⟨serving.accepting, serving.registered, serving.controlThread, serving.pidfile,
      serving.unstarted⟩
  intro _
  apply keeps_bind
  · exact call_keeps env _
  · exact fun _ => fire_keeps _

theorem booted_serving :
    LeftServing cfg ((claimed false (ownEntry cfg)).booted cfg) := ⟨rfl, rfl, rfl, rfl, rfl⟩

theorem serving_left {s : State} (serving : LeftServing cfg s) : ¬s.LeftNothing := by
  intro nothing
  have registered := serving.registered
  rw [nothing] at registered
  cases registered

theorem claimed_left (entry : Option Text) :
    (claimed started entry).LeftNothing ↔ entry = none := by
  constructor
  · intro nothing
    exact congrArg State.pidfile nothing
  · rintro rfl
    rfl

inductive Left (cfg : Config) (env : Env) (s : State) : Prop where
  | refused (unclaimed : ¬(cfg.pidfile.isSome = true → env.writes = true))
      (half : s = halfClaimed env false)
  | unbooted (claimed : cfg.pidfile.isSome = true → env.writes = true) (fails : ¬Boots cfg env)
      (rest : s = KinoServerStart.claimed false (if env.removes then none else ownEntry cfg))
  | serving (claimed : cfg.pidfile.isSome = true → env.writes = true) (boots : Boots cfg env)
      (left : LeftServing cfg s)

theorem start_left {e : Error} {s : State} (raised : start cfg env (idle false) = (.raised e, s)) :
    Left cfg env s := by
  have begun : start cfg env (idle false) = (do
      claim cfg env
      boot cfg env
      startWorkers cfg env
      update fun s => { s with started := true } : Prog Error State Unit) (idle false) := bind_ok rfl
  rw [begun] at raised
  by_cases claims : cfg.pidfile.isSome = true → env.writes = true
  · rw [bind_ok (claim_commits.done claims)] at raised
    by_cases boots : Boots cfg env
    · rw [bind_ok (boot_commits.done boots)] at raised
      have kept : LeftServing cfg (startWorkers cfg env ((claimed false (ownEntry cfg)).booted cfg)).2 :=
        startWorkers_keeps _ booted_serving
      apply Left.serving claims boots
      cases ran : startWorkers cfg env ((claimed false (ownEntry cfg)).booted cfg) with
      | mk o t =>
        rw [ran] at kept
        cases o with
        | ok =>
          rw [bind_ok ran] at raised
          cases raised
        | raised e' =>
          rw [bind_raised ran] at raised
          cases raised
          exact kept
        | stuck => simp [bind, ran] at raised
    · obtain ⟨e', u, failed, rest⟩ := boot_commits.failed boots
      rw [bind_raised failed] at raised
      cases raised
      exact .unbooted claims boots rest
  · obtain ⟨e', u, failed, half⟩ := claim_commits.failed claims
    rw [bind_raised failed] at raised
    cases raised
    exact .refused claims half

theorem writes_creates (writes : env.writes = true) : env.creates = true :=
  (Bool.and_eq_true_iff.mp writes).1

theorem left_nothing {s : State} (left : Left cfg env s) :
    s.LeftNothing ↔ CleanFailure cfg env false := by
  unfold CleanFailure
  cases left with
  | refused unclaimed half =>
    obtain ⟨path, unwritten⟩ := Classical.not_imp.mp unclaimed
    rw [half, halfClaimed, claimed_left]
    simp [path, unwritten]
  | unbooted claims fails rest =>
    rw [rest, claimed_left]
    cases configured : cfg.pidfile with
    | none => simp [ownEntry, configured, fails]
    | some path =>
      have writes : env.writes = true := claims (by rw [configured]; rfl)
      simp [ownEntry, configured, fails, writes, writes_creates writes]
  | serving claims boots serving =>
    constructor
    · intro nothing
      exact absurd nothing (serving_left serving)
    · rintro (started | ⟨path, uncreated⟩ | ⟨fails, _⟩)
      · cases started
      · rw [writes_creates (claims path)] at uncreated
        cases uncreated
      · exact absurd boots fails

/-- A start that raises leaves nothing just when it is refused before it has made anything, or
    its native boot fails and the pidfile goes with it; one that raises past the boot leaves
    the front-end serving. No start that raises can be shut down. -/
theorem start_law (cfg : Config) (env : Env) (started : Bool) {e : Error} {s : State}
    (raised : start cfg env (idle started) = (.raised e, s)) :
    (s.LeftNothing ↔ CleanFailure cfg env started) ∧
      (started = false → (∀ teardown, shutdown teardown s = (.ok (), s)) ∧
        (Boots cfg env → (cfg.pidfile.isSome = true → env.writes = true) → LeftServing cfg s)) := by
  cases started with
  | true =>
    have refused : start cfg env (idle true) =
        (.raised (.kino "server already started"), idle true) := bind_raised rfl
    rw [refused] at raised
    cases raised
    refine ⟨⟨fun _ => .inl rfl, fun _ => rfl⟩, ?_⟩
    intro unstarted
    cases unstarted
  | false =>
    have left := start_left raised
    have unstarted : s.started = false := by
      cases left with
      | refused _ half => rw [half]; rfl
      | unbooted _ _ rest => rw [rest]; rfl
      | serving _ _ serving => exact serving.unstarted
    refine ⟨left_nothing left, fun _ => ⟨?_, ?_⟩⟩
    · intro teardown
      simp [shutdown, unstarted]
    · intro boots claims
      cases left with
      | refused unclaimed => exact absurd claims unclaimed
      | unbooted _ fails => exact absurd boots fails
      | serving _ _ serving => exact serving

end Start

def twoWorkers : Config where
  pid := 41
  pidfile := some "kino.pid"
  unix := false
  tlsCert := none
  tlsKey := none
  controlBind := true
  logRequests := false
  ioShards := false
  ioThreads := 0
  mode := .threaded
  workers := 2
  maxWorkers := 2
  threads := 1
  rubyMaxCpu := 8
  quarantineTimeout := false
  afterBoot := none

def oneFailure (failing : Call) (message : String) : Env where
  fails c := if c = failing then some message else none
  opened := .ok true
  entry := .ok none
  alive _ := .ok false
  reopened := .ok true

theorem bind_failure_leaves_nothing :
    start twoWorkers (oneFailure .bind "Address already in use") (idle false) =
        (.raised (.runtime "bind failed: Address already in use"), idle false) ∧
      CleanFailure twoWorkers (oneFailure .bind "Address already in use") false := by
  have raised : start twoWorkers (oneFailure .bind "Address already in use") (idle false) =
      (.raised (.runtime "bind failed: Address already in use"), idle false) := by decide
  exact ⟨raised, (start_law _ _ false raised).1.mp rfl⟩

/-- The second worker's thread cannot be made, and the first one serves on; the disk is full,
    and an empty pidfile keeps the next start from its own. -/
theorem failed_starts_leave :
    start twoWorkers (oneFailure (.spawnThread 1 0) "Resource temporarily unavailable") (idle false) =
        (.raised (.raised "Resource temporarily unavailable"),
          { idle false with
            pidfile := some (KinoPidfile.pidText 41), runtime := true, accepting := true,
            controlThread := true, registered := true, workers := 1 }) ∧
      start twoWorkers (oneFailure .writePidfile "No space left on device") (idle false) =
        (.raised (.raised "No space left on device"), { idle false with pidfile := some [] }) ∧
      ¬∀ cfg env e s, start cfg env (idle false) = (.raised e, s) → s.LeftNothing := by
  have failed : start twoWorkers (oneFailure (.spawnThread 1 0) "Resource temporarily unavailable")
      (idle false) = (.raised (.raised "Resource temporarily unavailable"),
        { idle false with
          pidfile := some (KinoPidfile.pidText 41), runtime := true, accepting := true,
          controlThread := true, registered := true, workers := 1 }) := by decide
  refine ⟨failed, by decide, ?_⟩
  intro nothing
  have registered := congrArg State.registered (nothing _ _ _ _ failed)
  cases registered

end KinoServerStart
