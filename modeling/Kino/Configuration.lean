import Kino.Layers

/-!
Where a setting comes from: `Configuration` and its file DSL (lib/kino/configuration.rb), the
command line (`resolve_config` in lib/kino/cli.rb), the Rack handler (`server_options` and
`translate` in lib/rackup/handler/kino.rb), and `Server#initialize` as far as it reads them all.
-/
namespace KinoConfiguration
open Layers OrderedHash

/-- The objects that settings hold; floats are exact here. -/
inductive Value where
  | nil
  | bool (b : Bool)
  | int (n : Int)
  | float (q : Rat)
  | str (s : String)
  | sym (s : String)
  | proc (id : Nat)
  | pair (cert key : String)
  deriving DecidableEq

inductive Exn where
  | unknownSetting (key : String)
  | fileNotFound (path : String)
  | notAPath (value : Value)
  | arity (method : String)
  | noMethod (name : String)
  | notPositive (seconds : Rat)
  | belowOne (count : Int)
  | raised (message : String)
  deriving DecidableEq

/-- Ruby's own conversions, which may raise: `Integer()`, `Float()`, `to_sym`, `to_s`. -/
structure Ruby where
  integer : Value → Except Exn Int
  float : Value → Except Exn Rat
  toSym : Value → Except Exn String
  toS : Value → String

def Value.truthy : Value → Bool
  | .nil | .bool false => false
  | _ => true

def DEFAULTS : List (String × Value) :=
  [("bind", .str "127.0.0.1"), ("port", .int 0), ("workers", .nil), ("max_workers", .nil),
    ("scale_down_after", .nil), ("threads", .nil), ("mode", .sym "auto"),
    ("queue_depth", .int 1024), ("queue_timeout", .float 5), ("request_timeout", .nil),
    ("max_connections", .nil), ("max_body_size", .int (50 * 1024 * 1024)), ("batch", .int 1),
    ("lanes", .bool false), ("log_requests", .bool false), ("on_error", .nil),
    ("after_boot", .nil), ("after_worker_boot", .nil), ("after_request_complete", .nil),
    ("on_worker_exit", .nil), ("shutdown_timeout", .int 30), ("io_shards", .bool false),
    ("io_threads", .nil), ("tokio_threads", .nil), ("tls", .nil), ("http2", .bool true),
    ("environment", .nil), ("pidfile", .nil), ("control_bind", .nil), ("control_token", .nil),
    ("quarantine_timeout", .nil), ("quarantine_max", .nil), ("rackup", .nil)]

def SETTINGS : List String := DEFAULTS.map Prod.fst

def DEFAULT_SERVING_PORT : Int := 9292

def DEFAULT_PATHS : List String := ["kino.rb", "config/kino.rb"]

/-- The settings only the command line uses. -/
def cliOnly : List String := ["rackup", "environment"]

abbrev Config : Type := Hash String Value

def defaultOf (key : String) : Value := (entries DEFAULTS key).getD .nil

/-- `Configuration#[]`. -/
def Config.fetch (c : Config) (key : String) : Value := (c.find key).getD (defaultOf key)

def Config.set (c : Config) (key : String) (value : Value) : Except Exn Config :=
  if key ∈ SETTINGS then .ok (c.put key value) else .error (.unknownSetting key)

def Config.isSet (c : Config) (key : String) : Bool := (c.find key).isSome

def Config.merge (c : Config) (options : List (String × Value)) : Except Exn Config :=
  options.foldlM (fun c option => c.set option.1 option.2) c

def Config.toH (c : Config) : List (String × Value) := SETTINGS.map fun key => (key, c.fetch key)

def Config.serverOptions (c : Config) : List (String × Value) :=
  c.toH.filter fun option => option.1 ∉ cliOnly

inductive Coercion where
  | asIs
  | integer
  | float
  | integerOrNil
  | floatOrNil
  | symbol
  | string
  | flag
  | handler
  | keyPair
  | positiveFloat
  | atLeastOne
  deriving DecidableEq, Repr

structure Method where
  setting : String
  optional : Option Value
  coercion : Coercion

def DSL : List (String × Method) :=
  [("bind", ⟨"bind", none, .asIs⟩), ("port", ⟨"port", none, .integer⟩),
    ("workers", ⟨"workers", none, .integer⟩), ("max_workers", ⟨"max_workers", none, .integer⟩),
    ("scale_down_after", ⟨"scale_down_after", none, .asIs⟩),
    ("threads", ⟨"threads", none, .integer⟩), ("mode", ⟨"mode", none, .symbol⟩),
    ("queue_depth", ⟨"queue_depth", none, .integer⟩),
    ("queue_timeout", ⟨"queue_timeout", none, .float⟩),
    ("request_timeout", ⟨"request_timeout", none, .floatOrNil⟩),
    ("max_connections", ⟨"max_connections", none, .integer⟩),
    ("max_body_size", ⟨"max_body_size", none, .integerOrNil⟩),
    ("batch", ⟨"batch", none, .integer⟩), ("lanes", ⟨"lanes", none, .flag⟩),
    ("log_requests", ⟨"log_requests", none, .flag⟩),
    ("on_error", ⟨"on_error", some .nil, .handler⟩),
    ("after_boot", ⟨"after_boot", some .nil, .handler⟩),
    ("after_worker_boot", ⟨"after_worker_boot", some .nil, .handler⟩),
    ("after_request_complete", ⟨"after_request_complete", some .nil, .handler⟩),
    ("on_worker_exit", ⟨"on_worker_exit", some .nil, .handler⟩),
    ("shutdown_timeout", ⟨"shutdown_timeout", none, .asIs⟩),
    ("io_shards", ⟨"io_shards", some (.bool true), .flag⟩),
    ("io_threads", ⟨"io_threads", none, .integer⟩),
    ("tokio_threads", ⟨"tokio_threads", none, .integer⟩), ("tls", ⟨"tls", none, .keyPair⟩),
    ("http2", ⟨"http2", some (.bool true), .flag⟩),
    ("environment", ⟨"environment", none, .string⟩), ("pidfile", ⟨"pidfile", none, .string⟩),
    ("control_bind", ⟨"control_bind", none, .string⟩),
    ("control_token", ⟨"control_token", none, .string⟩),
    ("quarantine_timeout", ⟨"quarantine_timeout", none, .positiveFloat⟩),
    ("quarantine_max", ⟨"quarantine_max", none, .atLeastOne⟩),
    ("rackup", ⟨"rackup", none, .string⟩)]

section Ruby
variable (ruby : Ruby)

def coerce (value block : Value) : Coercion → Except Exn Value
  | .asIs => .ok value
  | .integer => (ruby.integer value).map .int
  | .float => (ruby.float value).map .float
  | .integerOrNil => if value.truthy then (ruby.integer value).map .int else .ok value
  | .floatOrNil => if value.truthy then (ruby.float value).map .float else .ok value
  | .symbol => (ruby.toSym value).map .sym
  | .string => .ok (.str (ruby.toS value))
  | .flag => .ok (.bool value.truthy)
  | .handler => .ok (if value.truthy then value else block)
  | .keyPair =>
    match value with
    | .pair cert key => .ok (.pair cert key)
    | _ => .error (.arity "tls")
  | .positiveFloat =>
    if value.truthy then do
      let seconds ← ruby.float value
      if seconds ≤ 0 then .error (.notPositive seconds) else .ok (.float seconds)
    else .ok value
  | .atLeastOne => do
    let count ← ruby.integer value
    if count < 1 then .error (.belowOne count) else .ok (.int count)

/-- A line of a config file; `block` is nil where none is given. -/
structure Call where
  name : String
  args : List Value
  block : Value

def Call.argument (call : Call) (m : Method) : Except Exn Value :=
  match call.args, m.optional with
  | [value], _ => .ok value
  | [], some value => .ok value
  | _, _ => .error (.arity call.name)

def Call.setting (call : Call) : Except Exn (String × Value) :=
  match DSL.lookup call.name with
  | none => .error (.noMethod call.name)
  | some m => do
    let value ← call.argument m
    let value ← coerce ruby value call.block m.coercion
    pure (m.setting, value)

def Config.call (c : Config) (call : Call) : Except Exn Config := do
  let (key, value) ← call.setting ruby
  c.set key value

/-- The calls a config file makes when it is evaluated, and what it raises after the last. -/
structure File where
  calls : List Call
  raises : Option Exn

variable (files : String → Option File)

/-- `File.exist?` raises for what is no String. -/
def Config.loadFile (c : Config) : Value → Except Exn Config
  | .str path =>
    match files path with
    | none => .error (.fileNotFound path)
    | some file => do
      let c ← file.calls.foldlM (Config.call ruby) c
      match file.raises with
      | none => pure c
      | some e => .error e
  | value => .error (.notAPath value)

def defaultPath : Option Value :=
  (DEFAULT_PATHS.find? fun path => (files path).isSome).map .str

def Config.loadIf (c : Config) : Option Value → Except Exn Config
  | none => .ok c
  | some path => c.loadFile ruby files path

def Config.servingPort (c : Config) : Except Exn Config :=
  if c.isSet "port" then .ok c else c.set "port" (.int DEFAULT_SERVING_PORT)

/-- `CLI.resolve_config`. -/
def resolveConfig (configFile : Option String) (overrides : List (String × Value)) :
    Except Exn Config := do
  let c ← Config.loadIf ruby files Hash.empty ((configFile.map .str).or (defaultPath files))
  let c ← c.merge overrides
  c.servingPort

/-- The settings that `Server#initialize` comes to read; its checks of them are not here. -/
def settings (configFile : Option Value) (options : List (String × Value)) :
    Except Exn (List (String × Value)) := do
  let c ← Config.loadIf ruby files Hash.empty configFile
  let c ← c.merge options
  pure c.toH

def OPTION_MAP : List (String × String × Coercion) :=
  [("Host", "bind", .string), ("Port", "port", .integer), ("Workers", "workers", .integer),
    ("Threads", "threads", .integer), ("Mode", "mode", .symbol)]

def translateOne (option : String × Value) : Except Exn (Option (String × Value)) :=
  match OPTION_MAP.lookup option.1 with
  | none => .ok none
  | some (setting, coercion) =>
    (coerce ruby option.2 .nil coercion).map fun value => some (setting, value)

def translate (options : List (String × Value)) : Except Exn (List (String × Value)) := do
  let pairs ← options.mapM (translateOne ruby)
  pure (pairs.reduceOption.foldl (fun h pair => Hash.put h pair.1 pair.2) Hash.empty).entries

/-- The host's options without `user_supplied_options`, and those of them it says were typed. -/
structure HostOptions where
  options : Hash String Value
  typed : Option (List String)

def HostOptions.hostDefaults (host : HostOptions) : List (String × Value) :=
  match host.typed with
  | none => []
  | some typed => host.options.entries.filter fun option => option.1 ∉ typed

def HostOptions.typedOptions (host : HostOptions) : List (String × Value) :=
  match host.typed with
  | none => host.options.entries
  | some typed => host.options.entries.filter fun option => option.1 ∈ typed

def pathOption (options : List (String × Value)) : Option Value :=
  (entries options "Config").filter Value.truthy

def HostOptions.configPath (host : HostOptions) : Option Value :=
  ((pathOption host.typedOptions).or (pathOption host.hostDefaults)).or (defaultPath files)

/-- `Rackup::Handler::Kino.server_options`. -/
def handlerOptions (host : HostOptions) : Except Exn (List (String × Value)) := do
  let c ← Config.loadIf ruby files Hash.empty (host.configPath files)
  -- Config, taken out where it was used, maps to no setting
  let defaults ← translate ruby host.hostDefaults
  let c ← defaults.foldlM (fun (c : Config) option =>
    if c.isSet option.1 then .ok c else c.set option.1 option.2) c
  let typed ← translate ruby host.typedOptions
  let c ← c.merge typed
  let c ← c.servingPort
  pure c.serverOptions

/-! The same as layers. -/

def fileSettings : Option Value → Except Exn (List (String × Value))
  | none => .ok []
  | some (.str path) =>
    match files path with
    | none => .error (.fileNotFound path)
    | some file => do
      let given ← file.calls.mapM (Call.setting ruby)
      match file.raises with
      | none => pure given
      | some e => .error e
  | some value => .error (.notAPath value)

/-- What `options.each { set }` comes to. -/
def known (options : List (String × Value)) : Except Exn (List (String × Value)) :=
  match options.find? fun option => option.1 ∉ SETTINGS with
  | none => .ok options
  | some option => .error (.unknownSetting option.1)

def served (top : Layer String Value) : List (String × Value) :=
  SETTINGS.map fun key =>
    (key, if key ∈ cliOnly then defaultOf key
      else ((above top (above (one "port" (.int DEFAULT_SERVING_PORT)) (entries DEFAULTS))) key).getD
        .nil)

end Ruby

theorem fetch_layer (c : Config) (key : String) :
    c.fetch key = (above (ofHash c) (entries DEFAULTS) key).getD .nil := by
  unfold Config.fetch above ofHash defaultOf
  cases c.find key <;> rfl

theorem set_known {c : Config} {key : String} {value : Value} (here : key ∈ SETTINGS) :
    c.set key value = .ok (c.put key value) := by
  unfold Config.set
  rw [if_pos here]

theorem merge_known (c : Config) (xs : List (String × Value)) :
    c.merge xs = (known xs).map (fill c) := by
  induction xs generalizing c with
  | nil => rfl
  | cons x xs ih =>
    unfold Config.merge at ih ⊢
    rw [List.foldlM_cons]
    unfold known
    rw [List.find?_cons]
    by_cases here : x.1 ∈ SETTINGS
    · rw [set_known here]
      simp only [here, not_true, decide_false]
      change List.foldlM _ (c.put x.1 x.2) xs = _
      rw [ih]
      unfold known
      cases xs.find? fun option => option.1 ∉ SETTINGS <;> rfl
    · unfold Config.set
      rw [if_neg here]
      simp only [here, not_false_eq_true, decide_true]
      rfl

section Ruby
variable (ruby : Ruby) (files : String → Option File)

theorem dsl_known : ∀ name m, DSL.lookup name = some m → m.setting ∈ SETTINGS := by
  intro name m found
  have each : ∀ entry ∈ DSL, entry.2.setting ∈ SETTINGS := by decide
  have listed : (name, m) ∈ DSL := by
    rw [List.lookup_eq_some_iff] at found
    obtain ⟨before, after, split, _⟩ := found
    rw [split]
    simp
  exact each _ listed

theorem ok_bind {α β : Type} (a : α) (f : α → Except Exn β) : (Except.ok a >>= f) = f a := rfl

theorem pure_ok {α : Type} (a : α) : (pure a : Except Exn α) = .ok a := rfl

theorem bind_ok {α β : Type} {x : Except Exn α} {f : α → Except Exn β} {b : β}
    (made : x >>= f = .ok b) : ∃ a, x = .ok a ∧ f a = .ok b := by
  cases x with
  | error e => cases made
  | ok a => exact ⟨a, rfl, made⟩

theorem setting_known {call : Call} {key : String} {value : Value}
    (given : call.setting ruby = .ok (key, value)) : key ∈ SETTINGS := by
  unfold Call.setting at given
  split at given
  · cases given
  · next m found =>
    have names := dsl_known _ m found
    obtain ⟨argument, _, given⟩ := bind_ok given
    obtain ⟨coerced, _, given⟩ := bind_ok given
    cases given
    exact names

theorem call_fill (c : Config) (call : Call) :
    c.call ruby call = (call.setting ruby).map fun given => c.put given.1 given.2 := by
  unfold Config.call
  cases given : call.setting ruby with
  | error e => rfl
  | ok pair =>
    obtain ⟨key, value⟩ := pair
    exact set_known (setting_known ruby given)

theorem calls_fill (c : Config) (calls : List Call) :
    calls.foldlM (Config.call ruby) c = (calls.mapM (Call.setting ruby)).map (fill c) := by
  induction calls generalizing c with
  | nil => rfl
  | cons call calls ih =>
    rw [List.foldlM_cons, List.mapM_cons, call_fill]
    cases call.setting ruby with
    | error e => rfl
    | ok given =>
      change List.foldlM _ (c.put given.1 given.2) calls = _
      rw [ih]
      cases calls.mapM (Call.setting ruby) <;> rfl

theorem load_fill (c : Config) (path : Option Value) :
    Config.loadIf ruby files c path = (fileSettings ruby files path).map (fill c) := by
  cases path with
  | none => rfl
  | some value =>
    cases value with
    | str path =>
      simp only [Config.loadIf, Config.loadFile, fileSettings]
      cases files path with
      | none => rfl
      | some file =>
        simp only [calls_fill]
        cases file.calls.mapM (Call.setting ruby) with
        | error e => rfl
        | ok given =>
          cases raised : file.raises <;>
            simp [Except.map, bind, Except.bind, pure, Except.pure]
    | _ => rfl

theorem servingPort_layer (c : Config) : ∃ d, c.servingPort = .ok d ∧
    ofHash d = above (ofHash c) (one "port" (.int DEFAULT_SERVING_PORT)) := by
  unfold Config.servingPort
  cases here : c.isSet "port" with
  | true =>
    refine ⟨c, rfl, ?_⟩
    funext k
    by_cases same : k = "port"
    · subst same
      obtain ⟨v, found⟩ := Option.isSome_iff_exists.mp here
      simp [above, ofHash, found]
    · simp [above, one, same]
  | false =>
    refine ⟨c.put "port" (.int DEFAULT_SERVING_PORT), ?_, ?_⟩
    · rw [if_neg (by simp)]
      exact set_known (by decide)
    rw [ofHash_put]
    funext k
    by_cases same : k = "port"
    · subst same
      have absent : c.find "port" = none := by simpa [Config.isSet] using here
      simp [above, ofHash, one, absent]
    · simp [above, one, same]

theorem settings_of_options (c : Config) : settings ruby files none c.serverOptions =
    .ok (SETTINGS.map fun key => (key, if key ∈ cliOnly then defaultOf key else c.fetch key)) := by
  have all : known c.serverOptions = .ok c.serverOptions := by
    have none_other : c.serverOptions.find? (fun option => option.1 ∉ SETTINGS) = none := by
      rw [List.find?_eq_none]
      intro option here
      obtain ⟨listed, _⟩ := List.mem_filter.mp here
      obtain ⟨key, known, rfl⟩ := List.mem_map.mp listed
      simpa using known
    unfold known
    rw [none_other]
  have merged : Config.merge Hash.empty c.serverOptions = .ok (fill Hash.empty c.serverOptions) := by
    rw [merge_known, all]
    rfl
  have read : settings ruby files none c.serverOptions =
      .ok (Config.toH (fill Hash.empty c.serverOptions)) := by
    simp only [settings, Config.loadIf, ok_bind, merged, pure_ok]
  rw [read]
  refine congrArg Except.ok (List.map_congr_left fun key here => ?_)
  refine congrArg (Prod.mk key) ?_
  rw [fetch_layer, ofHash_fill, ofHash_empty, above_bare]
  have passed : c.serverOptions = (SETTINGS.filter fun key => key ∉ cliOnly).map fun key =>
      (key, c.fetch key) := by
    unfold Config.serverOptions Config.toH
    rw [List.filter_map]
    rfl
  rw [passed]
  by_cases only : key ∈ cliOnly
  · rw [if_pos only]
    unfold above defaultOf
    rw [entries_none (by simp [only])]
    rfl
  · rw [if_neg only]
    unfold above
    rw [entries_table _ c.fetch (by simp [here, only])]
    rfl

theorem served_eq (c : Config) {top : Layer String Value}
    (layer : ofHash c = above top (one "port" (.int DEFAULT_SERVING_PORT))) :
    settings ruby files none c.serverOptions = .ok (served top) := by
  rw [settings_of_options]
  refine congrArg Except.ok (List.map_congr_left fun key _ => congrArg (Prod.mk key) ?_)
  rw [fetch_layer, layer, above_assoc]

theorem option_map_known {name setting : String} {coercion : Coercion}
    (found : OPTION_MAP.lookup name = some (setting, coercion)) : setting ∈ SETTINGS := by
  have each : ∀ entry ∈ OPTION_MAP, entry.2.1 ∈ SETTINGS := by decide
  rw [List.lookup_eq_some_iff] at found
  obtain ⟨before, after, split, _⟩ := found
  exact each (name, setting, coercion) (by rw [split]; simp)

theorem translateOne_known {option : String × Value} {pair : String × Value}
    (made : translateOne ruby option = .ok (some pair)) : pair.1 ∈ SETTINGS := by
  unfold translateOne at made
  split at made
  · cases made
  · next setting coercion found =>
    cases coerced : coerce ruby option.2 .nil coercion with
    | error e => rw [coerced] at made; cases made
    | ok value =>
      rw [coerced] at made
      cases made
      exact option_map_known found

theorem translated_pairs {options : List (String × Value)} {pairs : List (Option (String × Value))}
    (made : options.mapM (translateOne ruby) = .ok pairs) :
    ∀ pair, some pair ∈ pairs → pair.1 ∈ SETTINGS := by
  induction options generalizing pairs with
  | nil =>
    cases made
    intro pair here
    cases here
  | cons option options ih =>
    rw [List.mapM_cons] at made
    obtain ⟨first, head, made⟩ := bind_ok made
    obtain ⟨rest, tail, made⟩ := bind_ok made
    cases made
    intro pair here
    rcases List.mem_cons.mp here with rfl | later
    · exact translateOne_known ruby head
    · exact ih tail pair later

theorem translate_known {options xs : List (String × Value)}
    (made : translate ruby options = .ok xs) :
    (∀ x ∈ xs, x.1 ∈ SETTINGS) ∧ (xs.map Prod.fst).Nodup := by
  obtain ⟨pairs, mapped, made⟩ := bind_ok made
  cases made
  refine ⟨fun x here => ?_, Hash.once _⟩
  have found : entries pairs.reduceOption x.1 = some x.2 := by
    have layer := ofHash_fill Hash.empty pairs.reduceOption
    rw [ofHash_empty, above_bare] at layer
    rw [← layer]
    exact Hash.find_eq_some.mpr here
  exact translated_pairs ruby mapped x (List.reduceOption_mem_iff.mp (entries_mem found))

theorem known_all {xs : List (String × Value)} (each : ∀ x ∈ xs, x.1 ∈ SETTINGS) :
    known xs = .ok xs := by
  have none_other : xs.find? (fun option => option.1 ∉ SETTINGS) = none := by
    rw [List.find?_eq_none]
    intro option here
    simpa using each option here
  unfold known
  rw [none_other]

theorem fill_below (c : Config) {xs : List (String × Value)} (each : ∀ x ∈ xs, x.1 ∈ SETTINGS)
    (once : (xs.map Prod.fst).Nodup) : ∃ d,
    xs.foldlM (fun (c : Config) option =>
      if c.isSet option.1 then .ok c else c.set option.1 option.2) c = .ok d ∧
    ofHash d = above (ofHash c) (entries xs) := by
  induction xs generalizing c with
  | nil => exact ⟨c, rfl, (above_bare _).symm⟩
  | cons x xs ih =>
    obtain ⟨key, value⟩ := x
    rw [List.map_cons, List.nodup_cons] at once
    have first : (if c.isSet key then .ok c else c.set key value) = .ok (c.putNew key value) := by
      unfold Hash.putNew
      cases here : c.isSet key with
      | true => simp [Config.isSet] at here; simp [here]
      | false =>
        have absent : (c.find key).isSome = false := here
        rw [if_neg (by simp), set_known (each _ List.mem_cons_self), if_neg (by simp [absent])]
    obtain ⟨d, filled, layer⟩ :=
      ih (c.putNew key value) (fun x later => each x (List.mem_cons_of_mem _ later)) once.2
    refine ⟨d, ?_, ?_⟩
    · rw [List.foldlM_cons, first]
      exact filled
    · rw [layer, ofHash_putNew, above_assoc]
      congr 1
      funext j
      simp only [entries, above]
      by_cases same : j = key
      · subst same
        rw [entries_none once.1]
        simp [one]
      · simp [one, same]

theorem handler_served (host : HostOptions) :
    handlerOptions ruby files host >>= settings ruby files none = (do
      let file ← fileSettings ruby files (host.configPath files)
      let defaults ← translate ruby host.hostDefaults
      let typed ← translate ruby host.typedOptions
      pure (served (above (entries typed) (above (entries file) (entries defaults))))) := by
  unfold handlerOptions
  rw [load_fill]
  cases fileSettings ruby files (host.configPath files) with
  | error e => rfl
  | ok file =>
    simp only [Except.map, ok_bind]
    cases below : translate ruby host.hostDefaults with
    | error e => rfl
    | ok defaults =>
      obtain ⟨each, once⟩ := translate_known ruby below
      obtain ⟨c, filled, layer⟩ := fill_below (fill Hash.empty file) each once
      simp only [ok_bind, filled]
      cases top : translate ruby host.typedOptions with
      | error e => rfl
      | ok typed =>
        have merged : c.merge typed = .ok (fill c typed) := by
          rw [merge_known, known_all (translate_known ruby top).1]
          rfl
        obtain ⟨d, ported, portLayer⟩ := servingPort_layer (fill c typed)
        simp only [ok_bind, merged, ported, pure_ok]
        apply served_eq
        rw [portLayer, ofHash_fill, layer, ofHash_fill, ofHash_empty, above_bare]

theorem cli_served (configFile : Option String) (overrides : List (String × Value)) :
    (resolveConfig ruby files configFile overrides >>= fun c =>
      settings ruby files none c.serverOptions) = (do
      let file ← fileSettings ruby files ((configFile.map .str).or (defaultPath files))
      let typed ← known overrides
      pure (served (above (entries typed) (entries file)))) := by
  unfold resolveConfig
  rw [load_fill]
  cases fileSettings ruby files ((configFile.map .str).or (defaultPath files)) with
  | error e => rfl
  | ok file =>
    simp only [Except.map, ok_bind, merge_known]
    cases known overrides with
    | error e => rfl
    | ok typed =>
      obtain ⟨d, ported, portLayer⟩ := servingPort_layer (fill (fill Hash.empty file) typed)
      simp only [ok_bind, ported, pure_ok]
      apply served_eq
      rw [portLayer, ofHash_fill, ofHash_fill, ofHash_empty, above_bare]

/-- Under both front ends a server is handed every setting from the highest layer that has it:
    what was typed, the last line of the config file about it, the host's own defaults, the
    serving port, Kino's defaults. It is handed any exactly when the file can be read and every
    value given can be converted, and its own checks come after; what only the command line uses
    does not reach it. -/
theorem settings_precedence (ruby : Ruby) (files : String → Option File) :
    (∀ host : HostOptions, handlerOptions ruby files host >>= settings ruby files none = (do
      let file ← fileSettings ruby files (host.configPath files)
      let defaults ← translate ruby host.hostDefaults
      let typed ← translate ruby host.typedOptions
      pure (served (above (entries typed) (above (entries file) (entries defaults)))))) ∧
    ∀ configFile overrides, (resolveConfig ruby files configFile overrides >>= fun c =>
      settings ruby files none c.serverOptions) = (do
      let file ← fileSettings ruby files ((configFile.map .str).or (defaultPath files))
      let typed ← known overrides
      pure (served (above (entries typed) (entries file)))) :=
  ⟨handler_served ruby files, cli_served ruby files⟩

end Ruby

end KinoConfiguration
