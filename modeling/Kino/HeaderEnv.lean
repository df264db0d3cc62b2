import Kino.HostCache

/-!
The env hash of `build_env` (ext/kino/src/request.rs): the fixed keys, the header loop, and
SERVER_NAME, SERVER_PORT and HTTP_HOST after it. A header name is the lower-case token that
hyper delivers. A value that goes through a cache is whatever the caches' system returned.
-/
namespace KinoHeaderEnv
open Transitions KinoEnvStrings KinoEnvSlots KinoHostCache

variable {Ip : Type}

def commonHeaders : List String :=
  ["host", "connection", "user-agent", "accept", "accept-encoding", "accept-language",
    "accept-charset", "cookie", "referer", "origin", "authorization", "cache-control", "pragma",
    "expect", "forwarded", "via", "range", "te", "dnt", "upgrade-insecure-requests",
    "if-none-match", "if-modified-since", "if-match", "if-unmodified-since", "if-range",
    "x-forwarded-for", "x-forwarded-proto", "x-forwarded-host", "x-forwarded-port", "x-real-ip",
    "x-request-id", "x-requested-with", "x-csrf-token", "x-api-key", "content-encoding",
    "content-language", "sec-fetch-dest", "sec-fetch-mode", "sec-fetch-site", "sec-fetch-user",
    "sec-ch-ua", "sec-ch-ua-mobile", "sec-ch-ua-platform", "keep-alive", "priority", "alt-used"]

def internableValues : List String :=
  ["user-agent", "accept", "accept-encoding", "accept-language", "cache-control", "dnt", "origin",
    "pragma", "priority", "sec-ch-ua", "sec-ch-ua-mobile", "sec-ch-ua-platform", "sec-fetch-dest",
    "sec-fetch-mode", "sec-fetch-site", "sec-fetch-user", "upgrade-insecure-requests",
    "x-requested-with"]

def valueInternMaxLen : Nat := 512

def cgiChar (c : Char) : Char := if c = '-' then '_' else c.toUpper

def cgiName (lower : String) : String :=
  String.ofList ("HTTP_".toList ++ lower.toList.map cgiChar)

/-- The frozen names: `EnvStrings::header_names`. -/
def headerNames (lower : String) : Option String :=
  if lower ∈ commonHeaders then some (cgiName lower) else none

/-- What hyper takes in a header name, once it is lower-cased. -/
def nameChar (c : Char) : Bool :=
  c.isLower || c.isDigit || "!#$%&'*+-.^_`|~".toList.contains c

structure HeaderName where
  text : String
  written : text ≠ ""
  valid : text.toList.all nameChar = true
  deriving DecidableEq

/-- The names stand in the order in which `keys` gives them. -/
structure HeaderMap where
  entries : List (HeaderName × List Bytes)
  once : (entries.map Prod.fst).Nodup
  valued : ∀ e ∈ entries, e.2 ≠ []

def HeaderMap.keys (headers : HeaderMap) : List HeaderName := headers.entries.map Prod.fst

def HeaderMap.getAll (headers : HeaderMap) (name : HeaderName) : List Bytes :=
  ((headers.entries.find? fun e => e.1 = name).map Prod.snd).getD []

inductive Version where
  | http10
  | http11
  | http2
  | other
  deriving DecidableEq, Repr

inductive Value where
  | string (bytes : Bytes)
  | errorsStream
  | nullInput
  deriving DecidableEq, Repr

abbrev Env := String → Option Value

def Env.aset (env : Env) (key : String) (value : Value) : Env :=
  Function.update env key (some value)

def ascii (text : String) : Bytes := text.toList.map fun c => UInt8.ofNat c.toNat

/-- `bodyPossible` is the answer of `body_possible`; `errorsStream` and `nullInput` say
    whether the Ruby layer has registered its singletons. -/
structure RequestCtx (Ip : Type) where
  method : Bytes
  path : Bytes
  query : Option Bytes
  authority : Option Bytes
  version : Version
  headers : HeaderMap
  remoteIp : Ip
  localIp : Ip
  localPort : UInt16
  https : Bool
  bodyPossible : Bool
  errorsStream : Bool
  nullInput : Bool

def hostName : HeaderName := ⟨"host", by decide, by decide⟩

def RequestCtx.host (ctx : RequestCtx Ip) : Request Ip :=
  ⟨ctx.authority, ctx.headers.getAll hostName, ctx.localIp, ctx.localPort⟩

def HeaderName.key (name : HeaderName) : String :=
  if name.text = "content-type" then "CONTENT_TYPE"
  else if name.text = "content-length" then "CONTENT_LENGTH"
  else
    match headerNames name.text with
    | some cached => cached
    | none => cgiName name.text

def HeaderName.separator (name : HeaderName) : Bytes :=
  if name.text = "cookie" then [59, 32] else [44, 32]

/-- `cached` answers the call of `get_or_insert`. -/
def setValueEnv (cached : Op Ip → List Bytes) (env : Env) (key name : String) (value : Bytes) :
    Env :=
  if valueInternMaxLen < value.length ∨ name ∉ internableValues then env.aset key (.string value)
  else env.aset key (.string ((cached (.value value)).getD 0 []))

def setHeader (cached : Op Ip → List Bytes) (headers : HeaderMap) (env : Env) (name : HeaderName) :
    Env :=
  match headers.getAll name with
  | [] => setValueEnv cached env name.key name.text []
  | [first] => setValueEnv cached env name.key name.text first
  | first :: second :: values =>
    env.aset name.key (.string (values.foldl (fun joined v => joined ++ name.separator ++ v)
      (first ++ name.separator ++ second)))

/-- The request's calls on the caches are numbered; `calls` has the answers. -/
def setHeaders (calls : Nat → Op Ip → List Bytes) (headers : HeaderMap) :
    Nat → List HeaderName → Env → Env
  | _, [], env => env
  | i, name :: names, env =>
    setHeaders calls headers (i + 1) names (setHeader (calls i) headers env name)

def fixedEnv (cached : Op Ip → List Bytes) (ctx : RequestCtx Ip) : Env :=
  let env : Env := fun _ => none
  let env := env.aset "REQUEST_METHOD" (.string ctx.method)
  let env := env.aset "SCRIPT_NAME" (.string [])
  let env := env.aset "PATH_INFO" (.string ctx.path)
  let env := env.aset "QUERY_STRING" (.string (ctx.query.getD []))
  let env := env.aset "SERVER_PROTOCOL" (.string (ascii (match ctx.version with
    | .http10 => "HTTP/1.0"
    | .http2 => "HTTP/2"
    | .http11 | .other => "HTTP/1.1")))
  let env := env.aset "REMOTE_ADDR" (.string ((cached (.addr ctx.remoteIp)).getD 0 []))
  let env := env.aset "rack.url_scheme" (.string (ascii (if ctx.https then "https" else "http")))
  let env := if ctx.errorsStream then env.aset "rack.errors" .errorsStream else env
  if ctx.bodyPossible = false ∧ ctx.nullInput = true then env.aset "rack.input" .nullInput else env

/-- `set_authority_env` and `set_host_env`. -/
def setHost (strings : List Bytes) (ctx : RequestCtx Ip) (env : Env) : Env :=
  let env := env.aset "SERVER_NAME" (.string (strings.getD 0 []))
  let env := env.aset "SERVER_PORT" (.string (strings.getD 1 []))
  match ctx.authority with
  | some _ => env.aset (cgiName "host") (.string (strings.getD 2 []))
  | none => env

section Build
variable [DecidableEq Ip] (authorityHost : Bytes → Bytes) (authorityPort : Bytes → Option UInt16)
  (ipString : Ip → Bytes)

structure Answers where
  strings : Nat → Op Ip → List Bytes
  returned : ∀ i op, ∃ s ρ, Reachable (system ipString cacheSlabCapacity) s ∧
    s.pcs ρ = .done op (strings i op)

def buildEnv (answers : Answers ipString) (ctx : RequestCtx Ip) : Env :=
  let env := fixedEnv (answers.strings 0) ctx
  let env := setHeaders answers.strings ctx.headers 1 ctx.headers.keys env
  let op := ctx.host.op authorityHost authorityPort ipString
  setHost (answers.strings (ctx.headers.keys.length + 1) op) ctx env

def Answers.uncached : Answers ipString where
  strings := fun _ op => op.fresh ipString
  returned := by
    intro _ op
    obtain ⟨s, _, reached, _, done, _⟩ :=
      returned_reached ipString (fun _ => True) (a := op) trivial
    exact ⟨s, 0, reached.forget, done⟩

end Build

theorem getAll_entry {headers : HeaderMap} {name : HeaderName} {values : List Bytes}
    (listed : (name, values) ∈ headers.entries) : headers.getAll name = values := by
  have found := LruCache.Lru.look_of_mem headers.once listed
  unfold LruCache.Lru.look at found
  rw [HeaderMap.getAll, found]
  rfl

theorem intercalate_cons (sep first : Bytes) (values : List Bytes) :
    List.intercalate sep (first :: values) = first ++ values.flatMap (sep ++ ·) := by
  induction values generalizing first with
  | nil => simp [List.intercalate]
  | cons second values ih =>
    have rest := ih second
    simp only [List.intercalate, List.intersperse_cons_cons, List.flatten_cons] at rest ⊢
    rw [rest]
    simp

theorem foldl_joined (sep joined : Bytes) (values : List Bytes) :
    values.foldl (fun joined v => joined ++ sep ++ v) joined =
      joined ++ values.flatMap (sep ++ ·) := by
  induction values generalizing joined with
  | nil => simp
  | cons v values ih =>
    rw [List.foldl_cons, ih, List.flatMap_cons]
    simp only [List.append_assoc]

section Loop
variable [DecidableEq Ip] {ipString : Ip → Bytes}

theorem value_answer (answers : Answers ipString) (i : Nat) (value : Bytes) :
    answers.strings i (.value value) = [value] := by
  obtain ⟨s, ρ, reached, done⟩ := answers.returned i (.value value)
  exact (interned_strings_law ipString cacheSlabCapacity reached).1 ρ _ _ done (by simp [Op.cache])

theorem setValueEnv_eq (answers : Answers ipString) (i : Nat) (env : Env) (key name : String)
    (value : Bytes) :
    setValueEnv (answers.strings i) env key name value = env.aset key (.string value) := by
  unfold setValueEnv
  rw [value_answer]
  split <;> rfl

theorem setHeader_eq (answers : Answers ipString) (i : Nat) {headers : HeaderMap} (env : Env)
    {name : HeaderName} {values : List Bytes} (listed : (name, values) ∈ headers.entries) :
    setHeader (answers.strings i) headers env name =
      env.aset name.key (.string (List.intercalate name.separator values)) := by
  unfold setHeader
  rw [getAll_entry listed]
  match values with
  | [] => exact setValueEnv_eq answers i env name.key name.text []
  | [first] =>
    rw [intercalate_cons, List.flatMap_nil, List.append_nil]
    exact setValueEnv_eq answers i env name.key name.text first
  | first :: second :: values =>
    dsimp only
    rw [intercalate_cons, foldl_joined]
    simp

def writeHeader (env : Env) (e : HeaderName × List Bytes) : Env :=
  env.aset e.1.key (.string (List.intercalate e.1.separator e.2))

theorem setHeaders_eq (answers : Answers ipString) {headers : HeaderMap}
    {entries : List (HeaderName × List Bytes)} (listed : entries ⊆ headers.entries) (i : Nat)
    (env : Env) :
    setHeaders answers.strings headers i (entries.map Prod.fst) env =
      entries.foldl writeHeader env := by
  induction entries generalizing i env with
  | nil => rfl
  | cons e entries ih =>
    obtain ⟨here, more⟩ := List.cons_subset.mp listed
    have written : setHeader (answers.strings i) headers env e.1 = writeHeader env e :=
      setHeader_eq answers i env here
    rw [List.map_cons, setHeaders, written]
    exact ih more (i + 1) _

end Loop

theorem written_other {entries : List (HeaderName × List Bytes)} {env : Env} {key : String}
    (none_writes : ∀ e ∈ entries, e.1.key ≠ key) : entries.foldl writeHeader env key = env key := by
  induction entries generalizing env with
  | nil => rfl
  | cons e entries ih =>
    rw [List.foldl_cons, ih fun e here => none_writes e (by simp [here])]
    exact Function.update_of_ne (none_writes e (by simp)).symm _ _

theorem written_last (before : List (HeaderName × List Bytes)) (e : HeaderName × List Bytes)
    {after : List (HeaderName × List Bytes)} {env : Env} (last : ∀ x ∈ after, x.1.key ≠ e.1.key) :
    (before ++ e :: after).foldl writeHeader env e.1.key =
      some (.string (List.intercalate e.1.separator e.2)) := by
  rw [List.foldl_append, List.foldl_cons, written_other last]
  exact Function.update_self _ _ _

/-- Of the elements with a property one is the last. -/
theorem exists_last {α : Type} {l : List α} {p : α → Prop} {x : α} (here : x ∈ l) (px : p x) :
    ∃ before y after, l = before ++ y :: after ∧ p y ∧ ∀ z ∈ after, ¬p z := by
  induction l generalizing x with
  | nil => cases here
  | cons y l ih =>
    by_cases later : ∃ z ∈ l, p z
    · obtain ⟨z, inside, pz⟩ := later
      obtain ⟨before, w, after, rfl, pw, last⟩ := ih inside pz
      exact ⟨y :: before, w, after, rfl, pw, last⟩
    · rcases List.mem_cons.mp here with rfl | inside
      · exact ⟨[], x, l, rfl, px, fun z inside pz => later ⟨z, inside, pz⟩⟩
      · exact absurd ⟨x, inside, px⟩ later

def HeaderName.Plain (name : HeaderName) : Prop :=
  name.text ≠ "content-type" ∧ name.text ≠ "content-length"

def dashChar (c : Char) : Char := if c = '_' then '-' else c

def HeaderName.dashed (name : HeaderName) : List Char := name.text.toList.map dashChar

theorem nameChar_not_upper {c : Char} (valid : nameChar c = true) : ¬c.isUpper := by
  intro upper
  simp only [nameChar, Bool.or_eq_true] at valid
  rcases valid with (lower | digit) | sign
  · simp only [Char.isLower, Char.isUpper, Bool.and_eq_true, decide_eq_true_eq,
      UInt32.le_iff_toNat_le] at lower upper
    have above : 97 ≤ c.val.toNat := lower.1
    have below : c.val.toNat ≤ 90 := upper.2
    omega
  · simp only [Char.isDigit, Char.isUpper, Bool.and_eq_true, decide_eq_true_eq,
      UInt32.le_iff_toNat_le] at digit upper
    have above : 65 ≤ c.val.toNat := upper.1
    have below : c.val.toNat ≤ 57 := digit.2
    omega
  · have none_upper : "!#$%&'*+-.^_`|~".toList.all (fun d => !d.isUpper) = true := by decide
    have plain := List.all_eq_true.mp none_upper c (List.contains_iff_mem.mp sign)
    rw [upper] at plain
    cases plain

theorem toUpper_injective {a b : Char} (valid_a : nameChar a = true) (valid_b : nameChar b = true)
    (same : a.toUpper = b.toUpper) : a = b := by
  have lower := congrArg Char.toLower same
  rw [Char.toLower_toUpper_eq_toLower, Char.toLower_toUpper_eq_toLower,
    Char.toLower_eq_of_not_isUpper (nameChar_not_upper valid_a),
    Char.toLower_eq_of_not_isUpper (nameChar_not_upper valid_b)] at lower
  exact lower

theorem cgiChar_eq_iff {a b : Char} (valid_a : nameChar a = true) (valid_b : nameChar b = true) :
    cgiChar a = cgiChar b ↔ dashChar a = dashChar b := by
  have underscore : '_'.toUpper = '_' := by decide
  unfold cgiChar dashChar
  by_cases dash_a : a = '-' <;> by_cases dash_b : b = '-'
  · simp [dash_a, dash_b]
  · rw [if_pos dash_a, if_neg dash_b]
    constructor
    · intro same
      rw [← underscore] at same
      rw [← toUpper_injective (by decide) valid_b same, dash_a]
      rfl
    · intro same
      subst dash_a
      by_cases here : b = '_'
      · rw [here, underscore]
      · rw [if_neg here] at same
        exact absurd same.symm dash_b
  · rw [if_neg dash_a, if_pos dash_b]
    constructor
    · intro same
      rw [← underscore] at same
      rw [toUpper_injective valid_a (by decide) same, dash_b]
      rfl
    · intro same
      subst dash_b
      by_cases here : a = '_'
      · rw [here, underscore]
      · rw [if_neg here] at same
        exact absurd same dash_a
  · rw [if_neg dash_a, if_neg dash_b]
    constructor
    · intro same
      rw [toUpper_injective valid_a valid_b same]
    · intro same
      by_cases here_a : a = '_' <;> by_cases here_b : b = '_'
      · rw [here_a, here_b]
      · rw [if_pos here_a, if_neg here_b] at same
        exact absurd same.symm dash_b
      · rw [if_neg here_a, if_pos here_b] at same
        exact absurd same dash_a
      · rw [if_neg here_a, if_neg here_b] at same
        rw [same]

theorem map_cgiChar_eq_iff {a b : List Char} (valid_a : a.all nameChar = true)
    (valid_b : b.all nameChar = true) :
    a.map cgiChar = b.map cgiChar ↔ a.map dashChar = b.map dashChar := by
  induction a generalizing b with
  | nil => cases b <;> simp
  | cons x a ih =>
    cases b with
    | nil => simp
    | cons y b =>
      simp only [List.all_cons, Bool.and_eq_true] at valid_a valid_b
      simp only [List.map_cons, List.cons.injEq]
      rw [cgiChar_eq_iff valid_a.1 valid_b.1, ih valid_a.2 valid_b.2]

theorem key_eq (name : HeaderName) :
    name.key = if name.text = "content-type" then "CONTENT_TYPE"
      else if name.text = "content-length" then "CONTENT_LENGTH" else cgiName name.text := by
  unfold HeaderName.key headerNames
  split
  · rfl
  · split
    · rfl
    · split <;> simp_all

theorem toList_cgiName (lower : String) :
    (cgiName lower).toList = "HTTP_".toList ++ lower.toList.map cgiChar :=
  String.toList_ofList

theorem cgiName_http (lower : String) : "HTTP_".toList.isPrefixOf (cgiName lower).toList = true := by
  rw [toList_cgiName]
  exact List.isPrefixOf_iff_prefix.mpr (List.prefix_append _ _)

theorem cgiName_eq_iff {a b : HeaderName} : cgiName a.text = cgiName b.text ↔ a.dashed = b.dashed := by
  unfold cgiName
  rw [String.ofList_inj, List.append_cancel_left_eq]
  exact map_cgiChar_eq_iff a.valid b.valid

theorem header_name_ext {a b : HeaderName} (same : a.text = b.text) : a = b := by
  cases a
  cases b
  cases same
  rfl

/-- Two names share a key when they are one name, or when both are plain and differ at most
    in dashes for underscores. -/
theorem key_eq_iff (a b : HeaderName) :
    a.key = b.key ↔ a = b ∨ a.Plain ∧ b.Plain ∧ a.dashed = b.dashed := by
  have apart : ∀ (lower key : String), "HTTP_".toList.isPrefixOf key.toList = false →
      cgiName lower ≠ key := by
    intro lower key other same
    have own := cgiName_http lower
    rw [same, other] at own
    cases own
  have type_apart : ∀ lower, cgiName lower ≠ "CONTENT_TYPE" := fun lower => apart lower _ (by decide)
  have length_apart : ∀ lower, cgiName lower ≠ "CONTENT_LENGTH" :=
    fun lower => apart lower _ (by decide)
  have two : "CONTENT_TYPE" ≠ "CONTENT_LENGTH" := by decide
  constructor
  · intro same
    rw [key_eq, key_eq] at same
    by_cases type_a : a.text = "content-type" <;> by_cases type_b : b.text = "content-type"
    · exact .inl (header_name_ext (type_a.trans type_b.symm))
    · rw [if_pos type_a, if_neg type_b] at same
      split at same
      · exact absurd same two
      · exact absurd same.symm (type_apart _)
    · rw [if_neg type_a, if_pos type_b] at same
      split at same
      · exact absurd same.symm two
      · exact absurd same (type_apart _)
    · rw [if_neg type_a, if_neg type_b] at same
      by_cases length_a : a.text = "content-length" <;> by_cases length_b : b.text = "content-length"
      · exact .inl (header_name_ext (length_a.trans length_b.symm))
      · rw [if_pos length_a, if_neg length_b] at same
        exact absurd same.symm (length_apart _)
      · rw [if_neg length_a, if_pos length_b] at same
        exact absurd same (length_apart _)
      · rw [if_neg length_a, if_neg length_b] at same
        exact .inr ⟨⟨type_a, length_a⟩, ⟨type_b, length_b⟩, cgiName_eq_iff.mp same⟩
  · rintro (rfl | ⟨plain_a, plain_b, same⟩)
    · rfl
    · rw [key_eq, key_eq, if_neg plain_a.1, if_neg plain_a.2, if_neg plain_b.1, if_neg plain_b.2]
      exact cgiName_eq_iff.mpr same

def fixedKeys : List String :=
  ["REQUEST_METHOD", "SCRIPT_NAME", "PATH_INFO", "QUERY_STRING", "SERVER_PROTOCOL", "REMOTE_ADDR",
    "rack.url_scheme", "rack.errors", "rack.input", "SERVER_NAME", "SERVER_PORT"]

theorem key_not_fixed (name : HeaderName) : name.key ∉ fixedKeys := by
  intro listed
  have other : fixedKeys.all (fun k => !("HTTP_".toList.isPrefixOf k.toList)) = true := by decide
  rw [key_eq] at listed
  split at listed
  · exact absurd listed (by decide)
  · split at listed
    · exact absurd listed (by decide)
    · have plain := List.all_eq_true.mp other _ listed
      rw [cgiName_http] at plain
      cases plain

theorem aset_other {env : Env} {key k : String} (value : Value) (other : k ≠ key) :
    env.aset key value k = env k :=
  Function.update_of_ne other _ _

theorem fixedEnv_keys {cached : Op Ip → List Bytes} {ctx : RequestCtx Ip} {k : String}
    (other : k ∉ fixedKeys) : fixedEnv cached ctx k = none := by
  simp only [fixedKeys, List.mem_cons, List.not_mem_nil, or_false, not_or] at other
  obtain ⟨k1, k2, k3, k4, k5, k6, k7, k8, k9, _⟩ := other
  unfold fixedEnv
  split <;> split <;> simp only [aset_other, k1, k2, k3, k4, k5, k6, k7, k8, k9, ne_eq, not_false_eq_true]

theorem setHost_other {strings : List Bytes} {ctx : RequestCtx Ip} {env : Env} {k : String}
    (no_authority : ctx.authority = none) (other : k ∉ fixedKeys) :
    setHost strings ctx env k = env k := by
  simp only [fixedKeys, List.mem_cons, List.not_mem_nil, or_false, not_or] at other
  obtain ⟨_, _, _, _, _, _, _, _, _, k10, k11⟩ := other
  unfold setHost
  rw [no_authority]
  exact (aset_other _ k11).trans (aset_other _ k10)

structure HeaderLaw (env : Env) (headers : HeaderMap) : Prop where
  entry : ∀ name values, (name, values) ∈ headers.entries →
    ∃ before last joined after, headers.entries = before ++ (last, joined) :: after ∧
      last.key = name.key ∧ (∀ e ∈ after, e.1.key ≠ name.key) ∧
      env name.key = some (.string (List.intercalate last.separator joined))
  apart : ∀ name : HeaderName, name.key ∉ fixedKeys
  others : ∀ key, env key ≠ none → key ∈ fixedKeys ∨ ∃ name ∈ headers.keys, name.key = key

section Law
variable [DecidableEq Ip] (authorityHost : Bytes → Bytes) (authorityPort : Bytes → Option UInt16)
  {ipString : Ip → Bytes}

theorem buildEnv_other {answers : Answers ipString} {ctx : RequestCtx Ip}
    (no_authority : ctx.authority = none) {k : String} (other : k ∉ fixedKeys) :
    buildEnv authorityHost authorityPort ipString answers ctx k =
      ctx.headers.entries.foldl writeHeader (fixedEnv (answers.strings 0) ctx) k := by
  unfold buildEnv
  rw [setHost_other no_authority other]
  exact congrFun (setHeaders_eq answers (List.Subset.refl _) 1 _) k

theorem header_env_law (answers : Answers ipString) (ctx : RequestCtx Ip)
    (no_authority : ctx.authority = none) :
    HeaderLaw (buildEnv authorityHost authorityPort ipString answers ctx) ctx.headers ∧
    (∀ name : HeaderName, name.key = if name.text = "content-type" then "CONTENT_TYPE"
      else if name.text = "content-length" then "CONTENT_LENGTH" else cgiName name.text) ∧
    ∀ a b : HeaderName, a.key = b.key ↔ a = b ∨ a.Plain ∧ b.Plain ∧ a.dashed = b.dashed := by
  refine ⟨⟨?_, key_not_fixed, ?_⟩, key_eq, key_eq_iff⟩
  · intro name values listed
    obtain ⟨before, ⟨last, joined⟩, after, split, same, later⟩ :=
      exists_last (p := fun e => e.1.key = name.key) listed rfl
    refine ⟨before, last, joined, after, split, same, later, ?_⟩
    rw [buildEnv_other authorityHost authorityPort no_authority (key_not_fixed name), split, ← same]
    apply written_last before (last, joined)
    intro e inside
    rw [same]
    exact later e inside
  · intro key present
    by_cases fixed : key ∈ fixedKeys
    · exact .inl fixed
    · right
      by_contra absent
      push Not at absent
      apply present
      rw [buildEnv_other authorityHost authorityPort no_authority fixed, written_other,
        fixedEnv_keys fixed]
      intro e inside
      exact absent e.1 (List.mem_map_of_mem inside)

end Law

def dashName : HeaderName := ⟨"x-foo", by decide, by decide⟩

def underscoreName : HeaderName := ⟨"x_foo", by decide, by decide⟩

/-- A proxy's `x-foo: 1` and a client's `x_foo: 2`. -/
def spoofed : RequestCtx Ipv4 where
  method := ascii "GET"
  path := ascii "/"
  query := none
  authority := none
  version := .http11
  headers := ⟨[(dashName, [[49]]), (underscoreName, [[50]])], by decide, by decide⟩
  remoteIp := (127, 0, 0, 1)
  localIp := (127, 0, 0, 1)
  localPort := 9292
  https := false
  bodyPossible := false
  errorsStream := true
  nullInput := true

theorem spoofed_header_law :
    spoofed.authority = none ∧
    HeaderLaw (buildEnv textHost textPort dotted (Answers.uncached dotted) spoofed) spoofed.headers :=
  ⟨rfl, (header_env_law textHost textPort (Answers.uncached dotted) spoofed rfl).1⟩

/-- HTTP_X_FOO is the client's value. -/
theorem underscore_overwrites_dash :
    ¬∀ (ctx : RequestCtx Ipv4) (answers : Answers dotted), ctx.authority = none →
      (∀ name values, (name, values) ∈ ctx.headers.entries →
        buildEnv textHost textPort dotted answers ctx name.key =
          some (.string (List.intercalate name.separator values))) ∧
      ∀ a ∈ ctx.headers.keys, ∀ b ∈ ctx.headers.keys, a.key = b.key → a = b := by
  intro own
  have one_key : underscoreName.key = dashName.key := by decide
  have sent := (own spoofed (Answers.uncached dotted) rfl).1 dashName [[49]] (.head _)
  have env : buildEnv textHost textPort dotted (Answers.uncached dotted) spoofed dashName.key =
      some (.string [50]) := by
    rw [buildEnv_other textHost textPort rfl (key_not_fixed dashName), ← one_key]
    exact written_last [(dashName, [[49]])] (underscoreName, [[50]]) (by simp)
  rw [env] at sent
  exact absurd sent (by decide)

end KinoHeaderEnv
