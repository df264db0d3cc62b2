import Kino.Metrics

/-!
The routing of the control plane (ext/kino/src/control.rs) and its bearer token, which
`Server#initialize` turns off when it is empty (lib/kino/server.rb).
-/
namespace KinoControlPlane
open KinoMetrics

def bytes (text : String) : List UInt8 := text.toByteArray.data.toList

def stripPrefix (front text : String) : Option String :=
  if front.toList <+: text.toList then some (String.ofList (text.toList.drop front.toList.length))
  else none

/-- One round of the loop of `token_ok`. -/
def differ (e p : List UInt8) (diff : UInt8) (i : Nat) : UInt8 := diff ||| (e.getD i 0 ^^^ p.getD i 0)

def tokenOk (expected : String) (authorization : Option String) : Bool :=
  let presented := (authorization.bind (stripPrefix "Bearer ")).getD ""
  let e := bytes expected
  let p := bytes presented
  if e.length ≠ p.length then false
  else (List.range e.length).foldl (differ e p) 0 = 0

/-- `@control_token` of the server. -/
def controlToken (setting : Option String) : Option String :=
  match setting with
  | some token => if token = "" then none else some token
  | none => none

/-- The path up to its query: `path.split('?').next()`. -/
def beforeQuery (path : String) : String := String.ofList (path.toList.takeWhile (· ≠ '?'))

section Route
variable (sumSeconds : Nat → String)

def route (method path : String) (authorization token : Option String) (snapshot : StatsSnapshot) :
    Nat × String × String :=
  if method ≠ "GET" ∧ method ≠ "HEAD" then (405, "text/plain", "method not allowed\n")
  else
    let path := beforeQuery path
    if path = "/live" then (200, "text/plain", "ok\n")
    else if path = "/ready" then
      if snapshot.state = stateReady then (200, "text/plain", "ok\n")
      else (503, "text/plain", snapshot.stateName ++ "\n")
    else if path = "/stats" ∨ path = "/metrics" then
      if token.any fun expected => !tokenOk expected authorization then
        (401, "text/plain", "unauthorized\n")
      else if path = "/stats" then (200, "application/json", statsJson sumSeconds snapshot)
      else (200, "text/plain; version=0.0.4", metricsText sumSeconds snapshot)
    else (404, "text/plain", "not found\n")

theorem differ_zero (e p : List UInt8) (n : Nat) (diff : UInt8) :
    (List.range n).foldl (differ e p) diff = 0 ↔ diff = 0 ∧ ∀ i, i < n → e.getD i 0 = p.getD i 0 := by
  induction n with
  | zero => simp
  | succ n ih =>
    rw [List.range_succ, List.foldl_append, List.foldl_cons, List.foldl_nil, differ,
      UInt8.or_eq_zero_iff, UInt8.xor_eq_zero_iff, ih]
    constructor
    · rintro ⟨⟨start, before⟩, last⟩
      refine ⟨start, ?_⟩
      intro i small
      rcases Nat.lt_or_ge i n with earlier | here
      · exact before i earlier
      · have same : i = n := by omega
        rw [same]
        exact last
    · rintro ⟨start, all⟩
      refine ⟨⟨start, ?_⟩, all n (by omega)⟩
      intro i small
      exact all i (by omega)

theorem bytes_injective {a b : String} (same : bytes a = bytes b) : a = b := by
  unfold bytes at same
  rw [Array.toList_inj] at same
  exact String.toByteArray_inj.mp (ByteArray.ext same)

theorem compare_equal (expected presented : String) :
    (if (bytes expected).length ≠ (bytes presented).length then false
      else decide ((List.range (bytes expected).length).foldl
        (differ (bytes expected) (bytes presented)) 0 = 0)) = true ↔
    bytes expected = bytes presented := by
  split
  · next lengths =>
    simp only [Bool.false_eq_true, false_iff]
    intro same
    exact lengths (by rw [same])
  · next lengths =>
    have sized : (bytes expected).length = (bytes presented).length := by simpa using lengths
    rw [decide_eq_true_eq, differ_zero]
    constructor
    · rintro ⟨_, each⟩
      apply List.ext_getElem sized
      intro i left right
      have same := each i left
      rw [List.getD_eq_getElem _ _ left, List.getD_eq_getElem _ _ right] at same
      exact same
    · intro same
      rw [same]
      simp

theorem stripPrefix_append (front text : String) : stripPrefix front (front ++ text) = some text := by
  simp [stripPrefix, String.toList_append]

theorem stripPrefix_some {front text rest : String} (stripped : stripPrefix front text = some rest) :
    text = front ++ rest := by
  unfold stripPrefix at stripped
  split at stripped
  · next starts =>
    cases stripped
    obtain ⟨tail, whole⟩ := starts
    apply String.toList_injective
    rw [String.toList_append, String.toList_ofList, ← whole, List.drop_left]
  · cases stripped

theorem tokenOk_bytes (expected presented : String) :
    tokenOk expected (some ("Bearer " ++ presented)) = true ↔ bytes expected = bytes presented := by
  rw [← compare_equal]
  unfold tokenOk
  rw [Option.bind_some, stripPrefix_append]
  rfl

theorem tokenOk_iff {token : String} (some_token : token ≠ "") (authorization : Option String) :
    tokenOk token authorization = true ↔ authorization = some ("Bearer " ++ token) := by
  have absent : ∀ other : Option String, other.bind (stripPrefix "Bearer ") = none →
      tokenOk token other ≠ true := by
    intro other missing
    unfold tokenOk
    rw [missing]
    intro accepted
    exact some_token (bytes_injective ((compare_equal token "").mp accepted))
  constructor
  · intro accepted
    cases authorization with
    | none => exact absurd accepted (absent none rfl)
    | some header =>
      cases stripped : stripPrefix "Bearer " header with
      | none => exact absurd accepted (absent (some header) stripped)
      | some presented =>
        have whole := stripPrefix_some stripped
        rw [whole, tokenOk_bytes] at accepted
        rw [whole, bytes_injective accepted]
  · rintro rfl
    rw [tokenOk_bytes]

theorem controlToken_some {setting : Option String} {token : String}
    (configured : controlToken setting = some token) : token ≠ "" := by
  cases setting with
  | none => cases configured
  | some text =>
    unfold controlToken at configured
    dsimp only at configured
    split at configured
    · cases configured
    · next kept =>
      cases configured
      exact kept

/-- Without the token's header a request learns nothing but the lifecycle state. -/
theorem route_discloses :
    (∀ (setting : Option String) (token method path : String) (authorization : Option String)
      (s t : StatsSnapshot), controlToken setting = some token → s.state = t.state →
      ¬((method = "GET" ∨ method = "HEAD") ∧
        (beforeQuery path = "/stats" ∨ beforeQuery path = "/metrics") ∧
        authorization = some ("Bearer " ++ token)) →
      route sumSeconds method path authorization (some token) s =
        route sumSeconds method path authorization (some token) t) ∧
    ∀ expected presented : String,
      tokenOk expected (some ("Bearer " ++ presented)) = true ↔ bytes expected = bytes presented := by
  constructor
  · intro setting token method path authorization s t configured agree unauthorized
    unfold route
    by_cases reads : method ≠ "GET" ∧ method ≠ "HEAD"
    · rw [if_pos reads, if_pos reads]
    · have read : method = "GET" ∨ method = "HEAD" := by
        by_contra neither
        exact reads (not_or.mp neither)
      rw [if_neg reads, if_neg reads]
      dsimp only
      by_cases data : beforeQuery path = "/stats" ∨ beforeQuery path = "/metrics"
      · have refused : tokenOk token authorization = false := by
          rw [Bool.eq_false_iff]
          intro accepted
          exact unauthorized
            ⟨read, data, (tokenOk_iff (controlToken_some configured) authorization).mp accepted⟩
        have name : s.stateName = t.stateName := by simp [StatsSnapshot.stateName, agree]
        simp [data, refused, agree, name]
      · have name : s.stateName = t.stateName := by simp [StatsSnapshot.stateName, agree]
        simp [data, agree, name]
  · exact tokenOk_bytes

end Route

/-- A scrape with a wrong token, on a quiet server and on one that has served requests. -/
theorem wrong_token_learns_nothing :
    route toString "GET" "/stats?x=1" (some "Bearer s3cret0") (some "s3cret") (quiet tornSnapshot) =
      route toString "GET" "/stats?x=1" (some "Bearer s3cret0") (some "s3cret")
        { quiet tornSnapshot with served := 100, queued := 3 } := by
  apply (route_discloses toString).1 (some "s3cret") "s3cret"
  · rfl
  · rfl
  · rintro ⟨_, _, same⟩
    revert same
    decide

end KinoControlPlane
