import Kino.EnvSlots

/-!
What `build_env` (ext/kino/src/request.rs) sets for SERVER_NAME, SERVER_PORT and HTTP_HOST.
One hosts cache serves the whole process; its key is the URI authority, the first Host
header or the accepted socket's address. The http crate's `Authority::host` and
`Authority::port_u16` are parameters that read an authority's text.
-/
namespace KinoHostCache
open Transitions Ownership LruCache KinoPinSlab KinoEnvStrings KinoEnvCache KinoEnvSlots

/-- `u16::to_string`. -/
def decimal (port : UInt16) : Bytes :=
  (Nat.toDigits 10 port.toNat).map fun c => UInt8.ofNat c.toNat

def rsplitOnce (sep : UInt8) : Bytes → Option (Bytes × Bytes)
  | [] => none
  | b :: rest =>
    match rsplitOnce sep rest with
    | some (before, after) => some (b :: before, after)
    | none => if b = sep then some ([], rest) else none

def digitsValue : Nat → Bytes → Option Nat
  | n, [] => some n
  | n, b :: rest =>
    if 48 ≤ b ∧ b ≤ 57 then digitsValue (n * 10 + (b.toNat - 48)) rest else none

/-- `str::parse::<u16>`: a sign `+` is accepted, and there is at least one digit. -/
def parseU16 (text : Bytes) : Option UInt16 :=
  let digits := if text.head? = some 43 then text.tail else text
  if digits = [] then none
  else (digitsValue 0 digits).bind fun n => if n < 65536 then some (UInt16.ofNat n) else none

def splitHostPort (host : Bytes) (defaultPort : UInt16) : Bytes × UInt16 :=
  match rsplitOnce 58 host with
  | some (name, port) =>
    if name ≠ [] then
      match parseU16 port with
      | some p => (name, p)
      | none => (host, defaultPort)
    else (host, defaultPort)
  | none => (host, defaultPort)

def continues (b : UInt8) : Bool := b &&& 192 = 128

def secondOfThree (first second : UInt8) : Bool :=
  (first = 0xE0 ∧ 0xA0 ≤ second ∧ second ≤ 0xBF) ∨
  (0xE1 ≤ first ∧ first ≤ 0xEC ∧ 0x80 ≤ second ∧ second ≤ 0xBF) ∨
  (first = 0xED ∧ 0x80 ≤ second ∧ second ≤ 0x9F) ∨
  (0xEE ≤ first ∧ first ≤ 0xEF ∧ 0x80 ≤ second ∧ second ≤ 0xBF)

def secondOfFour (first second : UInt8) : Bool :=
  (first = 0xF0 ∧ 0x90 ≤ second ∧ second ≤ 0xBF) ∨
  (0xF1 ≤ first ∧ first ≤ 0xF3 ∧ 0x80 ≤ second ∧ second ≤ 0xBF) ∨
  (first = 0xF4 ∧ 0x80 ≤ second ∧ second ≤ 0x8F)

/-- Whether a character starts here, and how many bytes it, or the broken piece, has past the
    first. -/
def inspect (first : UInt8) (rest : Bytes) : Bool × Nat :=
  if first < 0x80 then (true, 0)
  else if 0xC2 ≤ first ∧ first ≤ 0xDF then
    if continues (rest.getD 0 0) then (true, 1) else (false, 0)
  else if 0xE0 ≤ first ∧ first ≤ 0xEF then
    if secondOfThree first (rest.getD 0 0) then
      if continues (rest.getD 1 0) then (true, 2) else (false, 1)
    else (false, 0)
  else if 0xF0 ≤ first ∧ first ≤ 0xF4 then
    if secondOfFour first (rest.getD 0 0) then
      if continues (rest.getD 1 0) then
        if continues (rest.getD 2 0) then (true, 3) else (false, 2)
      else (false, 1)
    else (false, 0)
  else (false, 0)

/-- The text as characters and broken pieces; `fuel` is at least the text's length. -/
def pieces : Nat → Bytes → List (Bool × Bytes)
  | 0, _ => []
  | _ + 1, [] => []
  | fuel + 1, b :: rest =>
    ((inspect b rest).1, b :: rest.take (inspect b rest).2) ::
      pieces fuel (rest.drop (inspect b rest).2)

/-- `str::from_utf8` succeeds. -/
def validUtf8 (text : Bytes) : Bool := (pieces text.length text).all Prod.fst

/-- `String::from_utf8_lossy`: U+FFFD for every broken piece. -/
def fromUtf8Lossy (text : Bytes) : Bytes :=
  (pieces text.length text).flatMap fun piece => if piece.1 then piece.2 else [0xEF, 0xBF, 0xBD]

theorem pieces_join {fuel : Nat} {text : Bytes} (enough : text.length ≤ fuel) :
    (pieces fuel text).flatMap Prod.snd = text := by
  induction fuel generalizing text with
  | zero =>
    have empty : text = [] := List.length_eq_zero_iff.mp (by omega)
    subst empty
    rfl
  | succ fuel ih =>
    cases text with
    | nil => rfl
    | cons b rest =>
      have shorter : (rest.drop (inspect b rest).2).length ≤ fuel := by
        simp only [List.length_cons, List.length_drop] at enough ⊢
        omega
      rw [pieces, List.flatMap_cons, ih shorter, List.cons_append, List.take_append_drop]

theorem lossy_valid {text : Bytes} (valid : validUtf8 text = true) : fromUtf8Lossy text = text := by
  unfold fromUtf8Lossy
  have whole := pieces_join (le_refl text.length)
  conv_rhs => rw [← whole]
  apply List.flatMap_congr
  intro piece here
  rw [if_pos (List.all_eq_true.mp valid piece here)]

theorem decimal_injective {a b : UInt16} (same : decimal a = decimal b) : a = b := by
  have back : ∀ n, ((Nat.toDigits 10 n).map fun c => UInt8.ofNat c.toNat).map
      (fun d : UInt8 => Char.ofNat d.toNat) = Nat.toDigits 10 n := by
    intro n
    rw [List.map_map]
    conv_rhs => rw [← List.map_id (Nat.toDigits 10 n)]
    apply List.map_congr_left
    intro c here
    have digit := Nat.isDigit_of_mem_toDigits (by omega) (by omega) here
    have small : c.toNat < 256 := by
      simp only [Char.isDigit, Bool.and_eq_true, decide_eq_true_eq] at digit
      have most := digit.2
      rw [UInt32.le_iff_toNat_le] at most
      exact lt_of_le_of_lt most (by decide)
    simp only [Function.comp_apply, id_eq, UInt8.toNat_ofNat', Nat.mod_eq_of_lt small]
    exact Char.ofNat_toNat c
  have digits := congrArg (List.map fun d : UInt8 => Char.ofNat d.toNat) same
  unfold decimal at digits
  rw [back, back] at digits
  have values := congrArg (fun l => Nat.ofDigitChars 10 l 0) digits
  simp only [Nat.ofDigitChars_ten_toDigits] at values
  exact UInt16.toNat_inj.mp values

variable {Ip : Type}

structure Request (Ip : Type) where
  authority : Option Bytes
  hosts : List Bytes
  localIp : Ip
  localPort : UInt16

section Derived
variable (authorityHost : Bytes → Bytes) (authorityPort : Bytes → Option UInt16)
  (ipString : Ip → Bytes)

def Request.cacheKey (r : Request Ip) : Bytes :=
  match r.authority, r.hosts with
  | some authority, _ => authority
  | none, host :: _ => host
  | none, [] => 0 :: (ipString r.localIp ++ 58 :: decimal r.localPort)

/-- The closure `make` of each of the three callers. -/
def Request.make (r : Request Ip) : Bytes × UInt16 :=
  match r.authority, r.hosts with
  | some authority, _ => (authorityHost authority, (authorityPort authority).getD r.localPort)
  | none, host :: _ =>
    if validUtf8 host then splitHostPort host r.localPort else (fromUtf8Lossy host, r.localPort)
  | none, [] => (ipString r.localIp, r.localPort)

def Request.op (r : Request Ip) : Op Ip :=
  let (name, port) := r.make authorityHost authorityPort ipString
  match r.authority with
  | some _ => .authority (r.cacheKey ipString) name (decimal port)
  | none => .host (r.cacheKey ipString) name (decimal port)

structure HostEnv where
  serverName : Bytes
  serverPort : Bytes
  httpHost : Option Bytes
  deriving DecidableEq, Repr

def hostHeader : List Bytes → Option Bytes
  | [] => none
  | first :: more => some (first ++ more.flatMap fun value => 44 :: 32 :: value)

def Request.env (r : Request Ip) (strings : List Bytes) : HostEnv where
  serverName := strings.getD 0 []
  serverPort := strings.getD 1 []
  httpHost :=
    match r.authority with
    | some _ => strings[2]?
    | none => hostHeader r.hosts

def hostPort (host : Bytes) : Option (Bytes × UInt16) :=
  if validUtf8 host then
    (rsplitOnce 58 host).bind fun (name, port) =>
      if name ≠ [] then (parseU16 port).map fun p => (name, p) else none
  else none

def Request.writtenPort (r : Request Ip) : Option UInt16 :=
  match r.authority, r.hosts with
  | some authority, _ => authorityPort authority
  | none, host :: _ => (hostPort host).map Prod.snd
  | none, [] => none

def Request.writtenName (r : Request Ip) : Bytes :=
  match r.authority, r.hosts with
  | some authority, _ => authorityHost authority
  | none, host :: _ => ((hostPort host).map Prod.fst).getD (fromUtf8Lossy host)
  | none, [] => ipString r.localIp

theorem make_written (r : Request Ip) :
    r.make authorityHost authorityPort ipString =
      (r.writtenName authorityHost ipString, (r.writtenPort authorityPort).getD r.localPort) := by
  unfold Request.make Request.writtenName Request.writtenPort
  cases r.authority with
  | some authority => rfl
  | none =>
    cases r.hosts with
    | nil => rfl
    | cons host more =>
      dsimp only
      unfold hostPort splitHostPort
      cases valid : validUtf8 host with
      | false => simp
      | true =>
        cases rsplitOnce 58 host with
        | none => simp [lossy_valid valid]
        | some parts =>
          obtain ⟨name, port⟩ := parts
          by_cases empty : name = []
          · simp [empty, lossy_valid valid]
          · cases given : parseU16 port <;> simp [empty, given, lossy_valid valid]

/-- Two requests with one cache key stand for one name and one port. -/
def Agree (a b : Request Ip) : Prop :=
  a.cacheKey ipString = b.cacheKey ipString →
    a.writtenName authorityHost ipString = b.writtenName authorityHost ipString ∧
    (a.writtenPort authorityPort).getD a.localPort = (b.writtenPort authorityPort).getD b.localPort

def served (requests : Set (Request Ip)) (op : Op Ip) : Prop :=
  op.cache = .hosts → ∃ r ∈ requests, op = r.op authorityHost authorityPort ipString

theorem op_key (r : Request Ip) :
    (r.op authorityHost authorityPort ipString).key = .host (r.cacheKey ipString) := by
  unfold Request.op
  cases r.authority <;> rfl

theorem op_cache (r : Request Ip) : (r.op authorityHost authorityPort ipString).cache = .hosts := by
  unfold Request.op
  cases r.authority <;> rfl

theorem op_want (r : Request Ip) : 2 ≤ (r.op authorityHost authorityPort ipString).want := by
  unfold Request.op
  cases r.authority <;> simp [Op.want]

theorem op_full (r : Request Ip) :
    (r.op authorityHost authorityPort ipString).full ipString =
      [r.writtenName authorityHost ipString,
        decimal ((r.writtenPort authorityPort).getD r.localPort), r.cacheKey ipString] := by
  unfold Request.op
  rw [make_written]
  cases r.authority <;> rfl

end Derived

theorem env_pair {r : Request Ip} {strings : List Bytes} {name port : Bytes}
    (pair : strings.take 2 = [name, port]) :
    (r.env strings).serverName = name ∧ (r.env strings).serverPort = port := by
  cases strings with
  | nil => simp at pair
  | cons first rest =>
    cases rest with
    | nil => simp at pair
    | cons second rest =>
      simp only [List.take_succ_cons, List.take_zero, List.cons.injEq] at pair
      exact ⟨pair.1, pair.2.1⟩

structure Alone (s : State Ip) : Prop where
  others : ∀ ρ, ρ ≠ 0 → s.pcs ρ = .idle
  empty : ∀ c, (s.caches c).entries = []

theorem alone_goto {s s' : State Ip} {pc : Pc Ip} (alone : Alone s) (pcs : s'.pcs = s.pcs)
    (caches : s'.caches = s.caches) : Alone (s'.goto 0 pc) := by
  constructor
  · intro ρ other
    rw [goto_pcs, if_neg other, pcs]
    exact alone.others ρ other
  · intro c
    change (s'.caches c).entries = []
    rw [caches]
    exact alone.empty c

theorem lock_free {s : State Ip} (locks : LockInv s) (outside : ∀ ρ, holds (s.pcs ρ) = none)
    (c : Cache) : s.lock c = none := by
  cases holder : s.lock c with
  | none => rfl
  | some ρ =>
    have inside : holds (s.pcs ρ) = some c := (locks c ρ).mp holder
    rw [outside ρ] at inside
    cases inside

theorem alone_free {s : State Ip} (alone : Alone s) (locks : LockInv s)
    (mine : holds (s.pcs 0) = none) (c : Cache) : s.lock c = none := by
  apply lock_free locks
  intro ρ
  by_cases same : ρ = 0
  · rw [same]
    exact mine
  · rw [alone.others ρ same]
    rfl

variable [DecidableEq Ip]

theorem alone_find {s : State Ip} (alone : Alone s) (c : Cache) (k : Key Ip) :
    (s.caches c).find k = none := by
  simp [Lru.find, alone.empty c]

section Filling
variable {ipString : Ip → Bytes} {known : Op Ip → Prop} {a : Op Ip}

theorem advance_unlock {s : State Ip} {ρ : Nat} (at_pc : s.pcs ρ = .dropping a []) :
    advance ipString s ρ = some ((s.setLock a.cache none).goto ρ (.done a (a.fresh ipString))) := by
  simp only [advance, at_pc]

theorem advance_finish {s : State Ip} {ρ : Nat} {strings : List Bytes}
    (at_pc : s.pcs ρ = .done a strings) : advance ipString s ρ = some (s.goto ρ .idle) := by
  simp only [advance, at_pc]

theorem alone_next {s s' : State Ip} {pc : Pc Ip}
    (reached : ReachableBy (system ipString cacheSlabCapacity) (callsKnown known) s)
    (moved : advance ipString s 0 = some (s'.goto 0 pc)) :
    ReachableBy (system ipString cacheSlabCapacity) (callsKnown known) (s'.goto 0 pc) ∧
      (s'.goto 0 pc).pcs 0 = pc := by
  constructor
  · have quiet : callsKnown known s (.step 0) := fun _ _ same => by cases same
    exact reached.next quiet moved
  · simp [State.goto]

theorem missed_reached (ipString : Ip → Bytes) (asked : known a) :
    ∃ s : State Ip, ReachableBy (system ipString cacheSlabCapacity) (callsKnown known) s ∧
      Alone s ∧ s.pcs 0 = .missed a := by
  have alone : Alone (initial cacheSlabCapacity : State Ip) := ⟨fun _ _ => rfl, fun _ => rfl⟩
  have permitted : callsKnown known (initial cacheSlabCapacity) (.call 0 a) := by
    intro ρ op same
    cases same
    exact asked
  have called : ReachableBy (system ipString cacheSlabCapacity) (callsKnown known)
      ((initial cacheSlabCapacity).goto 0 (.lookup a)) :=
    (ReachableBy.start rfl).next permitted (by simp [system, step, initial])
  have at_pc : ((initial cacheSlabCapacity).goto 0 (.lookup a)).pcs 0 = .lookup a := by
    simp [State.goto]
  have alone' : Alone ((initial cacheSlabCapacity).goto 0 (.lookup a)) := alone_goto alone rfl rfl
  have free := alone_free alone' (reachable_cache_inv called).locks (by rw [at_pc]; rfl) a.cache
  have moved : advance ipString ((initial cacheSlabCapacity).goto 0 (.lookup a)) 0 =
      some (((initial cacheSlabCapacity).goto 0 (.lookup a)).goto 0 (.missed a)) := by
    simp only [advance, at_pc, if_pos free, alone_find alone']
  obtain ⟨reached, there⟩ := alone_next called moved
  exact ⟨_, reached, alone_goto alone' rfl rfl, there⟩

theorem rooting_reached (ipString : Ip → Bytes) (asked : known a) {n : Nat} (few : n ≤ a.want) :
    ∃ (s : State Ip) (got : Entry),
      ReachableBy (system ipString cacheSlabCapacity) (callsKnown known) s ∧ Alone s ∧
      s.pcs 0 = .rooting a got ∧ got.length = n := by
  induction n with
  | zero =>
    obtain ⟨s, before, alone, at_pc⟩ := missed_reached ipString asked
    have free := alone_free alone (reachable_cache_inv before).locks (by rw [at_pc]; rfl) a.cache
    have moved : advance ipString s 0 =
        some ((s.setLock a.cache (some 0)).goto 0 (.rooting a [])) := by
      simp only [advance, at_pc, if_pos free, alone_find alone]
    obtain ⟨reached, there⟩ := alone_next before moved
    exact ⟨_, [], reached, alone_goto alone rfl rfl, there, rfl⟩
  | succ n ih =>
    obtain ⟨s, got, before, alone, at_pc, length⟩ := ih (by omega)
    have inv := reachable_cache_inv before
    obtain ⟨string, next⟩ : ∃ string, (a.fresh ipString)[got.length]? = some string :=
      ⟨_, List.getElem?_eq_getElem (by rw [fresh_length]; omega)⟩
    have about : inserting ipString (s.pcs 0) = some string := by rw [at_pc]; exact next
    have room := slab_room inv about
    rcases insert_cases s.slab string with ⟨i, _, eq⟩ | ⟨_, eq⟩
    · have moved : advance ipString s 0 = some ({ s with slab := pinned s.slab i string }.goto 0
          (.rooting a (got ++ [(⟨string, i⟩ : CachedStr)]))) := by
        simp only [advance, at_pc, next, eq]
        rfl
      obtain ⟨reached, there⟩ := alone_next before moved
      exact ⟨_, _, reached, alone_goto alone rfl rfl, there, by simp [length]⟩
    · rw [eq] at room
      exact absurd rfl room

theorem returned_reached (ipString : Ip → Bytes) (known : Op Ip → Prop) (asked : known a) :
    ∃ (s : State Ip) (e : Entry),
      ReachableBy (system ipString cacheSlabCapacity) (callsKnown known) s ∧
      (∀ ρ, ρ ≠ 0 → s.pcs ρ = .idle) ∧ s.pcs 0 = .done a (a.fresh ipString) ∧
      (s.caches a.cache).find a.key = some e := by
  obtain ⟨s, got, before, alone, at_pc, length⟩ :=
    rooting_reached ipString asked (le_refl a.want)
  have whole : (a.fresh ipString)[got.length]? = none := by
    rw [List.getElem?_eq_none_iff, fresh_length]
    omega
  have fits : ((s.caches a.cache).put a.key got).1 = none := by
    have room := (s.caches a.cache).room
    simp [Lru.put, Lru.without, alone.empty, room]
  have put : advance ipString s 0 = some ((s.setCache a.cache
      ((s.caches a.cache).put a.key got).2).goto 0 (.dropping a [])) := by
    simp only [advance, at_pc, whole, fits, Option.elim_none]
  obtain ⟨reached, there⟩ := alone_next before put
  obtain ⟨reached, there⟩ := alone_next reached (advance_unlock there)
  refine ⟨_, got, reached, ?_, there, ?_⟩
  · intro ρ other
    have was := alone.others ρ other
    simp [State.goto, State.setLock, State.setCache, other, was]
  · change (Function.update s.caches a.cache _ a.cache).find a.key = some got
    rw [Function.update_self, Lru.find_put, if_pos rfl]

theorem entry_reached (ipString : Ip → Bytes) (known : Op Ip → Prop) (asked : known a) :
    ∃ (s : State Ip) (e : Entry),
      ReachableBy (system ipString cacheSlabCapacity) (callsKnown known) s ∧
      (∀ ρ, s.pcs ρ = .idle) ∧ (s.caches a.cache).find a.key = some e := by
  obtain ⟨s, e, before, others, at_pc, found⟩ := returned_reached ipString known asked
  obtain ⟨reached, there⟩ := alone_next before (advance_finish at_pc)
  refine ⟨_, e, reached, ?_, found⟩
  intro ρ
  by_cases same : ρ = 0
  · rw [same, there]
  · rw [goto_pcs, if_neg same]
    exact others ρ same

theorem filling_reached {b : Op Ip} {s : State Ip} {e : Entry} {got : List Bytes}
    (before : ReachableBy (system ipString cacheSlabCapacity) (callsKnown known) s)
    (at_pc : s.pcs 0 = .half b got) (free : s.lock b.cache = none)
    (found : (s.caches b.cache).find b.key = some e) (short : e.length < b.want) :
    ∃ t : State Ip, ReachableBy (system ipString cacheSlabCapacity) (callsKnown known) t ∧
      t.pcs 0 = .filling b got := by
  have moved : advance ipString s 0 =
      some (((s.touch b).setLock b.cache (some 0)).goto 0 (.filling b got)) := by
    simp only [advance, at_pc, if_pos free, found, if_neg (Nat.not_le.mpr short)]
  exact ⟨_, alone_next before moved⟩

theorem filling_ends {b : Op Ip} {s t : State Ip} {ρ : Nat} {got : List Bytes}
    (at_pc : s.pcs ρ = .filling b got) (moved : advance ipString s ρ = some t) :
    ∃ host, t.pcs ρ = .done b (got ++ [host]) := by
  simp only [advance, at_pc] at moved
  split at moved
  · next e host found next =>
    rcases insert_cases s.slab host with ⟨i, _, eq⟩ | ⟨_, eq⟩ <;> simp only [eq] at moved <;>
      cases moved <;> exact ⟨host, by simp [State.goto]⟩
  · cases moved

theorem entry_served (ipString : Ip → Bytes) {b : Op Ip} {s : State Ip} {e : Entry}
    (before : ReachableBy (system ipString cacheSlabCapacity) (callsKnown known) s)
    (idle : ∀ ρ, s.pcs ρ = .idle) (asked : known b)
    (found : (s.caches b.cache).find b.key = some e) (pair : 2 ≤ b.want) (both : 2 ≤ e.length) :
    ∃ (t : State Ip) (strings : List Bytes),
      ReachableBy (system ipString cacheSlabCapacity) (callsKnown known) t ∧
      t.pcs 0 = .done b strings ∧ strings.take 2 = (bytesOf e).take 2 := by
  have permitted : callsKnown known s (.call 0 b) := by
    intro ρ op same
    cases same
    exact asked
  have called : ReachableBy (system ipString cacheSlabCapacity) (callsKnown known)
      (s.goto 0 (.lookup b)) := before.next permitted (by simp [system, step, idle])
  have at_pc : (s.goto 0 (.lookup b)).pcs 0 = .lookup b := by simp [State.goto]
  have free : ∀ c, s.lock c = none :=
    lock_free (reachable_cache_inv before).locks fun ρ => by rw [idle ρ]; rfl
  have free_call : (s.goto 0 (.lookup b)).lock b.cache = none := free b.cache
  have found_call : ((s.goto 0 (.lookup b)).caches b.cache).find b.key = some e := found
  by_cases enough : b.want ≤ e.length
  · have moved : advance ipString (s.goto 0 (.lookup b)) 0 = some
        (((s.goto 0 (.lookup b)).touch b).goto 0 (.done b ((bytesOf e).take b.want))) := by
      simp only [advance, at_pc, if_pos free_call, found_call, if_pos enough]
    obtain ⟨reached, there⟩ := alone_next called moved
    refine ⟨_, _, reached, there, ?_⟩
    rw [List.take_take, Nat.min_eq_left pair]
  · have halved : advance ipString (s.goto 0 (.lookup b)) 0 = some
        (((s.goto 0 (.lookup b)).touch b).goto 0 (.half b (bytesOf e))) := by
      simp only [advance, at_pc, if_pos free_call, found_call, if_neg enough]
    obtain ⟨reached, there⟩ := alone_next called halved
    obtain ⟨t, reached, filled⟩ := filling_reached reached there (free b.cache) (e := e)
      (by simpa [State.goto, touch_find] using found) (by omega)
    obtain ⟨u, moved⟩ := holder_advances (reachable_cache_inv reached).sourced (ρ := 0)
      (c := b.cache) (by rw [filled]; rfl)
    obtain ⟨host, ended⟩ := filling_ends filled moved
    have quiet : callsKnown known t (.step 0) := fun _ _ same => by cases same
    refine ⟨u, _, reached.next quiet moved, ended, ?_⟩
    rw [List.take_append_of_le_length (by rw [bytesOf_length]; exact both)]

end Filling

section Law
variable (authorityHost : Bytes → Bytes) (authorityPort : Bytes → Option UInt16)
  (ipString : Ip → Bytes)

theorem second_gets_first {requests : Set (Request Ip)} {a b : Request Ip} (first : a ∈ requests)
    (second : b ∈ requests) (same : a.cacheKey ipString = b.cacheKey ipString) :
    ∃ (s : State Ip) (strings : List Bytes),
      ReachableBy (system ipString cacheSlabCapacity)
        (callsKnown (served authorityHost authorityPort ipString requests)) s ∧
      s.pcs 0 = .done (b.op authorityHost authorityPort ipString) strings ∧
      strings.take 2 = [a.writtenName authorityHost ipString,
        decimal ((a.writtenPort authorityPort).getD a.localPort)] := by
  obtain ⟨s, e, reached, idle, found⟩ := entry_reached ipString
    (· = a.op authorityHost authorityPort ipString) rfl
  obtain ⟨_, rfl, _, _, stored⟩ := (reachable_cache_inv reached).sourced.entries _ _ _ found
  have key : (a.op authorityHost authorityPort ipString).key =
      (b.op authorityHost authorityPort ipString).key := by rw [op_key, op_key, same]
  have both : 2 ≤ e.length := by
    have few := stored.2
    unfold Request.op at few
    cases authority : a.authority <;> simpa [authority, least] using few
  have more : ReachableBy (system ipString cacheSlabCapacity)
      (callsKnown (served authorityHost authorityPort ipString requests)) s :=
    reached.weaken fun _ _ calls ρ op eq _ => ⟨a, first, calls ρ op eq⟩
  rw [key, key_cache key] at found
  obtain ⟨t, strings, arrived, done, pair⟩ := entry_served ipString more idle
    (fun _ => ⟨b, second, rfl⟩) found (op_want authorityHost authorityPort ipString b) both
  refine ⟨t, strings, arrived, done, ?_⟩
  rw [pair, stored_take stored both, op_full]
  rfl

/-- The hosts cache is invisible in every run exactly when no two requests of the process
    share a cache key and stand for different names or ports. -/
theorem host_cache_invisible (requests : Set (Request Ip)) :
    (∀ s, ReachableBy (system ipString cacheSlabCapacity)
        (callsKnown (served authorityHost authorityPort ipString requests)) s →
      ∀ ρ r strings, r ∈ requests →
        s.pcs ρ = .done (r.op authorityHost authorityPort ipString) strings →
        r.env strings = r.env ((r.op authorityHost authorityPort ipString).fresh ipString)) ↔
      ∀ a ∈ requests, ∀ b ∈ requests, Agree authorityHost authorityPort ipString a b := by
  constructor
  · intro invisible a first b second same
    obtain ⟨s, strings, reached, done, pair⟩ :=
      second_gets_first authorityHost authorityPort ipString first second same
    have uncached := invisible s reached 0 b strings second done
    have own : ((b.op authorityHost authorityPort ipString).fresh ipString).take 2 =
        [b.writtenName authorityHost ipString,
          decimal ((b.writtenPort authorityPort).getD b.localPort)] := by
      rw [Op.fresh, List.take_take, Nat.min_eq_left (op_want authorityHost authorityPort ipString b),
        op_full]
      rfl
    have got := env_pair (r := b) pair
    have want := env_pair (r := b) own
    rw [uncached] at got
    exact ⟨got.1.symm.trans want.1, decimal_injective (got.2.symm.trans want.2)⟩
  · intro agree s reached ρ r strings here done
    have mine := (reachable_cache_inv reached).sourced.pcs ρ
    rw [done] at mine
    obtain ⟨_, op, from_call, key, rfl⟩ := mine
    obtain ⟨q, asked, rfl⟩ := from_call (by rw [key_cache key, op_cache])
    rw [op_key, op_key] at key
    have same : q.cacheKey ipString = r.cacheKey ipString := by simpa using key
    obtain ⟨name, port⟩ := agree q asked r here same
    have full : (q.op authorityHost authorityPort ipString).full ipString =
        (r.op authorityHost authorityPort ipString).full ipString := by
      rw [op_full, op_full, name, port, same]
    rw [full]
    rfl

end Law

/-- The http crate's readings of an authority's text: the host without userinfo and port,
    and the port when it is a number in range. -/
def textHost (text : Bytes) : Bytes :=
  let after := (rsplitOnce 64 text).elim text Prod.snd
  if after.head? = some 91 then after.takeWhile (· ≠ 93) ++ [93] else after.takeWhile (· ≠ 58)

def textPort (text : Bytes) : Option UInt16 := (rsplitOnce 58 text).bind fun parts => parseU16 parts.2

abbrev Ipv4 := UInt8 × UInt8 × UInt8 × UInt8

def dotted : Ipv4 → Bytes
  | (a, b, c, d) => decimal a.toUInt16 ++ 46 :: decimal b.toUInt16 ++ 46 :: decimal c.toUInt16 ++
      46 :: decimal d.toUInt16

def plainHost (port : UInt16) : Request Ipv4 :=
  ⟨none, [[97]], (127, 0, 0, 1), port⟩

/-- Host `a` on port 9090 after Host `a` on port 8080: SERVER_PORT is 8080. -/
theorem other_servers_port :
    ¬∀ s, ReachableBy (system dotted cacheSlabCapacity)
        (callsKnown (served textHost textPort dotted Set.univ)) s →
      ∀ ρ (r : Request Ipv4) strings, s.pcs ρ = .done (r.op textHost textPort dotted) strings →
        r.env strings = r.env ((r.op textHost textPort dotted).fresh dotted) := by
  intro invisible
  obtain ⟨s, strings, reached, done, pair⟩ := second_gets_first textHost textPort dotted
    (Set.mem_univ (plainHost 8080)) (Set.mem_univ (plainHost 9090)) rfl
  have got := env_pair (r := plainHost 9090) pair
  rw [invisible s reached 0 _ strings done] at got
  exact absurd got.2 (by decide)

end KinoHostCache
