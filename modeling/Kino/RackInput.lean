import Kino.RequestBody

/-!
rack.input: `Input` over the chunks that `read_body` gives (lib/kino/input.rb), the shared
`NullInput` (lib/kino/null_input.rb), and a binary in-memory IO to compare them with. A
string is its bytes; a caller's buffer also has an encoding.
-/
namespace KinoRackInput
open KinoRequestBody

def chunkSize : Nat := 65536

def newline : UInt8 := 10

inductive Encoding where
  | binary
  | other
  deriving DecidableEq, Repr

structure Buffer where
  bytes : Bytes
  encoding : Encoding
  deriving DecidableEq, Repr

inductive Op where
  | read (length : Option Nat) (buffer : Option Buffer)
  | gets
  | each
  deriving DecidableEq, Repr

/-- What a call returned and left in the caller's buffer, or what `each` yielded. -/
inductive Result where
  | value (string : Option Bytes) (buffer : Option Buffer)
  | yielded (chunks : List Bytes)
  deriving DecidableEq, Repr

/-- `buffer.clear.force_encoding(BINARY)` and the bytes appended to it. -/
def reply (buffer : Option Buffer) (string : Option Bytes) : Result :=
  .value string (buffer.map fun _ => ⟨string.getD [], .binary⟩)

/-- `chunks` are the answers of `read_body` to come, before its `nil`. -/
structure Input where
  chunks : List Bytes
  buffer : Bytes
  eof : Bool
  deriving DecidableEq, Repr

def Input.new (chunks : List Bytes) : Input := ⟨chunks, [], false⟩

def Input.pull (s : Input) : Input :=
  if s.eof then s
  else
    match s.chunks with
    | [] => { s with eof := true }
    | chunk :: rest => { s with chunks := rest, buffer := s.buffer ++ chunk }

def Input.pullsLeft (s : Input) : Nat := if s.eof then 0 else s.chunks.length + 1

theorem pull_pullsLeft {s : Input} (more : s.eof = false) : s.pull.pullsLeft < s.pullsLeft := by
  cases chunks : s.chunks with
  | nil => simp [Input.pull, Input.pullsLeft, more, chunks]
  | cons chunk rest => simp [Input.pull, Input.pullsLeft, more, chunks]

/-- `pull while more && !@eof`. -/
def Input.pullWhile (more : Bytes → Bool) (s : Input) : Input :=
  if more s.buffer = true ∧ s.eof = false then s.pull.pullWhile more else s
termination_by s.pullsLeft
decreasing_by exact pull_pullsLeft (by simp_all)

def Input.fill (length : Nat) (s : Input) : Input := s.pullWhile fun buffer => buffer.length < length

def Input.fillAll (s : Input) : Input := s.pullWhile fun _ => true

def Input.fillUntilNewline (s : Input) : Input := s.pullWhile fun buffer => !buffer.contains newline

/-- The string that `read` returns. -/
def Input.read (s : Input) : Option Nat → Option Bytes × Input
  | none => (some s.fillAll.buffer, { s.fillAll with buffer := [] })
  | some length =>
    if (s.fill length).buffer = [] ∧ 0 < length then (none, s.fill length)
    else (some ((s.fill length).buffer.take length),
      { s.fill length with buffer := (s.fill length).buffer.drop length })

def splitLine (bytes : Bytes) : Bytes × Bytes :=
  match bytes.idxOf? newline with
  | some index => (bytes.take (index + 1), bytes.drop (index + 1))
  | none => (bytes, [])

def Input.gets (s : Input) : Option Bytes × Input :=
  if s.fillUntilNewline.buffer = [] then (none, s.fillUntilNewline)
  else (some (splitLine s.fillUntilNewline.buffer).1,
    { s.fillUntilNewline with buffer := (splitLine s.fillUntilNewline.buffer).2 })

/-- The bytes that `read_body` has yet to give. -/
def Input.ahead (s : Input) : Bytes := if s.eof then [] else s.chunks.flatten

def Input.remaining (s : Input) : Bytes := s.buffer ++ s.ahead

theorem pull_remaining (s : Input) : s.pull.remaining = s.remaining := by
  unfold Input.pull Input.remaining Input.ahead
  by_cases done : s.eof = true
  · simp [done]
  · cases chunks : s.chunks with
    | nil => simp [done]
    | cons chunk rest => simp [done]

theorem pullWhile_remaining (more : Bytes → Bool) (s : Input) :
    (s.pullWhile more).remaining = s.remaining := by
  induction s using Input.pullWhile.induct more with
  | case1 s going ih =>
    rw [Input.pullWhile, if_pos going, ih, pull_remaining]
  | case2 s stopped => rw [Input.pullWhile, if_neg stopped]

theorem pullWhile_stops (more : Bytes → Bool) (s : Input) :
    more (s.pullWhile more).buffer = false ∨ (s.pullWhile more).ahead = [] := by
  induction s using Input.pullWhile.induct more with
  | case1 s going ih =>
    rw [Input.pullWhile, if_pos going]
    exact ih
  | case2 s stopped =>
    rw [Input.pullWhile, if_neg stopped]
    cases again : more s.buffer with
    | false => exact .inl rfl
    | true =>
      have done : s.eof = true := by simpa [again] using stopped
      exact .inr (by simp [Input.ahead, done])

def memRead (left : Bytes) : Option Nat → Option Bytes × Bytes
  | none => (some left, [])
  | some length =>
    if left = [] ∧ 0 < length then (none, [])
    else (some (left.take length), left.drop length)

def memGets (left : Bytes) : Option Bytes × Bytes :=
  if left = [] then (none, []) else (some (splitLine left).1, (splitLine left).2)

def memEach (left : Bytes) : List Bytes :=
  if left = [] then [] else left.take chunkSize :: memEach (left.drop chunkSize)
termination_by left.length
decreasing_by
  have occupied := List.length_pos_iff.mpr ‹¬left = []›
  simp [chunkSize]
  omega

theorem fill_enough (s : Input) (length : Nat) :
    length ≤ (s.fill length).buffer.length ∨ (s.fill length).ahead = [] := by
  rcases pullWhile_stops (fun buffer => buffer.length < length) s with enough | all
  · left
    simp only [decide_eq_false_iff_not, Nat.not_lt] at enough
    exact enough
  · exact .inr all

theorem cut_remaining {f : Input} {n : Nat} (enough : n ≤ f.buffer.length ∨ f.ahead = []) :
    f.buffer.take n = f.remaining.take n ∧
    ({ f with buffer := f.buffer.drop n } : Input).remaining = f.remaining.drop n := by
  change _ ∧ f.buffer.drop n ++ f.ahead = _
  unfold Input.remaining
  rcases enough with held | all
  · rw [List.take_append_of_le_length held, List.drop_append_of_le_length held]
    exact ⟨rfl, rfl⟩
  · rw [all, List.append_nil, List.append_nil]
    exact ⟨rfl, rfl⟩

theorem read_mem (s : Input) (length : Option Nat) :
    (s.read length).1 = (memRead s.remaining length).1 ∧
    (s.read length).2.remaining = (memRead s.remaining length).2 := by
  cases length with
  | none =>
    have whole : s.fillAll.remaining = s.remaining := pullWhile_remaining _ s
    have all : s.fillAll.ahead = [] := (pullWhile_stops (fun _ => true) s).resolve_left (by simp)
    rw [Input.remaining, all, List.append_nil] at whole
    refine ⟨by simp [Input.read, memRead, whole], ?_⟩
    change [] ++ s.fillAll.ahead = []
    rw [all, List.append_nil]
  | some n =>
    have whole : (s.fill n).remaining = s.remaining := pullWhile_remaining _ s
    have enough := fill_enough s n
    obtain ⟨piece, rest⟩ := cut_remaining enough
    rw [whole] at piece rest
    have empty : (s.fill n).buffer = [] ∧ 0 < n ↔ s.remaining = [] ∧ 0 < n := by
      constructor
      · rintro ⟨none_held, positive⟩
        have all := enough.resolve_left (by simp [none_held]; omega)
        refine ⟨?_, positive⟩
        rw [← whole, Input.remaining, none_held, all]
        rfl
      · rintro ⟨none_left, positive⟩
        rw [← whole, Input.remaining] at none_left
        exact ⟨(List.append_eq_nil_iff.mp none_left).1, positive⟩
    simp only [Input.read, memRead]
    by_cases at_end : s.remaining = [] ∧ 0 < n
    · rw [if_pos (empty.mpr at_end), if_pos at_end]
      exact ⟨rfl, whole.trans at_end.1⟩
    · rw [if_neg (empty.not.mpr at_end), if_neg at_end]
      exact ⟨congrArg some piece, rest⟩

theorem first_newline {bytes : Bytes} (here : newline ∈ bytes) :
    ∃ index, index < bytes.length ∧ ∀ rest, (bytes ++ rest).idxOf? newline = some index := by
  induction bytes with
  | nil => cases here
  | cons byte bytes ih =>
    by_cases same : byte = newline
    · exact ⟨0, by simp, fun rest => by simp [List.idxOf?_cons, same]⟩
    · have later : newline ∈ bytes := by
        rcases List.mem_cons.mp here with rfl | later
        · exact absurd rfl same
        · exact later
      obtain ⟨index, inside, found⟩ := ih later
      refine ⟨index + 1, by simpa using inside, fun rest => ?_⟩
      have after := found rest
      simp only [List.cons_append, List.idxOf?_cons, beq_iff_eq, same, if_false, after, Option.map_some]

theorem splitLine_append {bytes : Bytes} (here : newline ∈ bytes) (rest : Bytes) :
    splitLine (bytes ++ rest) = ((splitLine bytes).1, (splitLine bytes).2 ++ rest) := by
  obtain ⟨index, inside, found⟩ := first_newline here
  have alone := found []
  rw [List.append_nil] at alone
  simp only [splitLine, found rest, alone]
  rw [List.take_append_of_le_length (by omega), List.drop_append_of_le_length (by omega)]

theorem gets_mem (s : Input) :
    s.gets.1 = (memGets s.remaining).1 ∧ s.gets.2.remaining = (memGets s.remaining).2 := by
  have whole : s.fillUntilNewline.remaining = s.remaining := pullWhile_remaining _ s
  have stops := pullWhile_stops (fun buffer => !buffer.contains newline) s
  change (!s.fillUntilNewline.buffer.contains newline) = false ∨ s.fillUntilNewline.ahead = [] at stops
  have line : splitLine s.remaining =
      ((splitLine s.fillUntilNewline.buffer).1,
        (splitLine s.fillUntilNewline.buffer).2 ++ s.fillUntilNewline.ahead) := by
    rw [← whole, Input.remaining]
    rcases stops with found | all
    · exact splitLine_append (by simpa using found) _
    · rw [all, List.append_nil, List.append_nil]
  have empty : s.fillUntilNewline.buffer = [] ↔ s.remaining = [] := by
    rw [← whole, Input.remaining]
    constructor
    · intro none_held
      rw [none_held] at stops
      rw [none_held, stops.resolve_left (by simp)]
      rfl
    · exact fun none_left => (List.append_eq_nil_iff.mp none_left).1
  unfold Input.gets memGets
  by_cases at_end : s.remaining = []
  · rw [if_pos (empty.mpr at_end), if_pos at_end]
    exact ⟨rfl, whole.trans at_end⟩
  · rw [if_neg (empty.not.mpr at_end), if_neg at_end, line]
    exact ⟨rfl, rfl⟩

theorem memRead_chunk (left : Bytes) :
    memRead left (some chunkSize) =
      if left = [] then (none, []) else (some (left.take chunkSize), left.drop chunkSize) := by
  have positive : 0 < chunkSize := by decide
  simp [memRead, positive]

theorem read_shrinks {s s' : Input} {chunk : Bytes} (got : s.read (some chunkSize) = (some chunk, s')) :
    s'.remaining.length < s.remaining.length := by
  obtain ⟨piece, rest⟩ := read_mem s (some chunkSize)
  rw [got, memRead_chunk] at piece rest
  have positive : 0 < chunkSize := by decide
  by_cases at_end : s.remaining = []
  · simp [at_end] at piece
  · have occupied := List.length_pos_iff.mpr at_end
    rw [if_neg at_end] at rest
    simp only [rest, List.length_drop]
    omega

/-- `each`: what it yields, and the input after it. -/
def Input.each (s : Input) : List Bytes × Input :=
  match _got : s.read (some chunkSize) with
  | (none, s') => ([], s')
  | (some chunk, s') => (chunk :: s'.each.1, s'.each.2)
termination_by s.remaining.length
decreasing_by all_goals exact read_shrinks _got

theorem each_mem (s : Input) : s.each.1 = memEach s.remaining ∧ s.each.2.remaining = [] := by
  induction s using Input.each.induct with
  | case1 s s' got =>
    obtain ⟨piece, rest⟩ := read_mem s (some chunkSize)
    rw [got, memRead_chunk] at piece rest
    by_cases at_end : s.remaining = []
    · rw [if_pos at_end] at rest
      rw [Input.each, memEach, if_pos at_end]
      split
      · next got' =>
        cases got.symm.trans got'
        exact ⟨rfl, rest⟩
      · next got' => cases got.symm.trans got'
    · simp [at_end] at piece
  | case2 s chunk s' got ih =>
    obtain ⟨piece, rest⟩ := read_mem s (some chunkSize)
    rw [got, memRead_chunk] at piece rest
    by_cases at_end : s.remaining = []
    · simp [at_end] at piece
    · rw [if_neg at_end] at piece rest
      rw [Input.each, memEach, if_neg at_end]
      split
      · next got' => cases got.symm.trans got'
      · next got' =>
        cases got.symm.trans got'
        simp only [Option.some.injEq] at piece rest
        rw [ih.1, ih.2, rest, piece]
        exact ⟨rfl, rfl⟩

def Input.call (s : Input) : Op → Result × Input
  | .read length buffer => (reply buffer (s.read length).1, (s.read length).2)
  | .gets => (.value s.gets.1 none, s.gets.2)
  | .each => (.yielded s.each.1, s.each.2)

def Input.calls (s : Input) : List Op → List Result × Input
  | [] => ([], s)
  | op :: ops => ((s.call op).1 :: ((s.call op).2.calls ops).1, ((s.call op).2.calls ops).2)

def memCall (left : Bytes) : Op → Result × Bytes
  | .read length buffer => (reply buffer (memRead left length).1, (memRead left length).2)
  | .gets => (.value (memGets left).1 none, (memGets left).2)
  | .each => (.yielded (memEach left), [])

def memCalls (left : Bytes) : List Op → List Result × Bytes
  | [] => ([], left)
  | op :: ops => ((memCall left op).1 :: (memCalls (memCall left op).2 ops).1,
      (memCalls (memCall left op).2 ops).2)

/-- `NullInput`: permanently at the end. -/
def nullRead (length : Option Nat) : Option Bytes :=
  if length = none ∨ length = some 0 then some [] else none

def nullCall : Op → Result
  | .read length buffer => reply buffer (nullRead length)
  | .gets => .value none none
  | .each => .yielded []

theorem call_mem (s : Input) (op : Op) :
    (s.call op).1 = (memCall s.remaining op).1 ∧ (s.call op).2.remaining = (memCall s.remaining op).2 := by
  cases op with
  | read length buffer =>
    obtain ⟨piece, rest⟩ := read_mem s length
    exact ⟨congrArg (reply buffer) piece, rest⟩
  | gets =>
    obtain ⟨line, rest⟩ := gets_mem s
    exact ⟨congrArg (Result.value · none) line, rest⟩
  | each =>
    obtain ⟨pieces, rest⟩ := each_mem s
    exact ⟨congrArg Result.yielded pieces, rest⟩

theorem calls_mem (s : Input) (ops : List Op) :
    (s.calls ops).1 = (memCalls s.remaining ops).1 ∧
    (s.calls ops).2.remaining = (memCalls s.remaining ops).2 := by
  induction ops generalizing s with
  | nil => exact ⟨rfl, rfl⟩
  | cons op ops ih =>
    obtain ⟨first, rest⟩ := call_mem s op
    obtain ⟨later, after⟩ := ih (s.call op).2
    rw [rest] at later after
    constructor
    · simp only [Input.calls, memCalls, first, later]
    · exact after

def Result.bytes : Result → Bytes
  | .value string _ => string.getD []
  | .yielded chunks => chunks.flatten

def Result.isNil : Result → Bool
  | .value none _ => true
  | _ => false

theorem splitLine_join (bytes : Bytes) : (splitLine bytes).1 ++ (splitLine bytes).2 = bytes := by
  unfold splitLine
  split <;> simp

theorem memEach_join (left : Bytes) : (memEach left).flatten = left := by
  induction left using memEach.induct with
  | case1 => simp [memEach]
  | case2 left occupied ih =>
    rw [memEach, if_neg occupied, List.flatten_cons, ih, List.take_append_drop]

theorem memCall_join (left : Bytes) (op : Op) :
    (memCall left op).1.bytes ++ (memCall left op).2 = left := by
  cases op with
  | read length buffer =>
    change ((memRead left length).1.getD []) ++ (memRead left length).2 = left
    cases length with
    | none => simp [memRead]
    | some n =>
      simp only [memRead]
      split
      · next at_end => simp [at_end.1]
      · simp
  | gets =>
    change ((memGets left).1.getD []) ++ (memGets left).2 = left
    unfold memGets
    split
    · next at_end => simp [at_end]
    · exact splitLine_join left
  | each =>
    change (memEach left).flatten ++ [] = left
    rw [memEach_join, List.append_nil]

theorem memCalls_join (left : Bytes) (ops : List Op) :
    ((memCalls left ops).1.map Result.bytes).flatten ++ (memCalls left ops).2 = left := by
  induction ops generalizing left with
  | nil => rfl
  | cons op ops ih =>
    simp only [memCalls, List.map_cons, List.flatten_cons, List.append_assoc]
    rw [ih, memCall_join]

theorem memCall_nil {left : Bytes} {op : Op} (none_given : (memCall left op).1.isNil = true) : left = [] := by
  cases op with
  | read length buffer =>
    cases length with
    | none => cases none_given
    | some n =>
      by_contra some_left
      simp [memCall, memRead, some_left, reply, Result.isNil] at none_given
  | gets =>
    by_contra some_left
    simp [memCall, memGets, some_left, Result.isNil] at none_given
  | each => cases none_given

theorem memCall_empty (op : Op) : memCall [] op = (nullCall op, []) := by
  cases op with
  | read length buffer =>
    cases length with
    | none => rfl
    | some n => cases n <;> rfl
  | gets => rfl
  | each => simp [memCall, memEach, nullCall]

theorem memCalls_empty (ops : List Op) : (memCalls [] ops).1 = ops.map nullCall := by
  induction ops with
  | nil => rfl
  | cons op ops ih => simp only [memCalls, memCall_empty, List.map_cons, ih]

/-- The calls on an `Input` give what an in-memory IO gives, piece after piece and `nil` only
    at the end, and on an empty body what `NullInput` gives. -/
structure InputLaw (chunks : List Bytes) (ops : List Op) : Prop where
  memory : ((Input.new chunks).calls ops).1 = (memCalls chunks.flatten ops).1
  consecutive : ∃ rest, (((Input.new chunks).calls ops).1.map Result.bytes).flatten ++ rest = chunks.flatten
  nil_at_end : ∀ op, (((Input.new chunks).calls ops).2.call op).1.isNil = true →
    (((Input.new chunks).calls ops).1.map Result.bytes).flatten = chunks.flatten
  null : chunks.flatten = [] → ((Input.new chunks).calls ops).1 = ops.map nullCall

theorem input_is_memory_io (chunks : List Bytes) (ops : List Op) : InputLaw chunks ops := by
  obtain ⟨results, rest⟩ := calls_mem (Input.new chunks) ops
  change _ = (memCalls chunks.flatten ops).1 at results
  change _ = (memCalls chunks.flatten ops).2 at rest
  have joined := memCalls_join chunks.flatten ops
  rw [← results] at joined
  refine ⟨results, ⟨_, joined⟩, ?_, ?_⟩
  · intro op none_given
    rw [(call_mem _ op).1, rest] at none_given
    have at_end := memCall_nil none_given
    rw [at_end, List.append_nil] at joined
    exact joined
  · intro empty
    rw [results, empty]
    exact memCalls_empty ops

end KinoRackInput
