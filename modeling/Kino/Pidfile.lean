import Kino.Transitions

/-!
Kino processes with one pidfile (lib/kino/server.rb): `write_pidfile`, `claim_pidfile`,
`refuse_unless_stale`, `process_alive?` and `remove_pidfile`. Each operation on the file
system and the liveness probe is one step. A directory entry is numbered when it is created,
so that an entry made later at the same path is another entry. A process is its pid, which
may be given out again after its death.
-/
namespace KinoPidfile
open Transitions

abbrev Text := List Char

def space (c : Char) : Bool := c = ' ' || (9 ≤ c.toNat && c.toNat ≤ 13) || c.toNat = 0

/-- `String#strip`. -/
def strip (text : Text) : Text := ((text.dropWhile space).reverse.dropWhile space).reverse

def digitValue (c : Char) : Option Nat :=
  if c.isDigit then some (c.toNat - 48)
  else if c.isLower then some (c.toNat - 87)
  else if c.isUpper then some (c.toNat - 55)
  else none

/-- Digits of a base, with at most one underscore between two of them; `due` says that a
    digit has to come next. -/
def digits (base : Nat) : Bool → Nat → Text → Option Nat
  | due, n, [] => if due then none else some n
  | due, n, c :: rest =>
    if c = '_' then
      if due then none else digits base true n rest
    else
      match digitValue c with
      | some d => if d < base then digits base false (base * n + d) rest else none
      | none => none

def magnitude (text : Text) : Option Nat :=
  match text with
  | '0' :: c :: rest =>
    if c = 'x' ∨ c = 'X' then digits 16 true 0 rest
    else if c = 'b' ∨ c = 'B' then digits 2 true 0 rest
    else if c = 'o' ∨ c = 'O' then digits 8 true 0 rest
    else if c = 'd' ∨ c = 'D' then digits 10 true 0 rest
    else digits 8 true 0 ('0' :: c :: rest)
  | _ => digits 10 true 0 text

/-- `Integer(text, exception: false)` of a text without blanks around it. -/
def integer (text : Text) : Option Int :=
  match text with
  | '-' :: rest => (magnitude rest).map fun n => -(n : Int)
  | '+' :: rest => (magnitude rest).map fun n => (n : Int)
  | _ => (magnitude text).map fun n => (n : Int)

def holds (content : Text) : Option Nat :=
  match integer (strip content) with
  | some pid => if 0 < pid then some pid.toNat else none
  | none => none

def pidText (p : Nat) : Text := Nat.toDigits 10 p ++ ['\n']

/-- A process at the pidfile. `writing` has created its entry; `probing` has read a pid from
    an entry; `unlinking` has judged an entry stale, or found none to judge; from `running`
    on its content is written, and `checking` and `removing` are `remove_pidfile`. -/
inductive Pc where
  | dead
  | idle
  | opening
  | reading
  | probing (seen pid : Nat)
  | unlinking (seen : Option Nat)
  | reopening
  | writing (own : Nat)
  | running (own : Nat)
  | checking (own : Nat)
  | removing (own : Nat)
  deriving DecidableEq, Repr

/-- `others` are the live processes that are not Kino's. -/
structure State where
  path : Option Nat
  entries : Nat
  content : Nat → Text
  others : Nat → Bool
  pcs : Nat → Pc

inductive Label where
  | boot (p : Nat)
  | start (p : Nat)
  | openExcl (p : Nat)
  | write (p : Nat)
  | read (p : Nat)
  | kill (p : Nat)
  | unlink (p : Nat)
  | stop (p : Nat)
  | fail (p : Nat)
  | die (p : Nat)
  | other (p : Nat) (here : Bool)
  deriving DecidableEq, Repr

def State.goto (s : State) (p : Nat) (pc : Pc) : State :=
  { s with pcs := Function.update s.pcs p pc }

def State.created (s : State) : State :=
  { s with path := some s.entries, entries := s.entries + 1,
           content := Function.update s.content s.entries [] }

def State.written (s : State) (e : Nat) (text : Text) : State :=
  { s with content := Function.update s.content e text }

def State.unlinked (s : State) : State := { s with path := none }

/-- `Process.kill(0, pid)` finds a process. -/
def State.alive (s : State) (pid : Nat) : Bool := s.pcs pid ≠ .dead || s.others pid

/-- `fail` is any other error on the way, which ends the start or the stop. -/
def step (s : State) : Label → Option State
  | .boot p =>
    if 0 < p ∧ s.pcs p = .dead ∧ s.others p = false then some (s.goto p .idle) else none
  | .start p => if s.pcs p = .idle then some (s.goto p .opening) else none
  | .openExcl p =>
    match s.pcs p, s.path with
    | .opening, none | .reopening, none => some (s.created.goto p (.writing s.entries))
    | .opening, some _ => some (s.goto p .reading)
    | .reopening, some _ => some (s.goto p .idle)
    | _, _ => none
  | .write p =>
    match s.pcs p with
    | .writing own => some ((s.written own (pidText p)).goto p (.running own))
    | _ => none
  | .read p =>
    match s.pcs p, s.path with
    | .reading, none => some (s.goto p (.unlinking none))
    | .reading, some e =>
      match holds (s.content e) with
      | some pid => some (s.goto p (.probing e pid))
      | none => some (s.goto p .idle)
    | .checking _, none => some (s.goto p .idle)
    | .checking own, some e =>
      if s.content e = pidText p then some (s.goto p (.removing own)) else some (s.goto p .idle)
    | _, _ => none
  | .kill p =>
    match s.pcs p with
    | .probing seen pid =>
      if s.alive pid then some (s.goto p .idle) else some (s.goto p (.unlinking (some seen)))
    | _ => none
  | .unlink p =>
    match s.pcs p with
    | .unlinking _ => some (s.unlinked.goto p .reopening)
    | .removing _ => some (s.unlinked.goto p .idle)
    | _ => none
  | .stop p =>
    match s.pcs p with
    | .running own => some (s.goto p (.checking own))
    | _ => none
  | .fail p =>
    match s.pcs p with
    | .dead | .idle | .running _ => none
    | _ => some (s.goto p .idle)
  | .die p => if s.pcs p = .dead then none else some (s.goto p .dead)
  | .other p here =>
    if s.pcs p = .dead then some { s with others := Function.update s.others p here } else none

/-- At first no Kino process lives, and the path is free or has an entry of any content; a
    pidfile with a live holder is reached from here. -/
def initial (content : Option Text) (others : Nat → Bool) : State where
  path := content.map fun _ => 0
  entries := 1
  content := fun _ => content.getD []
  others := others
  pcs := fun _ => .dead

def system : System State Label where
  start s := ∃ content others, s = initial content others
  step := step

def claim : Pc → Option Nat
  | .writing own | .running own | .checking own | .removing own => some own
  | _ => none

def unlinks (s : State) : Label → Option (Nat × Nat)
  | .unlink p =>
    match s.pcs p with
    | .unlinking _ | .removing _ => s.path.map fun e => (p, e)
    | _ => none
  | _ => none

def sameEntry (s : State) : Label → Bool
  | .unlink p =>
    match s.pcs p with
    | .unlinking seen => s.path = none || s.path = seen
    | .removing own => s.path = none || s.path = some own
    | _ => true
  | _ => true

theorem digit_not_space {c : Char} (digit : c.isDigit = true) : space c = false := by
  have range := Char.isDigit_iff_toNat.mp digit
  have low : 48 ≤ c.toNat := range.1
  have high : c.toNat ≤ 57 := range.2
  have blank : c ≠ ' ' := by
    rintro rfl
    exact absurd low (by decide)
  simp only [space, blank, decide_false, Bool.false_or, Bool.or_eq_false_iff, Bool.and_eq_false_iff,
    decide_eq_false_iff_not]
  omega

/-- A text that begins and ends with a digit has nothing to strip but the newline after it. -/
theorem strip_line {text : Text} (text_digits : ∀ c ∈ text, c.isDigit = true) :
    strip (text ++ ['\n']) = text := by
  have kept : ∀ {l : Text}, (∀ c ∈ l, c.isDigit = true) → l.dropWhile space = l := by
    intro l all
    cases l with
    | nil => rfl
    | cons c l => simp [digit_not_space (all c (by simp))]
  have front : (text ++ ['\n']).dropWhile space = text ++ ['\n'] ∨ text = [] := by
    cases text with
    | nil => exact .inr rfl
    | cons c l => exact .inl (by simp [digit_not_space (text_digits c (by simp))])
  unfold strip
  rcases front with front | rfl
  · rw [front, List.reverse_append, List.reverse_singleton, List.singleton_append]
    have newline : space '\n' = true := by decide
    rw [List.dropWhile_cons_of_pos newline, kept (by simpa using text_digits), List.reverse_reverse]
  · decide

theorem digits_decimal {text : Text} {due : Bool} {n : Nat}
    (text_digits : ∀ c ∈ text, c.isDigit = true) (some_there : due = false ∨ text ≠ []) :
    digits 10 due n text = some (Nat.ofDigitChars 10 text n) := by
  induction text generalizing due n with
  | nil =>
    rcases some_there with rfl | absent
    · simp [digits]
    · exact absurd rfl absent
  | cons c text ih =>
    have digit := text_digits c (by simp)
    have range := Char.isDigit_iff_toNat.mp digit
    have high : c.toNat ≤ 57 := range.2
    have plain : c ≠ '_' := by
      rintro rfl
      exact absurd digit (by decide)
    have small : c.toNat - 48 < 10 := by omega
    simp only [digits, if_neg plain, digitValue, digit, if_true, if_pos small]
    rw [ih (fun d here => text_digits d (by simp [here])) (.inl rfl), Nat.ofDigitChars_cons]
    rfl

theorem head_toDigits {p : Nat} (positive : 0 < p) :
    ∃ c rest, Nat.toDigits 10 p = c :: rest ∧ c ≠ '0' := by
  induction p using Nat.strongRecOn with
  | ind p ih =>
    by_cases single : p < 10
    · refine ⟨p.digitChar, [], Nat.toDigits_of_lt_base single, ?_⟩
      interval_cases p <;> decide
    · obtain ⟨c, rest, digits, nonzero⟩ := ih (p / 10) (by omega) (by omega)
      refine ⟨c, rest ++ [Nat.digitChar (p % 10)], ?_, nonzero⟩
      rw [Nat.toDigits_of_base_le (by omega) (by omega), digits, List.cons_append]

theorem holds_pidText {p : Nat} (positive : 0 < p) : holds (pidText p) = some p := by
  have all : ∀ c ∈ Nat.toDigits 10 p, c.isDigit = true :=
    fun c here => Nat.isDigit_of_mem_toDigits (by omega) (by omega) here
  obtain ⟨c, rest, text, nonzero⟩ := head_toDigits positive
  have digit : c.isDigit = true := all c (by simp [text])
  have value : digits 10 true 0 (Nat.toDigits 10 p) = some p := by
    rw [digits_decimal all (.inr Nat.toDigits_ne_nil), Nat.ofDigitChars_ten_toDigits]
  have size : magnitude (Nat.toDigits 10 p) = some p := by
    rw [← value, text]
    unfold magnitude
    split
    · next same => cases same; exact absurd rfl nonzero
    · rfl
  have whole : integer (Nat.toDigits 10 p) = some (p : Int) := by
    unfold integer
    split
    · next same => rw [text] at same; cases same; exact absurd digit (by decide)
    · next same => rw [text] at same; cases same; exact absurd digit (by decide)
    · rw [size]
      rfl
  unfold holds pidText
  rw [strip_line all, whole]
  simp [positive]

theorem holds_nil : holds [] = none := by decide

inductive Move (s : State) : Label → State → Prop where
  | boot (p : Nat) (positive : 0 < p) (at_pc : s.pcs p = .dead) : Move s (.boot p) (s.goto p .idle)
  | start (p : Nat) (at_pc : s.pcs p = .idle) : Move s (.start p) (s.goto p .opening)
  | create (p : Nat) (at_pc : s.pcs p = .opening ∨ s.pcs p = .reopening) (path : s.path = none) :
      Move s (.openExcl p) (s.created.goto p (.writing s.entries))
  | present (p : Nat) (at_pc : s.pcs p = .opening) : Move s (.openExcl p) (s.goto p .reading)
  | lost (p : Nat) (at_pc : s.pcs p = .reopening) : Move s (.openExcl p) (s.goto p .idle)
  | write (p own : Nat) (at_pc : s.pcs p = .writing own) :
      Move s (.write p) ((s.written own (pidText p)).goto p (.running own))
  | gone (p : Nat) (at_pc : s.pcs p = .reading) (path : s.path = none) :
      Move s (.read p) (s.goto p (.unlinking none))
  | named (p e pid : Nat) (at_pc : s.pcs p = .reading) (path : s.path = some e)
      (named : holds (s.content e) = some pid) : Move s (.read p) (s.goto p (.probing e pid))
  | refuse (p : Nat) (at_pc : s.pcs p = .reading) : Move s (.read p) (s.goto p .idle)
  | mine (p own e : Nat) (at_pc : s.pcs p = .checking own) (path : s.path = some e)
      (text : s.content e = pidText p) : Move s (.read p) (s.goto p (.removing own))
  | notMine (p own : Nat) (at_pc : s.pcs p = .checking own) : Move s (.read p) (s.goto p .idle)
  | refuseLive (p seen pid : Nat) (at_pc : s.pcs p = .probing seen pid)
      (live : s.alive pid = true) : Move s (.kill p) (s.goto p .idle)
  | stale (p seen pid : Nat) (at_pc : s.pcs p = .probing seen pid) (dead : s.alive pid = false) :
      Move s (.kill p) (s.goto p (.unlinking (some seen)))
  | unlink (p : Nat) (seen : Option Nat) (at_pc : s.pcs p = .unlinking seen) :
      Move s (.unlink p) (s.unlinked.goto p .reopening)
  | remove (p own : Nat) (at_pc : s.pcs p = .removing own) :
      Move s (.unlink p) (s.unlinked.goto p .idle)
  | stop (p own : Nat) (at_pc : s.pcs p = .running own) : Move s (.stop p) (s.goto p (.checking own))
  | fail (p : Nat) (live : s.pcs p ≠ .dead) : Move s (.fail p) (s.goto p .idle)
  | die (p : Nat) (live : s.pcs p ≠ .dead) : Move s (.die p) (s.goto p .dead)
  | other (p : Nat) (here : Bool) :
      Move s (.other p here) { s with others := Function.update s.others p here }

theorem step_move {s s' : State} {l : Label} (moved : step s l = some s') : Move s l s' := by
  cases l with
  | boot p =>
    simp only [step] at moved
    split at moved
    · next able => cases moved; exact .boot p able.1 able.2.1
    · cases moved
  | start p =>
    simp only [step] at moved
    split at moved
    · next at_pc => cases moved; exact .start p at_pc
    · cases moved
  | openExcl p =>
    simp only [step] at moved
    split at moved
    · next at_pc path => cases moved; exact .create p (.inl at_pc) path
    · next at_pc path => cases moved; exact .create p (.inr at_pc) path
    · next at_pc path => cases moved; exact .present p at_pc
    · next at_pc path => cases moved; exact .lost p at_pc
    · cases moved
  | write p =>
    simp only [step] at moved
    split at moved
    · next own at_pc => cases moved; exact .write p own at_pc
    · cases moved
  | read p =>
    simp only [step] at moved
    split at moved
    · next at_pc path => cases moved; exact .gone p at_pc path
    · next e at_pc path =>
      split at moved
      · next pid named => cases moved; exact .named p e pid at_pc path named
      · cases moved; exact .refuse p at_pc
    · next own at_pc path => cases moved; exact .notMine p own at_pc
    · next own e at_pc path =>
      split at moved
      · next text => cases moved; exact .mine p own e at_pc path text
      · cases moved; exact .notMine p own at_pc
    · cases moved
  | kill p =>
    simp only [step] at moved
    split at moved
    · next seen pid at_pc =>
      split at moved
      · next live => cases moved; exact .refuseLive p seen pid at_pc live
      · next dead => cases moved; exact .stale p seen pid at_pc (Bool.eq_false_iff.mpr dead)
    · cases moved
  | unlink p =>
    simp only [step] at moved
    split at moved
    · next seen at_pc => cases moved; exact .unlink p seen at_pc
    · next own at_pc => cases moved; exact .remove p own at_pc
    · cases moved
  | stop p =>
    simp only [step] at moved
    split at moved
    · next own at_pc => cases moved; exact .stop p own at_pc
    · cases moved
  | fail p =>
    simp only [step] at moved
    split at moved
    · cases moved
    · cases moved
    · cases moved
    · next dead _ _ => cases moved; exact .fail p dead
  | die p =>
    simp only [step] at moved
    split at moved
    · cases moved
    · next live => cases moved; exact .die p live
  | other p here =>
    simp only [step] at moved
    split at moved
    · cases moved; exact .other p here
    · cases moved

/-- An entry is claimed by one process, and holds nothing or its pid; a process that has read
    a pid can only have read it from that process, and one that judged an entry stale has
    nobody claim it. -/
structure EntryInv (s : State) : Prop where
  path : ∀ e, s.path = some e → e < s.entries
  known : ∀ p e, claim (s.pcs p) = some e → e < s.entries
  one : ∀ p q e, claim (s.pcs p) = some e → claim (s.pcs q) = some e → p = q
  text : ∀ p e, claim (s.pcs p) = some e →
    s.content e = if s.pcs p = .writing e then [] else pidText p
  probing : ∀ p seen pid, s.pcs p = .probing seen pid → seen < s.entries ∧
    ∀ q, claim (s.pcs q) = some seen → q = pid
  judged : ∀ p seen, s.pcs p = .unlinking (some seen) → seen < s.entries ∧
    ∀ q, claim (s.pcs q) ≠ some seen
  positive : ∀ p, s.pcs p ≠ .dead → 0 < p

@[simp] theorem goto_pcs (s : State) (p q : Nat) (pc : Pc) :
    (s.goto p pc).pcs q = if q = p then pc else s.pcs q := by
  simp [State.goto, Function.update_apply]

structure GoesOn (s : State) (p : Nat) (pc : Pc) : Prop where
  keeps : ∀ e, claim pc = some e → claim (s.pcs p) = some e
  text : ∀ e, claim pc = some e → pc ≠ .writing e ∧ s.pcs p ≠ .writing e
  probing : ∀ seen pid, pc = .probing seen pid → seen < s.entries ∧
    ∀ q, claim (s.pcs q) = some seen → q = pid
  judged : ∀ seen, pc = .unlinking (some seen) → seen < s.entries ∧
    ∀ q, claim (s.pcs q) ≠ some seen
  positive : pc ≠ .dead → 0 < p

theorem entries_goto {s s' : State} {p : Nat} {pc : Pc} (inv : EntryInv s) (next : GoesOn s p pc)
    (path : ∀ e, s'.path = some e → e < s.entries) (entries : s'.entries = s.entries)
    (content : s'.content = s.content) (pcs : s'.pcs = s.pcs) : EntryInv (s'.goto p pc) := by
  have claims : ∀ q e, claim ((s'.goto p pc).pcs q) = some e → claim (s.pcs q) = some e := by
    intro q e there
    rw [goto_pcs, pcs] at there
    split at there
    · next same => rw [same]; exact next.keeps e there
    · exact there
  have there_before : ∀ q, q = p ∧ (s'.goto p pc).pcs q = pc ∨
      q ≠ p ∧ (s'.goto p pc).pcs q = s.pcs q := by
    intro q
    rw [goto_pcs, pcs]
    by_cases same : q = p
    · exact .inl ⟨same, if_pos same⟩
    · exact .inr ⟨same, if_neg same⟩
  constructor
  · intro e there
    change e < s'.entries
    rw [entries]
    exact path e there
  · intro q e there
    change e < s'.entries
    rw [entries]
    exact inv.known q e (claims q e there)
  · intro q r e there here
    exact inv.one q r e (claims q e there) (claims r e here)
  · intro q e there
    change s'.content e = _
    rw [content, inv.text q e (claims q e there)]
    rcases there_before q with ⟨rfl, now⟩ | ⟨_, now⟩
    · rw [now] at there ⊢
      rw [if_neg (next.text e there).1, if_neg (next.text e there).2]
    · rw [now]
  · intro q seen pid there
    change seen < s'.entries ∧ _
    rw [entries]
    have old : seen < s.entries ∧ ∀ r, claim (s.pcs r) = some seen → r = pid := by
      rcases there_before q with ⟨rfl, now⟩ | ⟨_, now⟩
      · exact next.probing seen pid (now ▸ there)
      · exact inv.probing q seen pid (now ▸ there)
    exact ⟨old.1, fun r claimed => old.2 r (claims r seen claimed)⟩
  · intro q seen there
    change seen < s'.entries ∧ _
    rw [entries]
    have old : seen < s.entries ∧ ∀ r, claim (s.pcs r) ≠ some seen := by
      rcases there_before q with ⟨rfl, now⟩ | ⟨_, now⟩
      · exact next.judged seen (now ▸ there)
      · exact inv.judged q seen (now ▸ there)
    exact ⟨old.1, fun r claimed => old.2 r (claims r seen claimed)⟩
  · intro q live
    rcases there_before q with ⟨rfl, now⟩ | ⟨_, now⟩
    · exact next.positive (now ▸ live)
    · exact inv.positive q (now ▸ live)

theorem entries_create {s : State} {p : Nat} (inv : EntryInv s) (live : s.pcs p ≠ .dead)
    (unclaimed : claim (s.pcs p) = none) :
    EntryInv (s.created.goto p (.writing s.entries)) := by
  have pcs : ∀ q, (s.created.goto p (.writing s.entries)).pcs q =
      if q = p then .writing s.entries else s.pcs q := fun q => goto_pcs s.created p q _
  have claims : ∀ q e, claim ((s.created.goto p (.writing s.entries)).pcs q) = some e →
      q = p ∧ e = s.entries ∨ q ≠ p ∧ claim (s.pcs q) = some e ∧ e < s.entries := by
    intro q e there
    rw [pcs] at there
    by_cases same : q = p
    · rw [if_pos same] at there
      cases there
      exact .inl ⟨same, rfl⟩
    · rw [if_neg same] at there
      exact .inr ⟨same, there, inv.known q e there⟩
  have content : ∀ e, (s.created.goto p (.writing s.entries)).content e =
      if e = s.entries then [] else s.content e := Function.update_apply s.content _ _
  constructor
  · intro e there
    cases there
    exact Nat.lt_succ_self _
  · intro q e there
    change e < s.entries + 1
    rcases claims q e there with ⟨_, rfl⟩ | ⟨_, _, old⟩
    · exact Nat.lt_succ_self _
    · omega
  · intro q r e there here
    rcases claims q e there with ⟨rfl, rfl⟩ | ⟨_, mine, old⟩
    · rcases claims r _ here with ⟨rfl, _⟩ | ⟨_, _, old⟩
      · rfl
      · omega
    · rcases claims r e here with ⟨_, rfl⟩ | ⟨_, its, _⟩
      · omega
      · exact inv.one q r e mine its
  · intro q e there
    rw [content, pcs]
    rcases claims q e there with ⟨rfl, rfl⟩ | ⟨other, mine, old⟩
    · rw [if_pos rfl, if_pos rfl, if_pos rfl]
    · rw [if_neg (by omega), if_neg other]
      exact inv.text q e mine
  · intro q seen pid there
    rw [pcs] at there
    split at there
    · cases there
    · obtain ⟨old, only⟩ := inv.probing q seen pid there
      refine ⟨Nat.lt_succ_of_lt old, ?_⟩
      intro r claimed
      rcases claims r seen claimed with ⟨_, rfl⟩ | ⟨_, its, _⟩
      · omega
      · exact only r its
  · intro q seen there
    rw [pcs] at there
    split at there
    · cases there
    · obtain ⟨old, nobody⟩ := inv.judged q seen there
      refine ⟨Nat.lt_succ_of_lt old, ?_⟩
      intro r claimed
      rcases claims r seen claimed with ⟨_, rfl⟩ | ⟨_, its, _⟩
      · omega
      · exact nobody r its
  · intro q there
    rw [pcs] at there
    split at there
    · next same => rw [same]; exact inv.positive p live
    · exact inv.positive q there

theorem entries_write {s : State} {p own : Nat} (inv : EntryInv s)
    (at_pc : s.pcs p = .writing own) :
    EntryInv ((s.written own (pidText p)).goto p (.running own)) := by
  have pcs : ∀ q, ((s.written own (pidText p)).goto p (.running own)).pcs q =
      if q = p then .running own else s.pcs q := fun q => goto_pcs _ p q _
  have mine : claim (s.pcs p) = some own := by rw [at_pc]; rfl
  have claims : ∀ q, claim (((s.written own (pidText p)).goto p (.running own)).pcs q) =
      claim (s.pcs q) := by
    intro q
    rw [pcs]
    by_cases same : q = p
    · rw [if_pos same, same, mine]
      rfl
    · rw [if_neg same]
  have content : ∀ e, ((s.written own (pidText p)).goto p (.running own)).content e =
      if e = own then pidText p else s.content e := Function.update_apply s.content _ _
  constructor
  · exact inv.path
  · intro q e there
    rw [claims] at there
    exact inv.known q e there
  · intro q r e there here
    rw [claims] at there here
    exact inv.one q r e there here
  · intro q e there
    rw [claims] at there
    rw [content, pcs]
    by_cases same : q = p
    · rw [same, mine] at there
      cases there
      rw [if_pos rfl, if_pos same, if_neg (by simp), same]
    · have other : e ≠ own := by
        rintro rfl
        exact same (inv.one q p e there mine)
      rw [if_neg other, if_neg same]
      exact inv.text q e there
  · intro q seen pid there
    rw [pcs] at there
    simp only [claims]
    split at there
    · cases there
    · exact inv.probing q seen pid there
  · intro q seen there
    rw [pcs] at there
    simp only [claims]
    split at there
    · cases there
    · exact inv.judged q seen there
  · intro q there
    rw [pcs] at there
    split at there
    · next same => rw [same]; exact inv.positive p (by rw [at_pc]; simp)
    · exact inv.positive q there

theorem goes_free {s : State} {p : Nat} {pc : Pc} (unclaimed : claim pc = none)
    (unread : ∀ seen pid, pc ≠ .probing seen pid) (unjudged : ∀ seen, pc ≠ .unlinking (some seen))
    (positive : pc ≠ .dead → 0 < p) : GoesOn s p pc where
  keeps := by simp [unclaimed]
  text := by simp [unclaimed]
  probing := fun seen pid same => absurd same (unread seen pid)
  judged := fun seen same => absurd same (unjudged seen)
  positive := positive

theorem goes_claiming {s : State} {p own : Nat} {pc : Pc} (same : claim pc = some own)
    (written : pc ≠ .writing own) (mine : claim (s.pcs p) = some own)
    (written_before : s.pcs p ≠ .writing own) (positive : 0 < p) : GoesOn s p pc where
  keeps := by
    intro e there
    rw [same] at there
    rw [mine, there]
  text := by
    intro e there
    rw [same] at there
    cases there
    exact ⟨written, written_before⟩
  probing := by
    rintro seen pid rfl
    cases same
  judged := by
    rintro seen rfl
    cases same
  positive := fun _ => positive

theorem move_entries {s s' : State} {l : Label} (inv : EntryInv s) (move : Move s l s') :
    EntryInv s' := by
  have live : ∀ {p pc}, s.pcs p = pc → pc ≠ .dead → 0 < p :=
    fun at_pc alive => inv.positive _ (at_pc ▸ alive)
  cases move with
  | boot p positive at_pc =>
    exact entries_goto inv (goes_free rfl (by simp) (by simp) fun _ => positive) inv.path rfl rfl rfl
  | start p at_pc | present p at_pc | lost p at_pc | gone p at_pc | refuse p at_pc
  | notMine p _ at_pc | refuseLive p _ _ at_pc =>
    exact entries_goto inv (goes_free rfl (by simp) (by simp) fun _ => live at_pc (by simp))
      inv.path rfl rfl rfl
  | create p at_pc path =>
    apply entries_create inv
    · rcases at_pc with at_pc | at_pc <;> simp [at_pc]
    · rcases at_pc with at_pc | at_pc <;> simp [at_pc, claim]
  | write p own at_pc => exact entries_write inv at_pc
  | named p e pid at_pc path named =>
    refine entries_goto inv ⟨by simp [claim], by simp [claim], ?_, by simp, ?_⟩ inv.path rfl rfl rfl
    · intro seen pid' same
      cases same
      refine ⟨inv.path e path, ?_⟩
      intro q claimed
      -- An empty entry names no pid, so the claim is written and names its process.
      have text := inv.text q e claimed
      rw [text] at named
      split at named
      · rw [holds_nil] at named
        cases named
      · have positive : 0 < q := by
          apply inv.positive
          intro dead
          rw [dead] at claimed
          cases claimed
        rw [holds_pidText positive] at named
        cases named
        rfl
    · intro _
      exact live at_pc (by simp)
  | mine p own e at_pc path text =>
    have claimed : claim (s.pcs p) = some own := by rw [at_pc]; rfl
    exact entries_goto inv (goes_claiming rfl (by simp) claimed (by simp [at_pc])
      (live at_pc (by simp))) inv.path rfl rfl rfl
  | stop p own at_pc =>
    have claimed : claim (s.pcs p) = some own := by rw [at_pc]; rfl
    exact entries_goto inv (goes_claiming rfl (by simp) claimed (by simp [at_pc])
      (live at_pc (by simp))) inv.path rfl rfl rfl
  | stale p seen pid at_pc dead =>
    refine entries_goto inv ⟨by simp [claim], by simp [claim], by simp, ?_, ?_⟩ inv.path rfl rfl rfl
    · intro seen' same
      cases same
      obtain ⟨old, only⟩ := inv.probing p seen pid at_pc
      refine ⟨old, ?_⟩
      intro q claimed
      rw [only q claimed] at claimed
      simp only [State.alive, Bool.or_eq_false_iff, decide_eq_false_iff_not, not_not] at dead
      rw [dead.1] at claimed
      cases claimed
    · intro _
      exact live at_pc (by simp)
  | unlink p _ at_pc | remove p _ at_pc =>
    exact entries_goto inv (goes_free rfl (by simp) (by simp) fun _ => live at_pc (by simp))
      (fun e there => by cases there) rfl rfl rfl
  | fail p alive =>
    exact entries_goto inv (goes_free rfl (by simp) (by simp) fun _ => inv.positive p alive)
      inv.path rfl rfl rfl
  | die p alive =>
    exact entries_goto inv (goes_free rfl (by simp) (by simp) fun _ => inv.positive p alive)
      inv.path rfl rfl rfl
  | other p here => exact ⟨inv.path, inv.known, inv.one, inv.text, inv.probing, inv.judged, inv.positive⟩

theorem initial_entries (content : Option Text) (others : Nat → Bool) :
    EntryInv (initial content others) := by
  constructor
  · intro e there
    cases content with
    | none => cases there
    | some text =>
      cases there
      exact Nat.one_pos
  all_goals simp [initial, claim]

theorem content_kept {s s' : State} {l : Label} {q e : Nat} (inv : EntryInv s)
    (moved : step s l = some s') (claimed : claim (s.pcs q) = some e)
    (changed : s'.content e ≠ s.content e) : l = .write q := by
  cases step_move moved with
  | create p at_pc path =>
    have old := inv.known q e claimed
    exact absurd (Function.update_of_ne (by omega) _ _) changed
  | write p own at_pc =>
    by_cases same : e = own
    · have mine : claim (s.pcs p) = some own := by rw [at_pc]; rfl
      rw [inv.one q p e claimed (same ▸ mine)]
    · exact absurd (Function.update_of_ne same _ _) changed
  | _ => exact absurd rfl changed

theorem unlinks_free {s : State} {l : Label} {p e : Nat} (inv : EntryInv s)
    (same : sameEntry s l = true) (taken : unlinks s l = some (p, e)) :
    ∀ q, claim (s.pcs q) = some e → q = p ∧ s.pcs p = .removing e := by
  unfold unlinks at taken
  split at taken
  · next r =>
    split at taken
    · next seen at_pc =>
      obtain ⟨f, path, pair⟩ := Option.map_eq_some_iff.mp taken
      cases pair
      simp only [sameEntry, at_pc, path, reduceCtorEq, decide_false, Bool.false_or,
        decide_eq_true_eq] at same
      subst same
      intro q claimed
      exact absurd claimed ((inv.judged p e at_pc).2 q)
    · next own at_pc =>
      obtain ⟨f, path, pair⟩ := Option.map_eq_some_iff.mp taken
      cases pair
      simp only [sameEntry, at_pc, path, reduceCtorEq, decide_false, Bool.false_or,
        Option.some.injEq, decide_eq_true_eq] at same
      subst same
      have mine : claim (s.pcs p) = some e := by rw [at_pc]; rfl
      intro q claimed
      exact ⟨inv.one q p e claimed mine, at_pc⟩
    · cases taken
  · cases taken

def Held (s : State) : Prop := ∀ p e, claim (s.pcs p) = some e → s.path = some e

theorem held_goto {s s' : State} {p : Nat} {pc : Pc} (held : Held s)
    (keeps : ∀ e, claim pc = some e → claim (s.pcs p) = some e) (pcs : s'.pcs = s.pcs)
    (path : ∀ q e, claim (s.pcs q) = some e → claim ((s'.goto p pc).pcs q) = some e →
      s.path = some e → s'.path = some e) : Held (s'.goto p pc) := by
  intro q e there
  have before : claim (s.pcs q) = some e := by
    rw [goto_pcs, pcs] at there
    split at there
    · next same => rw [same]; exact keeps e there
    · exact there
  exact path q e before there (held q e before)

theorem step_held {s s' : State} {l : Label} (inv : EntryInv s) (held : Held s)
    (same : sameEntry s l = true) (moved : step s l = some s') : Held s' := by
  cases step_move moved with
  | create p at_pc path =>
    intro q e there
    rw [goto_pcs] at there
    split at there
    · cases there
      rfl
    · have busy := held q e there
      rw [path] at busy
      cases busy
  | unlink p seen at_pc | remove p own at_pc =>
    refine held_goto held (by simp [claim]) rfl ?_
    intro q e before there path
    -- Only the process that unlinks its own entry may claim it, and it gives the claim up.
    obtain ⟨rfl, _⟩ := unlinks_free (p := p) inv same (by simp [unlinks, at_pc, path]) q before
    simp [claim] at there
  | mine p own e at_pc | stop p own at_pc =>
    exact held_goto held (by simp [claim, at_pc]) rfl fun _ _ _ _ path => path
  | write p own at_pc =>
    refine held_goto held (by simp [claim, at_pc]) rfl fun _ _ _ _ path => path
  | other p here => exact held
  | _ => exact held_goto held (by simp [claim]) rfl fun _ _ _ _ path => path

theorem reachable_held {s : State}
    (reached : ReachableBy system (fun s l => sameEntry s l = true) s) : EntryInv s ∧ Held s := by
  refine invariant (fun s => EntryInv s ∧ Held s) ?_ ?_ reached
  · rintro s ⟨content, others, rfl⟩
    refine ⟨initial_entries content others, ?_⟩
    intro p e there
    cases there
  · intro s t l inv same moved
    exact ⟨move_entries inv.1 (step_move moved), step_held inv.1 inv.2 same moved⟩

/-- While every unlink meets the entry that was read, a live process that has claimed the
    pidfile finds its entry at the path, so one process has; no unlink takes an entry that
    another process has claimed, and nobody else writes it. -/
theorem pidfile_law {s : State}
    (reached : ReachableBy system (fun s l => sameEntry s l = true) s) :
    (∀ p e, claim (s.pcs p) = some e → s.path = some e) ∧
    (∀ p q e f, claim (s.pcs p) = some e → claim (s.pcs q) = some f → p = q) ∧
    ∀ l s', sameEntry s l = true → step s l = some s' →
      (∀ p e, unlinks s l = some (p, e) → ∀ q, q ≠ p → claim (s.pcs q) ≠ some e) ∧
      ∀ q e, claim (s.pcs q) = some e → s'.content e ≠ s.content e → l = .write q := by
  obtain ⟨inv, held⟩ := reachable_held reached
  refine ⟨held, ?_, ?_⟩
  · intro p q e f mine its
    have one := (held p e mine).symm.trans (held q f its)
    cases one
    exact inv.one p q e mine its
  · intro l s' same moved
    constructor
    · intro p e taken q other claimed
      exact other (unlinks_free inv same taken q claimed).1
    · intro q e claimed changed
      exact content_kept inv moved claimed changed

def nobodyElse : Nat → Bool := fun _ => false

def takeover : List Label :=
  [.boot 1, .start 1, .openExcl 1, .read 1, .kill 1, .unlink 1, .openExcl 1, .write 1, .boot 2, .start 2,
    .openExcl 2, .read 2, .kill 2, .stop 1, .read 1]

theorem takeover_law :
    ∃ s, runBy system sameEntry (initial (some (pidText 9)) nobodyElse) takeover = some s ∧
      unlinks s (.unlink 1) = some (1, 1) ∧ ∀ q, q ≠ 1 → claim (s.pcs q) ≠ some 1 := by
  have ran : runBy system sameEntry (initial (some (pidText 9)) nobodyElse) takeover = some _ := rfl
  refine ⟨_, ran, rfl, ?_⟩
  have reached := reachable_runBy (fun _ _ passed => passed)
    (.start ⟨some (pidText 9), nobodyElse, rfl⟩ : ReachableBy system _ _) ran
  exact ((pidfile_law reached).2.2 (.unlink 1) _ rfl rfl).1 1 1 rfl

def bothStale : List Label :=
  [.boot 1, .start 1, .openExcl 1, .read 1, .kill 1, .boot 2, .start 2, .openExcl 2, .read 2, .kill 2,
    .unlink 1, .openExcl 1, .write 1]

theorem unlink_takes_live_pidfile :
    ¬∀ s, Reachable system s → ∀ l s', step s l = some s' → ∀ p e, unlinks s l = some (p, e) →
      ∀ q, q ≠ p → claim (s.pcs q) ≠ some e := by
  intro kept
  have ran : run system (initial (some (pidText 9)) nobodyElse) bothStale = some _ := rfl
  have reached := reachable_run (.start ⟨some (pidText 9), nobodyElse, rfl⟩ : Reachable system _) ran
  exact kept _ reached (.unlink 2) _ rfl 2 1 rfl 1 (by decide) rfl

end KinoPidfile
