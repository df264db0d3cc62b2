import Kino.HostCache

/-!
What `split_host_port` (ext/kino/src/request.rs) makes of a Host value. The split is at the
last colon, and the port is whatever `str::parse::<u16>` reads, a leading plus sign included.
-/
namespace KinoHostPort
open KinoEnvStrings KinoHostCache

def IsDigit (b : UInt8) : Prop := 48 ≤ b ∧ b ≤ 57

instance (b : UInt8) : Decidable (IsDigit b) := inferInstanceAs (Decidable (_ ∧ _))

def numeral (digits : Bytes) : Nat := digits.foldl (fun n b => n * 10 + (b.toNat - 48)) 0

def Written (host name : Bytes) (port : UInt16) : Prop :=
  name ≠ [] ∧ ∃ digits, digits ≠ [] ∧ (∀ b ∈ digits, IsDigit b) ∧ numeral digits = port.toNat ∧
    host = name ++ 58 :: digits

def SplitLaw (host : Bytes) (defaultPort : UInt16) : Prop :=
  (∃ name port, Written host name port ∧ splitHostPort host defaultPort = (name, port)) ∨
  ((¬∃ name port, Written host name port) ∧ splitHostPort host defaultPort = (host, defaultPort))

/-- A plus sign stands between the last colon and a port in range. -/
def Signed (host : Bytes) : Prop :=
  ∃ name digits, name ≠ [] ∧ digits ≠ [] ∧ (∀ b ∈ digits, IsDigit b) ∧ numeral digits < 65536 ∧
    host = name ++ 58 :: 43 :: digits

def Bracketed (name : Bytes) : Prop := ∃ literal, name = 91 :: (literal ++ [93])

theorem rsplitOnce_none {sep : UInt8} {text : Bytes} : rsplitOnce sep text = none ↔ sep ∉ text := by
  induction text with
  | nil => simp [rsplitOnce]
  | cons b rest ih =>
    simp only [rsplitOnce, List.mem_cons, not_or]
    cases eq : rsplitOnce sep rest with
    | some parts =>
      have inside : sep ∈ rest := by
        by_contra absent
        rw [ih.mpr absent] at eq
        cases eq
      simp [inside]
    | none =>
      have absent := ih.mp eq
      by_cases here : b = sep
      · simp [here]
      · simp [here, absent, Ne.symm here]

theorem rsplitOnce_append {sep : UInt8} (before : Bytes) {after : Bytes} (last : sep ∉ after) :
    rsplitOnce sep (before ++ sep :: after) = some (before, after) := by
  induction before with
  | nil => simp [rsplitOnce, rsplitOnce_none.mpr last]
  | cons b before ih => simp [rsplitOnce, ih]

theorem rsplitOnce_some {sep : UInt8} {text before after : Bytes}
    (split : rsplitOnce sep text = some (before, after)) :
    text = before ++ sep :: after ∧ sep ∉ after := by
  induction text generalizing before with
  | nil => simp [rsplitOnce] at split
  | cons b rest ih =>
    simp only [rsplitOnce] at split
    cases eq : rsplitOnce sep rest with
    | some parts =>
      obtain ⟨front, back⟩ := parts
      simp only [eq, Option.some.injEq, Prod.mk.injEq] at split
      obtain ⟨rfl, rfl⟩ := split
      obtain ⟨whole, last⟩ := ih eq
      exact ⟨by rw [whole]; simp, last⟩
    | none =>
      simp only [eq] at split
      split at split
      · next here =>
        cases split
        exact ⟨by simp [here], rsplitOnce_none.mp eq⟩
      · cases split

theorem digitsValue_digits {n : Nat} {text : Bytes} (digits : ∀ b ∈ text, IsDigit b) :
    digitsValue n text = some (text.foldl (fun n b => n * 10 + (b.toNat - 48)) n) := by
  induction text generalizing n with
  | nil => simp [digitsValue]
  | cons b rest ih =>
    have first : 48 ≤ b ∧ b ≤ 57 := digits b (by simp)
    simp only [digitsValue, if_pos first, List.foldl_cons]
    apply ih
    intro c here
    exact digits c (by simp [here])

theorem digitsValue_other {n : Nat} {text : Bytes} {b : UInt8} (here : b ∈ text)
    (other : ¬IsDigit b) : digitsValue n text = none := by
  induction text generalizing n with
  | nil => simp at here
  | cons c rest ih =>
    simp only [digitsValue]
    split
    · next first =>
      apply ih
      rcases List.mem_cons.mp here with rfl | later
      · exact absurd first other
      · exact later
    · rfl

def unsigned (text : Bytes) : Bytes := if text.head? = some 43 then text.tail else text

theorem parseU16_some {text : Bytes} {port : UInt16} : parseU16 text = some port ↔
    unsigned text ≠ [] ∧ (∀ b ∈ unsigned text, IsDigit b) ∧ numeral (unsigned text) = port.toNat := by
  have bound := port.toNat_lt
  unfold parseU16 unsigned
  dsimp only
  generalize (if text.head? = some 43 then text.tail else text) = digits
  by_cases empty : digits = []
  · simp [empty]
  · by_cases all : ∀ b ∈ digits, IsDigit b
    · rw [if_neg empty, digitsValue_digits all, Option.bind_some]
      change (if numeral digits < 65536 then some (UInt16.ofNat (numeral digits)) else none) = _ ↔ _
      split
      · next small =>
        rw [Option.some.injEq, ← UInt16.toNat_inj, UInt16.toNat_ofNat', Nat.mod_eq_of_lt small]
        constructor
        · intro value
          exact ⟨empty, all, value⟩
        · intro read
          exact read.2.2
      · next large =>
        simp only [reduceCtorEq, false_iff, not_and]
        intro _ _ value
        omega
    · simp only [not_forall] at all
      obtain ⟨b, here, other⟩ := all
      rw [if_neg empty, digitsValue_other here other]
      simp only [Option.bind_none, reduceCtorEq, false_iff, not_and]
      intro _ all
      exact absurd (all b here) other

theorem digits_unsigned {digits : Bytes} (all : ∀ b ∈ digits, IsDigit b) : unsigned digits = digits := by
  cases digits with
  | nil => simp [unsigned]
  | cons b rest =>
    have first := all b (by simp)
    unfold unsigned
    rw [if_neg]
    rintro ⟨⟩
    revert first
    decide

theorem digits_no_colon {digits : Bytes} (all : ∀ b ∈ digits, IsDigit b) : (58 : UInt8) ∉ digits := by
  intro colon
  have digit := all 58 colon
  revert digit
  decide

theorem written_split {host name : Bytes} {port : UInt16} (d : UInt16)
    (written : Written host name port) : splitHostPort host d = (name, port) := by
  obtain ⟨named, digits, some_digits, all, value, rfl⟩ := written
  have read : parseU16 digits = some port := by
    rw [parseU16_some, digits_unsigned all]
    exact ⟨some_digits, all, value⟩
  simp [splitHostPort, rsplitOnce_append name (digits_no_colon all), named, read]

theorem signed_split {host : Bytes} (d : UInt16) (signed : Signed host) :
    ∃ name port, name ≠ host ∧ splitHostPort host d = (name, port) ∧
      ¬∃ name port, Written host name port := by
  obtain ⟨name, digits, named, some_digits, all, small, rfl⟩ := signed
  have no_colon : (58 : UInt8) ∉ 43 :: digits := by
    simp [digits_no_colon all]
  have read : parseU16 (43 :: digits) = some (UInt16.ofNat (numeral digits)) := by
    rw [parseU16_some, UInt16.toNat_ofNat', Nat.mod_eq_of_lt small]
    exact ⟨some_digits, all, rfl⟩
  refine ⟨name, UInt16.ofNat (numeral digits), by simp, ?_, ?_⟩
  · simp [splitHostPort, rsplitOnce_append name no_colon, named, read]
  · rintro ⟨other, port, _, more, _, others, _, same⟩
    -- both ends are the text after the last colon, and one of them starts with the sign
    have here := rsplitOnce_append name no_colon
    rw [same, rsplitOnce_append other (digits_no_colon others)] at here
    cases here
    have sign := others 43 (by simp)
    revert sign
    decide

theorem other_split {host : Bytes} (d : UInt16) (unwritten : ¬∃ name port, Written host name port)
    (plain : ¬Signed host) : splitHostPort host d = (host, d) := by
  unfold splitHostPort
  cases eq : rsplitOnce 58 host with
  | none => rfl
  | some parts =>
    obtain ⟨name, text⟩ := parts
    obtain ⟨whole, last⟩ := rsplitOnce_some eq
    by_cases named : name = []
    · simp [named]
    · cases read : parseU16 text with
      | none => simp [named, read]
      | some port =>
        exfalso
        obtain ⟨some_digits, all, value⟩ := parseU16_some.mp read
        by_cases sign : text.head? = some 43
        · have rest : text = 43 :: unsigned text := by
            cases text with
            | nil => simp at sign
            | cons b more =>
              simp only [List.head?_cons, Option.some.injEq] at sign
              simp [unsigned, sign]
          have small : numeral (unsigned text) < 65536 := by
            have bound := port.toNat_lt
            omega
          exact plain ⟨name, unsigned text, named, some_digits, all, small, by rw [whole, ← rest]⟩
        · have same : unsigned text = text := by simp [unsigned, sign]
          rw [same] at some_digits all value
          exact unwritten ⟨name, port, named, text, some_digits, all, value, whole⟩

theorem decimal_digits (port : UInt16) :
    (∀ b ∈ decimal port, IsDigit b) ∧ numeral (decimal port) = port.toNat := by
  have digit : ∀ c ∈ Nat.toDigits 10 port.toNat, 48 ≤ c.toNat ∧ c.toNat ≤ 57 := by
    intro c here
    have is_digit := Nat.isDigit_of_mem_toDigits (by omega) (by omega) here
    simp only [Char.isDigit, Bool.and_eq_true, decide_eq_true_eq, UInt32.le_iff_toNat_le] at is_digit
    exact is_digit
  constructor
  · intro b here
    obtain ⟨c, there, rfl⟩ := List.mem_map.mp here
    have bounds := digit c there
    constructor <;> rw [UInt8.le_iff_toNat_le, UInt8.toNat_ofNat', Nat.mod_eq_of_lt (by omega)]
    · exact bounds.1
    · exact bounds.2
  · have value := Nat.ofDigitChars_ten_toDigits (n := port.toNat)
    rw [Nat.ofDigitChars_eq_foldl] at value
    unfold numeral decimal
    rw [List.foldl_map]
    conv_rhs => rw [← value]
    revert digit
    generalize Nat.toDigits 10 port.toNat = chars
    generalize 0 = n
    intro digit
    induction chars generalizing n with
    | nil => simp
    | cons c chars ih =>
      have bounds := digit c (by simp)
      simp only [List.foldl_cons, UInt8.toNat_ofNat', Nat.mod_eq_of_lt (show c.toNat < 2 ^ 8 by omega)]
      rw [Nat.mul_comm n 10]
      apply ih
      intro c' later
      exact digit c' (by simp [later])

theorem written_name {name : Bytes} (named : name ≠ []) (port : UInt16) :
    Written (name ++ 58 :: decimal port) name port := by
  obtain ⟨all, value⟩ := decimal_digits port
  refine ⟨named, decimal port, ?_, all, value, rfl⟩
  simp [decimal]

theorem bracketed_whole {name : Bytes} (bracketed : Bracketed name) (d : UInt16) :
    splitHostPort name d = (name, d) := by
  obtain ⟨literal, rfl⟩ := bracketed
  -- whatever follows the last colon ends in the bracket, which no port does
  have ends : ∀ before text : Bytes, 91 :: (literal ++ [93]) = before ++ 58 :: text →
      (93 : UInt8) ∈ text := by
    intro before text same
    have last := congrArg List.getLast? same
    rw [← List.cons_append, List.getLast?_concat, List.getLast?_append] at last
    cases text with
    | nil => simp at last
    | cons b more =>
      simp only [List.getLast?_cons_cons, Option.or] at last
      cases eq : (b :: more).getLast? with
      | none => simp at eq
      | some c =>
        rw [eq] at last
        cases last
        exact List.mem_of_getLast? eq
  apply other_split
  · rintro ⟨before, port, _, digits, _, all, _, same⟩
    have digit := all 93 (ends _ _ same)
    revert digit
    decide
  · rintro ⟨before, digits, _, _, all, _, same⟩
    rcases List.mem_cons.mp (ends _ _ same) with sign | later
    · revert sign
      decide
    · have digit := all 93 later
      revert digit
      decide

theorem plain_whole {name : Bytes} (plain : (58 : UInt8) ∉ name) (d : UInt16) :
    splitHostPort name d = (name, d) := by
  simp [splitHostPort, rsplitOnce_none.mpr plain]

/-- The split is as it should be except where a port in range carries a plus sign; names
    and bracketed literals get their port back. -/
theorem split_host_port_iff (host : Bytes) (d : UInt16) :
    (SplitLaw host d ↔ ¬Signed host) ∧
    ∀ name port, (name ≠ [] ∧ (58 : UInt8) ∉ name) ∨ Bracketed name →
      splitHostPort name d = (name, d) ∧ splitHostPort (name ++ 58 :: decimal port) d = (name, port) := by
  constructor
  · constructor
    · intro law signed
      obtain ⟨name, port, shorter, eq, unwritten⟩ := signed_split d signed
      rcases law with ⟨name', port', written, _⟩ | ⟨_, whole⟩
      · exact unwritten ⟨name', port', written⟩
      · rw [whole] at eq
        cases eq
        exact shorter rfl
    · intro plain
      by_cases written : ∃ name port, Written host name port
      · obtain ⟨name, port, written⟩ := written
        exact .inl ⟨name, port, written, written_split d written⟩
      · exact .inr ⟨written, other_split d written plain⟩
  · intro name port kind
    have named : name ≠ [] := by
      rcases kind with ⟨named, _⟩ | ⟨literal, rfl⟩
      · exact named
      · simp
    constructor
    · rcases kind with ⟨_, plain⟩ | bracketed
      · exact plain_whole plain d
      · exact bracketed_whole bracketed d
    · exact written_split d (written_name named port)

/-- `[::1]` and `[::1]:8080`. -/
theorem loopback_split : splitHostPort [91, 58, 58, 49, 93] 80 = ([91, 58, 58, 49, 93], 80) ∧
    splitHostPort [91, 58, 58, 49, 93, 58, 56, 48, 56, 48] 80 = ([91, 58, 58, 49, 93], 8080) :=
  (split_host_port_iff [91, 58, 58, 49, 93] 80).2 [91, 58, 58, 49, 93] 8080 (.inr ⟨[58, 58, 49], rfl⟩)

/-- `a:+80` loses its port. -/
theorem signed_port_split : ¬∀ host d, SplitLaw host d := by
  intro law
  have split : splitHostPort [97, 58, 43, 56, 48] 443 = ([97], 80) := by decide
  rcases law [97, 58, 43, 56, 48] 443 with ⟨name, port, written, eq⟩ | ⟨_, eq⟩
  · rw [split] at eq
    cases eq
    obtain ⟨_, digits, _, all, _, same⟩ := written
    simp only [List.cons_append, List.nil_append, List.cons.injEq, true_and] at same
    rw [← same] at all
    have sign := all 43 (by simp)
    revert sign
    decide
  · rw [split] at eq
    cases eq

end KinoHostPort
