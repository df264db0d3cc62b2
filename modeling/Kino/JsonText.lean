import Mathlib

/- JSON in its compact form: no blanks between the tokens, no escapes in the strings and no
   signs or exponents in the numbers. A text that is read here is JSON for any other reader
   too. Values that cannot be written so cannot be built. -/
namespace JsonText

def wellWritten (whole fraction : List Char) : Bool :=
  whole.all Char.isDigit && fraction.all Char.isDigit && !whole.isEmpty &&
    (whole.head? != some '0' || whole.length == 1)

structure Number where
  whole : List Char
  fraction : List Char
  written : wellWritten whole fraction = true
  deriving DecidableEq

theorem toDigits_head {n : Nat} (positive : 0 < n) : (Nat.toDigits 10 n).head? ≠ some '0' := by
  induction n using Nat.strongRecOn with
  | _ n ih =>
    by_cases small : n < 10
    · rw [Nat.toDigits_of_lt_base small]
      interval_cases n <;> decide
    · have first : (Nat.toDigits 10 (n / 10)).head? ≠ some '0' :=
        ih (n / 10) (by omega) (by omega)
      rw [Nat.toDigits_of_base_le (by omega) (by omega),
        List.head?_append_of_ne_nil _ Nat.toDigits_ne_nil]
      exact first

theorem toDigits_wellWritten (n : Nat) : wellWritten (Nat.toDigits 10 n) [] = true := by
  have digits : (Nat.toDigits 10 n).all Char.isDigit = true := by
    rw [List.all_eq_true]
    intro c member
    exact Nat.isDigit_of_mem_toDigits (by omega) (by omega) member
  have some_digit : (Nat.toDigits 10 n).isEmpty = false := by simp [Nat.toDigits_ne_nil]
  by_cases zero : n = 0
  · subst zero
    decide
  · have leading := toDigits_head (Nat.pos_of_ne_zero zero)
    simp [wellWritten, digits, some_digit, leading]

def Number.ofNat (n : Nat) : Number := ⟨Nat.toDigits 10 n, [], toDigits_wellWritten n⟩

def isPlain (c : Char) : Bool := c != '"' && c != '\\' && decide (32 ≤ c.toNat)

abbrev Text := { text : List Char // text.all isPlain = true }

inductive Json where
  | bool (value : Bool)
  | number (value : Number)
  | string (text : Text)
  | array (items : List Json)
  | object (members : List (Text × Json))

def openBrace : Char := '\x7b'
def closeBrace : Char := '\x7d'

def Number.render (n : Number) : List Char :=
  n.whole ++ if n.fraction = [] then [] else '.' :: n.fraction

def renderBool : Bool → List Char
  | true => ['t', 'r', 'u', 'e']
  | false => ['f', 'a', 'l', 's', 'e']

def renderText (text : Text) : List Char := '"' :: text.val ++ ['"']

mutual
def render : Json → List Char
  | .bool value => renderBool value
  | .number n => n.render
  | .string text => renderText text
  | .array items => '[' :: renderItems items ++ [']']
  | .object members => openBrace :: renderMembers members ++ [closeBrace]

def renderItems : List Json → List Char
  | [] => []
  | item :: rest => render item ++ renderMoreItems rest

def renderMoreItems : List Json → List Char
  | [] => []
  | item :: rest => ',' :: render item ++ renderMoreItems rest

def renderMembers : List (Text × Json) → List Char
  | [] => []
  | (key, value) :: rest => renderText key ++ ':' :: render value ++ renderMoreMembers rest

def renderMoreMembers : List (Text × Json) → List Char
  | [] => []
  | (key, value) :: rest =>
    ',' :: renderText key ++ ':' :: render value ++ renderMoreMembers rest
end

def spanDigits : List Char → List Char × List Char
  | [] => ([], [])
  | c :: rest => if c.isDigit then (c :: (spanDigits rest).1, (spanDigits rest).2) else ([], c :: rest)

def parseNumber (text : List Char) : Option (Number × List Char) :=
  let (whole, rest) := spanDigits text
  match rest with
  | '.' :: more =>
    let (fraction, rest) := spanDigits more
    if written : wellWritten whole fraction = true ∧ fraction ≠ [] then
      some (⟨whole, fraction, written.1⟩, rest)
    else none
  | rest => if written : wellWritten whole [] = true then some (⟨whole, [], written⟩, rest) else none

def spanText : List Char → Option (List Char × List Char)
  | [] => none
  | c :: rest =>
    if c = '"' then some ([], rest)
    else (spanText rest).map fun (text, rest) => (c :: text, rest)

def parseText (text : List Char) : Option (Text × List Char) :=
  (spanText text).bind fun (text, rest) =>
    if plain : text.all isPlain = true then some (⟨text, plain⟩, rest) else none

def parseKey : List Char → Option (Text × List Char)
  | '"' :: text => (parseText text).bind fun (key, rest) =>
    match rest with
    | ':' :: rest => some (key, rest)
    | _ => none
  | _ => none

mutual
def parseValue : Nat → List Char → Option (Json × List Char)
  | 0, _ | _, [] => none
  | fuel + 1, c :: rest =>
    if c = 't' then if ['r', 'u', 'e'] <+: rest then some (.bool true, rest.drop 3) else none
    else if c = 'f' then
      if ['a', 'l', 's', 'e'] <+: rest then some (.bool false, rest.drop 4) else none
    else if c = '"' then (parseText rest).map fun (text, rest) => (.string text, rest)
    else if c = '[' then
      if rest.head? = some ']' then some (.array [], rest.tail)
      else (parseItems fuel rest).map fun (items, rest) => (.array items, rest)
    else if c = openBrace then
      if rest.head? = some closeBrace then some (.object [], rest.tail)
      else (parseMembers fuel rest).map fun (members, rest) => (.object members, rest)
    else (parseNumber (c :: rest)).map fun (n, rest) => (.number n, rest)

def parseItems : Nat → List Char → Option (List Json × List Char)
  | 0, _ => none
  | fuel + 1, text => (parseValue fuel text).bind fun (item, rest) =>
    match rest with
    | [] => none
    | c :: rest =>
      if c = ',' then (parseItems fuel rest).map fun (items, rest) => (item :: items, rest)
      else if c = ']' then some ([item], rest)
      else none

def parseMembers : Nat → List Char → Option (List (Text × Json) × List Char)
  | 0, _ => none
  | fuel + 1, text => (parseKey text).bind fun (key, rest) =>
    (parseValue fuel rest).bind fun (value, rest) =>
      match rest with
      | [] => none
      | c :: rest =>
        if c = ',' then
          (parseMembers fuel rest).map fun (members, rest) => ((key, value) :: members, rest)
        else if c = closeBrace then some ([(key, value)], rest)
        else none
end

def parse (text : List Char) : Option Json :=
  match parseValue (text.length + 1) text with
  | some (value, []) => some value
  | _ => none

/-! What is written is read back. -/

def Ends (rest : List Char) : Prop :=
  ∀ c, rest.head? = some c → c.isDigit = false ∧ c ≠ '.'

theorem ends_nil : Ends [] := nofun

theorem ends_cons {c : Char} {rest : List Char} (other : c.isDigit = false) (no_point : c ≠ '.') :
    Ends (c :: rest) := by
  intro d head
  rw [List.head?_cons, Option.some.injEq] at head
  exact head ▸ ⟨other, no_point⟩

theorem spanDigits_append {digits rest : List Char} (all : digits.all Char.isDigit = true)
    (ends : ∀ c, rest.head? = some c → c.isDigit = false) :
    spanDigits (digits ++ rest) = (digits, rest) := by
  induction digits with
  | nil =>
    cases rest with
    | nil => rfl
    | cons c rest => simp [spanDigits, ends c rfl]
  | cons d digits ih =>
    simp only [List.all_cons, Bool.and_eq_true] at all
    simp [spanDigits, all.1, ih all.2]

theorem parseNumber_render (n : Number) {rest : List Char} (ends : Ends rest) :
    parseNumber (n.render ++ rest) = some (n, rest) := by
  have written := n.written
  have digits := n.written
  simp only [wellWritten, Bool.and_eq_true] at digits
  obtain ⟨⟨⟨whole, fraction⟩, _⟩, _⟩ := digits
  by_cases none : n.fraction = []
  · have span : spanDigits (n.whole ++ rest) = (n.whole, rest) :=
      spanDigits_append whole fun c head => (ends c head).1
    have text : n.render ++ rest = n.whole ++ rest := by simp [Number.render, none]
    rw [none] at written
    have same : (⟨n.whole, [], written⟩ : Number) = n := by
      cases n
      cases none
      rfl
    rw [text, parseNumber, span]
    cases rest with
    | nil => simp [written, same]
    | cons c rest =>
      have no_point := (ends c rfl).2
      simp only
      split
      · rename_i more eq
        cases eq
        exact absurd rfl no_point
      · simp [written, same]
  · have text : n.render ++ rest = n.whole ++ '.' :: (n.fraction ++ rest) := by
      simp [Number.render, none]
    have span : spanDigits (n.whole ++ '.' :: (n.fraction ++ rest)) =
        (n.whole, '.' :: (n.fraction ++ rest)) := by
      apply spanDigits_append whole
      intro c head
      rw [List.head?_cons, Option.some.injEq] at head
      rw [← head]
      rfl
    have more : spanDigits (n.fraction ++ rest) = (n.fraction, rest) :=
      spanDigits_append fraction fun c head => (ends c head).1
    rw [text, parseNumber, span]
    simp [more, written, none]

theorem spanText_append {text : List Char} (plain : text.all isPlain = true) (rest : List Char) :
    spanText (text ++ '"' :: rest) = some (text, rest) := by
  induction text with
  | nil => simp [spanText]
  | cons c text ih =>
    simp only [List.all_cons, Bool.and_eq_true] at plain
    have no_quote : c ≠ '"' := by
      have one := plain.1
      simp only [isPlain, Bool.and_eq_true, bne_iff_ne, ne_eq] at one
      exact one.1.1
    simp [spanText, no_quote, ih plain.2]

theorem parseText_append (text : Text) (rest : List Char) :
    parseText (text.val ++ '"' :: rest) = some (text, rest) := by
  have plain : text.val.all isPlain = true := text.property
  rw [parseText, spanText_append plain, Option.bind_some]
  simp only [dif_pos plain]

theorem parseKey_render (key : Text) (rest : List Char) :
    parseKey (renderText key ++ ':' :: rest) = some (key, rest) := by
  have text : renderText key ++ ':' :: rest = '"' :: (key.val ++ '"' :: ':' :: rest) := by
    simp [renderText]
  rw [text, parseKey, parseText_append]
  rfl

theorem number_head (n : Number) : ∃ c tail, n.render = c :: tail ∧ c.isDigit = true := by
  have digits := n.written
  simp only [wellWritten, Bool.and_eq_true] at digits
  obtain ⟨⟨⟨whole, _⟩, some_digit⟩, _⟩ := digits
  cases eq : n.whole with
  | nil => simp [eq] at some_digit
  | cons c tail =>
    rw [eq, List.all_cons, Bool.and_eq_true] at whole
    exact ⟨c, _, by simp [Number.render, eq]; rfl, whole.1⟩

theorem render_head (j : Json) : ∃ c tail, render j = c :: tail ∧ c ≠ ']' ∧ c ≠ closeBrace := by
  cases j with
  | bool value =>
    cases value with
    | true => exact ⟨'t', ['r', 'u', 'e'], by simp [render, renderBool], by decide, by decide⟩
    | false => exact ⟨'f', ['a', 'l', 's', 'e'], by simp [render, renderBool], by decide, by decide⟩
  | number n =>
    obtain ⟨c, tail, text, digit⟩ := number_head n
    have other : ∀ d : Char, d.isDigit = false → c ≠ d := by
      intro d no same
      rw [same, no] at digit
      cases digit
    exact ⟨c, tail, by rw [render, text], other ']' rfl, other closeBrace rfl⟩
  | string text => exact ⟨'"', text.val ++ ['"'], by simp [render, renderText], by decide, by decide⟩
  | array items => exact ⟨'[', renderItems items ++ [']'], by simp [render], by decide, by decide⟩
  | object members =>
    exact ⟨openBrace, renderMembers members ++ [closeBrace], by simp [render], by decide, by decide⟩

theorem parseValue_number (n : Number) (fuel : Nat) {rest : List Char} (ends : Ends rest) :
    parseValue (fuel + 1) (n.render ++ rest) = some (.number n, rest) := by
  obtain ⟨c, tail, text, digit⟩ := number_head n
  have other : ∀ d : Char, d.isDigit = false → c ≠ d := by
    intro d no same
    rw [same, no] at digit
    cases digit
  have whole : n.render ++ rest = c :: (tail ++ rest) := by rw [text, List.cons_append]
  have read : parseNumber (c :: (tail ++ rest)) = some (n, rest) := by
    rw [← whole]
    exact parseNumber_render n ends
  rw [whole, parseValue, if_neg (other 't' rfl), if_neg (other 'f' rfl), if_neg (other '"' rfl),
    if_neg (other '[' rfl), if_neg (other openBrace rfl), read]
  rfl

/-! With room for the text each reader takes back what was written, up to what follows. -/

def ReadsValues (fuel : Nat) : Prop :=
  ∀ (j : Json) (rest : List Char), (render j).length ≤ fuel → Ends rest →
    parseValue fuel (render j ++ rest) = some (j, rest)

def ReadsItems (fuel : Nat) : Prop :=
  ∀ (item : Json) (items : List Json) (rest : List Char),
    (renderItems (item :: items)).length < fuel →
    parseItems fuel (renderItems (item :: items) ++ ']' :: rest) = some (item :: items, rest)

def ReadsMembers (fuel : Nat) : Prop :=
  ∀ (member : Text × Json) (members : List (Text × Json)) (rest : List Char),
    (renderMembers (member :: members)).length < fuel →
    parseMembers fuel (renderMembers (member :: members) ++ closeBrace :: rest) =
      some (member :: members, rest)

theorem values_step {fuel : Nat} (items_read : ReadsItems fuel)
    (members_read : ReadsMembers fuel) : ReadsValues (fuel + 1) := by
  intro j rest enough ends
  cases j with
  | bool value => cases value <;> simp [render, renderBool, parseValue]
  | number n => exact parseValue_number n fuel ends
  | string text =>
    have whole : render (.string text) ++ rest = '"' :: (text.val ++ '"' :: rest) := by
      simp [render, renderText]
    rw [whole, parseValue, parseText_append]
    rfl
  | array items =>
    cases items with
    | nil => simp [render, renderItems, parseValue]
    | cons item items =>
      have room : (renderItems (item :: items)).length < fuel := by
        simp only [render, List.length_append, List.length_cons, List.length_nil] at enough
        omega
      have whole : render (.array (item :: items)) ++ rest =
          '[' :: (renderItems (item :: items) ++ ']' :: rest) := by
        simp [render]
      have head : (renderItems (item :: items) ++ ']' :: rest).head? ≠ some ']' := by
        obtain ⟨c, tail, text, no_close, _⟩ := render_head item
        simp [renderItems, text, no_close]
      rw [whole, parseValue, if_neg (by decide), if_neg (by decide), if_neg (by decide),
        if_pos rfl, if_neg head, items_read item items rest room]
      rfl
  | object members =>
    cases members with
    | nil => simp [render, renderMembers, parseValue, openBrace]
    | cons member members =>
      have room : (renderMembers (member :: members)).length < fuel := by
        simp only [render, List.length_append, List.length_cons, List.length_nil] at enough
        omega
      have whole : render (.object (member :: members)) ++ rest =
          openBrace :: (renderMembers (member :: members) ++ closeBrace :: rest) := by
        simp [render]
      have head : (renderMembers (member :: members) ++ closeBrace :: rest).head? ≠
          some closeBrace := by
        simp [renderMembers, renderText, closeBrace]
      rw [whole, parseValue, if_neg (by decide), if_neg (by decide), if_neg (by decide),
        if_neg (by decide), if_pos rfl, if_neg head, members_read member members rest room]
      rfl

theorem items_step {fuel : Nat} (values : ReadsValues fuel) (items_read : ReadsItems fuel) :
    ReadsItems (fuel + 1) := by
  intro item items rest enough
  cases items with
  | nil =>
    have room : (render item).length ≤ fuel := by
      simp only [renderItems, renderMoreItems, List.append_nil] at enough
      omega
    have one := values item (']' :: rest) room (ends_cons rfl (by decide))
    simp [renderItems, renderMoreItems, parseItems, one]
  | cons next items =>
    have whole : renderItems (item :: next :: items) ++ ']' :: rest =
        render item ++ ',' :: (renderItems (next :: items) ++ ']' :: rest) := by
      simp [renderItems, renderMoreItems]
    have room : (render item).length ≤ fuel ∧ (renderItems (next :: items)).length < fuel := by
      simp only [renderItems, renderMoreItems, List.length_append, List.length_cons] at enough
      simp only [renderItems, List.length_append]
      omega
    have one := values item (',' :: (renderItems (next :: items) ++ ']' :: rest)) room.1
      (ends_cons rfl (by decide))
    rw [whole, parseItems, one, Option.bind_some]
    simp only [if_pos, items_read next items rest room.2, Option.map_some]

theorem members_step {fuel : Nat} (values : ReadsValues fuel) (members_read : ReadsMembers fuel) :
    ReadsMembers (fuel + 1) := by
  intro member members rest enough
  obtain ⟨key, value⟩ := member
  cases members with
  | nil =>
    have whole : renderMembers [(key, value)] ++ closeBrace :: rest =
        renderText key ++ ':' :: (render value ++ closeBrace :: rest) := by
      simp [renderMembers, renderMoreMembers]
    have room : (render value).length ≤ fuel := by
      simp only [renderMembers, renderMoreMembers, List.length_append, List.length_cons,
        List.length_nil] at enough
      omega
    have one := values value (closeBrace :: rest) room (ends_cons rfl (by decide))
    rw [whole, parseMembers, parseKey_render, Option.bind_some]
    dsimp only
    rw [one]
    rfl
  | cons next members =>
    have whole : renderMembers ((key, value) :: next :: members) ++ closeBrace :: rest =
        renderText key ++ ':' :: (render value ++
          ',' :: (renderMembers (next :: members) ++ closeBrace :: rest)) := by
      simp [renderMembers, renderMoreMembers]
    have room : (render value).length ≤ fuel ∧
        (renderMembers (next :: members)).length < fuel := by
      simp only [renderMembers, renderMoreMembers, List.length_append, List.length_cons] at enough
      simp only [renderMembers, List.length_append, List.length_cons]
      omega
    have one := values value (',' :: (renderMembers (next :: members) ++ closeBrace :: rest))
      room.1 (ends_cons rfl (by decide))
    rw [whole, parseMembers, parseKey_render, Option.bind_some]
    dsimp only
    rw [one, Option.bind_some]
    simp only [if_pos, members_read next members rest room.2, Option.map_some]

theorem read_back (fuel : Nat) : ReadsValues fuel ∧ ReadsItems fuel ∧ ReadsMembers fuel := by
  induction fuel with
  | zero =>
    have values : ReadsValues 0 := by
      intro j rest enough _
      obtain ⟨c, tail, text, _⟩ := render_head j
      rw [text, List.length_cons] at enough
      omega
    exact ⟨values, fun _ _ _ enough => by omega, fun _ _ _ enough => by omega⟩
  | succ fuel ih =>
    obtain ⟨values, items, members⟩ := ih
    exact ⟨values_step items members, items_step values items, members_step values members⟩

theorem parse_render (j : Json) : parse (render j) = some j := by
  have read := (read_back ((render j).length + 1)).1 j [] (Nat.le_succ _) ends_nil
  rw [List.append_nil] at read
  rw [parse, read]

end JsonText
