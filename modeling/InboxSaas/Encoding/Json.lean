import InboxSaas.Encoding.Utf16

/-!
# JSON text

Values as a parser yields them: a string is a sequence of UTF-16 code units, because an escape can
spell a surrogate that has no partner; a number is kept as its literal; the fields of an object are
in the order of the text.  `stringify` writes the shortest text, and escapes unpaired surrogates, so
the text is always a sequence of characters.  `parse_stringify` is the round trip.
-/

namespace Encoding

/-! ## Numbers -/

def isDigit (c : Char) : Bool := '0' ≤ c && c ≤ '9'

def isNumberChar (c : Char) : Bool :=
  isDigit c || c == '-' || c == '+' || c == '.' || c == 'e' || c == 'E'

/-- One or more digits, and what follows them. -/
def digits? (text : List Char) : Option (List Char × List Char) :=
  if text.takeWhile isDigit = [] then none
  else some (text.takeWhile isDigit, text.dropWhile isDigit)

def isExponent (text : List Char) : Bool :=
  match text with
  | [] => true
  | c :: rest =>
      (c == 'e' || c == 'E') &&
        match digits? (if rest.head? = some '+' ∨ rest.head? = some '-' then rest.tail else rest) with
        | some (_, []) => true
        | _ => false

def isFraction (text : List Char) : Bool :=
  match text with
  | '.' :: rest =>
      match digits? rest with
      | some (_, rest) => isExponent rest
      | none => false
  | _ => isExponent text

def isNumber (text : List Char) : Bool :=
  match digits? (if text.head? = some '-' then text.tail else text) with
  | some (int, rest) => (int = ['0'] || int.head? != some '0') && isFraction rest
  | none => false

/-- A number as it is written. -/
structure NumberLiteral where
  text : List Char
  chars : text.all isNumberChar = true
  valid : isNumber text = true
  deriving DecidableEq

inductive Json where
  | null
  | bool (b : Bool)
  | number (literal : NumberLiteral)
  | string (units : List UInt16)
  | array (items : List Json)
  | object (fields : List (List UInt16 × Json))

mutual

/-- No string of the value has an unpaired surrogate. -/
def Json.isText : Json → Bool
  | .string units => isWellFormed units
  | .array items => itemsAreText items
  | .object fields => fieldsAreText fields
  | _ => true

def itemsAreText : List Json → Bool
  | [] => true
  | item :: items => item.isText && itemsAreText items

def fieldsAreText : List (List UInt16 × Json) → Bool
  | [] => true
  | (name, value) :: fields => isWellFormed name && value.isText && fieldsAreText fields

end

/-! ## Writing -/

def hexDigit (n : Nat) : Char :=
  if n < 10 then Char.ofNat (48 + n) else Char.ofNat (87 + n)

/-- The escape of one code unit. -/
def escapeUnit (unit : UInt16) : List Char :=
  ['\\', 'u', hexDigit (unit.toNat / 0x1000), hexDigit (unit.toNat / 0x100 % 16),
    hexDigit (unit.toNat / 0x10 % 16), hexDigit (unit.toNat % 16)]

/-- The letter of a short escape and what it stands for. -/
def shortEscapes : List (Char × Char) :=
  [('"', '"'), ('\\', '\\'), ('b', '\x08'), ('t', '\t'), ('n', '\n'), ('f', '\x0c'), ('r', '\r')]

def escape : Point → List Char
  | .unpaired unit => escapeUnit unit
  | .scalar c =>
      match shortEscapes.find? (fun short => short.2 = c) with
      | some (letter, _) => ['\\', letter]
      | none => if c.toNat < 0x20 then escapeUnit (UInt16.ofNat c.toNat) else [c]

def quote (units : List UInt16) : List Char :=
  '"' :: ((decode units).flatMap escape ++ ['"'])

mutual

def stringify : Json → List Char
  | .null => ['n', 'u', 'l', 'l']
  | .bool true => ['t', 'r', 'u', 'e']
  | .bool false => ['f', 'a', 'l', 's', 'e']
  | .number literal => literal.text
  | .string units => quote units
  | .array [] => ['[', ']']
  | .array (item :: items) => '[' :: (stringify item ++ stringifyItems items)
  | .object [] => ['\x7b', '\x7d']
  | .object ((name, value) :: fields) =>
      '\x7b' :: (quote name ++ ':' :: (stringify value ++ stringifyFields fields))

/-- The items after the first one, and the closing bracket. -/
def stringifyItems : List Json → List Char
  | [] => [']']
  | item :: items => ',' :: (stringify item ++ stringifyItems items)

/-- The fields after the first one, and the closing brace. -/
def stringifyFields : List (List UInt16 × Json) → List Char
  | [] => ['\x7d']
  | (name, value) :: fields =>
      ',' :: (quote name ++ ':' :: (stringify value ++ stringifyFields fields))

end

/-! ## Reading -/

def hexValue? (c : Char) : Option Nat :=
  if '0' ≤ c ∧ c ≤ '9' then some (c.toNat - 48)
  else if 'a' ≤ c ∧ c ≤ 'f' then some (c.toNat - 87)
  else if 'A' ≤ c ∧ c ≤ 'F' then some (c.toNat - 55)
  else none

def hexUnit? (a b c d : Char) : Option UInt16 := do
  let a ← hexValue? a
  let b ← hexValue? b
  let c ← hexValue? c
  let d ← hexValue? d
  return UInt16.ofNat (a * 0x1000 + b * 0x100 + c * 0x10 + d)

/-- The rest of a string after its opening quote, and what follows it. -/
def scanString : List Char → Option (List UInt16 × List Char)
  | [] => none
  | c :: rest =>
      if c = '"' then some ([], rest)
      else if c = '\\' then
        match rest with
        | 'u' :: a :: b :: c :: d :: rest =>
            match hexUnit? a b c d, scanString rest with
            | some unit, some (units, rest) => some (unit :: units, rest)
            | _, _ => none
        | letter :: rest =>
            match (shortEscapes ++ [('/', '/')]).lookup letter, scanString rest with
            | some c, some (units, rest) => some (encodeChar c ++ units, rest)
            | _, _ => none
        | [] => none
      else if c.toNat < 0x20 then none
      else
        match scanString rest with
        | some (units, rest) => some (encodeChar c ++ units, rest)
        | none => none

def isSpace (c : Char) : Bool := c == ' ' || c == '\t' || c == '\n' || c == '\r'

def skip (text : List Char) : List Char := text.dropWhile isSpace

def expect (c : Char) (text : List Char) : Option (List Char) :=
  match skip text with
  | d :: rest => if d = c then some rest else none
  | [] => none

/-- A field name with its colon. -/
def scanName (text : List Char) : Option (List UInt16 × List Char) := do
  let rest ← expect '"' text
  let (name, rest) ← scanString rest
  let rest ← expect ':' rest
  return (name, rest)

def scanNumber (text : List Char) : Option (Json × List Char) :=
  if h : isNumber (text.takeWhile isNumberChar) then
    some (.number ⟨text.takeWhile isNumberChar, List.all_takeWhile, h⟩, text.dropWhile isNumberChar)
  else none

mutual

def scanValue : Nat → List Char → Option (Json × List Char)
  | 0, _ => none
  | fuel + 1, text =>
      match skip text with
      | 'n' :: 'u' :: 'l' :: 'l' :: rest => some (.null, rest)
      | 't' :: 'r' :: 'u' :: 'e' :: rest => some (.bool true, rest)
      | 'f' :: 'a' :: 'l' :: 's' :: 'e' :: rest => some (.bool false, rest)
      | '"' :: rest => do
          let (units, rest) ← scanString rest
          return (.string units, rest)
      | '[' :: rest =>
          match expect ']' rest with
          | some rest => some (.array [], rest)
          | none => do
              let (item, rest) ← scanValue fuel rest
              let (items, rest) ← scanItems fuel rest
              return (.array (item :: items), rest)
      | '\x7b' :: rest =>
          match expect '\x7d' rest with
          | some rest => some (.object [], rest)
          | none => do
              let (name, rest) ← scanName rest
              let (value, rest) ← scanValue fuel rest
              let (fields, rest) ← scanFields fuel rest
              return (.object ((name, value) :: fields), rest)
      | text => scanNumber text

def scanItems : Nat → List Char → Option (List Json × List Char)
  | 0, _ => none
  | fuel + 1, text =>
      match skip text with
      | ']' :: rest => some ([], rest)
      | ',' :: rest => do
          let (item, rest) ← scanValue fuel rest
          let (items, rest) ← scanItems fuel rest
          return (item :: items, rest)
      | _ => none

def scanFields : Nat → List Char → Option (List (List UInt16 × Json) × List Char)
  | 0, _ => none
  | fuel + 1, text =>
      match skip text with
      | '\x7d' :: rest => some ([], rest)
      | ',' :: rest => do
          let (name, rest) ← scanName rest
          let (value, rest) ← scanValue fuel rest
          let (fields, rest) ← scanFields fuel rest
          return ((name, value) :: fields, rest)
      | _ => none

end

/-- Every call reads a character of its own, so the length of the text is enough fuel. -/
def parse (text : List Char) : Option Json := do
  let (value, rest) ← scanValue text.length text
  if skip rest = [] then some value else none

/-- The field of an object; of several with one name, the last counts. -/
def Json.field (name : List UInt16) : Json → Option Json
  | .object fields => (fields.reverse.find? (fun field => field.1 = name)).map Prod.snd
  | _ => none

/-! ## Strings -/

theorem hexValue_hexDigit : ∀ n < 16, hexValue? (hexDigit n) = some n := by decide

theorem hexUnit_escapeUnit (unit : UInt16) :
    hexUnit? (hexDigit (unit.toNat / 0x1000)) (hexDigit (unit.toNat / 0x100 % 16))
      (hexDigit (unit.toNat / 0x10 % 16)) (hexDigit (unit.toNat % 16)) = some unit := by
  have hlt : unit.toNat < 0x10000 := unit.toNat_lt
  have hsum : unit.toNat / 0x1000 * 0x1000 + unit.toNat / 0x100 % 16 * 0x100 +
      unit.toNat / 0x10 % 16 * 0x10 + unit.toNat % 16 = unit.toNat := by omega
  unfold hexUnit?
  rw [hexValue_hexDigit _ (by omega), hexValue_hexDigit _ (by omega),
    hexValue_hexDigit _ (by omega), hexValue_hexDigit _ (by omega)]
  change some (UInt16.ofNat _) = some unit
  rw [hsum, UInt16.ofNat_toNat]

/-- Units in front of what a string still holds. -/
def prepend (units : List UInt16) (scanned : List UInt16 × List Char) :
    List UInt16 × List Char :=
  (units ++ scanned.1, scanned.2)

theorem scanString_escapeUnit (unit : UInt16) (text : List Char) :
    scanString (escapeUnit unit ++ text) = (scanString text).map (prepend [unit]) := by
  change scanString ('\\' :: 'u' :: _ :: _ :: _ :: _ :: text) = _
  rw [scanString, if_neg (by decide), if_pos rfl, hexUnit_escapeUnit]
  cases scanString text <;> rfl

theorem scanString_short {c letter : Char}
    (h : (shortEscapes.find? (fun short => short.2 = c)) = some (letter, c)) (text : List Char) :
    scanString ('\\' :: letter :: text) = (scanString text).map (prepend (encodeChar c)) := by
  have hmem := List.mem_of_find?_eq_some h
  have hletter : letter ≠ 'u' ∧ (shortEscapes ++ [('/', '/')]).lookup letter = some c := by
    simp only [shortEscapes, List.mem_cons, Prod.mk.injEq, List.not_mem_nil, or_false] at hmem
    rcases hmem with h | h | h | h | h | h | h <;> rw [h.1, h.2] <;> decide
  rw [scanString, if_neg (by decide), if_pos rfl, hletter.2]
  · cases scanString text <;> rfl
  · exact fun _ _ _ _ _ hu => absurd hu hletter.1

theorem scanString_escape (p : Point) (text : List Char) :
    scanString (escape p ++ text) = (scanString text).map (prepend p.units) := by
  cases p with
  | unpaired unit => exact scanString_escapeUnit unit text
  | scalar c =>
      rw [escape]
      cases hfind : shortEscapes.find? (fun short => short.2 = c) with
      | some short =>
          have hc : short = (short.1, c) := by
            have hsecond : short.2 = c := by simpa using List.find?_some hfind
            rw [← hsecond]
          rw [hc] at hfind ⊢
          exact scanString_short hfind text
      | none =>
          rw [List.find?_eq_none] at hfind
          dsimp only
          split
          · rename_i hcontrol
            have hunits : encodeChar c = [UInt16.ofNat c.toNat] := by
              rw [encodeChar, if_pos (by omega)]
            rw [scanString_escapeUnit, Point.units, hunits]
          · rename_i hprintable
            -- a character that needs no escape is not one of the two that end the scan
            have hquote : c ≠ '"' := fun hc => hfind ('"', '"') (by decide) (by simp [hc])
            have hslash : c ≠ '\\' := fun hc => hfind ('\\', '\\') (by decide) (by simp [hc])
            rw [List.singleton_append, scanString.eq_def]
            dsimp only
            rw [if_neg hquote, if_neg hslash, if_neg hprintable]
            cases scanString text <;> rfl

theorem scanString_points (ps : List Point) (text : List Char) :
    scanString (ps.flatMap escape ++ '"' :: text) = some (ps.flatMap Point.units, text) := by
  induction ps with
  | nil =>
      change scanString ('"' :: text) = _
      rw [scanString.eq_def]
      rfl
  | cons p rest ih =>
      rw [List.flatMap_cons, List.append_assoc, scanString_escape, ih]
      rfl

/-- A quoted string is read back, whatever its units are. -/
theorem scanString_quote (units : List UInt16) (text : List Char) :
    scanString ((decode units).flatMap escape ++ ['"'] ++ text) = some (units, text) := by
  rw [List.append_assoc, List.singleton_append, scanString_points, units_decode]

/-- A string that needs no escape is quoted as it is. -/
theorem quote_plain {cs : List Char} (h : ∀ c ∈ cs, escape (.scalar c) = [c]) :
    quote (cs.flatMap encodeChar) = '"' :: (cs ++ ['"']) := by
  rw [quote, decode_flatMap_encodeChar, List.flatMap_map, List.flatMap_congr h,
    List.flatMap_singleton']

/-! ## The round trip -/

theorem skip_cons {c : Char} (h : isSpace c = false) (rest : List Char) :
    skip (c :: rest) = c :: rest := by
  rw [skip, List.dropWhile_cons_of_neg (by simp [h])]

theorem expect_self {c : Char} (h : isSpace c = false) (rest : List Char) :
    expect c (c :: rest) = some rest := by
  rw [expect, skip_cons h]
  exact if_pos rfl

theorem expect_ne {c d : Char} (h : isSpace d = false) (hne : d ≠ c) (rest : List Char) :
    expect c (d :: rest) = none := by
  rw [expect, skip_cons h]
  exact if_neg hne

theorem scanName_quote (name : List UInt16) (text : List Char) :
    scanName (quote name ++ ':' :: text) = some (name, text) := by
  have hname := scanString_quote name (':' :: text)
  unfold scanName quote
  rw [List.cons_append, expect_self (by decide), Option.bind_eq_bind, Option.bind_some, hname,
    Option.bind_eq_bind, Option.bind_some]
  dsimp only
  rw [expect_self (by decide)]
  rfl

/-- No number goes on with this text. -/
def Delimited (text : List Char) : Prop := ∀ c ∈ text.head?, isNumberChar c = false

theorem takeWhile_delimited {text : List Char} (h : Delimited text) :
    text.takeWhile isNumberChar = [] ∧ text.dropWhile isNumberChar = text := by
  cases text with
  | nil => exact ⟨rfl, rfl⟩
  | cons c rest =>
      have hc : ¬ isNumberChar c = true := by simp [h c rfl]
      exact ⟨List.takeWhile_cons_of_neg hc, List.dropWhile_cons_of_neg hc⟩

theorem scanNumber_text (literal : NumberLiteral) {rest : List Char} (h : Delimited rest) :
    scanNumber (literal.text ++ rest) = some (.number literal, rest) := by
  have hall := List.all_eq_true.mp literal.chars
  have htake : (literal.text ++ rest).takeWhile isNumberChar = literal.text := by
    rw [List.takeWhile_append_of_pos hall, (takeWhile_delimited h).1, List.append_nil]
  have hdrop : (literal.text ++ rest).dropWhile isNumberChar = rest := by
    rw [List.dropWhile_append_of_pos hall, (takeWhile_delimited h).2]
  have hvalid : isNumber ((literal.text ++ rest).takeWhile isNumberChar) = true := by
    rw [htake]
    exact literal.valid
  rw [scanNumber, dif_pos hvalid, hdrop]
  simp only [htake]

/-- A number has a first character. -/
theorem NumberLiteral.text_cons (literal : NumberLiteral) :
    ∃ c rest, literal.text = c :: rest ∧ isNumberChar c = true := by
  have hchars := literal.chars
  have hvalid := literal.valid
  cases htext : literal.text with
  | nil =>
      rw [htext] at hvalid
      exact absurd hvalid (by decide)
  | cons c rest =>
      rw [htext, List.all_cons, Bool.and_eq_true] at hchars
      exact ⟨c, rest, rfl, hchars.1⟩

theorem numberChar_ne {c d : Char} (hc : isNumberChar c = true) (hd : isNumberChar d = false) :
    c ≠ d := by
  intro h
  rw [h, hd] at hc
  cases hc

theorem isSpace_of_numberChar {c : Char} (hc : isNumberChar c = true) : isSpace c = false := by
  have hspace := numberChar_ne hc (d := ' ') (by decide)
  have htab := numberChar_ne hc (d := '\t') (by decide)
  have hline := numberChar_ne hc (d := '\n') (by decide)
  have hreturn := numberChar_ne hc (d := '\r') (by decide)
  simp [isSpace, hspace, htab, hline, hreturn]

/-- A text starts with its value: no space and no closing bracket comes first. -/
theorem stringify_cons (value : Json) :
    ∃ c rest, stringify value = c :: rest ∧ isSpace c = false ∧ c ≠ ']' := by
  cases value with
  | null => exact ⟨'n', _, rfl, by decide, by decide⟩
  | bool b => cases b <;> exact ⟨_, _, rfl, by decide, by decide⟩
  | number literal =>
      obtain ⟨c, rest, htext, hc⟩ := literal.text_cons
      exact ⟨c, rest, htext, isSpace_of_numberChar hc, numberChar_ne hc (by decide)⟩
  | string units => exact ⟨'"', _, rfl, by decide, by decide⟩
  | array items => cases items <;> exact ⟨'[', _, rfl, by decide, by decide⟩
  | object fields =>
      cases fields with
      | nil => exact ⟨'\x7b', _, rfl, by decide, by decide⟩
      | cons field rest => exact ⟨'\x7b', _, rfl, by decide, by decide⟩

theorem expect_stringify (value : Json) (text : List Char) :
    expect ']' (stringify value ++ text) = none := by
  obtain ⟨c, rest, htext, hspace, hne⟩ := stringify_cons value
  rw [htext, List.cons_append, expect_ne hspace hne]

theorem scanValue_number (n : Nat) {c : Char} (hc : isNumberChar c = true) (rest : List Char) :
    scanValue (n + 1) (c :: rest) = scanNumber (c :: rest) := by
  rw [scanValue, skip_cons (isSpace_of_numberChar hc)]
  split <;> first
    | rfl
    | rename_i heq
      exact absurd (List.cons.inj heq).1 (numberChar_ne hc (by decide))

/-! One step of the scanner at each opening character. -/

theorem scanValue_string (n : Nat) (rest : List Char) :
    scanValue (n + 1) ('"' :: rest) = (do
      let (units, rest) ← scanString rest
      return (.string units, rest)) := rfl

theorem scanValue_array (n : Nat) {rest : List Char} (h : expect ']' rest = none) :
    scanValue (n + 1) ('[' :: rest) = (do
      let (item, rest) ← scanValue n rest
      let (items, rest) ← scanItems n rest
      return (.array (item :: items), rest)) := by
  change (match expect ']' rest with
    | some _ => _
    | none => _) = _
  rw [h]

theorem scanValue_object (n : Nat) {rest : List Char} (h : expect '\x7d' rest = none) :
    scanValue (n + 1) ('\x7b' :: rest) = (do
      let (name, rest) ← scanName rest
      let (value, rest) ← scanValue n rest
      let (fields, rest) ← scanFields n rest
      return (.object ((name, value) :: fields), rest)) := by
  change (match expect '\x7d' rest with
    | some _ => _
    | none => _) = _
  rw [h]

theorem scanItems_comma (n : Nat) (rest : List Char) :
    scanItems (n + 1) (',' :: rest) = (do
      let (item, rest) ← scanValue n rest
      let (items, rest) ← scanItems n rest
      return (item :: items, rest)) := rfl

theorem scanFields_comma (n : Nat) (rest : List Char) :
    scanFields (n + 1) (',' :: rest) = (do
      let (name, rest) ← scanName rest
      let (value, rest) ← scanValue n rest
      let (fields, rest) ← scanFields n rest
      return ((name, value) :: fields, rest)) := rfl

theorem delimited_items (items : List Json) (text : List Char) :
    Delimited (stringifyItems items ++ text) := by
  intro c hc
  cases items with
  | nil =>
      cases hc
      decide
  | cons item rest =>
      rw [stringifyItems] at hc
      cases hc
      decide

theorem delimited_fields (fields : List (List UInt16 × Json)) (text : List Char) :
    Delimited (stringifyFields fields ++ text) := by
  intro c hc
  cases fields with
  | nil =>
      cases hc
      decide
  | cons field rest =>
      rw [stringifyFields] at hc
      cases hc
      decide

mutual

/-- A value in front of a text that no number goes on with is read back. -/
theorem scanValue_stringify (value : Json) {n : Nat} {rest : List Char}
    (hn : (stringify value).length ≤ n) (hrest : Delimited rest) :
    scanValue n (stringify value ++ rest) = some (value, rest) := by
  obtain ⟨c, tail, htext, -, -⟩ := stringify_cons value
  have hpos : (stringify value).length = tail.length + 1 := by rw [htext, List.length_cons]
  obtain ⟨n, rfl⟩ : ∃ m, n = m + 1 := ⟨n - 1, by omega⟩
  match value with
  | .null => rfl
  | .bool true => rfl
  | .bool false => rfl
  | .number literal =>
      obtain ⟨c, tail, htext, hc⟩ := literal.text_cons
      have hnumber := scanNumber_text literal hrest
      change scanValue (n + 1) (literal.text ++ rest) = _
      rw [htext, List.cons_append] at hnumber ⊢
      rw [scanValue_number n hc, hnumber]
  | .string units =>
      have hstring := scanString_quote units rest
      rw [stringify, quote, List.cons_append, scanValue_string, hstring]
      rfl
  | .array [] => rfl
  | .array (item :: items) =>
      rw [stringify, List.length_cons, List.length_append] at hn
      have hitem := scanValue_stringify item (n := n) (by omega) (delimited_items items rest)
      have hitems := scanItems_stringify items rest (n := n) (by omega)
      rw [stringify, List.cons_append, List.append_assoc, scanValue_array n (expect_stringify _ _),
        hitem, Option.bind_eq_bind, Option.bind_some]
      dsimp only
      rw [hitems]
      rfl
  | .object [] => rfl
  | .object ((name, value) :: fields) =>
      rw [stringify, List.length_cons, List.length_append, List.length_cons,
        List.length_append] at hn
      have hvalue := scanValue_stringify value (n := n) (by omega) (delimited_fields fields rest)
      have hfields := scanFields_stringify fields rest (n := n) (by omega)
      have hname := scanName_quote name (stringify value ++ (stringifyFields fields ++ rest))
      have hopen : expect '\x7d' (quote name ++ ':' :: (stringify value ++
          (stringifyFields fields ++ rest))) = none := expect_ne (by decide) (by decide) _
      rw [stringify, List.cons_append, List.append_assoc, List.cons_append, List.append_assoc,
        scanValue_object n hopen, hname, Option.bind_eq_bind, Option.bind_some]
      dsimp only
      rw [hvalue, Option.bind_eq_bind, Option.bind_some]
      dsimp only
      rw [hfields]
      rfl

theorem scanItems_stringify (items : List Json) (rest : List Char) {n : Nat}
    (hn : (stringifyItems items).length ≤ n) :
    scanItems n (stringifyItems items ++ rest) = some (items, rest) := by
  match items, n with
  | [], 0 => exact absurd hn (by rw [stringifyItems]; decide)
  | [], n + 1 =>
      rw [stringifyItems]
      rfl
  | item :: items, 0 =>
      rw [stringifyItems, List.length_cons] at hn
      omega
  | item :: items, n + 1 =>
      rw [stringifyItems, List.length_cons, List.length_append] at hn
      have hitem := scanValue_stringify item (n := n) (by omega) (delimited_items items rest)
      have hitems := scanItems_stringify items rest (n := n) (by omega)
      rw [stringifyItems, List.cons_append, List.append_assoc, scanItems_comma, hitem,
        Option.bind_eq_bind, Option.bind_some]
      dsimp only
      rw [hitems]
      rfl

theorem scanFields_stringify (fields : List (List UInt16 × Json)) (rest : List Char) {n : Nat}
    (hn : (stringifyFields fields).length ≤ n) :
    scanFields n (stringifyFields fields ++ rest) = some (fields, rest) := by
  match fields, n with
  | [], 0 => exact absurd hn (by rw [stringifyFields]; decide)
  | [], n + 1 =>
      rw [stringifyFields]
      rfl
  | (name, value) :: fields, 0 =>
      rw [stringifyFields, List.length_cons] at hn
      omega
  | (name, value) :: fields, n + 1 =>
      rw [stringifyFields, List.length_cons, List.length_append, List.length_cons,
        List.length_append] at hn
      have hvalue := scanValue_stringify value (n := n) (by omega) (delimited_fields fields rest)
      have hfields := scanFields_stringify fields rest (n := n) (by omega)
      have hname := scanName_quote name (stringify value ++ (stringifyFields fields ++ rest))
      rw [stringifyFields, List.cons_append, List.append_assoc, List.cons_append,
        List.append_assoc, scanFields_comma, hname, Option.bind_eq_bind, Option.bind_some]
      dsimp only
      rw [hvalue, Option.bind_eq_bind, Option.bind_some]
      dsimp only
      rw [hfields]
      rfl

end

/-- What was written is read back. -/
theorem parse_stringify (value : Json) : parse (stringify value) = some value := by
  have hend : Delimited [] := fun c hc => by cases hc
  have hscan := scanValue_stringify value (Nat.le_refl _) hend
  rw [List.append_nil] at hscan
  unfold parse
  rw [hscan]
  rfl

end Encoding
