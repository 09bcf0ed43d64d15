import ImpHost.Json.Basic
import ImpHost.Parsed

/-!
Reading JSON. `Json.first?` reads the value at the front of a text and ignores what follows it;
`Json.parse?` accepts nothing after the value but blanks. Strings may pair surrogate escapes, and
half a pair stands for the replacement character. Arrays and objects nest at most `maxDepth` deep.
-/

namespace ImpHost.Json

/-- How deep arrays and objects may nest. -/
def maxDepth : Nat := 10000

/-- The blanks between the tokens of JSON. -/
def isBlank (c : Char) : Bool :=
  c == ' ' || c == '\t' || c == '\r' || c == '\n'

/-- The text without its leading blanks. -/
def skipBlanks (cs : List Char) : List Char :=
  cs.dropWhile isBlank

theorem length_skipBlanks (cs : List Char) : (skipBlanks cs).length ≤ cs.length :=
  (List.dropWhile_sublist isBlank).length_le

/-- The value of a hexadecimal digit of either case. -/
def hexValue? (c : Char) : Option Nat :=
  if '0' ≤ c ∧ c ≤ '9' then some (c.toNat - '0'.toNat)
  else if 'a' ≤ c ∧ c ≤ 'f' then some (c.toNat - 'a'.toNat + 10)
  else if 'A' ≤ c ∧ c ≤ 'F' then some (c.toNat - 'A'.toNat + 10)
  else none

/-- The number that four hexadecimal digits denote. -/
def hexUnit? (a b c d : Char) : Option Nat := do
  let a ← hexValue? a
  let b ← hexValue? b
  let c ← hexValue? c
  let d ← hexValue? d
  return ((a * 16 + b) * 16 + c) * 16 + d

/-- Whether `n` is a unit that only half denotes a character. -/
def isSurrogate (n : Nat) : Bool :=
  0xD800 ≤ n && n < 0xE000

/-- The character that the surrogates `hi` and `lo` denote together. -/
def pair? (hi lo : Nat) : Option Char :=
  if 0xD800 ≤ hi ∧ hi < 0xDC00 ∧ 0xDC00 ≤ lo ∧ lo < 0xE000 then
    some (Char.ofNat ((hi - 0xD800) * 0x400 + (lo - 0xDC00) + 0x10000))
  else none

/-- The character that a one-letter escape denotes. -/
def shortEscape? (c : Char) : Option Char :=
  if c == '"' || c == '\\' || c == '/' then some c
  else if c == 'b' then some '\x08'
  else if c == 'f' then some '\x0c'
  else if c == 'n' then some '\n'
  else if c == 'r' then some '\r'
  else if c == 't' then some '\t'
  else none

/-- Reads the character that `unit` stands for, which ends in front of `cs`. Half a pair takes the
other half from `cs`, or stands for the replacement character. -/
def readUnit (unit : Nat) (cs : List Char) : Char × List Char :=
  if isSurrogate unit then
    match cs with
    | '\\' :: 'u' :: a :: b :: c :: d :: rest =>
      match (hexUnit? a b c d).bind (pair? unit) with
      | some char => (char, rest)
      | none => (Text.replacement, cs)
    | cs => (Text.replacement, cs)
  else (Char.ofNat unit, cs)

theorem length_readUnit (unit : Nat) (cs : List Char) :
    (readUnit unit cs).2.length ≤ cs.length := by
  unfold readUnit
  split
  · split
    · split
      · simp only [List.length_cons]
        omega
      · exact Nat.le_refl _
    · exact Nat.le_refl _
  · exact Nat.le_refl _

/-- Reads an escape after its backslash. -/
def readEscape? : List Char → Option (Char × List Char)
  | [] => none
  | e :: cs =>
    if e = 'u' then
      match cs with
      | a :: b :: c :: d :: rest => (hexUnit? a b c d).map fun unit => readUnit unit rest
      | _ => none
    else (shortEscape? e).map fun char => (char, cs)

theorem length_of_readEscape? {cs rest : List Char} {char : Char}
    (read : readEscape? cs = some (char, rest)) : rest.length < cs.length := by
  unfold readEscape? at read
  split at read
  · cases read
  · split at read
    · split at read
      next a b c d after =>
        obtain ⟨unit, _, eq⟩ := Option.map_eq_some_iff.1 read
        have := length_readUnit unit after
        rw [eq] at this
        simp only [List.length_cons] at this ⊢
        omega
      next => cases read
    · obtain ⟨_, _, eq⟩ := Option.map_eq_some_iff.1 read
      cases eq
      exact Nat.lt_succ_self _

/-- Reads the rest of a string after its opening quote or after the characters of `acc`, which are
in reverse order. -/
def readString {whole : List Char} (acc : List Char) :
    (cs : List Char) → cs.length < whole.length → Option (Parsed String whole)
  | [], _ => none
  | c :: cs, short =>
    if c = '"' then some ⟨String.ofList acc.reverse, cs, Nat.lt_of_succ_lt short⟩
    else if c = '\\' then
      match read : readEscape? cs with
      | none => none
      | some (char, rest) =>
        readString (char :: acc) rest
          (Nat.lt_trans (length_of_readEscape? read) (Nat.lt_of_succ_lt short))
    else if c.toNat < 0x20 then none
    else readString (c :: acc) cs (Nat.lt_of_succ_lt short)
termination_by cs => cs.length
decreasing_by
  · exact Nat.lt_succ_of_lt (length_of_readEscape? read)
  · exact Nat.lt_succ_self _

/-- The number of leading decimal digits. -/
def countDigits (cs : List Char) : Nat :=
  (cs.takeWhile Text.isAsciiDigit).length

/-- The length of a fraction at the front, zero if there is none; none if it lacks digits. -/
def fractionLength? : List Char → Option Nat
  | '.' :: cs => if countDigits cs = 0 then none else some (1 + countDigits cs)
  | _ => some 0

/-- The length of the optional sign at the front. -/
def signLength : List Char → Nat
  | '+' :: _ => 1
  | '-' :: _ => 1
  | _ => 0

/-- The length of an exponent at the front, zero if there is none; none if it lacks digits. -/
def exponentLength? : List Char → Option Nat
  | [] => some 0
  | c :: cs =>
    if c == 'e' || c == 'E' then
      let sign := signLength cs
      let digits := countDigits (cs.drop sign)
      if digits = 0 then none else some (1 + sign + digits)
    else some 0

/-- The length of the digits before a fraction: a lone zero, or digits that do not start with
one. -/
def wholeLength? : List Char → Option Nat
  | '0' :: _ => some 1
  | cs => if countDigits cs = 0 then none else some (countDigits cs)

/-- The length of the number at the front. -/
def numberLength? (cs : List Char) : Option Nat := do
  let sign := match cs with
    | '-' :: _ => 1
    | _ => 0
  let whole ← wholeLength? (cs.drop sign)
  let fraction ← fractionLength? (cs.drop (sign + whole))
  let exponent ← exponentLength? (cs.drop (sign + whole + fraction))
  return sign + whole + fraction + exponent

/-- Reads the fixed word `word` with the value `v`. -/
def readWord (word : List Char) (v : Json) (cs : List Char) : Option (Parsed Json cs) :=
  if h : word.isPrefixOf cs ∧ 0 < word.length then
    some ⟨v, cs.drop word.length, by
      have := (List.isPrefixOf_iff_prefix.1 h.1).length_le
      rw [List.length_drop]
      omega⟩
  else none

/-- Reads a number. -/
def readNumber (cs : List Char) : Option (Parsed Json cs) := do
  let n ← numberLength? cs
  if h : 0 < n ∧ 0 < cs.length then
    some ⟨.number (String.ofList (cs.take n)), cs.drop n, by rw [List.length_drop]; omega⟩
  else none

/-- Reads the items of an array after the first, with `item` for each; `acc` has the items so far
in reverse order. -/
def readItems {whole : List Char} (item : (cs : List Char) → Option (Parsed Json cs))
    (acc : List Json) (cs : List Char) (h : cs.length < whole.length) :
    Option (Parsed Json whole) :=
  match e : skipBlanks cs with
  | ']' :: rest => some ⟨.array acc.reverse, rest, by
      have := length_skipBlanks cs
      simp only [e, List.length_cons] at this
      omega⟩
  | ',' :: rest =>
    match item rest with
    | none => none
    | some v => readItems item (v.tree :: acc) v.rest (by
        have := length_skipBlanks cs
        have := v.shorter
        simp_all only [List.length_cons]
        omega)
  | _ => none
termination_by cs.length
decreasing_by
  have := length_skipBlanks cs
  have := v.shorter
  simp_all only [List.length_cons]
  omega

/-- Reads the name of a field and the colon after it. -/
def readName (cs : List Char) : Option (Parsed String cs) :=
  match e : skipBlanks cs with
  | '"' :: rest => do
    let name ← @readString ('"' :: rest) [] rest (Nat.lt_succ_self _)
    match e' : skipBlanks name.rest with
    | ':' :: after => some ⟨name.tree, after, by
        have := length_skipBlanks cs
        have := length_skipBlanks name.rest
        have := name.shorter
        simp_all only [List.length_cons]
        omega⟩
    | _ => none
  | _ => none

/-- Reads a field. -/
def readField (item : (cs : List Char) → Option (Parsed Json cs)) (cs : List Char) :
    Option (Parsed (String × Json) cs) := do
  let name ← readName cs
  let v ← item name.rest
  return ⟨(name.tree, v.tree), v.rest, Nat.lt_trans v.shorter name.shorter⟩

/-- Reads the fields of an object after the first; `acc` has the fields so far in reverse order. -/
def readFields {whole : List Char} (item : (cs : List Char) → Option (Parsed Json cs))
    (acc : List (String × Json)) (cs : List Char) (h : cs.length < whole.length) :
    Option (Parsed Json whole) :=
  match e : skipBlanks cs with
  | '}' :: rest => some ⟨.object acc.reverse, rest, by
      have := length_skipBlanks cs
      simp only [e, List.length_cons] at this
      omega⟩
  | ',' :: rest =>
    match readField item rest with
    | none => none
    | some f => readFields item (f.tree :: acc) f.rest (by
        have := length_skipBlanks cs
        have := f.shorter
        simp_all only [List.length_cons]
        omega)
  | _ => none
termination_by cs.length
decreasing_by
  have := length_skipBlanks cs
  have := f.shorter
  simp_all only [List.length_cons]
  omega

/-- Reads a value in which arrays and objects nest at most `depth` deep, after blanks. -/
def readValue : (depth : Nat) → (cs : List Char) → Option (Parsed Json cs)
  | depth, cs =>
    let wide {α : Type} (p : Option (Parsed α (skipBlanks cs))) : Option (Parsed α cs) :=
      p.map fun p => p.widen (length_skipBlanks cs)
    match e : skipBlanks cs with
    | '"' :: rest =>
      (@readString cs [] rest (by
        have := length_skipBlanks cs
        simp only [e, List.length_cons] at this
        omega)).map (Parsed.map .string)
    | 't' :: _ => wide (readWord "true".toList (.bool true) _)
    | 'f' :: _ => wide (readWord "false".toList (.bool false) _)
    | 'n' :: _ => wide (readWord "null".toList .null _)
    | '[' :: rest =>
      have small : rest.length < cs.length := by
        have := length_skipBlanks cs
        simp only [e, List.length_cons] at this
        omega
      match depth with
      | 0 => none
      | depth + 1 =>
        match e' : skipBlanks rest with
        | ']' :: after => some ⟨.array [], after, by
            have := length_skipBlanks rest
            simp only [e', List.length_cons] at this
            omega⟩
        | _ =>
          match readValue depth rest with
          | none => none
          | some v => readItems (readValue depth) [v.tree] v.rest (Nat.lt_trans v.shorter small)
    | '{' :: rest =>
      have small : rest.length < cs.length := by
        have := length_skipBlanks cs
        simp only [e, List.length_cons] at this
        omega
      match depth with
      | 0 => none
      | depth + 1 =>
        match e' : skipBlanks rest with
        | '}' :: after => some ⟨.object [], after, by
            have := length_skipBlanks rest
            simp only [e', List.length_cons] at this
            omega⟩
        | _ =>
          match readField (readValue depth) rest with
          | none => none
          | some f => readFields (readValue depth) [f.tree] f.rest (Nat.lt_trans f.shorter small)
    | _ => wide (readNumber _)

/-- The value at the front of a text, whatever follows it. -/
def first? (cs : List Char) : Option Json :=
  (readValue maxDepth cs).map Parsed.tree

/-- The value that the whole text denotes. -/
def parse? (cs : List Char) : Option Json := do
  let v ← readValue maxDepth cs
  if (skipBlanks v.rest).isEmpty then some v.tree else none

end ImpHost.Json
