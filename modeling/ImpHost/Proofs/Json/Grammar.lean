import ImpHost.Json.Reader

/-!
JSON as a grammar, in relations between texts and values.

A number is kept as it is spelled, so the texts of numbers are a type of their own, `Numeral`. A
string is spelled by its characters and by escapes, of which two may stand for one character
(`StringBody`). Arrays and objects are both lists with commas between the entries and blanks around
them (`Entries`), and `Spells` says how deep they nest.

No relation looks ahead, with one exception that the format itself makes: an escape for half a
character stands for the replacement character unless the escape of the other half follows.
-/

namespace ImpHost.Json

open Text

/-- Any number of blanks. -/
def Blanks (bs : List Char) : Prop :=
  ∀ c ∈ bs, isBlank c = true

/-- One or more decimal digits. -/
def Digits (ds : List Char) : Prop :=
  ds ≠ [] ∧ ∀ d ∈ ds, isAsciiDigit d = true

/-! ## Numbers -/

/-- The exponent of a number. -/
structure Exponent where
  mark : Char
  sign : List Char
  digits : List Char
  isMark : mark = 'e' ∨ mark = 'E'
  isSign : sign = [] ∨ sign = ['+'] ∨ sign = ['-']
  isDigits : Digits digits

/-- A number as JSON spells it: an optional minus, digits that start with a zero only if there is
no other, and optionally a fraction and an exponent. -/
structure Numeral where
  negative : Bool
  whole : List Char
  /-- The digits after the point. Without them there is no point. -/
  fraction : List Char
  exponent : Option Exponent
  isWhole : Digits whole
  noSpareZero : whole.head? = some '0' → whole = ['0']
  isFraction : ∀ d ∈ fraction, isAsciiDigit d = true

/-- The text of an exponent. -/
def Exponent.spelled (e : Exponent) : List Char :=
  e.mark :: (e.sign ++ e.digits)

namespace Numeral

/-- The text of a sign. -/
def signText (negative : Bool) : List Char :=
  if negative then ['-'] else []

/-- The text of a fraction. -/
def fractionText : List Char → List Char
  | [] => []
  | d :: ds => '.' :: d :: ds

/-- The text of an exponent that may be missing. -/
def exponentText : Option Exponent → List Char
  | none => []
  | some e => e.spelled

/-- The text of a number. -/
def spelled (n : Numeral) : List Char :=
  signText n.negative ++ (n.whole ++ (fractionText n.fraction ++ exponentText n.exponent))

end Numeral

/-! ## Strings -/

/-- Four hexadecimal digits, and the number that they denote. -/
def HexUnit (hs : List Char) (unit : Nat) : Prop :=
  ∃ a b c d, hs = [a, b, c, d] ∧ hexUnit? a b c d = some unit

/-- At the front stands the escape of the other half of the character that `unit` begins. -/
def Completes (unit : Nat) (us : List Char) : Prop :=
  ∃ hs low rest c, us = '\\' :: 'u' :: hs ++ rest ∧ HexUnit hs low ∧ pair? unit low = some c

/-- `Escape us es c`: after a backslash and in front of `us`, the text `es` stands for `c`. -/
inductive Escape (us : List Char) : List Char → Char → Prop
  | short {e c : Char} : shortEscape? e = some c → Escape us [e] c
  | unit {hs : List Char} {n : Nat} :
    HexUnit hs n → isSurrogate n = false → Escape us ('u' :: hs) (Char.ofNat n)
  | pair {hs ls : List Char} {hi lo : Nat} {c : Char} :
    HexUnit hs hi → HexUnit ls lo → pair? hi lo = some c →
    Escape us ('u' :: (hs ++ '\\' :: 'u' :: ls)) c
  | half {hs : List Char} {n : Nat} :
    HexUnit hs n → isSurrogate n = true → ¬ Completes n us → Escape us ('u' :: hs) replacement

/-- The text between the quotes of a string, and the characters that it stands for. -/
inductive StringBody : List Char → List Char → Prop
  | nil : StringBody [] []
  | plain {c : Char} {us cs : List Char} :
    c ≠ '"' → c ≠ '\\' → ¬ c.toNat < 0x20 → StringBody us cs → StringBody (c :: us) (c :: cs)
  | escape {c : Char} {es us cs : List Char} :
    Escape us es c → StringBody us cs → StringBody ('\\' :: (es ++ us)) (c :: cs)

/-- A string in its quotes. -/
def StringText (us : List Char) (s : String) : Prop :=
  ∃ body, us = '"' :: (body ++ ['"']) ∧ StringBody body s.toList

/-! ## Values -/

/-- The values without parts. -/
inductive Plain : List Char → Json → Prop
  | null : Plain "null".toList .null
  | true : Plain "true".toList (.bool true)
  | false : Plain "false".toList (.bool false)
  | number (n : Numeral) : Plain n.spelled (.number (String.ofList n.spelled))
  | string {us : List Char} {s : String} : StringText us s → Plain us (.string s)

/-- An entry with blanks around it. -/
inductive Padded {α : Type} (entry : List Char → α → Prop) : List Char → α → Prop
  | intro {xs us bs : List Char} {a : α} :
    Blanks xs → entry us a → Blanks bs → Padded entry (xs ++ (us ++ bs)) a

/-- One or more entries with commas between them. -/
inductive Listed {α : Type} (entry : List Char → α → Prop) : List Char → List α → Prop
  | single {us : List Char} {a : α} : entry us a → Listed entry us [a]
  | cons {us vs : List Char} {a : α} {l : List α} :
    entry us a → Listed entry vs l → Listed entry (us ++ ',' :: vs) (a :: l)

/-- The entries between two brackets. -/
inductive Entries {α : Type} (entry : List Char → α → Prop) : List Char → List α → Prop
  | none {bs : List Char} : Blanks bs → Entries entry bs []
  | some {us : List Char} {l : List α} : Listed (Padded entry) us l → Entries entry us l

/-- A field: its name, a colon and its value. -/
inductive FieldText (value : List Char → Json → Prop) : List Char → String × Json → Prop
  | intro {us bs xs vs : List Char} {name : String} {v : Json} :
    StringText us name → Blanks bs → Blanks xs → value vs v →
    FieldText value (us ++ (bs ++ ':' :: (xs ++ vs))) (name, v)

/-- The values with parts. -/
inductive Compound (value : List Char → Json → Prop) : List Char → Json → Prop
  | array {us : List Char} {vs : List Json} :
    Entries value us vs → Compound value ('[' :: (us ++ [']'])) (.array vs)
  | object {us : List Char} {fs : List (String × Json)} :
    Entries (FieldText value) us fs → Compound value ('{' :: (us ++ ['}'])) (.object fs)

/-- `Spells depth us v`: the text `us` is the value `v`, in which arrays and objects nest at most
`depth` deep. -/
def Spells : (depth : Nat) → List Char → Json → Prop
  | 0, us, v => Plain us v
  | depth + 1, us, v => Plain us v ∨ Compound (Spells depth) us v

theorem Plain.spells {depth : Nat} {us : List Char} {v : Json} (plain : Plain us v) :
    Spells depth us v := by
  cases depth with
  | zero => exact plain
  | succ depth => exact .inl plain

/-- A number is spelled by a numeral. -/
theorem Spells.numeral {depth : Nat} {us : List Char} {s : String}
    (spells : Spells depth us (.number s)) : ∃ n : Numeral, s = String.ofList n.spelled := by
  have plain : Plain us (.number s) := by
    cases depth with
    | zero => exact spells
    | succ depth =>
      rcases spells with plain | compound
      · exact plain
      · cases compound
  cases plain with
  | number n => exact ⟨n, rfl⟩

end ImpHost.Json
