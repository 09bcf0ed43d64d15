import ImpHost.Memory.Json
import ImpHost.Proofs.Json.Parsing

/-!
Integers and booleans in JSON.

A number is taken for an integer if it is spelled without fraction and exponent
(`Json.Numeral.parseInt?_spelled`). The decimal of an integer is such a number
(`Json.Numeral.ofInt`), so every value of the language is read from what it is written as
(`Value.readInObject_toJson`, `Value.toValue_toJson`).
-/

namespace ImpHost

namespace Json

open Text

namespace Numeral

/-! ## Numbers as integers -/

section

variable (n : Numeral)

/-- The integer that is spelled in front of a fraction and an exponent. -/
def toInt : Int :=
  if n.negative then -digitsValue n.whole else digitsValue n.whole

/-- The number is spelled as an integer of 64 bits. -/
def SpellsInt64 : Prop :=
  n.fraction = [] ∧ n.exponent = none ∧ Value.minInt ≤ n.toInt ∧ n.toInt ≤ Value.maxInt

instance : Decidable n.SpellsInt64 :=
  inferInstanceAs (Decidable (_ ∧ _ ∧ _ ∧ _))

theorem takeSign_spelled : takeSign n.spelled =
    (n.negative, n.whole ++ (fractionText n.fraction ++ exponentText n.exponent)) := by
  unfold spelled
  cases n.negative with
  | true => rfl
  | false =>
    obtain ⟨d, ds, found, digit⟩ := n.isWhole.exists_cons
    simp only [found, signText, Bool.false_eq_true, if_false, List.nil_append, List.cons_append]
    unfold takeSign
    split
    · next minus =>
      cases minus
      cases digit
    · next plus =>
      cases plus
      cases digit
    · rfl

/-- A fraction or an exponent starts with something else than a digit. -/
theorem all_digits_iff :
    (n.whole ++ (fractionText n.fraction ++ exponentText n.exponent)).all isAsciiDigit = true ↔
      n.fraction = [] ∧ n.exponent = none := by
  have whole : n.whole.all isAsciiDigit = true := List.all_eq_true.2 n.isWhole.2
  rw [List.all_append, List.all_append, whole, Bool.true_and, Bool.and_eq_true]
  refine and_congr ?_ ?_
  · cases n.fraction with
    | nil => simp [fractionText]
    | cons d ds => simp [fractionText, isAsciiDigit]
  · cases n.exponent with
    | none => simp [exponentText]
    | some e =>
      have mark : isAsciiDigit e.mark = false := by
        rcases e.isMark with mark | mark <;> rw [mark] <;> rfl
      simp [exponentText, Exponent.spelled, mark]

/-- A number is taken for an integer as it is spelled. -/
theorem parseInt?_spelled :
    parseInt? (String.ofList n.spelled) = if n.SpellsInt64 then some n.toInt else none := by
  have nonempty : (n.whole ++ (fractionText n.fraction ++ exponentText n.exponent)).isEmpty =
      false := by
    simp [n.isWhole.1]
  unfold parseInt?
  rw [String.toList_ofList, n.takeSign_spelled]
  dsimp only
  by_cases integer : n.fraction = [] ∧ n.exponent = none
  · obtain ⟨noFraction, noExponent⟩ := integer
    have digits := n.all_digits_iff.2 ⟨noFraction, noExponent⟩
    rw [nonempty, digits]
    simp only [SpellsInt64, toInt, noFraction, noExponent, fractionText, exponentText,
      List.append_nil, true_and]
    rfl
  · have other := mt n.all_digits_iff.1 integer
    have noInt : ¬ n.SpellsInt64 := fun int => integer ⟨int.1, int.2.1⟩
    rw [Bool.not_eq_true] at other
    rw [other, if_neg noInt, Bool.not_false, Bool.or_true, if_pos rfl]

end

/-! ## Integers as numbers -/

theorem isAsciiDigit_of_mem_toDigits {n : Nat} {c : Char} (member : c ∈ Nat.toDigits 10 n) :
    isAsciiDigit c = true :=
  Nat.isDigit_of_mem_toDigits (by decide) (by decide) member

theorem toDigits_eq_cons (n : Nat) :
    ∃ c cs, Nat.toDigits 10 n = c :: cs ∧ isAsciiDigit c = true := by
  cases digits : Nat.toDigits 10 n with
  | nil => exact absurd digits Nat.toDigits_ne_nil
  | cons c cs => exact ⟨c, cs, rfl, isAsciiDigit_of_mem_toDigits (digits ▸ List.mem_cons_self)⟩

/-- Only the number zero starts with a zero. -/
theorem head_toDigits {n : Nat} (positive : 0 < n) : (Nat.toDigits 10 n).head? ≠ some '0' := by
  induction n using Nat.strongRecOn with
  | _ n ih =>
    rw [Nat.toDigits_eq_if (by decide)]
    split
    · next small =>
      have each : ∀ n : Fin 10, 0 < n.1 → n.1.digitChar ≠ '0' := by decide
      exact fun same => each ⟨n, small⟩ positive (Option.some.inj same)
    · next large =>
      have front := ih (n / 10) (by omega) (by omega)
      obtain ⟨c, cs, digits, -⟩ := toDigits_eq_cons (n / 10)
      rw [digits] at front ⊢
      exact front

/-- The decimal of an integer, with a minus in front if it is negative. -/
def ofInt (i : Int) : Numeral where
  negative := decide (i < 0)
  whole := Nat.toDigits 10 i.natAbs
  fraction := []
  exponent := none
  isWhole := ⟨Nat.toDigits_ne_nil, fun _ => isAsciiDigit_of_mem_toDigits⟩
  noSpareZero zero := by
    rcases Nat.eq_zero_or_pos i.natAbs with none | positive
    · rw [none]
      rfl
    · exact absurd zero (head_toDigits positive)
  isFraction := nofun

theorem spelled_ofInt (i : Int) : String.ofList (ofInt i).spelled = toString i := by
  apply String.toList_injective
  rw [String.toList_ofList]
  cases i with
  | ofNat m =>
    have spelled : (ofInt (.ofNat m)).spelled = Nat.toDigits 10 m ++ [] := rfl
    rw [spelled, List.append_nil]
    exact Nat.toList_repr.symm
  | negSucc m =>
    have negative : (ofInt (.negSucc m)).negative = true := decide_eq_true (Int.negSucc_lt_zero m)
    have spelled : (ofInt (.negSucc m)).spelled = '-' :: (Nat.toDigits 10 (m + 1) ++ []) := by
      rw [Numeral.spelled, negative]
      rfl
    have written : toString (Int.negSucc m) = "-" ++ Nat.repr (m + 1) := rfl
    rw [spelled, List.append_nil, written, String.toList_append, Nat.toList_repr]
    rfl

theorem toInt_ofInt (i : Int) : (ofInt i).toInt = i := by
  have value : digitsValue (ofInt i).whole = i.natAbs := Nat.ofDigitChars_ten_toDigits
  have sign : (ofInt i).negative = decide (i < 0) := rfl
  rw [toInt, value, sign]
  split
  · next negative =>
    rw [decide_eq_true_eq] at negative
    omega
  · next negative =>
    rw [decide_eq_true_eq] at negative
    omega

end Numeral

/-- An integer is read with its spelling. -/
theorem readInObject_int (depth : Nat) (i : Int) : ReadInObject depth (.int i) (.int i) := by
  intro k ends
  have written : (Json.int i).write k = (Numeral.ofInt i).spelled ++ k := by
    have plain : (Json.int i).write k = (toString i).toList ++ k := rfl
    rw [plain, ← Numeral.spelled_ofInt, String.toList_ofList]
  have number : Json.int i = .number (String.ofList (Numeral.ofInt i).spelled) := by
    rw [Numeral.spelled_ofInt, Json.int]
  have after : Ends k := by
    obtain ⟨rest, rfl | rfl⟩ := ends <;> intro c head <;> cases head
    · exact .inr (.inl rfl)
    · exact .inr (.inr (.inr rfl))
  have noBlanks : Blanks [] := fun _ member => nomatch member
  rw [written, number]
  exact readValue_number (.ofInt i) after ((Numeral.ofInt i).starts.skipBlanks_append noBlanks k)

theorem readAs_bool (depth : Nat) (b : Bool) : ReadAs depth (.bool b) (.bool b) := by
  intro k
  cases b with
  | true => exact readValue_true rfl
  | false => exact readValue_false rfl

end Json

/-- A number is a value of the language if it is spelled as an integer of 64 bits. -/
theorem Scalar.toValue_numeral (n : Json.Numeral) :
    (Scalar.number (String.ofList n.spelled)).toValue =
      if n.SpellsInt64 then .ok (.int (Int64.ofInt n.toInt))
      else .error (.type ("value " ++ String.ofList n.spelled ++ " is not an integer")) := by
  unfold toValue
  dsimp only
  rw [n.parseInt?_spelled]
  by_cases spelled : n.SpellsInt64
  · rw [if_pos spelled, if_pos spelled, Option.bind_some, Value.ofInt?, if_pos spelled.2.2]
  · rw [if_neg spelled, if_neg spelled, Option.bind_none]

namespace Value

variable (v : Value)

/-- A value is read from what it is written as. -/
theorem readInObject_toJson (depth : Nat) : Json.ReadInObject depth v.toJson v.toJson := by
  cases v with
  | int n => exact Json.readInObject_int depth n.toInt
  | bool b => exact (Json.readAs_bool depth b).inObject

theorem fits_toInt (n : Int64) : minInt ≤ n.toInt ∧ n.toInt ≤ maxInt := by
  have low := n.le_toInt
  have high := n.toInt_lt
  simp only [minInt, maxInt, halfRange]
  omega

/-- What a value is written as denotes it. -/
theorem toValue_toJson : (Scalar.ofJson v.toJson).toValue = .ok v := by
  cases v with
  | int n =>
    have spelled : (Json.Numeral.ofInt n.toInt).SpellsInt64 := by
      rw [Json.Numeral.SpellsInt64, Json.Numeral.toInt_ofInt]
      exact ⟨rfl, rfl, fits_toInt n⟩
    rw [toJson, Json.int, Scalar.ofJson, ← Json.Numeral.spelled_ofInt, Scalar.toValue_numeral,
      if_pos spelled, Json.Numeral.toInt_ofInt, Int64.ofInt_toInt]
  | bool b => rfl

end Value

end ImpHost
