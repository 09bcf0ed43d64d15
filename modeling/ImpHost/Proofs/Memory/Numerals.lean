import ImpHost.Manifest.Basic
import ImpHost.Proofs.Memory.Acceptance
import Mathlib.Algebra.Field.Rat
import Mathlib.Tactic.NormNum

/-!
Numbers in stores (`Memory.number_accepted_as_spelled`).

A numeral has an exact value, whether it is spelled with a fraction and an exponent or without
(`Json.Numeral.value`). A store takes a number by its spelling and not by its value: only the
spellings without fraction and exponent are integers to it.
-/

namespace ImpHost

open Json Text

namespace Json

/-- The number that an exponent denotes. -/
def Exponent.toInt (e : Exponent) : Int :=
  if e.sign = ['-'] then -digitsValue e.digits else digitsValue e.digits

namespace Numeral

variable (n : Numeral)

/-- The power of ten by which the digits are multiplied. -/
def scale : Int :=
  (n.exponent.elim 0 Exponent.toInt) - n.fraction.length

/-- The exact value of a number. -/
def value : ℚ :=
  (if n.negative then -1 else 1) * (digitsValue (n.whole ++ n.fraction) : ℚ) * 10 ^ n.scale

theorem value_eq_toInt (noFraction : n.fraction = []) (noExponent : n.exponent = none) :
    n.value = n.toInt := by
  have unscaled : n.scale = 0 := by
    rw [scale, noFraction, noExponent]
    rfl
  rw [value, unscaled, zpow_zero, mul_one, noFraction, List.append_nil, toInt]
  split
  · rw [neg_one_mul, Int.cast_neg, Int.cast_natCast]
  · rw [one_mul, Int.cast_natCast]

end Numeral

end Json

namespace Memory

theorem ofFields_single (f : String × Json) :
    ofFields [f] = (entryOf f).map fun entry => Table.set ∅ entry.1 entry.2 := by
  have alone : sortedFields [f] = [f] := by
    rw [sortedFields, List.mergeSort_singleton, lastOfEach]
  rw [ofFields_eq, alone, List.mapM_cons, List.mapM_nil]
  cases entryOf f <;> rfl

/-- A number has a value of the language if it is spelled as an integer of 64 bits. -/
theorem ofFields_numeral (x : String) (n : Numeral) :
    ofFields [(x, .number (String.ofList n.spelled))] =
      if n.SpellsInt64 then .ok (Table.set ∅ x (.int (Int64.ofInt n.toInt)))
      else .error (.entry x
        (.type ("value " ++ String.ofList n.spelled ++ " is not an integer"))) := by
  rw [ofFields_single, entryOf, Scalar.ofJson, Scalar.toValue_numeral]
  by_cases spelled : n.SpellsInt64
  · rw [if_pos spelled, if_pos spelled]
    rfl
  · rw [if_neg spelled, if_neg spelled]
    rfl

theorem spellsInt64_iff (n : Numeral) (i : Int64) :
    n.SpellsInt64 ∧ Int64.ofInt n.toInt = i ↔
      n.fraction = [] ∧ n.exponent = none ∧ n.value = i.toInt := by
  constructor
  · rintro ⟨⟨noFraction, noExponent, low, high⟩, rfl⟩
    refine ⟨noFraction, noExponent, ?_⟩
    rw [n.value_eq_toInt noFraction noExponent, Int64.toInt_ofInt_of_le low]
    exact Int.lt_of_le_sub_one high
  · rintro ⟨noFraction, noExponent, value⟩
    rw [n.value_eq_toInt noFraction noExponent, Int.cast_inj] at value
    rw [Numeral.SpellsInt64, value]
    exact ⟨⟨noFraction, noExponent, Value.fits_toInt i⟩, Int64.ofInt_toInt i⟩

/-- A number in a store is accepted if it is spelled without fraction and exponent and its value is
an integer of 64 bits, and then it is that integer. Any other number is a type error, also one whose
value is an integer but that has a fraction or an exponent. -/
theorem number_accepted_as_spelled (text : Text) (x : String) (n : Numeral)
    (spells : Spells maxDepth (trimSpace text.chars)
      (.object [(x, .number (String.ofList n.spelled))])) :
    (∀ i : Int64, ofJson text = .ok (Table.set ∅ x (.int i)) ↔
      n.fraction = [] ∧ n.exponent = none ∧ n.value = i.toInt) ∧
    ((∀ i : Int64, ¬ (n.fraction = [] ∧ n.exponent = none ∧ n.value = i.toInt)) →
      ofJson text = .error (.entry x
        (.type ("value " ++ String.ofList n.spelled ++ " is not an integer")))) := by
  have read := ofJson_of_front (List.append_nil _).symm spells fun _ _ => Ends.nil
  have fields := ofFields_numeral x n
  rw [read, ofValue, fields]
  refine ⟨fun i => ?_, fun none => ?_⟩
  · rw [← spellsInt64_iff]
    by_cases spelled : n.SpellsInt64
    · rw [if_pos spelled]
      refine ⟨fun same => ⟨spelled, ?_⟩, fun spelled => ?_⟩
      · have bound := congrArg (fun m : Memory => m.get? x) (Except.ok.inj same)
        simpa using bound
      · rw [spelled.2]
    · rw [if_neg spelled]
      exact ⟨nofun, fun both => absurd both.1 spelled⟩
  · refine if_neg fun spelled => ?_
    exact none _ ((spellsInt64_iff n _).1 ⟨spelled, rfl⟩)

/-- An object with one number, without blanks. -/
theorem spells_single {us : List Char} {x : String} (text : StringText us x) (n : Numeral) :
    Spells maxDepth ('{' :: (us ++ ':' :: n.spelled ++ ['}']))
      (.object [(x, .number (String.ofList n.spelled))]) := by
  have noBlanks : Blanks [] := fun _ member => nomatch member
  have number : Spells 9999 n.spelled _ := (Plain.number n).spells
  have padded := Padded.intro noBlanks (FieldText.intro text noBlanks noBlanks number) noBlanks
  rw [List.append_nil, List.nil_append, List.nil_append, List.nil_append] at padded
  exact .inr (.object (.some (.single padded)))

/-- The name `x` in quotes. -/
theorem stringText_x : StringText "\"x\"".toList "x" :=
  ⟨['x'], rfl, .plain (by decide) (by decide) (by decide) .nil⟩

/-- The least integer. -/
theorem number_accepted_as_spelled_least :
    ofJson (Text.ofString "\x7b\"x\":-9223372036854775808\x7d") =
      .ok (Table.set ∅ "x" (.int Int64.minValue)) := by
  let n : Numeral := ⟨true, "9223372036854775808".toList, [], none,
    ⟨by decide, List.all_eq_true.1 (by decide)⟩, by decide,
    fun _ member => absurd member List.not_mem_nil⟩
  have spells : Spells maxDepth
      (trimSpace (Text.ofString "\x7b\"x\":-9223372036854775808\x7d").chars)
      (.object [("x", .number (String.ofList n.spelled))]) := by
    rw [Text.chars_ofString]
    exact spells_single stringText_x n
  have value : n.value = Int64.minValue.toInt := by
    rw [n.value_eq_toInt rfl rfl]
    rfl
  exact ((number_accepted_as_spelled _ "x" n spells).1 Int64.minValue).2 ⟨rfl, rfl, value⟩

/-- The number 3.0 is an integer and is rejected in an argument. In the store of a manifest the same
text binds 3. -/
theorem three_with_fraction_rejected :
    ∃ n : Numeral, n.spelled = "3.0".toList ∧ n.value = 3 ∧
      ofJson (Text.ofString "\x7b\"x\":3.0\x7d") =
        .error (.entry "x" (.type "value 3.0 is not an integer")) ∧
      ((Yaml.parse (Text.ofString "\x7b\"x\":3.0\x7d")).toOption.join.bind fun node =>
        (Manifest.storeOfNode node).toOption) = some (Table.set ∅ "x" (.int 3)) := by
  let n : Numeral := ⟨false, ['3'], ['0'], none,
    ⟨by decide, List.all_eq_true.1 (by decide)⟩, by decide, List.all_eq_true.1 (by decide)⟩
  have spells : Spells maxDepth (trimSpace (Text.ofString "\x7b\"x\":3.0\x7d").chars)
      (.object [("x", .number (String.ofList n.spelled))]) := by
    rw [Text.chars_ofString]
    exact spells_single stringText_x n
  have value : n.value = 3 := by
    have digits : digitsValue (n.whole ++ n.fraction) = 30 := rfl
    have scale : n.scale = -1 := rfl
    rw [Numeral.value, digits, scale, if_neg Bool.false_ne_true]
    norm_num
  refine ⟨n, rfl, value, ?_, by decide +kernel⟩
  rw [ofJson_of_front (List.append_nil _).symm spells fun _ _ => Ends.nil, ofValue,
    ofFields_numeral, if_neg fun spelled => nomatch spelled.1]
  rfl

end Memory

end ImpHost
