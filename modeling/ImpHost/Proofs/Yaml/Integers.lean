import ImpHost.Proofs.Json.Numbers
import ImpHost.Proofs.Yaml.Words
import Mathlib.Data.List.Basic
import Mathlib.Data.List.TakeWhile

/-!
What decimal integers denote in a document (`Yaml.resolve_integer`).

A decimal integer of at most 64 bits denotes itself. One beyond is a number of double precision, the
nearest one, and a string if there is none. As a document such a text is one plain scalar
(`Json.Numeral.isWord`).
-/

namespace ImpHost

open Text

namespace Json.Numeral

/-- The number has neither a fraction nor an exponent. -/
def IsInteger (n : Numeral) : Prop :=
  n.fraction = [] ∧ n.exponent = none

theorem isInteger_ofInt (i : Int) : (ofInt i).IsInteger :=
  ⟨rfl, rfl⟩

variable {n : Numeral}

theorem IsInteger.spelled_eq (integer : n.IsInteger) :
    n.spelled = signText n.negative ++ n.whole := by
  rw [spelled, integer.1, integer.2, fractionText, exponentText, List.append_nil, List.append_nil]

theorem IsInteger.takeSign_spelled (integer : n.IsInteger) :
    takeSign n.spelled = (n.negative, n.whole) := by
  rw [Numeral.takeSign_spelled, integer.1, integer.2, fractionText, exponentText, List.append_nil,
    List.append_nil]

theorem IsInteger.mem_spelled (integer : n.IsInteger) {x : Char} (member : x ∈ n.spelled) :
    isAsciiDigit x = true ∨ x = '-' := by
  rw [integer.spelled_eq] at member
  rcases List.mem_append.1 member with sign | digit
  · unfold signText at sign
    split at sign
    · exact .inr (List.mem_singleton.1 sign)
    · cases sign
  · exact .inl (n.isWhole.2 x digit)

/-- The first character of an integer is a digit, or else a hyphen and the second one is. -/
theorem IsInteger.front (integer : n.IsInteger) :
    ∃ d ds, isAsciiDigit d = true ∧ n.whole = d :: ds ∧
      n.spelled = if n.negative then '-' :: d :: ds else d :: ds := by
  obtain ⟨d, ds, found, digit⟩ := n.isWhole.exists_cons
  refine ⟨d, ds, digit, found, ?_⟩
  rw [integer.spelled_eq, found, signText]
  split <;> rfl

/-- As a document a decimal integer is one word. -/
theorem IsInteger.isWord (integer : n.IsInteger) : Yaml.IsWord n.spelled where
  inside x member := by
    rcases integer.mem_spelled member with digit | rfl
    · simp only [isAsciiDigit] at digit
      simp only [Yaml.isNameChar, digit, Bool.true_or]
    · rfl
  front := by
    obtain ⟨d, ds, digit, -, front⟩ := integer.front
    have notHyphen : d ≠ '-' := fun same => by
      subst same
      cases digit
    cases sign : n.negative with
    | true => exact ⟨'-', d :: ds, by rw [front, sign]; rfl, fun _ => ⟨d, ds, rfl, notHyphen⟩⟩
    | false => exact ⟨d, ds, by rw [front, sign]; rfl, fun same => absurd same notHyphen⟩

end Json.Numeral

namespace Yaml

open Json (Numeral)

variable {n : Numeral}

theorem digitValue_of_isAsciiDigit {d : Char} (digit : isAsciiDigit d = true) :
    digitValue d = d.toNat - '0'.toNat ∧ digitValue d < 10 := by
  have range := Bool.and_eq_true_iff.1 digit
  have inRange : '0' ≤ d ∧ d ≤ '9' := ⟨of_decide_eq_true range.1, of_decide_eq_true range.2⟩
  have code : d.toNat ≤ '9'.toNat := inRange.2
  have value : digitValue d = d.toNat - '0'.toNat := if_pos inRange
  refine ⟨value, ?_⟩
  rw [value]
  exact Nat.lt_of_le_of_lt (Nat.sub_le_sub_right code _) (by decide)

theorem digitsIn?_ten {ds : List Char} (digits : Json.Digits ds) :
    digitsIn? 10 ds = some (digitsValue ds) := by
  have small : (ds.all fun x => decide (digitValue x < 10)) = true :=
    List.all_eq_true.2 fun d here =>
      decide_eq_true (digitValue_of_isAsciiDigit (digits.2 d here)).2
  have nonempty : ds.isEmpty = false := List.isEmpty_eq_false_iff.2 digits.1
  have same : ds.foldl (fun n x => 10 * n + digitValue x) 0 = digitsValue ds := by
    refine List.foldl_ext _ _ _ fun n d here => ?_
    rw [(digitValue_of_isAsciiDigit (digits.2 d here)).1]
  rw [digitsIn?, nonempty, small, same]
  rfl

/-- Without spare zeros digits are in base 10. -/
theorem natural?_whole (n : Numeral) : natural? n.whole = some (digitsValue n.whole) := by
  have ten := digitsIn?_ten n.isWhole
  unfold natural?
  split
  · next x rest spare =>
    have alone := n.noSpareZero (by rw [spare]; rfl)
    rw [spare] at alone
    cases alone
  · exact ten

/-- An integer fits a signed word with a sign and an unsigned word without one. -/
theorem integer?_spelled (integer : n.IsInteger) : integer? n.spelled =
    if Value.minInt ≤ n.toInt ∧ n.toInt < 2 * Value.halfRange then some n.toInt else none := by
  obtain ⟨d, ds, digit, whole, front⟩ := integer.front
  have value := natural?_whole n
  rw [whole] at value
  have positive : 0 < Value.halfRange := by decide
  rw [front, Numeral.toInt, whole]
  cases n.negative with
  | true =>
    simp only [if_true, integer?, value, Option.bind_some, Value.minInt]
    refine if_congr ?_ rfl rfl
    omega
  | false =>
    simp only [Bool.false_eq_true, if_false, integer?]
    split
    · next same =>
      cases same
      cases digit
    · next same =>
      cases same
      cases digit
    · rw [value, Option.bind_some]
      refine if_congr ?_ rfl rfl
      simp only [Value.minInt]
      omega

theorem separatorsOk_of_not_mem {cs : List Char} (none : '_' ∉ cs) :
    Double.separatorsOk cs = true := by
  fun_induction Double.separatorsOk cs with
  | case1 => rfl
  | case2 => simp at none
  | case3 c d rest ih => simp at none
  | case4 => simp at none
  | case5 _ _ _ _ _ ih => exact ih fun here => none (List.mem_cons_of_mem _ here)

theorem not_mem_of_spelled (integer : n.IsInteger) {c : Char} (other : isAsciiDigit c = false)
    (noHyphen : c ≠ '-') : c ∉ n.spelled := by
  intro member
  rcases integer.mem_spelled member with digit | same
  · exact Bool.false_ne_true (other.symm.trans digit)
  · exact noHyphen same

theorem filter_spelled (integer : n.IsInteger) : n.spelled.filter (· != '_') = n.spelled := by
  refine List.filter_eq_self.2 fun c member => bne_iff_ne.2 fun same => ?_
  subst same
  exact not_mem_of_spelled integer rfl (by decide) member

theorem ofDecimal_zero (negative : Bool) (v : Nat) :
    Double.ofDecimal negative v 0 = Double.ofQuotient negative v 1 := by
  unfold Double.ofDecimal
  dsimp only
  split
  · next zero =>
    rw [zero]
    rfl
  · rw [if_neg (by decide), if_neg (by omega), if_pos (Int.le_refl 0)]
    congr 1
    exact Nat.mul_one v

theorem whole_digits (n : Numeral) : n.whole.takeWhile isAsciiDigit = n.whole ∧
    n.whole.dropWhile isAsciiDigit = [] ∧ n.whole.isEmpty = false :=
  ⟨List.takeWhile_eq_self_iff.2 n.isWhole.2, List.dropWhile_eq_nil_iff.2 n.isWhole.2,
    List.isEmpty_eq_false_iff.2 n.isWhole.1⟩

theorem parseDecimal?_spelled (integer : n.IsInteger) : Double.parseDecimal? n.spelled =
    match Double.ofQuotient n.negative (digitsValue n.whole) 1 with
    | .infinite _ => none
    | d => some d := by
  have separated := separatorsOk_of_not_mem (not_mem_of_spelled integer rfl (by decide) : '_' ∉ _)
  obtain ⟨digits, none, nonempty⟩ := whole_digits n
  unfold Double.parseDecimal?
  rw [separated, filter_spelled integer, integer.takeSign_spelled]
  dsimp only
  rw [digits, none]
  dsimp only
  rw [nonempty, List.append_nil]
  dsimp only [Double.exponent?]
  rw [← ofDecimal_zero]
  rfl

theorem hasFloatForm_spelled (integer : n.IsInteger) : hasFloatForm n.spelled = true := by
  obtain ⟨d, ds, digit, whole, -⟩ := integer.front
  obtain ⟨digits, none, nonempty⟩ := whole_digits n
  have noPoint : d ≠ '.' := fun same => by
    subst same
    cases digit
  rw [whole] at digits none nonempty
  unfold hasFloatForm
  rw [integer.takeSign_spelled, whole]
  dsimp only
  split
  · next missing =>
    split at missing
    · next same =>
      cases same
      exact absurd rfl noPoint
    · rw [digits, nonempty, none] at missing
      cases missing
  · next rest found =>
    split at found
    · next same =>
      cases same
      exact absurd rfl noPoint
    · rw [digits, nonempty, none] at found
      cases found
      rfl

/-- A word with a character that no integer has, or without any. -/
def isStrange (w : String) : Bool :=
  w.toList.isEmpty || w.toList.any fun c => !isAsciiDigit c && c != '-'

theorem spelled_ne_of_isStrange (integer : n.IsInteger) {w : String}
    (strange : isStrange w = true) : String.ofList n.spelled ≠ w := by
  rintro rfl
  rw [isStrange, String.toList_ofList, Bool.or_eq_true] at strange
  rcases strange with empty | other
  · obtain ⟨x, rest, front, -⟩ := integer.isWord.front
    rw [front] at empty
    cases empty
  · obtain ⟨c, member, other⟩ := List.any_eq_true.1 other
    obtain ⟨noDigit, noHyphen⟩ := Bool.and_eq_true_iff.1 other
    exact not_mem_of_spelled integer (Bool.not_eq_true' _ ▸ noDigit) (bne_iff_ne.1 noHyphen) member

/-- None of the words that denote something is spelled like an integer. -/
theorem word?_spelled (integer : n.IsInteger) : word? (String.ofList n.spelled) = none := by
  have absent {ws : List String} (strange : ws.all isStrange = true) :
      String.ofList n.spelled ∉ ws := fun member =>
    spelled_ne_of_isStrange integer (List.all_eq_true.1 strange _ member) rfl
  rw [word?, if_neg (absent (by decide)), if_neg (absent (by decide)), if_neg (absent (by decide)),
    if_neg (absent (by decide)), if_neg (absent (by decide)), if_neg (absent (by decide))]

theorem signedAfterBase?_spelled (integer : n.IsInteger) : signedAfterBase? n.spelled = none := by
  have absent {c : Char} (other : isAsciiDigit c = false) (noHyphen : c ≠ '-') : c ∉ n.spelled :=
    not_mem_of_spelled integer other noHyphen
  unfold signedAfterBase?
  dsimp only
  split
  · next spelled => exact absurd (by simp [spelled]) (absent (c := 'b') rfl (by decide))
  · next spelled => exact absurd (by simp [spelled]) (absent (c := 'o') rfl (by decide))
  · rfl

/-- A decimal integer of at most 64 bits denotes itself, and any other the nearest number of double
precision, if there is one. -/
theorem resolve_integer (integer : n.IsInteger) : resolve (String.ofList n.spelled) =
    if Value.minInt ≤ n.toInt ∧ n.toInt < 2 * Value.halfRange then .int n.toInt
    else
      match Double.ofQuotient n.negative (digitsValue n.whole) 1 with
      | .infinite _ => .string
      | d => .float d := by
  obtain ⟨x, rest, front, -⟩ := integer.isWord.front
  have member : x ∈ n.spelled := front ▸ List.mem_cons_self
  have noPoint : (x == '.') = false := by
    refine beq_false_of_ne fun same => ?_
    subst same
    exact not_mem_of_spelled integer rfl (by decide) member
  have starts : (x == '+' || x == '-' || isAsciiDigit x) = true := by
    rcases integer.mem_spelled member with digit | rfl
    · rw [digit, Bool.or_true]
    · rfl
  unfold resolve
  rw [word?_spelled integer, String.toList_ofList]
  dsimp only
  rw [filter_spelled integer, front]
  dsimp only
  rw [noPoint, starts, ← front, integer?_spelled integer, hasFloatForm_spelled integer,
    parseDecimal?_spelled integer, signedAfterBase?_spelled integer]
  simp only [Bool.false_eq_true, if_false, if_true]
  by_cases fits : Value.minInt ≤ n.toInt ∧ n.toInt < 2 * Value.halfRange
  · rw [if_pos fits, if_pos fits]
  · rw [if_neg fits, if_neg fits]
    cases Double.ofQuotient n.negative (digitsValue n.whole) 1 <;> rfl

end Yaml

end ImpHost
