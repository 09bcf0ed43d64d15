import ImpHost.Proofs.Json.Grammar
import ImpHost.Proofs.Json.Reading
import ImpHost.Proofs.Token.Lexing

/-!
Numbers and strings are read as the grammar spells them.

The lengths of the parts of a number bound numerals and nothing else (`numeral_of_length`), and a
numeral is found as a whole where nothing goes on with it (`Numeral.numberLength?_append`). What an
escape stands for depends on what follows only if it is half a character, and never on what follows
the string (`escape_append_iff`), so strings are read from their spellings and from nothing else
(`stringBody_of_readString`, `StringBody.read`).
-/

namespace ImpHost.Json

open Text

/-! ## Blanks -/

theorem exists_blanks (cs : List Char) : ∃ bs, Blanks bs ∧ cs = bs ++ skipBlanks cs :=
  ⟨cs.takeWhile isBlank, List.all_eq_true.1 List.all_takeWhile,
    List.takeWhile_append_dropWhile.symm⟩

theorem length_of_skipBlanks {cs rest : List Char} {c : Char}
    (front : skipBlanks cs = c :: rest) : rest.length < cs.length := by
  have length := length_skipBlanks cs
  rw [front] at length
  exact length

theorem skipBlanks_append {bs k : List Char} {c : Char} (blanks : Blanks bs)
    (stands : isBlank c = false) : skipBlanks (bs ++ c :: k) = c :: k := by
  refine (Token.munch blanks ?_).2
  intro d head
  cases head
  exact stands

/-! ## Numbers -/

theorem take_countDigits (cs : List Char) :
    cs.take (countDigits cs) = cs.takeWhile isAsciiDigit :=
  (List.prefix_iff_eq_take.1 (List.takeWhile_prefix isAsciiDigit)).symm

theorem Digits.exists_cons {ds : List Char} (digits : Digits ds) :
    ∃ d rest, ds = d :: rest ∧ isAsciiDigit d = true := by
  obtain ⟨nonempty, each⟩ := digits
  cases ds with
  | nil => exact (nonempty rfl).elim
  | cons d rest => exact ⟨d, rest, rfl, each d List.mem_cons_self⟩

/-- The digits that are counted are digits. -/
theorem digits_countDigits {cs : List Char} (counted : countDigits cs ≠ 0) :
    Digits (cs.take (countDigits cs)) := by
  rw [take_countDigits]
  refine ⟨fun empty => counted ?_, List.all_eq_true.1 List.all_takeWhile⟩
  rw [countDigits, empty]
  rfl

theorem whole_of_length {cs : List Char} {n : Nat} (length : wholeLength? cs = some n) :
    Digits (cs.take n) ∧ ((cs.take n).head? = some '0' → cs.take n = ['0']) := by
  unfold wholeLength? at length
  split at length
  · cases length
    exact ⟨⟨by simp, by simp [isAsciiDigit]⟩, fun _ => rfl⟩
  · next noZero =>
    split at length
    · cases length
    · next counted =>
      cases length
      refine ⟨digits_countDigits counted, fun zero => ?_⟩
      -- A zero at the front is a whole of its own, and was dealt with.
      obtain ⟨d, rest, found, -⟩ := (digits_countDigits counted).exists_cons
      have front := List.take_append_drop (countDigits cs) cs
      rw [found] at zero front
      cases zero
      exact (noZero _ front.symm).elim

theorem fraction_of_length {cs : List Char} {n : Nat} (length : fractionLength? cs = some n) :
    ∃ ds, (∀ d ∈ ds, isAsciiDigit d = true) ∧ cs.take n = Numeral.fractionText ds := by
  unfold fractionLength? at length
  split at length
  · next cs =>
    split at length
    · cases length
    · next counted =>
      cases length
      have digits := digits_countDigits counted
      obtain ⟨d, rest, found, -⟩ := digits.exists_cons
      refine ⟨cs.take (countDigits cs), digits.2, ?_⟩
      rw [Nat.add_comm, List.take_succ_cons, found, Numeral.fractionText]
  · cases length
    exact ⟨[], fun _ member => absurd member List.not_mem_nil, rfl⟩

theorem exponent_of_length {cs : List Char} {n : Nat} (length : exponentLength? cs = some n) :
    ∃ e, cs.take n = Numeral.exponentText e := by
  unfold exponentLength? at length
  split at length
  · cases length
    exact ⟨none, rfl⟩
  · next c cs =>
    split at length
    · next mark =>
      dsimp only at length
      split at length
      · cases length
      · next counted =>
        cases length
        have isMark : c = 'e' ∨ c = 'E' := by
          simpa only [Bool.or_eq_true, beq_iff_eq] using mark
        have isSign : cs.take (signLength cs) = [] ∨ cs.take (signLength cs) = ['+'] ∨
            cs.take (signLength cs) = ['-'] := by
          unfold signLength
          split
          · exact .inr (.inl rfl)
          · exact .inr (.inr rfl)
          · exact .inl rfl
        refine ⟨.some ⟨c, _, _, isMark, isSign, digits_countDigits counted⟩, ?_⟩
        rw [Nat.add_assoc, Nat.add_comm, List.take_succ_cons, List.take_add]
        rfl
    · cases length
      exact ⟨none, rfl⟩

/-- The length of the number at the front, whose sign has the length `sign`. -/
def signedLength? (sign : Nat) (cs : List Char) : Option Nat := do
  let whole ← wholeLength? (cs.drop sign)
  let fraction ← fractionLength? (cs.drop (sign + whole))
  let exponent ← exponentLength? (cs.drop (sign + whole + fraction))
  return sign + whole + fraction + exponent

theorem numberLength?_unsigned {cs : List Char} (unsigned : ∀ rest, cs ≠ '-' :: rest) :
    numberLength? cs = signedLength? 0 cs := by
  unfold numberLength?
  dsimp only
  split
  · exact (unsigned _ rfl).elim
  · rfl

theorem numeral_of_signedLength {cs : List Char} {negative : Bool} {sign n : Nat}
    (isSign : cs.take sign = Numeral.signText negative) (length : signedLength? sign cs = some n) :
    ∃ numeral : Numeral, cs.take n = numeral.spelled := by
  obtain ⟨whole, wholeLength, length⟩ := Option.bind_eq_some_iff.1 length
  obtain ⟨fraction, fractionLength, length⟩ := Option.bind_eq_some_iff.1 length
  obtain ⟨exponent, exponentLength, length⟩ := Option.bind_eq_some_iff.1 length
  cases length
  obtain ⟨isWhole, noSpareZero⟩ := whole_of_length wholeLength
  obtain ⟨ds, isFraction, fractionEq⟩ := fraction_of_length fractionLength
  obtain ⟨e, exponentEq⟩ := exponent_of_length exponentLength
  refine ⟨⟨negative, _, ds, e, isWhole, noSpareZero, isFraction⟩, ?_⟩
  rw [List.take_add, List.take_add, List.take_add, fractionEq, exponentEq, isSign]
  simp only [Numeral.spelled, List.append_assoc]

/-- The number that is found at the front is a numeral. -/
theorem numeral_of_length {cs : List Char} {n : Nat} (length : numberLength? cs = some n) :
    ∃ numeral : Numeral, cs.take n = numeral.spelled := by
  by_cases signed : ∃ rest, cs = '-' :: rest
  · obtain ⟨rest, rfl⟩ := signed
    exact @numeral_of_signedLength _ true 1 _ rfl length
  · rw [numberLength?_unsigned (not_exists.1 signed)] at length
    exact @numeral_of_signedLength _ false 0 _ rfl length

/-- What may follow a number: the end of the text, a blank, or the end of an entry. -/
def Ends (k : List Char) : Prop :=
  ∀ c, k.head? = some c → isBlank c = true ∨ c = ',' ∨ c = ']' ∨ c = '}'

theorem Ends.nil : Ends [] :=
  fun _ head => nomatch head

/-- Nothing that may follow a number goes on with it. -/
theorem Ends.apart {k : List Char} (ends : Ends k) {c : Char} (head : k.head? = some c) :
    isAsciiDigit c = false ∧ c ≠ '.' ∧ c ≠ 'e' ∧ c ≠ 'E' := by
  have sort := ends c head
  simp only [isBlank, Bool.or_eq_true, beq_iff_eq] at sort
  rcases sort with (((rfl | rfl) | rfl) | rfl) | rfl | rfl | rfl <;> decide

theorem countDigits_append {ds k : List Char} (digits : ∀ d ∈ ds, isAsciiDigit d = true)
    (outside : ∀ c, k.head? = some c → isAsciiDigit c = false) :
    countDigits (ds ++ k) = ds.length := by
  rw [countDigits, (Token.munch digits outside).1]

namespace Numeral

variable (n : Numeral) {k : List Char}

theorem wholeLength?_append (outside : ∀ c, k.head? = some c → isAsciiDigit c = false) :
    wholeLength? (n.whole ++ k) = some n.whole.length := by
  obtain ⟨d, ds, found, -⟩ := n.isWhole.exists_cons
  unfold wholeLength?
  split
  · next rest zero =>
    have only : n.whole = ['0'] := by
      refine n.noSpareZero ?_
      rw [found] at zero ⊢
      cases zero
      rfl
    rw [only]
    rfl
  · rw [countDigits_append n.isWhole.2 outside, if_neg (by simp [found])]

theorem fractionLength?_append {ds : List Char} (digits : ∀ d ∈ ds, isAsciiDigit d = true)
    (outside : ∀ c, k.head? = some c → isAsciiDigit c = false ∧ c ≠ '.') :
    fractionLength? (fractionText ds ++ k) = some (fractionText ds).length := by
  have noDigit (c : Char) (head : k.head? = some c) := (outside c head).1
  cases ds with
  | nil =>
    unfold fractionLength?
    split
    · next here => exact ((outside _ (congrArg List.head? here)).2 rfl).elim
    · rfl
  | cons d ds =>
    have count := countDigits_append digits noDigit
    have spelled : fractionText (d :: ds) ++ k = '.' :: ((d :: ds) ++ k) := rfl
    rw [spelled, fractionLength?, count, if_neg (by simp), Nat.add_comm]
    rfl

theorem exponentLength?_append (e : Option Exponent) (ends : Ends k) :
    exponentLength? (exponentText e ++ k) = some (exponentText e).length := by
  cases e with
  | none =>
    cases k with
    | nil => rfl
    | cons c k =>
      obtain ⟨-, -, noSmall, noLarge⟩ := ends.apart rfl
      have noMark : (c == 'e' || c == 'E') = false := by simp [noSmall, noLarge]
      simp only [exponentText, List.nil_append, exponentLength?, noMark]
      rfl
  | some e =>
    obtain ⟨mark, sign, digits, isMark, isSign, isDigits⟩ := e
    obtain ⟨d, ds, rfl, digit⟩ := isDigits.exists_cons
    have marked : (mark == 'e' || mark == 'E') = true := by
      rcases isMark with rfl | rfl <;> rfl
    have count := countDigits_append isDigits.2 fun c head => (ends.apart head).1
    have signed : signLength (sign ++ (d :: ds ++ k)) = sign.length := by
      rcases isSign with rfl | rfl | rfl
      · unfold signLength
        split
        · next plus =>
          cases plus
          cases digit
        · next minus =>
          cases minus
          cases digit
        · rfl
      · rfl
      · rfl
    rw [exponentText, Exponent.spelled, List.cons_append, List.append_assoc, exponentLength?,
      if_pos marked]
    dsimp only
    rw [signed, List.drop_left, count, if_neg (by simp)]
    simp only [List.length_cons, List.length_append, Option.some.injEq]
    omega

theorem head_afterFraction (e : Option Exponent) (ends : Ends k) {c : Char}
    (head : (exponentText e ++ k).head? = some c) : isAsciiDigit c = false ∧ c ≠ '.' := by
  cases e with
  | none => exact ⟨(ends.apart head).1, (ends.apart head).2.1⟩
  | some e =>
    cases head
    rcases e.isMark with mark | mark <;> rw [mark] <;> decide

theorem head_afterWhole (ds : List Char) (e : Option Exponent) (ends : Ends k) {c : Char}
    (head : (fractionText ds ++ (exponentText e ++ k)).head? = some c) :
    isAsciiDigit c = false := by
  cases ds with
  | nil => exact (head_afterFraction e ends head).1
  | cons d ds =>
    cases head
    rfl

theorem signedLength?_append (sign : List Char) (ends : Ends k) :
    signedLength? sign.length (sign ++ (n.whole ++ (fractionText n.fraction ++
      (exponentText n.exponent ++ k)))) =
      some (sign ++ (n.whole ++ (fractionText n.fraction ++ exponentText n.exponent))).length := by
  have afterWhole (c : Char) := head_afterWhole (c := c) n.fraction n.exponent ends
  have afterFraction (c : Char) := head_afterFraction (c := c) n.exponent ends
  simp only [signedLength?, ← List.drop_drop, List.drop_left, n.wholeLength?_append afterWhole,
    fractionLength?_append n.isFraction afterFraction, exponentLength?_append n.exponent ends,
    Option.bind_eq_bind, Option.bind_some, Option.pure_def, List.length_append, Nat.add_assoc]

/-- A numeral starts with its sign or with a digit. -/
theorem exists_spelled : ∃ c cs, n.spelled = c :: cs ∧ (c = '-' ∨ isAsciiDigit c = true) := by
  unfold spelled
  cases n.negative with
  | true => exact ⟨_, _, rfl, .inl rfl⟩
  | false =>
    obtain ⟨d, ds, found, digit⟩ := n.isWhole.exists_cons
    rw [found]
    exact ⟨d, _, rfl, .inr digit⟩

/-- A numeral is found as a whole in front of what may follow it. -/
theorem numberLength?_append (ends : Ends k) :
    numberLength? (n.spelled ++ k) = some n.spelled.length := by
  unfold spelled
  simp only [List.append_assoc]
  cases n.negative with
  | true => exact n.signedLength?_append ['-'] ends
  | false =>
    refine (numberLength?_unsigned fun rest minus => ?_).trans (n.signedLength?_append [] ends)
    obtain ⟨d, ds, found, digit⟩ := n.isWhole.exists_cons
    rw [found] at minus
    cases minus
    cases digit

end Numeral

/-! ## Strings -/

theorem HexUnit.no_quote {hs : List Char} {n : Nat} (unit : HexUnit hs n) : '"' ∉ hs := by
  obtain ⟨a, b, c, d, rfl, unit⟩ := unit
  obtain ⟨x, first, unit⟩ := Option.bind_eq_some_iff.1 unit
  obtain ⟨y, second, unit⟩ := Option.bind_eq_some_iff.1 unit
  obtain ⟨z, third, unit⟩ := Option.bind_eq_some_iff.1 unit
  obtain ⟨w, fourth, -⟩ := Option.bind_eq_some_iff.1 unit
  intro member
  simp only [List.mem_cons, List.not_mem_nil, or_false] at member
  rcases member with rfl | rfl | rfl | rfl
  · cases first
  · cases second
  · cases third
  · cases fourth

/-- What completes a character before the quote that ends a string is in the string. -/
theorem completes_append_iff {n : Nat} {us k : List Char} :
    Completes n (us ++ '"' :: k) ↔ Completes n us := by
  constructor
  · rintro ⟨hs, low, rest, c, split, unit, pair⟩
    rcases List.append_eq_append_iff.1 split with ⟨ws, front, back⟩ | ⟨ws, front, back⟩
    · cases ws with
      | nil => exact ⟨hs, low, [], c, by rw [List.append_nil, front, List.append_nil], unit, pair⟩
      | cons w ws =>
        cases back
        have member : '"' ∈ '\\' :: 'u' :: hs := by simp [front]
        simp [unit.no_quote] at member
    · exact ⟨hs, low, ws, c, front, unit, pair⟩
  · rintro ⟨hs, low, rest, c, rfl, unit, pair⟩
    exact ⟨hs, low, rest ++ '"' :: k, c, List.append_assoc .., unit, pair⟩

theorem escape_append_iff {us es k : List Char} {c : Char} :
    Escape (us ++ '"' :: k) es c ↔ Escape us es c := by
  constructor
  all_goals
    intro escape
    cases escape with
    | short known => exact .short known
    | unit unit whole => exact .unit unit whole
    | pair first second pair => exact .pair first second pair
    | half unit half alone => exact .half unit half (by rwa [completes_append_iff] at *)

section

variable {n : Nat} {cs rest : List Char} {c : Char}

theorem readUnit_whole (whole : isSurrogate n = false) (cs : List Char) :
    readUnit n cs = (Char.ofNat n, cs) := by
  unfold readUnit
  rw [whole, if_neg Bool.false_ne_true]

theorem isSurrogate_of_pair {lo : Nat} (pair : pair? n lo = some c) : isSurrogate n = true := by
  unfold pair? at pair
  split at pair
  · next both =>
    rw [isSurrogate, Bool.and_eq_true, decide_eq_true_eq, decide_eq_true_eq]
    omega
  · cases pair

theorem readUnit_pair {ls : List Char} {lo : Nat} (unit : HexUnit ls lo)
    (pair : pair? n lo = some c) (rest : List Char) :
    readUnit n ('\\' :: 'u' :: ls ++ rest) = (c, rest) := by
  obtain ⟨x, y, z, w, rfl, unit⟩ := unit
  simp only [readUnit, isSurrogate_of_pair pair, if_true, List.cons_append, List.nil_append, unit,
    Option.bind_some, pair]

theorem readUnit_half (half : isSurrogate n = true) (alone : ¬ Completes n cs) :
    readUnit n cs = (replacement, cs) := by
  unfold readUnit
  rw [if_pos half]
  split
  · next x y z w rest =>
    split
    · next char found =>
      obtain ⟨low, unit, pair⟩ := Option.bind_eq_some_iff.1 found
      exact (alone ⟨[x, y, z, w], low, rest, char, rfl, ⟨x, y, z, w, rfl, unit⟩, pair⟩).elim
    · rfl
  · rfl

theorem escape_of_readUnit {hs : List Char} (unit : HexUnit hs n)
    (read : readUnit n cs = (c, rest)) :
    ∃ es, hs ++ cs = es ++ rest ∧ Escape rest ('u' :: es) c := by
  cases half : isSurrogate n with
  | false =>
    cases (readUnit_whole half cs).symm.trans read
    exact ⟨hs, rfl, .unit unit half⟩
  | true =>
    by_cases completes : Completes n cs
    · obtain ⟨ls, low, after, char, rfl, second, pair⟩ := completes
      cases (readUnit_pair second pair after).symm.trans read
      exact ⟨hs ++ '\\' :: 'u' :: ls, (List.append_assoc ..).symm, .pair unit second pair⟩
    · cases (readUnit_half half completes).symm.trans read
      exact ⟨hs, rfl, .half unit half completes⟩

theorem escape_of_readEscape (read : readEscape? cs = some (c, rest)) :
    ∃ es, cs = es ++ rest ∧ Escape rest es c := by
  unfold readEscape? at read
  split at read
  · cases read
  · next e cs =>
    split at read
    · next isUnit =>
      split at read
      · next x y z w after =>
        obtain ⟨n, unit, read⟩ := Option.map_eq_some_iff.1 read
        obtain ⟨es, split, escape⟩ := escape_of_readUnit ⟨x, y, z, w, rfl, unit⟩ read
        exact ⟨'u' :: es, by rw [isUnit, List.cons_append, ← split]; rfl, escape⟩
      · cases read
    · obtain ⟨char, known, read⟩ := Option.map_eq_some_iff.1 read
      cases read
      exact ⟨[e], rfl, .short known⟩

theorem readEscape?_unit {hs : List Char} (unit : HexUnit hs n) (cs : List Char) :
    readEscape? ('u' :: (hs ++ cs)) = some (readUnit n cs) := by
  obtain ⟨x, y, z, w, rfl, unit⟩ := unit
  simp only [readEscape?, if_true, List.cons_append, List.nil_append, unit, Option.map_some]

/-- An escape is read as what it stands for. -/
theorem Escape.read {es : List Char} (escape : Escape rest es c) :
    readEscape? (es ++ rest) = some (c, rest) := by
  cases escape with
  | @short e _ known =>
    have other : e ≠ 'u' := by
      rintro rfl
      cases known
    simp only [readEscape?, List.cons_append, List.nil_append, if_neg other, known,
      Option.map_some]
  | unit unit whole => exact (readEscape?_unit unit rest).trans (by rw [readUnit_whole whole])
  | @pair hs ls hi lo _ first second pair =>
    rw [List.cons_append, List.append_assoc]
    exact (readEscape?_unit first _).trans (congrArg some (readUnit_pair second pair rest))
  | half unit half alone =>
    exact (readEscape?_unit unit rest).trans (by rw [readUnit_half half alone])

end

/-- What is read as a string spells it. -/
theorem stringBody_of_readString {whole acc cs : List Char} {short : cs.length < whole.length}
    {p : Parsed String whole} (read : @readString whole acc cs short = some p) :
    ∃ body chars, StringBody body chars ∧ cs = body ++ '"' :: p.rest ∧
      p.tree = String.ofList (acc.reverse ++ chars) := by
  fun_induction readString acc cs short with
  | case1 => cases read
  | case2 acc cs short =>
    cases read
    exact ⟨[], [], .nil, rfl, by rw [List.append_nil]⟩
  | case3 => cases read
  | case4 acc cs char rest found _ _ _ ih =>
    obtain ⟨es, rfl, escape⟩ := escape_of_readEscape found
    obtain ⟨body, chars, spells, rfl, tree⟩ := ih read
    exact ⟨'\\' :: (es ++ body), char :: chars, .escape (escape_append_iff.1 escape) spells,
      by simp, by simpa using tree⟩
  | case5 => cases read
  | case6 acc c cs short noQuote noEscape printed _ ih =>
    obtain ⟨body, chars, spells, rfl, tree⟩ := ih read
    exact ⟨c :: body, c :: chars, .plain noQuote noEscape printed spells, rfl, by simpa using tree⟩

/-- A string is read from what spells it. -/
theorem StringBody.read {us cs : List Char} (body : StringBody us cs) (whole acc k : List Char)
    (short : (us ++ '"' :: k).length < whole.length) :
    ∃ shorter, @readString whole acc (us ++ '"' :: k) short =
      some ⟨String.ofList (acc.reverse ++ cs), k, shorter⟩ := by
  induction body generalizing acc with
  | nil =>
    obtain ⟨shorter, read⟩ := readString_quote acc short
    exact ⟨shorter, by rw [List.append_nil]; exact read⟩
  | @plain c us cs noQuote noEscape printed _ ih =>
    obtain ⟨shorter, read⟩ := ih (c :: acc) (Nat.lt_of_succ_lt short)
    refine ⟨shorter, (readString_plain noQuote noEscape printed short
      (Nat.lt_of_succ_lt short)).trans (read.trans ?_)⟩
    simp
  | @escape c es us cs escape _ ih =>
    have fits : (us ++ '"' :: k).length < whole.length := by
      rw [List.cons_append, List.append_assoc, List.length_cons, List.length_append] at short
      omega
    obtain ⟨shorter, read⟩ := ih (c :: acc) fits
    refine ⟨shorter, ?_⟩
    simp only [List.cons_append, List.append_assoc] at short ⊢
    rw [readString_escape (escape_append_iff.2 escape).read short fits, read]
    simp

end ImpHost.Json
