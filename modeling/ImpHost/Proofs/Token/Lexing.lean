import ImpHost.Token.Lexer

/-!
What the lexer does with one token.

`lexFrom` is followed token by token: each kind of token has an equation that says how the lexer
goes on after its text, provided that what follows does not continue it (`Boundary`), and
`lexFrom_emitted` says it of all kinds at once. In the other direction `lexFrom_cons_cases` has all
that the lexer can do at a character, and `emitted_of_lex` says which tokens a source can have at
all.
-/

namespace ImpHost

namespace Text

/-- The ranges of white space. -/
def spaceRanges : List (Nat × Nat) :=
  [(0x09, 0x0D), (0x20, 0x20), (0x85, 0x85), (0xA0, 0xA0), (0x1680, 0x1680), (0x2000, 0x200A),
    (0x2028, 0x2029), (0x202F, 0x202F), (0x205F, 0x205F), (0x3000, 0x3000)]

theorem inRanges_of_isSpace {c : Char} (space : isSpace c = true) :
    inRanges spaceRanges c.toNat = true := by
  simp only [isSpace, Bool.or_eq_true, Bool.and_eq_true, decide_eq_true_eq, beq_iff_eq] at space
  simp only [inRanges, spaceRanges, List.any_cons, List.any_nil, Bool.or_eq_true, Bool.and_eq_true,
    decide_eq_true_eq]
  omega

/-- What lies in one of some ranges does not lie in one of those that are apart from them. -/
theorem inRanges_of_apart {ranges others : List (Nat × Nat)} {n : Nat}
    (apart : ranges.all (fun r => others.all fun o => r.2 < o.1 || o.2 < r.1) = true)
    (inside : inRanges ranges n = true) : inRanges others n = false := by
  obtain ⟨r, isRange, low, high⟩ : ∃ r ∈ ranges, r.1 ≤ n ∧ n ≤ r.2 := by
    simpa [inRanges] using inside
  rw [inRanges, List.any_eq_false]
  intro o isOther
  have gap := List.all_eq_true.1 (List.all_eq_true.1 apart r isRange) o isOther
  simp only [Bool.or_eq_true, decide_eq_true_eq] at gap
  simp only [Bool.and_eq_true, decide_eq_true_eq, not_and, Nat.not_le]
  omega

/-- No white space is a letter. -/
theorem isLetter_of_isSpace {c : Char} (space : isSpace c = true) : isLetter c = false := by
  have inside := inRanges_of_isSpace space
  unfold isLetter
  split
  · next ascii =>
    have small : c.toNat ≤ 0x20 := by
      simp only [isSpace, Bool.or_eq_true, Bool.and_eq_true, decide_eq_true_eq, beq_iff_eq] at space
      omega
    have notLower : ¬ 'a' ≤ c := fun le => absurd (Nat.le_trans (show 97 ≤ c.toNat from le) small)
      (by decide)
    have notUpper : ¬ 'A' ≤ c := fun le => absurd (Nat.le_trans (show 65 ≤ c.toNat from le) small)
      (by decide)
    simp [notLower, notUpper]
  · exact inRanges_of_apart (by decide +kernel) inside

theorem toNat_of_isAsciiDigit {c : Char} (digit : isAsciiDigit c = true) :
    48 ≤ c.toNat ∧ c.toNat ≤ 57 := by
  simp only [isAsciiDigit, Bool.and_eq_true, decide_eq_true_eq] at digit
  exact digit

theorem isSpace_of_isAsciiDigit {c : Char} (digit : isAsciiDigit c = true) :
    isSpace c = false := by
  have range := toNat_of_isAsciiDigit digit
  cases space : isSpace c with
  | false => rfl
  | true =>
    simp only [isSpace, Bool.or_eq_true, Bool.and_eq_true, decide_eq_true_eq, beq_iff_eq] at space
    omega

theorem isLetter_of_isAsciiDigit {c : Char} (digit : isAsciiDigit c = true) :
    isLetter c = false := by
  have range := toNat_of_isAsciiDigit digit
  have notLower : ¬ 'a' ≤ c := fun le => by
    have : 97 ≤ c.toNat := le
    omega
  have notUpper : ¬ 'A' ≤ c := fun le => by
    have : 65 ≤ c.toNat := le
    omega
  rw [isLetter, if_pos (by omega)]
  simp [notLower, notUpper]

end Text

namespace Token

open Text

variable {pos : Nat} {acc : List Token} {cs k : List Char}

/-- What `k` starts with, if anything, continues neither a word nor an integer. -/
def Boundary (k : List Char) : Prop :=
  ∀ c, k.head? = some c → isWordPart c = false

theorem Boundary.nil : Boundary [] := by
  intro c head
  cases head

theorem Boundary.cons {c : Char} (other : isWordPart c = false) : Boundary (c :: k) := by
  intro d head
  cases head
  exact other

theorem isWordPart_of_isAsciiDigit {c : Char} (digit : isAsciiDigit c = true) :
    isWordPart c = true := by
  have range := toNat_of_isAsciiDigit digit
  simp [isWordPart, isDecimalDigit, digit, show c.toNat < 0x80 by omega]

theorem Boundary.head_not_digit (boundary : Boundary k) :
    ∀ c, k.head? = some c → isAsciiDigit c = false := by
  intro c head
  cases digit : isAsciiDigit c with
  | false => rfl
  | true => exact (isWordPart_of_isAsciiDigit digit).symm.trans (boundary c head)

/-- Maximal munch takes exactly `body` from in front of `k` if `k` does not go on with more. -/
theorem munch {p : Char → Bool} {body : List Char} (inside : ∀ c ∈ body, p c = true)
    (outside : ∀ c, k.head? = some c → p c = false) :
    (body ++ k).takeWhile p = body ∧ (body ++ k).dropWhile p = k := by
  have stop : k.takeWhile p = [] ∧ k.dropWhile p = k := by
    cases k with
    | nil => exact ⟨rfl, rfl⟩
    | cons c k => simp [outside c rfl]
  rw [List.takeWhile_append_of_pos inside, List.dropWhile_append_of_pos inside, stop.1, stop.2,
    List.append_nil]
  exact ⟨rfl, rfl⟩

/-! ## One token -/

theorem lexFrom_nil : lexFrom pos acc [] = .ok acc.reverse := by
  rw [lexFrom.eq_def]

theorem lexFrom_space {c : Char} (space : isSpace c = true) :
    lexFrom pos acc (c :: cs) = lexFrom (pos + 1) acc cs := by
  rw [lexFrom.eq_def]
  exact if_pos space

theorem lexFrom_semi :
    lexFrom pos acc (';' :: cs) = lexFrom (pos + 1) (⟨.semi, ";", 0, pos⟩ :: acc) cs := by
  rw [lexFrom.eq_def]
  dsimp only
  rw [if_neg (by decide), if_pos (by decide)]

theorem lexFrom_open :
    lexFrom pos acc ('(' :: cs) = lexFrom (pos + 1) (⟨.lparen, "(", 0, pos⟩ :: acc) cs := by
  rw [lexFrom.eq_def]
  dsimp only
  rw [if_neg (by decide), if_neg (by decide), if_pos (by decide)]

theorem lexFrom_close :
    lexFrom pos acc (')' :: cs) = lexFrom (pos + 1) (⟨.rparen, ")", 0, pos⟩ :: acc) cs := by
  rw [lexFrom.eq_def]
  dsimp only
  rw [if_neg (by decide), if_neg (by decide), if_neg (by decide), if_pos (by decide)]

/-- Digits are read to the last one. They are an integer if that is in range. -/
theorem lexFrom_digits {c : Char} {ds : List Char} (digits : ∀ d ∈ c :: ds, isAsciiDigit d = true)
    (outside : ∀ d, k.head? = some d → isAsciiDigit d = false) :
    lexFrom pos acc (c :: ds ++ k) =
      if digitsValue (c :: ds) ≤ Value.maxInt.toNat then
        lexFrom (pos + 1 + ds.length)
          (⟨.int, String.ofList (c :: ds), Int64.ofNat (digitsValue (c :: ds)), pos⟩ :: acc) k
      else .error (.outOfRange c ds pos) := by
  have digit := digits c List.mem_cons_self
  have other : ∀ d, isAsciiDigit d = false → ¬ (c == d) = true := by
    intro d notDigit same
    rw [beq_iff_eq.1 same, notDigit] at digit
    cases digit
  obtain ⟨taken, left⟩ := munch (fun d member => digits d (List.mem_cons_of_mem c member)) outside
  rw [List.cons_append, lexFrom.eq_def]
  dsimp only
  rw [if_neg (by simp [isSpace_of_isAsciiDigit digit]),
    if_neg (other ';' rfl), if_neg (other '(' rfl), if_neg (other ')' rfl), if_pos digit]
  simp only [taken, left]

theorem lexFrom_int {c : Char} {ds : List Char} (digits : ∀ d ∈ c :: ds, isAsciiDigit d = true)
    (small : digitsValue (c :: ds) ≤ Value.maxInt.toNat)
    (outside : ∀ d, k.head? = some d → isAsciiDigit d = false) :
    lexFrom pos acc (c :: ds ++ k) = lexFrom (pos + 1 + ds.length)
      (⟨.int, String.ofList (c :: ds), Int64.ofNat (digitsValue (c :: ds)), pos⟩ :: acc) k := by
  rw [lexFrom_digits digits outside, if_pos small]

/-- A word is read to its last letter, digit or line. -/
theorem lexFrom_word {c : Char} {ds : List Char} (letter : isLetter c = true)
    (parts : ∀ d ∈ ds, isWordPart d = true) (boundary : Boundary k) :
    lexFrom pos acc (c :: ds ++ k) = lexFrom (pos + 1 + ds.length)
      (⟨wordKind (String.ofList (c :: ds)), String.ofList (c :: ds), 0, pos⟩ :: acc) k := by
  have other : ∀ d, isLetter d = false → ¬ (c == d) = true := by
    intro d notLetter same
    rw [beq_iff_eq.1 same, notLetter] at letter
    cases letter
  have notSpace : ¬ isSpace c = true := by
    intro space
    rw [isLetter_of_isSpace space] at letter
    cases letter
  have notDigit : ¬ isAsciiDigit c = true := by
    intro digit
    rw [isLetter_of_isAsciiDigit digit] at letter
    cases letter
  obtain ⟨taken, left⟩ := munch parts boundary
  rw [List.cons_append, lexFrom.eq_def]
  dsimp only
  rw [if_neg notSpace, if_neg (other ';' (by decide)),
    if_neg (other '(' (by decide)), if_neg (other ')' (by decide)), if_neg notDigit, if_pos letter]
  simp only [taken, left]

/-- Every reserved word is a word, and is read as reserved. -/
theorem spelling_of_keyword (w : Keyword) : ∃ c ds, w.spelling = String.ofList (c :: ds) ∧
    isLetter c = true ∧ (∀ d ∈ ds, isWordPart d = true) ∧ wordKind w.spelling = .keyword w := by
  have chars : ∃ c ds, w.spelling = String.ofList (c :: ds) ∧ isLetter c = true ∧
      ds.all isWordPart = true ∧ wordKind w.spelling = .keyword w := by
    cases w <;> exact ⟨_, _, (String.ofList_toList).symm, by decide, by decide, by decide⟩
  obtain ⟨c, ds, spelled, letter, parts, kind⟩ := chars
  exact ⟨c, ds, spelled, letter, List.all_eq_true.1 parts, kind⟩

/-- A word is reserved if and only if it is spelt like a reserved word, and else a variable. -/
theorem wordKind_cases (s : String) :
    (∃ w : Keyword, s = w.spelling ∧ wordKind s = .keyword w) ∨
      ((∀ w : Keyword, s ≠ w.spelling) ∧ wordKind s = .var) := by
  by_cases reserved : ∃ w : Keyword, s = w.spelling
  · obtain ⟨w, rfl⟩ := reserved
    obtain ⟨_, _, _, _, _, kind⟩ := spelling_of_keyword w
    exact .inl ⟨w, rfl, kind⟩
  · refine .inr ⟨fun w same => reserved ⟨w, same⟩, ?_⟩
    unfold wordKind
    split
    · next w found =>
      have same : (w.spelling == s) = true :=
        List.find?_some (p := fun w : Keyword => w.spelling == s) found
      exact (reserved ⟨w, (beq_iff_eq.1 same).symm⟩).elim
    · rfl

theorem operatorAt?_spelling (o : Operator) : ∃ c ds, o.spelling.toList = c :: ds ∧
    isOperatorStart c = true ∧ operatorAt? c (ds ++ k) = some (o, k) := by
  cases o with
  | plus => cases k <;> exact ⟨'+', [], rfl, rfl, rfl⟩
  | minus => cases k <;> exact ⟨'-', [], rfl, rfl, rfl⟩
  | star => cases k <;> exact ⟨'*', [], rfl, rfl, rfl⟩
  | eq => cases k <;> exact ⟨'=', [], rfl, rfl, rfl⟩
  | assign => exact ⟨':', ['='], rfl, rfl, rfl⟩
  | lte => exact ⟨'<', ['='], rfl, rfl, rfl⟩

/-- A character that starts an operator starts nothing else. -/
theorem of_isOperatorStart {c : Char} (starts : isOperatorStart c = true) :
    isSpace c = false ∧ (c == ';') = false ∧ (c == '(') = false ∧ (c == ')') = false ∧
      isAsciiDigit c = false ∧ isLetter c = false := by
  simp only [isOperatorStart, Bool.or_eq_true, beq_iff_eq] at starts
  rcases starts with ((((rfl | rfl) | rfl) | rfl) | rfl) | rfl <;> decide

/-- Where an operator starts, the lexer goes on after it or fails. -/
theorem lexFrom_of_isOperatorStart {c : Char} (starts : isOperatorStart c = true) :
    lexFrom pos acc (c :: cs) = (operatorAt? c cs).elim (.error (.incomplete c pos)) fun r =>
      lexFrom (pos + r.1.spelling.length) (⟨.operator r.1, r.1.spelling, 0, pos⟩ :: acc) r.2 := by
  obtain ⟨notSpace, notSemi, notOpen, notClose, notDigit, notLetter⟩ := of_isOperatorStart starts
  rw [lexFrom.eq_def]
  dsimp only
  rw [if_neg (by simp [notSpace]), if_neg (by simp [notSemi]), if_neg (by simp [notOpen]),
    if_neg (by simp [notClose]), if_neg (by simp [notDigit]), if_neg (by simp [notLetter]),
    if_pos starts]
  split
  · next o rest read => rw [read]; rfl
  · next unread => rw [unread]; rfl

/-- An operator is read as a whole, whatever follows it. -/
theorem lexFrom_operator (o : Operator) :
    lexFrom pos acc (o.spelling.toList ++ k) =
      lexFrom (pos + o.spelling.length) (⟨.operator o, o.spelling, 0, pos⟩ :: acc) k := by
  obtain ⟨c, ds, chars, starts, read⟩ := operatorAt?_spelling (k := k) o
  rw [chars, List.cons_append, lexFrom_of_isOperatorStart starts, read]
  rfl

/-- A character that is no white space and starts no token is an error. -/
theorem lexFrom_unexpected {c : Char} (notSpace : ¬ isSpace c = true)
    (notSemi : ¬ (c == ';') = true) (notOpen : ¬ (c == '(') = true)
    (notClose : ¬ (c == ')') = true) (notDigit : ¬ isAsciiDigit c = true)
    (notLetter : ¬ isLetter c = true) (notStart : ¬ isOperatorStart c = true) :
    lexFrom pos acc (c :: cs) = .error (.unexpected c pos) := by
  rw [lexFrom.eq_def]
  dsimp only
  rw [if_neg notSpace, if_neg notSemi, if_neg notOpen, if_neg notClose, if_neg notDigit,
    if_neg notLetter, if_neg notStart]

/-! ## The tokens of a source -/

/-- The tokens that a source can have. -/
inductive Emitted : Token → Prop
  | semi {pos : Int} : Emitted ⟨.semi, ";", 0, pos⟩
  | lparen {pos : Int} : Emitted ⟨.lparen, "(", 0, pos⟩
  | rparen {pos : Int} : Emitted ⟨.rparen, ")", 0, pos⟩
  | int {c : Char} {ds : List Char} {pos : Int} :
    (∀ d ∈ c :: ds, isAsciiDigit d = true) → digitsValue (c :: ds) ≤ Value.maxInt.toNat →
    Emitted ⟨.int, String.ofList (c :: ds), Int64.ofNat (digitsValue (c :: ds)), pos⟩
  | word {c : Char} {ds : List Char} {pos : Int} :
    isLetter c = true → (∀ d ∈ ds, isWordPart d = true) →
    Emitted ⟨wordKind (String.ofList (c :: ds)), String.ofList (c :: ds), 0, pos⟩
  | operator {o : Operator} {pos : Int} : Emitted ⟨.operator o, o.spelling, 0, pos⟩

theorem Emitted.length_pos {t : Token} (emitted : Emitted t) : 0 < t.text.toList.length := by
  cases emitted with
  | semi | lparen | rparen | int | word => simp
  | @operator o => cases o <;> simp [Operator.spelling]

/-- The token is a word, reserved or not. -/
def IsWord (t : Token) : Prop :=
  t.kind = .var ∨ ∃ w, t.kind = .keyword w

theorem isWord_of_wordKind {t : Token} {w : String} (kind : t.kind = wordKind w) : t.IsWord := by
  unfold wordKind at kind
  split at kind
  · exact .inr ⟨_, kind⟩
  · exact .inl kind

theorem IsWord.kind_ne_int {t : Token} (word : t.IsWord) : t.kind ≠ .int := by
  intro isInt
  rcases word with isVar | ⟨w, isKeyword⟩
  · cases isInt.symm.trans isVar
  · cases isInt.symm.trans isKeyword

/-- What follows a token does not continue it: no digit stands after an integer, and no letter,
digit or line after a word. -/
structure EndsBefore (t : Token) (k : List Char) : Prop where
  int : t.kind = .int → ∀ c, k.head? = some c → isAsciiDigit c = false
  word : t.IsWord → Boundary k

theorem endsBefore_of_isWord {t : Token} (word : t.IsWord) (boundary : Boundary k) :
    t.EndsBefore k :=
  ⟨fun isInt => (word.kind_ne_int isInt).elim, fun _ => boundary⟩

/-- A token that is neither an integer nor a word cannot be continued. -/
theorem endsBefore_of_other {t : Token} (notInt : t.kind ≠ .int) (notWord : ¬ t.IsWord) :
    t.EndsBefore k :=
  ⟨fun isInt => (notInt isInt).elim, fun isWord => (notWord isWord).elim⟩

theorem endsBefore_of_int {t : Token} (isInt : t.kind = .int)
    (outside : ∀ c, k.head? = some c → isAsciiDigit c = false) : t.EndsBefore k :=
  ⟨fun _ => outside, fun isWord => (isWord.kind_ne_int isInt).elim⟩

/-- A token that the lexer can emit is read as a whole where nothing continues it. -/
theorem lexFrom_emitted {t : Token} (emitted : Emitted t) (place : t.pos = pos)
    (ends : t.EndsBefore k) :
    lexFrom pos acc (t.text.toList ++ k) =
      lexFrom (pos + t.text.toList.length) (t :: acc) k := by
  obtain ⟨kind, text, value, _⟩ := t
  dsimp only at place ⊢
  subst place
  cases emitted with
  | semi => simpa using lexFrom_semi
  | lparen => simpa using lexFrom_open
  | rparen => simpa using lexFrom_close
  | int digits small =>
    rw [String.toList_ofList, lexFrom_int digits small (ends.int rfl), List.length_cons,
      Nat.add_assoc, Nat.add_comm 1]
  | word letter parts =>
    rw [String.toList_ofList, lexFrom_word letter parts (ends.word (isWord_of_wordKind rfl)),
      List.length_cons, Nat.add_assoc, Nat.add_comm 1]
  | operator => rw [lexFrom_operator, String.length_toList]

theorem singleOperator?_eq_some_iff {c : Char} {o : Operator} :
    singleOperator? c = some o ↔ o.spelling.toList = [c] := by
  constructor
  · intro read
    unfold singleOperator? at read
    split at read
    · next same => cases read; rw [beq_iff_eq.1 same]; rfl
    split at read
    · next same => cases read; rw [beq_iff_eq.1 same]; rfl
    split at read
    · next same => cases read; rw [beq_iff_eq.1 same]; rfl
    split at read
    · next same => cases read; rw [beq_iff_eq.1 same]; rfl
    · cases read
  · intro chars
    cases o <;> cases chars <;> rfl

theorem doubleOperator?_eq_some_iff {c d : Char} {o : Operator} :
    doubleOperator? c d = some o ↔ o.spelling.toList = [c, d] := by
  constructor
  · intro read
    simp only [doubleOperator?, Bool.and_eq_true, beq_iff_eq] at read
    split at read
    · next same => cases read; rw [same.1, same.2]; rfl
    split at read
    · next same => cases read; rw [same.1, same.2]; rfl
    · cases read
  · intro chars
    cases o <;> cases chars <;> rfl

theorem spelling_of_operatorAt? {c : Char} {o : Operator}
    (read : operatorAt? c cs = some (o, k)) : c :: cs = o.spelling.toList ++ k := by
  unfold operatorAt? at read
  split at read
  · obtain ⟨_, spelled, eq⟩ := Option.map_eq_some_iff.1 read
    cases eq
    rw [singleOperator?_eq_some_iff.1 spelled]
    rfl
  · split at read
    · next spelled =>
      cases read
      rw [doubleOperator?_eq_some_iff.1 spelled]
      rfl
    · obtain ⟨_, spelled, eq⟩ := Option.map_eq_some_iff.1 read
      cases eq
      rw [singleOperator?_eq_some_iff.1 spelled]
      rfl

/-- Only a colon and a less sign are no operator where `=` does not follow. -/
theorem of_operatorAt?_eq_none {c : Char} (starts : isOperatorStart c = true)
    (unread : operatorAt? c cs = none) : (c = ':' ∨ c = '<') ∧ cs.head? ≠ some '=' := by
  have single : singleOperator? c = none := by
    unfold operatorAt? at unread
    split at unread
    · exact Option.map_eq_none_iff.1 unread
    · split at unread
      · cases unread
      · exact Option.map_eq_none_iff.1 unread
  have sort : c = ':' ∨ c = '<' := by
    simp only [isOperatorStart, Bool.or_eq_true, beq_iff_eq] at starts
    rcases starts with ((((rfl | rfl) | rfl) | rfl) | rfl) | rfl
    · cases single
    · cases single
    · cases single
    · exact .inl rfl
    · cases single
    · exact .inr rfl
  refine ⟨sort, fun follows => ?_⟩
  obtain ⟨ds, rfl⟩ := List.head?_eq_some_iff.1 follows
  rcases sort with rfl | rfl <;> cases unread

/-- A token of the language starts with the character. -/
def Starts (c : Char) : Prop :=
  ∃ t, Emitted t ∧ t.text.toList.head? = some c

theorem cases_of_starts {c : Char} (starts : Starts c) :
    c = ';' ∨ c = '(' ∨ c = ')' ∨ isAsciiDigit c = true ∨ isLetter c = true ∨
      isOperatorStart c = true := by
  obtain ⟨t, emitted, head⟩ := starts
  cases emitted with
  | semi => exact .inl (by simpa [eq_comm] using head)
  | lparen => exact .inr (.inl (by simpa [eq_comm] using head))
  | rparen => exact .inr (.inr (.inl (by simpa [eq_comm] using head)))
  | int digits =>
    rw [String.toList_ofList] at head
    cases head
    simp [digits]
  | word letter =>
    rw [String.toList_ofList] at head
    cases head
    simp [letter]
  | @operator o =>
    obtain ⟨d, ds, chars, start, -⟩ := operatorAt?_spelling (k := []) o
    rw [chars] at head
    cases head
    simp [start]

/-- What the lexer cannot read stands at the front of `cs`, whose first character has the position
`pos`: a character with which no token starts, the digits of an integer beyond the greatest value,
or a colon or a less sign without its `=`. -/
inductive FaultAt : LexError → Nat → List Char → Prop
  | unexpected {c : Char} {cs : List Char} {pos : Nat} :
    isSpace c = false → ¬ Starts c → FaultAt (.unexpected c pos) pos (c :: cs)
  | outOfRange {c : Char} {ds k : List Char} {pos : Nat} :
    (∀ d ∈ c :: ds, isAsciiDigit d = true) → Value.maxInt.toNat < digitsValue (c :: ds) →
    (∀ d, k.head? = some d → isAsciiDigit d = false) →
    FaultAt (.outOfRange c ds pos) pos (c :: ds ++ k)
  | incomplete {c : Char} {cs : List Char} {pos : Nat} :
    c = ':' ∨ c = '<' → cs.head? ≠ some '=' → FaultAt (.incomplete c pos) pos (c :: cs)

theorem head_dropWhile {p : Char → Bool} :
    ∀ d, (cs.dropWhile p).head? = some d → p d = false := by
  intro d head
  have first := List.head?_dropWhile_not p cs
  rw [head] at first
  exact first

/-- What the lexer does at a character: it skips white space, or it reads one token that stands
there, as long as it goes, and goes on after it, or it fails for what stands there. -/
theorem lexFrom_cons_cases (pos : Nat) (acc : List Token) (c : Char) (cs : List Char) :
    (isSpace c = true ∧ lexFrom pos acc (c :: cs) = lexFrom (pos + 1) acc cs) ∨
      (∃ t k, Emitted t ∧ t.pos = pos ∧ t.EndsBefore k ∧ c :: cs = t.text.toList ++ k ∧
        lexFrom pos acc (c :: cs) = lexFrom (pos + t.text.toList.length) (t :: acc) k) ∨
      ∃ e, FaultAt e pos (c :: cs) ∧ lexFrom pos acc (c :: cs) = .error e := by
  by_cases space : isSpace c = true
  · exact .inl ⟨space, lexFrom_space space⟩
  right
  rw [lexFrom.eq_def]
  dsimp only
  rw [if_neg space]
  split
  · next same =>
    rw [beq_iff_eq.1 same]
    exact .inl ⟨_, cs, .semi, rfl, endsBefore_of_other (by simp) (by simp [IsWord]), by simp,
      by simp⟩
  split
  · next same =>
    rw [beq_iff_eq.1 same]
    exact .inl ⟨_, cs, .lparen, rfl, endsBefore_of_other (by simp) (by simp [IsWord]), by simp,
      by simp⟩
  split
  · next same =>
    rw [beq_iff_eq.1 same]
    exact .inl ⟨_, cs, .rparen, rfl, endsBefore_of_other (by simp) (by simp [IsWord]), by simp,
      by simp⟩
  split
  · next digit =>
    have digits : ∀ d ∈ c :: cs.takeWhile isAsciiDigit, isAsciiDigit d = true := by
      intro d member
      rcases List.mem_cons.1 member with rfl | member
      · exact digit
      · exact List.all_eq_true.1 List.all_takeWhile d member
    split
    · next small =>
      refine .inl ⟨_, cs.dropWhile isAsciiDigit, .int digits small, rfl,
        endsBefore_of_int rfl head_dropWhile, ?_, ?_⟩
      · simp
      · simp [Nat.add_assoc, Nat.add_comm 1]
    · next large =>
      refine .inr ⟨_, ?_, rfl⟩
      have fault : FaultAt (.outOfRange c (cs.takeWhile isAsciiDigit) pos) pos
          (c :: cs.takeWhile isAsciiDigit ++ cs.dropWhile isAsciiDigit) :=
        .outOfRange digits (Nat.not_le.1 large) head_dropWhile
      rwa [List.cons_append, List.takeWhile_append_dropWhile] at fault
  split
  · next letter =>
    have parts : ∀ d ∈ cs.takeWhile isWordPart, isWordPart d = true :=
      List.all_eq_true.1 List.all_takeWhile
    refine .inl ⟨_, cs.dropWhile isWordPart, .word letter parts, rfl,
      endsBefore_of_isWord (isWord_of_wordKind rfl) head_dropWhile, ?_, ?_⟩
    · simp
    · simp [Nat.add_assoc, Nat.add_comm 1]
  split
  · next starts =>
    split
    · next o rest read =>
      exact .inl ⟨_, rest, .operator, rfl, endsBefore_of_other (by simp) (by simp [IsWord]),
        spelling_of_operatorAt? read, by rw [String.length_toList]⟩
    · next unread =>
      obtain ⟨sort, follows⟩ := of_operatorAt?_eq_none starts unread
      exact .inr ⟨_, .incomplete sort follows, rfl⟩
  · refine .inr ⟨_, .unexpected (Bool.eq_false_iff.2 space) fun starts => ?_, rfl⟩
    have := cases_of_starts starts
    simp_all

/-- A source that the lexer takes is made of white space and of the tokens that it adds: what both
keep in front of a source and its tokens holds of the whole. -/
theorem lexFrom_induction {motive : List Char → List Token → Prop} (nil : motive [] [])
    (space : ∀ c cs us, isSpace c = true → motive cs us → motive (c :: cs) us)
    (token : ∀ t k us, Emitted t → motive k us → motive (t.text.toList ++ k) (t :: us))
    {ts : List Token} (lexed : lexFrom pos acc cs = .ok ts) :
    ∃ us, ts = acc.reverse ++ us ∧ motive cs us := by
  induction length : cs.length using Nat.strongRecOn generalizing pos acc cs with
  | _ n ih =>
    cases cs with
    | nil =>
      rw [lexFrom_nil] at lexed
      cases lexed
      exact ⟨[], (List.append_nil _).symm, nil⟩
    | cons c cs =>
      rcases lexFrom_cons_cases pos acc c cs with
        ⟨isSpace, next⟩ | ⟨t, k, emitted, -, -, spelled, next⟩ | ⟨e, -, failed⟩
      · rw [next] at lexed
        obtain ⟨us, added, holds⟩ := ih _ (by rw [← length]; exact Nat.lt_succ_self _) lexed rfl
        exact ⟨us, added, space c cs us isSpace holds⟩
      · rw [next] at lexed
        rw [spelled, List.length_append] at length
        have shorter := emitted.length_pos
        obtain ⟨us, added, holds⟩ := ih k.length (by omega) lexed rfl
        rw [spelled]
        exact ⟨t :: us, by rw [added]; simp, token t k us emitted holds⟩
      · cases failed.symm.trans lexed

/-- What white space and the tokens of a source keep in front of a source holds of one that the
lexer takes. -/
theorem lexed_induction {motive : List Char → Prop} (nil : motive [])
    (space : ∀ c cs, isSpace c = true → motive cs → motive (c :: cs))
    (token : ∀ t k, Emitted t → motive k → motive (t.text.toList ++ k)) {ts : List Token}
    (lexed : lexFrom pos acc cs = .ok ts) : motive cs := by
  obtain ⟨_, _, holds⟩ := lexFrom_induction (motive := fun cs _ => motive cs) nil
    (fun c cs _ => space c cs) (fun t k _ => token t k) lexed
  exact holds

theorem emitted_of_lex {ts : List Token} (read : lex cs = .ok ts) : ∀ t ∈ ts, Emitted t := by
  obtain ⟨us, rfl, emitted⟩ := lexFrom_induction (motive := fun _ us => ∀ t ∈ us, Emitted t)
    (by simp) (fun _ _ _ _ holds => holds)
    (fun t _ _ emitted holds => List.forall_mem_cons.2 ⟨emitted, holds⟩) read
  exact emitted

theorem Emitted.kind_ne_eof {t : Token} (emitted : Emitted t) : t.kind ≠ .eof := by
  cases emitted with
  | semi | lparen | rparen | int | operator => simp
  | word =>
    unfold wordKind
    split <;> simp

/-! ## Names of variables -/

/-- A name of a variable: a text that is read as one token for a variable. -/
def IsName (x : String) : Prop :=
  lex x.toList = .ok [⟨.var, x, 0, 1⟩]

/-- A name is a word that is not reserved. -/
theorem isName_iff {x : String} : IsName x ↔ ∃ c ds, x = String.ofList (c :: ds) ∧
    isLetter c = true ∧ (∀ d ∈ ds, isWordPart d = true) ∧ wordKind x = .var := by
  constructor
  · intro name
    have emitted := emitted_of_lex name _ (List.mem_singleton.2 rfl)
    generalize token : (⟨.var, x, 0, 1⟩ : Token) = t at emitted
    cases emitted with
    | word letter parts =>
      injection token with kind text
      exact ⟨_, _, text, letter, parts, text ▸ kind.symm⟩
    | semi | lparen | rparen | int | operator => cases token
  · rintro ⟨c, ds, rfl, letter, parts, kind⟩
    have read : lexFrom 1 [] (c :: ds ++ []) = _ := lexFrom_word letter parts .nil
    rw [List.append_nil, lexFrom_nil, kind] at read
    rw [IsName, String.toList_ofList]
    exact read

theorem lexFrom_name {x : String} (name : IsName x) (boundary : Boundary k) :
    lexFrom pos acc (x.toList ++ k) =
      lexFrom (pos + x.toList.length) (⟨.var, x, 0, pos⟩ :: acc) k := by
  obtain ⟨c, ds, rfl, letter, parts, kind⟩ := isName_iff.1 name
  rw [String.toList_ofList, lexFrom_word letter parts boundary, kind, List.length_cons,
    Nat.add_assoc, Nat.add_comm 1]

theorem Emitted.isName {t : Token} (emitted : Emitted t) (isVar : t.kind = .var) :
    IsName t.text := by
  cases emitted with
  | word letter parts => exact isName_iff.2 ⟨_, _, rfl, letter, parts, isVar⟩
  | semi | lparen | rparen | int | operator => cases isVar

end Token

end ImpHost
