import Mathlib.Algebra.GroupWithZero.Nat
import Mathlib.Data.List.Basic
import ImpHost.Proofs.Text
import ImpHost.Proofs.Token.Lexing

/-!
Sources as tokens with white space between them.

A tokenization of a source says what its tokens are and where they stand, without saying how they
are found: the source is white space, then a token, white space again, and so on, each token is one
of the language (`Lexeme`), and no integer and no word could be longer. `Laid` says the same of the
front of a source that goes on with `k`.

The lexer goes through what is laid out (`Laid.lexFrom_eq`), and whatever it is given, it has laid
out all of it when it ends, or all in front of what it cannot read (`exists_laid`).

Main statements: `lex_is_maximal_munch` says that the lexer finds the tokenization of a source, of
which there is at most one, and `lex_fails_at_first_fault` says where it fails.
-/

namespace ImpHost.Token

open Text

/-! ## Tokens of the language -/

/-- The tokens of the language, wherever they stand: their kind, their text and the number that they
denote. -/
inductive Lexeme : Kind → String → Int64 → Prop
  | semi : Lexeme .semi ";" 0
  | lparen : Lexeme .lparen "(" 0
  | rparen : Lexeme .rparen ")" 0
  | operator (o : Operator) : Lexeme (.operator o) o.spelling 0
  | keyword (w : Keyword) : Lexeme (.keyword w) w.spelling 0
  /-- A letter, and then letters, digits and lines, that are no reserved word. -/
  | var {c : Char} {ds : List Char} :
    isLetter c = true → (∀ d ∈ ds, isWordPart d = true) →
    (∀ w : Keyword, String.ofList (c :: ds) ≠ w.spelling) → Lexeme .var (String.ofList (c :: ds)) 0
  /-- Digits, with zeros in front or without, of a number that is in range. -/
  | int {ds : List Char} {n : Int64} :
    ds ≠ [] → (∀ d ∈ ds, isAsciiDigit d = true) → digitsValue ds ≤ 2 ^ 63 - 1 →
    n.toInt = digitsValue ds → Lexeme .int (String.ofList ds) n

/-- The token is one of the language. -/
abbrev IsLexeme (t : Token) : Prop :=
  Lexeme t.kind t.text t.value

theorem toInt_ofNat_of_le {n : Nat} (small : n ≤ 2 ^ 63 - 1) : (Int64.ofNat n).toInt = n :=
  Int64.toInt_ofNat_of_lt (by omega)

theorem Emitted.isLexeme {t : Token} (emitted : Emitted t) : t.IsLexeme := by
  cases emitted with
  | semi => exact .semi
  | lparen => exact .lparen
  | rparen => exact .rparen
  | operator => exact .operator _
  | int digits small =>
    exact .int (List.cons_ne_nil _ _) digits small (toInt_ofNat_of_le small)
  | @word c ds _ letter parts =>
    rcases wordKind_cases (String.ofList (c :: ds)) with ⟨w, same, kind⟩ | ⟨free, kind⟩
    · rw [IsLexeme, kind]
      dsimp only
      rw [same]
      exact .keyword w
    · rw [IsLexeme, kind]
      exact .var letter parts free

theorem emitted_of_isLexeme {t : Token} (lexeme : t.IsLexeme) : Emitted t := by
  obtain ⟨kind, text, value, pos⟩ := t
  dsimp only [IsLexeme] at lexeme
  cases lexeme with
  | semi => exact .semi
  | lparen => exact .lparen
  | rparen => exact .rparen
  | operator => exact .operator
  | keyword w =>
    obtain ⟨c, ds, spelled, letter, parts, kind⟩ := spelling_of_keyword w
    rw [← kind, spelled]
    exact .word letter parts
  | @var c ds letter parts free =>
    rcases wordKind_cases (String.ofList (c :: ds)) with ⟨w, same, -⟩ | ⟨-, kind⟩
    · exact (free w same).elim
    · rw [← kind]
      exact .word letter parts
  | int some digits small denotes =>
    obtain ⟨c, ds, rfl⟩ := List.exists_cons_of_ne_nil some
    have same : value = Int64.ofNat (digitsValue (c :: ds)) :=
      Int64.toInt_inj.1 (denotes.trans (toInt_ofNat_of_le small).symm)
    rw [same]
    exact .int digits small

theorem IsLexeme.value_eq_zero {t : Token} (lexeme : t.IsLexeme) (other : t.kind ≠ .int) :
    t.value = 0 := by
  cases emitted_of_isLexeme lexeme with
  | int => exact (other rfl).elim
  | semi | lparen | rparen | word | operator => rfl

/-! ## Layouts -/

/-- The characters of tokens with the white space behind each. -/
def spelled (pieces : List (Token × List Char)) : List Char :=
  pieces.flatMap fun p => p.1.text.toList ++ p.2

/-- White space and then tokens, with white space behind each, stand in front of `k`; the first
character of all has the position `pos`. -/
structure Laid (pos : Nat) (gap : List Char) (pieces : List (Token × List Char))
    (k : List Char) : Prop where
  /-- The gap at the front is white space. -/
  front : ∀ c ∈ gap, isSpace c = true
  /-- The gap behind each token is white space. -/
  gaps : ∀ p ∈ pieces, ∀ c ∈ p.2, isSpace c = true
  lexemes : ∀ p ∈ pieces, p.1.IsLexeme
  /-- The position of a token is that of its first character. -/
  places : ∀ before p after, pieces = before ++ p :: after →
    p.1.pos = ((pos + (gap ++ spelled before).length : Nat) : Int)
  /-- No token could be longer. -/
  longest : ∀ before p after, pieces = before ++ p :: after →
    p.1.EndsBefore (p.2 ++ spelled after ++ k)

/-- The source is white space and then tokens, with white space behind each. -/
structure Tokenization (source gap : List Char) (pieces : List (Token × List Char)) : Prop where
  whole : source = gap ++ spelled pieces
  laid : Laid 1 gap pieces []

variable {pos : Nat} {acc : List Token} {gap cs k : List Char} {t : Token}
  {pieces : List (Token × List Char)}

theorem spelled_cons (t : Token) (gap : List Char) (pieces : List (Token × List Char)) :
    spelled ((t, gap) :: pieces) = t.text.toList ++ (gap ++ spelled pieces) := by
  rw [spelled, List.flatMap_cons, List.append_assoc]
  rfl

/-- A statement about all places of a list is one about its first place and one about the others. -/
theorem forall_split_cons {α : Type} {x : α} {xs : List α} {holds : List α → α → List α → Prop} :
    (∀ before p after, x :: xs = before ++ p :: after → holds before p after) ↔
      holds [] x xs ∧
        ∀ before p after, xs = before ++ p :: after → holds (x :: before) p after := by
  constructor
  · intro all
    exact ⟨all [] x xs rfl, fun before p after split => all _ p after (congrArg (x :: ·) split)⟩
  · rintro ⟨first, others⟩ before p after split
    cases before with
    | nil =>
      cases split
      exact first
    | cons y before =>
      cases split
      exact others before p after rfl

theorem laid_nil_iff : Laid pos gap [] k ↔ ∀ c ∈ gap, isSpace c = true := by
  refine ⟨Laid.front, fun front => ⟨front, List.forall_mem_nil _, List.forall_mem_nil _,
    fun before p after split => ?_, fun before p after split => ?_⟩⟩
  · simp at split
  · simp at split

/-- A layout is its first token between two gaps, and then a layout from there on. -/
theorem laid_cons_iff {behind : List Char} :
    Laid pos gap ((t, behind) :: pieces) k ↔
      (∀ c ∈ gap, isSpace c = true) ∧ t.IsLexeme ∧ t.pos = ((pos + gap.length : Nat) : Int) ∧
        t.EndsBefore (behind ++ spelled pieces ++ k) ∧
        Laid (pos + gap.length + t.text.toList.length) behind pieces k := by
  have shift (before : List (Token × List Char)) :
      pos + (gap ++ spelled ((t, behind) :: before)).length =
        pos + gap.length + t.text.toList.length + (behind ++ spelled before).length := by
    rw [spelled_cons]
    simp only [List.length_append]
    omega
  have start : pos + (gap ++ spelled []).length = pos + gap.length := by
    rw [spelled, List.flatMap_nil, List.append_nil]
  constructor
  · rintro ⟨front, gaps, lexemes, places, longest⟩
    obtain ⟨gap', gaps⟩ := List.forall_mem_cons.1 gaps
    obtain ⟨lexeme, lexemes⟩ := List.forall_mem_cons.1 lexemes
    obtain ⟨place, places⟩ := forall_split_cons.1 places
    obtain ⟨ends, longest⟩ := forall_split_cons.1 longest
    simp only [shift] at places
    rw [start] at place
    exact ⟨front, lexeme, place, ends, gap', gaps, lexemes, places, longest⟩
  · rintro ⟨front, lexeme, place, ends, gap', gaps, lexemes, places, longest⟩
    refine ⟨front, List.forall_mem_cons.2 ⟨gap', gaps⟩,
      List.forall_mem_cons.2 ⟨lexeme, lexemes⟩, forall_split_cons.2 ⟨?_, ?_⟩,
      forall_split_cons.2 ⟨ends, longest⟩⟩
    · rw [start]
      exact place
    · simp only [shift]
      exact places

/-- White space in front makes the first gap longer. -/
theorem Laid.space {c : Char} (space : isSpace c = true) (laid : Laid (pos + 1) gap pieces k) :
    Laid pos (c :: gap) pieces k := by
  have shift (before : List (Token × List Char)) :
      pos + (c :: gap ++ spelled before).length = pos + 1 + (gap ++ spelled before).length := by
    simp only [List.length_append, List.length_cons]
    omega
  refine ⟨List.forall_mem_cons.2 ⟨space, laid.front⟩, laid.gaps, laid.lexemes, ?_, laid.longest⟩
  simp only [shift]
  exact laid.places

/-- What does not continue a token does not do so where the source is cut off. -/
theorem EndsBefore.of_append (ends : t.EndsBefore (cs ++ k)) : t.EndsBefore cs := by
  have keep {c : Char} (head : cs.head? = some c) : (cs ++ k).head? = some c := by
    rw [List.head?_append, head]
    rfl
  exact ⟨fun isInt c head => ends.int isInt c (keep head),
    fun isWord c head => ends.word isWord c (keep head)⟩

theorem Laid.cut (laid : Laid pos gap pieces k) : Laid pos gap pieces [] := by
  refine ⟨laid.front, laid.gaps, laid.lexemes, laid.places, fun before p after split => ?_⟩
  rw [List.append_nil]
  exact (laid.longest before p after split).of_append

/-! ## The lexer and layouts -/

theorem lexFrom_spaces (spaces : ∀ c ∈ gap, isSpace c = true) :
    lexFrom pos acc (gap ++ cs) = lexFrom (pos + gap.length) acc cs := by
  induction gap generalizing pos with
  | nil => rfl
  | cons c gap ih =>
    obtain ⟨space, spaces⟩ := List.forall_mem_cons.1 spaces
    rw [List.cons_append, lexFrom_space space, ih spaces, List.length_cons, Nat.add_right_comm,
      Nat.add_assoc]

/-- The lexer reads the tokens that are laid out and comes to what is behind them. -/
theorem Laid.lexFrom_eq (laid : Laid pos gap pieces k) :
    lexFrom pos acc (gap ++ spelled pieces ++ k) =
      lexFrom (pos + (gap ++ spelled pieces).length) ((pieces.map Prod.fst).reverse ++ acc) k := by
  induction pieces generalizing pos gap acc with
  | nil =>
    rw [spelled, List.flatMap_nil, List.append_nil]
    exact lexFrom_spaces laid.front
  | cons p pieces ih =>
    obtain ⟨t, behind⟩ := p
    obtain ⟨front, lexeme, place, ends, rest⟩ := laid_cons_iff.1 laid
    rw [spelled_cons, List.append_assoc, lexFrom_spaces front, List.append_assoc,
      lexFrom_emitted (emitted_of_isLexeme lexeme) place ends, ih rest]
    simp only [List.length_append, List.map_cons, List.reverse_cons, List.append_assoc,
      List.singleton_append, Nat.add_assoc]

/-- Whatever the lexer is given, it lays out a front of it: all of it, and then it has these tokens,
or all in front of what it fails for. -/
theorem exists_laid (pos : Nat) (acc : List Token) (cs : List Char) :
    ∃ gap pieces k, cs = gap ++ spelled pieces ++ k ∧ Laid pos gap pieces k ∧
      ((k = [] ∧ lexFrom pos acc cs = .ok (acc.reverse ++ pieces.map Prod.fst)) ∨
        ∃ e, FaultAt e (pos + (gap ++ spelled pieces).length) k ∧
          lexFrom pos acc cs = .error e) := by
  induction length : cs.length using Nat.strongRecOn generalizing pos acc cs with
  | _ n ih =>
    cases cs with
    | nil =>
      refine ⟨[], [], [], rfl, laid_nil_iff.2 (List.forall_mem_nil _), .inl ⟨rfl, ?_⟩⟩
      rw [lexFrom_nil, List.map_nil, List.append_nil]
    | cons c cs =>
      rcases lexFrom_cons_cases pos acc c cs with
        ⟨space, next⟩ | ⟨t, rest, emitted, place, ends, split, next⟩ | ⟨e, fault, failed⟩
      · obtain ⟨gap, pieces, k, rfl, laid, outcome⟩ :=
          ih cs.length (by rw [← length]; exact Nat.lt_succ_self _) (pos + 1) acc cs rfl
        have place : pos + (c :: gap ++ spelled pieces).length =
            pos + 1 + (gap ++ spelled pieces).length := by
          simp only [List.length_append, List.length_cons]
          omega
        refine ⟨c :: gap, pieces, k, rfl, laid.space space, ?_⟩
        rw [next, place]
        exact outcome
      · rw [split, List.length_append] at length
        have shorter := emitted.length_pos
        obtain ⟨gap, pieces, k, rfl, laid, outcome⟩ :=
          ih rest.length (by omega) (pos + t.text.toList.length) (t :: acc) rest rfl
        have start : pos + ([] : List Char).length + t.text.toList.length =
            pos + t.text.toList.length := rfl
        have behind : pos + ([] ++ spelled ((t, gap) :: pieces)).length =
            pos + t.text.toList.length + (gap ++ spelled pieces).length := by
          rw [List.nil_append, spelled_cons, List.length_append, Nat.add_assoc]
        refine ⟨[], (t, gap) :: pieces, k, ?_, laid_cons_iff.2
          ⟨List.forall_mem_nil _, emitted.isLexeme, place, ends, start ▸ laid⟩, ?_⟩
        · rw [split, List.nil_append, spelled_cons]
          simp only [List.append_assoc]
        · rw [next, behind]
          simpa only [List.reverse_cons, List.append_assoc, List.singleton_append, List.map_cons]
            using outcome
      · exact ⟨[], [], c :: cs, rfl, laid_nil_iff.2 (List.forall_mem_nil _),
          .inr ⟨e, fault, failed⟩⟩

/-- The lexer takes a source if and only if it has a tokenization, and has its tokens. -/
theorem lex_eq_ok_iff {source : List Char} {ts : List Token} :
    lex source = .ok ts ↔ ∃ gap pieces, Tokenization source gap pieces ∧
      pieces.map Prod.fst = ts := by
  constructor
  · intro lexed
    obtain ⟨gap, pieces, k, whole, laid, ⟨rfl, ok⟩ | ⟨e, -, failed⟩⟩ := exists_laid 1 [] source
    · rw [List.append_nil] at whole
      exact ⟨gap, pieces, ⟨whole, laid⟩, Except.ok.inj (ok.symm.trans lexed)⟩
    · cases failed.symm.trans lexed
  · rintro ⟨gap, pieces, ⟨rfl, laid⟩, rfl⟩
    have read : lexFrom 1 [] (gap ++ spelled pieces ++ []) = _ := laid.lexFrom_eq
    rw [List.append_nil, lexFrom_nil, List.append_nil, List.reverse_reverse] at read
    exact read

/-! ## Positions -/

/-- Tokens stand one behind the other. -/
theorem Laid.ascending (laid : Laid pos gap pieces k) :
    (∀ t ∈ pieces.map Prod.fst, (pos : Int) ≤ t.pos) ∧
      (pieces.map Prod.fst).Pairwise fun t u => t.pos < u.pos := by
  induction pieces generalizing pos gap with
  | nil => exact ⟨List.forall_mem_nil _, .nil⟩
  | cons p pieces ih =>
    obtain ⟨t, behind⟩ := p
    obtain ⟨-, lexeme, place, -, rest⟩ := laid_cons_iff.1 laid
    have longer := (emitted_of_isLexeme lexeme).length_pos
    obtain ⟨later, ascending⟩ := ih rest
    have beyond : ∀ u ∈ pieces.map Prod.fst, t.pos < u.pos := by
      intro u member
      have := later u member
      omega
    refine ⟨List.forall_mem_cons.2 ⟨by dsimp only; omega, fun u member => ?_⟩,
      .cons beyond ascending⟩
    have := beyond u member
    omega

theorem ascending_of_lex {source : List Char} {ts : List Token} (lexed : lex source = .ok ts) :
    ts.Pairwise fun t u => t.pos < u.pos := by
  obtain ⟨gap, pieces, tokenization, rfl⟩ := lex_eq_ok_iff.1 lexed
  exact tokenization.laid.ascending.2

/-- The tokens with their positions leave no choice for the gaps. -/
theorem Laid.eq_of_tokens {gap' : List Char} {pieces' : List (Token × List Char)}
    (laid : Laid pos gap pieces k) (laid' : Laid pos gap' pieces' k)
    (same : gap ++ spelled pieces = gap' ++ spelled pieces')
    (tokens : pieces.map Prod.fst = pieces'.map Prod.fst) : gap = gap' ∧ pieces = pieces' := by
  induction pieces generalizing pos gap gap' pieces' with
  | nil =>
    obtain rfl : pieces' = [] := List.map_eq_nil_iff.1 tokens.symm
    exact ⟨List.append_cancel_right same, rfl⟩
  | cons p pieces ih =>
    obtain ⟨⟨t', behind'⟩, pieces', rfl⟩ : ∃ p' ps', pieces' = p' :: ps' := by
      cases pieces' with
      | nil => cases tokens
      | cons p' ps' => exact ⟨p', ps', rfl⟩
    obtain ⟨t, behind⟩ := p
    obtain ⟨rfl, others⟩ : t = t' ∧ pieces.map Prod.fst = pieces'.map Prod.fst :=
      List.cons.inj tokens
    obtain ⟨-, -, place, -, rest⟩ := laid_cons_iff.1 laid
    obtain ⟨-, -, place', -, rest'⟩ := laid_cons_iff.1 laid'
    -- The first token stands behind a gap of one length, and its text is one text.
    have length : gap.length = gap'.length := by omega
    rw [spelled_cons, spelled_cons] at same
    obtain ⟨rfl, sameRest⟩ := List.append_inj same length
    obtain ⟨rfl, rfl⟩ := ih rest rest' (List.append_cancel_left sameRest) others
    exact ⟨rfl, rfl⟩

theorem Tokenization.unique {source gap gap' : List Char}
    {pieces pieces' : List (Token × List Char)}
    (first : Tokenization source gap pieces) (second : Tokenization source gap' pieces') :
    gap = gap' ∧ pieces = pieces' := by
  have tokens : pieces.map Prod.fst = pieces'.map Prod.fst :=
    Except.ok.inj ((lex_eq_ok_iff.2 ⟨gap, pieces, first, rfl⟩).symm.trans
      (lex_eq_ok_iff.2 ⟨gap', pieces', second, rfl⟩))
  exact first.laid.eq_of_tokens second.laid (first.whole.symm.trans second.whole) tokens

/-- The lexer takes a source if and only if it is white space and then tokens of the language with
white space behind each, where each token has the position of its first character, no digit stands
right after an integer and no letter, digit or line right after a word, and it has these tokens. A
source has at most one such tokenization. The positions ascend, and no token but an integer denotes
a number. -/
theorem lex_is_maximal_munch (source : Text) :
    (∀ ts, lex source.chars = .ok ts ↔
      ∃ gap pieces, Tokenization source.chars gap pieces ∧ pieces.map Prod.fst = ts) ∧
    (∀ gap gap' pieces pieces', Tokenization source.chars gap pieces →
      Tokenization source.chars gap' pieces' → gap = gap' ∧ pieces = pieces') ∧
    ∀ ts, lex source.chars = .ok ts →
      (ts.Pairwise fun t u => t.pos < u.pos) ∧ ∀ t ∈ ts, t.kind ≠ .int → t.value = 0 := by
  refine ⟨fun ts => lex_eq_ok_iff, fun _ _ _ _ first second => first.unique second,
    fun ts lexed => ⟨ascending_of_lex lexed, fun t member other => ?_⟩⟩
  exact (emitted_of_lex lexed t member).isLexeme.value_eq_zero other

/-- In `12ab<== if` and a line break a word follows an integer at once, and the first two of three
signs are one operator. -/
theorem lex_is_maximal_munch_adjacent :
    let ts : List Token := [⟨.int, "12", 12, 1⟩, ⟨.var, "ab", 0, 3⟩, ⟨.operator .lte, "<=", 0, 5⟩,
      ⟨.operator .eq, "=", 0, 7⟩, ⟨.keyword .kIf, "if", 0, 9⟩]
    lex (Text.chars "12ab<== if\n") = .ok ts ∧ ts.Pairwise fun t u => t.pos < u.pos := by
  intro ts
  obtain ⟨taken, -, ascend⟩ := lex_is_maximal_munch "12ab<== if\n"
  have tokenization : Tokenization (Text.chars "12ab<== if\n") []
      (ts.zip [[], [], [], [' '], ['\n']]) := by
    refine ⟨by rw [chars_ofString]; decide, ?_⟩
    have twelve : Lexeme .int (String.ofList ['1', '2']) 12 :=
      .int (by decide) (List.all_eq_true.1 rfl) (by decide) (by decide)
    have ab : Lexeme .var (String.ofList ['a', 'b']) 0 :=
      .var (by decide) (List.all_eq_true.1 rfl) fun w => by cases w <;> decide
    refine laid_cons_iff.2 ⟨List.forall_mem_nil _, twelve, rfl,
      endsBefore_of_int rfl fun c head => ?_, ?_⟩
    · obtain rfl : 'a' = c := Option.some.inj head
      rfl
    refine laid_cons_iff.2 ⟨List.forall_mem_nil _, ab, rfl,
      endsBefore_of_isWord (.inl rfl) (.cons (by decide)), ?_⟩
    refine laid_cons_iff.2 ⟨List.forall_mem_nil _, .operator .lte, rfl,
      endsBefore_of_other (by decide) (by simp [IsWord]), ?_⟩
    refine laid_cons_iff.2 ⟨List.forall_mem_nil _, .operator .eq, rfl,
      endsBefore_of_other (by decide) (by simp [IsWord]), ?_⟩
    refine laid_cons_iff.2 ⟨List.all_eq_true.1 rfl, .keyword .kIf, rfl,
      endsBefore_of_isWord (.inr ⟨_, rfl⟩) (.cons (by decide)), ?_⟩
    exact laid_nil_iff.2 (List.all_eq_true.1 rfl)
  have lexed := (taken ts).2 ⟨_, _, tokenization, rfl⟩
  exact ⟨lexed, (ascend ts lexed).1⟩

/-! ## Failures -/

/-- A token in front of a digit that does not continue it does not end with a digit. -/
theorem Emitted.last_not_digit {c d : Char} (emitted : Emitted t) (ends : t.EndsBefore (c :: k))
    (digit : isAsciiDigit c = true) (last : t.text.toList.getLast? = some d) :
    isAsciiDigit d = false := by
  cases emitted with
  | semi | lparen | rparen =>
    simp at last
    subst last
    decide
  | int =>
    have stop := ends.int rfl c rfl
    rw [digit] at stop
    cases stop
  | word =>
    have stop := ends.word (isWord_of_wordKind rfl) c rfl
    rw [isWordPart_of_isAsciiDigit digit] at stop
    cases stop
  | @operator o =>
    cases o <;>
    · simp [Operator.spelling] at last
      subst last
      decide

/-- A digit that the lexer comes to is the first one: what stands in front of it is no digit. -/
theorem Laid.last_not_digit {c d : Char} (laid : Laid pos gap pieces (c :: k))
    (digit : isAsciiDigit c = true) (last : (gap ++ spelled pieces).getLast? = some d) :
    isAsciiDigit d = false := by
  induction pieces generalizing pos gap with
  | nil =>
    rw [spelled, List.flatMap_nil, List.append_nil] at last
    have space := laid.front d (List.mem_of_getLast? last)
    cases isDigit : isAsciiDigit d with
    | false => rfl
    | true => exact space.symm.trans (isSpace_of_isAsciiDigit isDigit)
  | cons p pieces ih =>
    obtain ⟨t, behind⟩ := p
    obtain ⟨-, lexeme, -, ends, rest⟩ := laid_cons_iff.1 laid
    have emitted := emitted_of_isLexeme lexeme
    have someText : t.text.toList ≠ [] := List.ne_nil_of_length_pos emitted.length_pos
    have someRest : t.text.toList ++ (behind ++ spelled pieces) ≠ [] :=
      List.append_ne_nil_of_left_ne_nil someText _
    rw [spelled_cons, List.getLast?_append_of_ne_nil _ someRest] at last
    by_cases done : behind ++ spelled pieces = []
    · -- The token stands right in front of the digit, which does not continue it.
      rw [done, List.nil_append] at ends
      rw [done, List.append_nil] at last
      exact emitted.last_not_digit ends digit last
    · rw [List.getLast?_append_of_ne_nil _ done] at last
      exact ih rest last

/-- Where the lexer fails, it has laid out all in front. -/
theorem exists_of_lex_error {source : List Char} {e : LexError} (failed : lex source = .error e) :
    ∃ gap pieces k, source = gap ++ spelled pieces ++ k ∧ Laid 1 gap pieces k ∧
      FaultAt e (1 + (gap ++ spelled pieces).length) k := by
  obtain ⟨gap, pieces, k, whole, laid, ⟨-, ok⟩ | ⟨e', fault, failed'⟩⟩ := exists_laid 1 [] source
  · cases ok.symm.trans failed
  · cases failed'.symm.trans failed
    exact ⟨gap, pieces, k, whole, laid, fault⟩

/-- A failure names the character that it is for, and the position of this character. -/
theorem FaultAt.report_eq {e : LexError} (fault : FaultAt e pos cs) :
    ∃ c k, cs = c :: k ∧ e.report.kind = Diagnostic.Kind.lexical ∧ e.report.pos = pos ∧
      e.report.name = String.singleton c := by
  cases fault with
  | unexpected | outOfRange | incomplete => exact ⟨_, _, rfl, rfl, rfl, rfl⟩

/-- A lexical error is for the first character that cannot be read. Its position is that of a
character of the source and its name is this character, all in front of it is white space and
tokens, none of which the source goes on with, and the character starts no token, or is a colon or
a less sign without its `=`, or is the first digit of an integer beyond the greatest value. -/
theorem lex_fails_at_first_fault (source : Text) (e : LexError)
    (failed : lex source.chars = .error e) :
    ∃ (p : Nat) (piece : Piece),
      e.report.kind = Diagnostic.Kind.lexical ∧ e.report.pos = p ∧
      1 ≤ p ∧ p ≤ source.chars.length ∧
      source.pieces[p - 1]? = some piece ∧ e.report.name = String.singleton piece.toChar ∧
      (∃ gap pieces, source.chars.take (p - 1) = gap ++ spelled pieces ∧
        Laid 1 gap pieces (source.chars.drop (p - 1)) ∧
        lex (source.chars.take (p - 1)) = .ok (pieces.map Prod.fst)) ∧
      ((isSpace piece.toChar = false ∧
          ∀ t : Token, t.IsLexeme → t.text.toList.head? ≠ some piece.toChar) ∨
        ((piece.toChar = ':' ∨ piece.toChar = '<') ∧ source.chars[p]? ≠ some '=') ∨
        ∃ ds k, source.chars.drop p = ds ++ k ∧
          (∀ d ∈ piece.toChar :: ds, isAsciiDigit d = true) ∧
          (∀ d, (source.chars.take (p - 1)).getLast? = some d → isAsciiDigit d = false) ∧
          (∀ d, k.head? = some d → isAsciiDigit d = false) ∧
          2 ^ 63 - 1 < digitsValue (piece.toChar :: ds)) := by
  obtain ⟨gap, pieces, k, whole, laid, fault⟩ := exists_of_lex_error failed
  obtain ⟨c, rest, rfl, kind, pos, name⟩ := fault.report_eq
  have front : source.chars.take (gap ++ spelled pieces).length = gap ++ spelled pieces := by
    rw [whole, List.take_left]
  have back : source.chars.drop (gap ++ spelled pieces).length = c :: rest := by
    rw [whole, List.drop_left]
  have behind : source.chars.drop (1 + (gap ++ spelled pieces).length) = rest := by
    rw [Nat.add_comm, ← List.drop_drop, back]
    rfl
  have here : source.chars[(gap ++ spelled pieces).length]? = some c := by
    rw [← List.head?_drop, back]
    rfl
  obtain ⟨piece, found, rfl⟩ : ∃ piece,
      source.pieces[(gap ++ spelled pieces).length]? = some piece ∧ piece.toChar = c := by
    rwa [Text.chars, List.getElem?_map, Option.map_eq_some_iff] at here
  have lexed := lex_eq_ok_iff.2 ⟨gap, pieces, ⟨rfl, laid.cut⟩, rfl⟩
  refine ⟨1 + (gap ++ spelled pieces).length, piece, kind, pos, Nat.le_add_right 1 _, ?_, ?_, name,
    ?_, ?_⟩
  · have length := congrArg List.length whole
    rw [List.length_append, List.length_cons] at length
    omega
  · rw [Nat.add_sub_cancel_left]
    exact found
  · rw [Nat.add_sub_cancel_left, front, back]
    exact ⟨gap, pieces, rfl, laid, lexed⟩
  · rw [Nat.add_sub_cancel_left, front, behind, ← List.head?_drop, behind]
    generalize isRest : piece.toChar :: rest = cs at fault
    cases fault with
    | unexpected notSpace unstarted =>
      cases isRest
      exact .inl ⟨notSpace, fun t lexeme head => unstarted ⟨t, emitted_of_isLexeme lexeme, head⟩⟩
    | incomplete sort follows =>
      cases isRest
      exact .inr (.inl ⟨sort, follows⟩)
    | outOfRange digits large stop =>
      cases isRest
      exact .inr (.inr ⟨_, _, rfl, digits,
        fun d => laid.last_not_digit (digits _ List.mem_cons_self), stop, large⟩)

/-- In `x := 0099999999999999999999 < y` the integer comes first, and its zeros are part of it. -/
theorem lex_fails_at_first_fault_integer :
    ∃ e, lex (Text.chars "x := 0099999999999999999999 < y") = .error e ∧ e.report.pos = 6 ∧
      e.report.name = "0" ∧ ∃ ts, lex (Text.chars "x := ") = .ok ts := by
  have chars : Text.chars "x := 0099999999999999999999 < y" =
      "x := 0099999999999999999999 < y".toList := chars_ofString _
  have failed : lex (Text.chars "x := 0099999999999999999999 < y") =
      .error (.outOfRange '0' "099999999999999999999".toList 6) := by
    rw [chars]
    decide +kernel
  obtain ⟨p, piece, -, pos, -, -, -, -, ⟨_, pieces, -, -, lexed⟩, -⟩ :=
    lex_fails_at_first_fault _ _ failed
  refine ⟨_, failed, rfl, rfl, ?_⟩
  obtain rfl : p = 6 := by
    have : (6 : Int) = p := pos
    omega
  rw [chars] at lexed
  rw [chars_ofString]
  exact ⟨_, lexed⟩

end ImpHost.Token
