import ImpHost.Program.Parser
import ImpHost.Proofs.Program.Grammar

/-!
The parser accepts exactly the grammar.

Each production of the parser is compared with its relation in both directions. What it reads from
the front of the tokens is a phrase of the grammar (`arith_of_tryArith`, `boolean_of_parseBool`,
`derives_of_parse`), and a phrase at the front of the tokens is read as a whole and as the
tree that it derives (`tryArith_of_arith`, `parseBool_of_boolean`, `readBack_of_derives`).

The second direction has to show that an attempt never commits to the wrong rule. Arithmetic that
is tried where a boolean expression stands finds nothing and does not fail
(`tryArith_miss_of_boolean`), because the operator that would commit the attempt stands after a
complete arithmetic operand, and no boolean expression goes on with one there. `NoArithAhead` is
what the count of an unsuccessful attempt promises to the productions that it is handed to.
-/

namespace ImpHost

/-- A computation in two parts succeeds if both parts do. -/
theorem bind_eq_ok {ε α β : Type} {x : Except ε α} {f : α → Except ε β} {b : β} :
    (x >>= f) = .ok b ↔ ∃ a, x = .ok a ∧ f a = .ok b := by
  cases x with
  | error e =>
    constructor
    · intro failed
      cases failed
    · rintro ⟨a, failed, -⟩
      cases failed
  | ok a =>
    constructor
    · intro second
      exact ⟨a, rfl, second⟩
    · rintro ⟨a', first, second⟩
      cases first
      exact second

namespace Parser

open Grammar

variable {stop : Int} {place : Place}

/-! ## Single tokens -/

/-- The shape that operations in parentheses and loops share, in front of more tokens. -/
theorem three_marks_append {first second third : Token} {us vs rest : List Token} :
    (first :: (us ++ second :: (vs ++ [third]))) ++ rest =
      first :: (us ++ second :: (vs ++ third :: rest)) := by
  rw [List.cons_append, List.append_assoc, List.cons_append, List.append_assoc,
    List.singleton_append]

theorem arithOp?_eq_some_iff {kind : Token.Kind} {op : ArithOp} :
    arithOp? kind = some op ↔ ArithSign kind op := by
  constructor
  · intro read
    unfold arithOp? at read
    split at read <;> cases read <;> constructor
  · rintro (_ | _ | _) <;> rfl

theorem compareOp?_eq_some_iff {kind : Token.Kind} {op : CompareOp} :
    compareOp? kind = some op ↔ CompareSign kind op := by
  constructor
  · intro read
    unfold compareOp? at read
    split at read <;> cases read <;> constructor
  · rintro (_ | _) <;> rfl

theorem boolOp?_eq_some_iff {kind : Token.Kind} {op : BoolOp} :
    boolOp? kind = some op ↔ BoolSign kind op := by
  constructor
  · intro read
    unfold boolOp? at read
    split at read <;> cases read <;> constructor
  · rintro (_ | _) <;> rfl

/-- No comparison is spelled like an arithmetic operator. -/
theorem arithOp?_of_compareSign {kind : Token.Kind} {op : CompareOp} (sign : CompareSign kind op) :
    arithOp? kind = none := by
  cases sign <;> rfl

theorem operator?_cons {α : Type} {read : Token.Kind → Option α} {t : Token} {ts : List Token}
    {op : α} (sign : read t.kind = some op) :
    operator? read (t :: ts) = some ⟨op, ts, Nat.lt_succ_self _⟩ := by
  rw [operator?, sign]
  rfl

theorem cons_of_operator? {α : Type} {read : Token.Kind → Option α} {ts : List Token}
    {p : Parsed α ts} (found : operator? read ts = some p) :
    ∃ t, ts = t :: p.rest ∧ read t.kind = some p.tree := by
  cases ts with
  | nil => cases found
  | cons t ts =>
    rw [operator?] at found
    obtain ⟨op, sign, eq⟩ := Option.map_eq_some_iff.1 found
    subst eq
    exact ⟨t, rfl, sign⟩

theorem expect_cons {kind : Token.Kind} {t : Token} {ts : List Token} (same : t.kind = kind) :
    expect stop kind place (t :: ts) = .ok ⟨(), ts, Nat.lt_succ_self _⟩ := by
  rw [expect, if_pos same]

theorem cons_of_expect {kind : Token.Kind} {ts : List Token} {p : Parsed Unit ts}
    (found : expect stop kind place ts = .ok p) : ∃ t, ts = t :: p.rest ∧ t.kind = kind := by
  cases ts with
  | nil => cases found
  | cons t ts =>
    rw [expect] at found
    split at found
    · next same =>
      cases found
      exact ⟨t, rfl, same⟩
    · cases found

theorem hit_of_required {α : Type} {missing : Missing} {ts : List Token} {a : Attempt α ts}
    {p : Parsed α ts} (found : required stop missing a = .ok p) : a = .hit p := by
  cases a with
  | hit q =>
    cases found
    rfl
  | miss opens => cases found

/-! ## Arithmetic expressions -/

/-- What an attempt at arithmetic reads is an arithmetic expression. -/
theorem arith_of_tryArith {ts : List Token} {p : Parsed AExpr ts}
    (found : tryArith stop ts = .ok (.hit p)) : ∃ us, Arith us p.tree ∧ ts = us ++ p.rest := by
  induction ts using tryArith.induct with
  | case1 => simp [tryArith] at found
  | case2 t ts kind =>
    rw [tryArith, kind] at found
    cases found
    exact ⟨[t], .int kind, rfl⟩
  | case3 t ts kind =>
    rw [tryArith, kind] at found
    cases found
    exact ⟨[t], .var kind, rfl⟩
  | case4 t ts kind first second =>
    rw [tryArith, kind] at found
    obtain ⟨attempt, readLeft, found⟩ := bind_eq_ok.1 found
    cases attempt with
    | miss opens => cases found
    | hit left =>
      obtain ⟨us, arithLeft, eqLeft⟩ := first readLeft
      dsimp only at found
      split at found
      · next op readOp =>
        obtain ⟨sign, eqOp, signs⟩ := cons_of_operator? readOp
        obtain ⟨attempt, readRight, found⟩ := bind_eq_ok.1 found
        obtain ⟨right, isHit, found⟩ := bind_eq_ok.1 found
        obtain ⟨close, readClose, found⟩ := bind_eq_ok.1 found
        rw [hit_of_required isHit] at readRight
        obtain ⟨vs, arithRight, eqRight⟩ := second left op readRight
        obtain ⟨closed, eqClose, closes⟩ := cons_of_expect readClose
        cases found
        refine ⟨_, .binary kind arithLeft (arithOp?_eq_some_iff.1 signs) arithRight closes, ?_⟩
        simp only [List.cons_append, List.append_assoc, List.nil_append]
        rw [← eqClose, ← eqRight, ← eqOp, ← eqLeft]
      · cases found
  | case5 t ts notInt notVar notOpen =>
    rw [tryArith] at found
    split at found
    · exact (notInt ‹_›).elim
    · exact (notVar ‹_›).elim
    · exact (notOpen ‹_›).elim
    · cases found

/-- An arithmetic expression at the front of the tokens is read as a whole. -/
theorem tryArith_of_arith (stop : Int) {us : List Token} {e : AExpr} (arith : Arith us e)
    (rest : List Token) :
    ∃ shorter, tryArith stop (us ++ rest) = .ok (.hit ⟨e, rest, shorter⟩) := by
  induction arith generalizing rest with
  | int kind =>
    rw [List.singleton_append, tryArith, kind]
    exact ⟨_, rfl⟩
  | var kind =>
    rw [List.singleton_append, tryArith, kind]
    exact ⟨_, rfl⟩
  | @binary opened sign closed us vs op a b opens _ signs _ closes left right =>
    obtain ⟨_, readLeft⟩ := left (sign :: (vs ++ closed :: rest))
    obtain ⟨_, readRight⟩ := right (closed :: rest)
    rw [three_marks_append, tryArith, opens]
    refine ⟨by simp; omega, ?_⟩
    simp only [readLeft, readRight, bind, Except.bind, required, expect_cons closes,
      operator?_cons (arithOp?_eq_some_iff.2 signs)]
    rfl

theorem arith_of_parseArith {ts : List Token} {p : Parsed AExpr ts}
    (found : parseArith stop place ts = .ok p) : ∃ us, Arith us p.tree ∧ ts = us ++ p.rest := by
  obtain ⟨attempt, tried, isHit⟩ := bind_eq_ok.1 found
  rw [hit_of_required isHit] at tried
  exact arith_of_tryArith tried

theorem parseArith_of_arith (stop : Int) (place : Place) {us : List Token} {e : AExpr}
    (arith : Arith us e) (rest : List Token) :
    ∃ shorter, parseArith stop place (us ++ rest) = .ok ⟨e, rest, shorter⟩ := by
  obtain ⟨shorter, tried⟩ := tryArith_of_arith stop arith rest
  exact ⟨shorter, bind_eq_ok.2 ⟨_, tried, rfl⟩⟩

/-! ## Where no arithmetic expression starts -/

/-- No arithmetic expression starts at any of the first `opens` tokens. -/
def NoArithAhead (opens : Nat) (ts : List Token) : Prop :=
  ∀ i < opens, ∀ us e rest, Arith us e → ts.drop i ≠ us ++ rest

theorem NoArithAhead.zero {ts : List Token} : NoArithAhead 0 ts :=
  fun _ before => (Nat.not_lt_zero _ before).elim

theorem NoArithAhead.tail {opens : Nat} {t : Token} {ts : List Token}
    (ahead : NoArithAhead opens (t :: ts)) : NoArithAhead (opens - 1) ts :=
  fun i before => ahead (i + 1) (Nat.add_lt_of_lt_sub before)

/-- The count of an unsuccessful attempt is right. -/
theorem noArithAhead_of_miss {ts : List Token} {opens : Nat}
    (missed : tryArith stop ts = .ok (.miss opens)) : NoArithAhead opens ts := by
  -- An attempt at the front itself would have been a hit; further in, the inner attempt knows.
  have front : ∀ us e rest, Arith us e → ts ≠ us ++ rest := by
    rintro us e rest arith rfl
    obtain ⟨_, tried⟩ := tryArith_of_arith stop arith rest
    rw [tried] at missed
    cases missed
  induction ts using tryArith.induct generalizing opens with
  | case1 =>
    rw [tryArith] at missed
    cases missed
    exact .zero
  | case2 t ts kind =>
    rw [tryArith, kind] at missed
    cases missed
  | case3 t ts kind =>
    rw [tryArith, kind] at missed
    cases missed
  | case4 t ts kind first second =>
    rw [tryArith, kind] at missed
    obtain ⟨attempt, readLeft, missed⟩ := bind_eq_ok.1 missed
    cases attempt with
    | miss inner =>
      cases missed
      have innerFront : ∀ us e rest, Arith us e → ts ≠ us ++ rest := by
        rintro us e rest arith rfl
        obtain ⟨_, tried⟩ := tryArith_of_arith stop arith rest
        rw [tried] at readLeft
        cases readLeft
      intro i before
      cases i with
      | zero => exact front
      | succ i => exact first readLeft innerFront i (Nat.lt_of_succ_lt_succ before)
    | hit left =>
      dsimp only at missed
      split at missed
      · obtain ⟨_, _, missed⟩ := bind_eq_ok.1 missed
        obtain ⟨_, _, missed⟩ := bind_eq_ok.1 missed
        obtain ⟨_, _, missed⟩ := bind_eq_ok.1 missed
        cases missed
      · cases missed
        intro i before
        rw [Nat.lt_one_iff.1 before]
        exact front
  | case5 t ts notInt notVar notOpen =>
    rw [tryArith] at missed
    split at missed
    · exact (notInt ‹_›).elim
    · exact (notVar ‹_›).elim
    · exact (notOpen ‹_›).elim
    · cases missed
      exact .zero

/-- Arithmetic that is tried where a boolean expression stands finds nothing, and does not fail. -/
theorem tryArith_miss_of_boolean (stop : Int) {us : List Token} {e : BExpr}
    (boolean : Boolean us e) (rest : List Token) :
    ∃ opens, tryArith stop (us ++ rest) = .ok (.miss opens) := by
  induction boolean generalizing rest with
  | true kind =>
    rw [List.singleton_append, tryArith, kind]
    exact ⟨0, rfl⟩
  | false kind =>
    rw [List.singleton_append, tryArith, kind]
    exact ⟨0, rfl⟩
  | not kind =>
    rw [List.cons_append, tryArith, kind]
    exact ⟨0, rfl⟩
  | @compare opened sign closed us vs op a b opens arith signs _ _ =>
    -- The left operand is read, and then stands a sign that does not commit the attempt.
    obtain ⟨_, readLeft⟩ := tryArith_of_arith stop arith (sign :: (vs ++ closed :: rest))
    refine ⟨1, ?_⟩
    rw [three_marks_append, tryArith, opens]
    simp only [readLeft, bind, Except.bind, operator?, arithOp?_of_compareSign signs]
    rfl
  | @binary opened sign closed us vs op a b opens _ _ _ _ left _ =>
    obtain ⟨inner, missed⟩ := left (sign :: (vs ++ closed :: rest))
    refine ⟨inner + 1, ?_⟩
    rw [three_marks_append, tryArith, opens]
    simp only [missed, bind, Except.bind]
    rfl

/-! ## Boolean expressions -/

/-- What an attempt at a comparison reads is a comparison without its open parenthesis. -/
theorem boolean_of_tryCompare {opens : Nat} {ts : List Token} {p : Parsed BExpr ts}
    (found : tryCompare stop opens ts = .ok (.hit p)) {opened : Token}
    (isOpen : opened.kind = .lparen) :
    ∃ us, Boolean (opened :: us) p.tree ∧ ts = us ++ p.rest := by
  unfold tryCompare at found
  split at found
  · cases found
  · obtain ⟨attempt, readLeft, found⟩ := bind_eq_ok.1 found
    cases attempt with
    | miss _ => cases found
    | hit left =>
      obtain ⟨us, arithLeft, eqLeft⟩ := arith_of_tryArith readLeft
      dsimp only at found
      split at found
      · next op readOp =>
        obtain ⟨sign, eqOp, signs⟩ := cons_of_operator? readOp
        obtain ⟨right, readRight, found⟩ := bind_eq_ok.1 found
        obtain ⟨close, readClose, found⟩ := bind_eq_ok.1 found
        obtain ⟨vs, arithRight, eqRight⟩ := arith_of_parseArith readRight
        obtain ⟨closed, eqClose, closes⟩ := cons_of_expect readClose
        cases found
        refine ⟨us ++ sign :: (vs ++ [closed]),
          .compare isOpen arithLeft (compareOp?_eq_some_iff.1 signs) arithRight closes, ?_⟩
        simp only [List.cons_append, List.append_assoc, List.nil_append]
        rw [← eqClose, ← eqRight, ← eqOp, ← eqLeft]
      · cases found

/-- What is read where a boolean expression has to stand is one. -/
theorem boolean_of_parseBool {opens : Nat} {ts : List Token} {p : Parsed BExpr ts}
    (found : parseBool stop opens place ts = .ok p) :
    ∃ us, Boolean us p.tree ∧ ts = us ++ p.rest := by
  induction opens, place, ts using parseBool.induct with
  | case1 opens place =>
    rw [parseBool] at found
    cases found
  | case2 opens place t ts kind =>
    rw [parseBool, kind] at found
    cases found
    exact ⟨[t], .true kind, rfl⟩
  | case3 opens place t ts kind =>
    rw [parseBool, kind] at found
    cases found
    exact ⟨[t], .false kind, rfl⟩
  | case4 opens place t ts kind inner =>
    rw [parseBool, kind] at found
    obtain ⟨opened, readOpen, found⟩ := bind_eq_ok.1 found
    obtain ⟨operand, readOperand, found⟩ := bind_eq_ok.1 found
    obtain ⟨close, readClose, found⟩ := bind_eq_ok.1 found
    obtain ⟨openMark, eqOpen, isOpen⟩ := cons_of_expect readOpen
    obtain ⟨us, boolean, eqOperand⟩ := inner opened readOperand
    obtain ⟨closed, eqClose, closes⟩ := cons_of_expect readClose
    cases found
    refine ⟨_, .not kind isOpen boolean closes, ?_⟩
    simp only [List.cons_append, List.append_assoc, List.nil_append]
    rw [← eqClose, ← eqOperand, ← eqOpen]
  | case5 opens place t ts kind first second =>
    rw [parseBool, kind] at found
    obtain ⟨attempt, tried, found⟩ := bind_eq_ok.1 found
    cases attempt with
    | hit compare =>
      cases found
      obtain ⟨us, boolean, eq⟩ := boolean_of_tryCompare tried kind
      exact ⟨t :: us, boolean, congrArg (t :: ·) eq⟩
    | miss ahead =>
      obtain ⟨left, readLeft, found⟩ := bind_eq_ok.1 found
      obtain ⟨us, booleanLeft, eqLeft⟩ := first ahead readLeft
      split at found
      · next op readOp =>
        obtain ⟨sign, eqOp, signs⟩ := cons_of_operator? readOp
        obtain ⟨right, readRight, found⟩ := bind_eq_ok.1 found
        obtain ⟨close, readClose, found⟩ := bind_eq_ok.1 found
        obtain ⟨vs, booleanRight, eqRight⟩ := second left op readRight
        obtain ⟨closed, eqClose, closes⟩ := cons_of_expect readClose
        cases found
        refine ⟨_, .binary kind booleanLeft (boolOp?_eq_some_iff.1 signs) booleanRight closes, ?_⟩
        simp only [List.cons_append, List.append_assoc, List.nil_append]
        rw [← eqClose, ← eqRight, ← eqOp, ← eqLeft]
      · cases found
  | case6 opens place t ts notTrue notFalse notNot notOpen =>
    rw [parseBool] at found
    split at found
    · exact (notTrue ‹_›).elim
    · exact (notFalse ‹_›).elim
    · exact (notNot ‹_›).elim
    · exact (notOpen ‹_›).elim
    · cases found

/-- Where a boolean expression stands there is no comparison without its open parenthesis, and the
attempt at one hands on a right count. -/
theorem tryCompare_miss_of_boolean (stop : Int) {opens : Nat} {us : List Token} {e : BExpr}
    (boolean : Boolean us e) (rest : List Token) (ahead : NoArithAhead opens (us ++ rest)) :
    ∃ opens', tryCompare stop opens (us ++ rest) = .ok (.miss opens') ∧
      NoArithAhead opens' (us ++ rest) := by
  unfold tryCompare
  split
  · exact ⟨opens, rfl, ahead⟩
  · obtain ⟨opens', missed⟩ := tryArith_miss_of_boolean stop boolean rest
    exact ⟨opens', bind_eq_ok.2 ⟨_, missed, rfl⟩, noArithAhead_of_miss missed⟩

/-- A comparison without its open parenthesis is read as a whole. -/
theorem tryCompare_of_arith (stop : Int) {opens : Nat} {sign closed : Token} {us vs : List Token}
    {op : CompareOp} {a b : AExpr} (left : Arith us a) (signs : CompareSign sign.kind op)
    (right : Arith vs b) (closes : closed.kind = .rparen) (rest : List Token)
    (ahead : NoArithAhead opens (us ++ sign :: (vs ++ closed :: rest))) :
    ∃ shorter, tryCompare stop opens (us ++ sign :: (vs ++ closed :: rest)) =
      .ok (.hit ⟨.compare op a b, rest, shorter⟩) := by
  have unmarked : ¬ 0 < opens := fun marked => ahead 0 marked us a _ left rfl
  obtain ⟨_, readLeft⟩ := tryArith_of_arith stop left (sign :: (vs ++ closed :: rest))
  obtain ⟨_, readRight⟩ :=
    parseArith_of_arith stop (.afterCompare op) right (closed :: rest)
  refine ⟨by simp; omega, ?_⟩
  rw [tryCompare, if_neg unmarked]
  simp only [readLeft, readRight, bind, Except.bind, expect_cons closes,
    operator?_cons (compareOp?_eq_some_iff.2 signs)]
  rfl

/-- A boolean expression at the front of the tokens is read as a whole. -/
theorem parseBool_of_boolean (stop : Int) (place : Place) {opens : Nat} {us : List Token}
    {e : BExpr} (boolean : Boolean us e) (rest : List Token)
    (ahead : NoArithAhead opens (us ++ rest)) :
    ∃ shorter, parseBool stop opens place (us ++ rest) = .ok ⟨e, rest, shorter⟩ := by
  induction boolean generalizing rest opens place with
  | true kind =>
    rw [List.singleton_append, parseBool, kind]
    exact ⟨_, rfl⟩
  | false kind =>
    rw [List.singleton_append, parseBool, kind]
    exact ⟨_, rfl⟩
  | @not mark opened closed us a kind isOpen _ closes inner =>
    obtain ⟨_, readOperand⟩ := inner .insideNot (closed :: rest) .zero
    rw [List.cons_append, List.cons_append, List.append_assoc, List.singleton_append, parseBool,
      kind]
    refine ⟨by simp; omega, ?_⟩
    simp only [bind, Except.bind, expect_cons isOpen, readOperand, expect_cons closes]
    rfl
  | @compare opened sign closed us vs op a b isOpen left signs right closes =>
    rw [three_marks_append] at ahead ⊢
    obtain ⟨shorter, tried⟩ := tryCompare_of_arith stop left signs right closes rest ahead.tail
    rw [parseBool, isOpen]
    exact ⟨_, bind_eq_ok.2 ⟨_, tried, rfl⟩⟩
  | @binary opened sign closed us vs op a b isOpen boolean signs _ closes left right =>
    rw [three_marks_append] at ahead ⊢
    -- A comparison is tried first. It is not found, and what the attempt has learnt about the open
    -- parentheses is true of the left operand, which begins at the same token.
    obtain ⟨opens', missed, ahead'⟩ := tryCompare_miss_of_boolean stop boolean _ ahead.tail
    obtain ⟨_, readLeft⟩ := left .afterOpen (sign :: (vs ++ closed :: rest)) ahead'
    obtain ⟨_, readRight⟩ := right (.afterBool op) (closed :: rest) .zero
    rw [parseBool, isOpen]
    refine ⟨by simp; omega, ?_⟩
    simp only [missed, readLeft, readRight, bind, Except.bind, expect_cons closes,
      operator?_cons (boolOp?_eq_some_iff.2 signs)]
    rfl

/-! ## Commands -/

/-- What the three productions for commands read, together: `parseMore` extends the command that
it is given by the phrases that it reads. -/
theorem derives_of_parse (stop : Int) :
    (∀ ts (p : Parsed Command ts), parseAtomic stop ts = .ok p →
      ∃ us, Derives .atomic us p.tree ∧ ts = us ++ p.rest) ∧
    (∀ ts (p : Parsed Command ts), parseCommand stop ts = .ok p →
      ∃ us, Derives .command us p.tree ∧ ts = us ++ p.rest) ∧
    ∀ whole left ts (shorter : ts.length < whole.length) (p : Parsed Command whole),
      parseMore stop left ts shorter = .ok p → ∀ us, Derives .command us left →
        ∃ vs, Derives .command (us ++ vs) p.tree ∧ ts = vs ++ p.rest := by
  apply parseAtomic.mutual_induct
  case case1 =>
    intro p found
    rw [parseAtomic] at found
    cases found
  case case2 =>
    intro t ts kind p found
    rw [parseAtomic, kind] at found
    cases found
    exact ⟨[t], .skip kind, rfl⟩
  case case3 =>
    intro t ts kind p found
    rw [parseAtomic, kind] at found
    obtain ⟨assign, readAssign, found⟩ := bind_eq_ok.1 found
    obtain ⟨value, readValue, found⟩ := bind_eq_ok.1 found
    obtain ⟨mark, eqMark, isAssign⟩ := cons_of_expect readAssign
    obtain ⟨us, arith, eqValue⟩ := arith_of_parseArith readValue
    cases found
    refine ⟨_, .assign kind isAssign arith, ?_⟩
    simp only [List.cons_append]
    rw [← eqValue, ← eqMark]
  case case4 =>
    intro t ts kind readYes readNo p found
    rw [parseAtomic, kind] at found
    obtain ⟨cond, readCond, found⟩ := bind_eq_ok.1 found
    obtain ⟨thenMark, readThen, found⟩ := bind_eq_ok.1 found
    obtain ⟨yes, parsedYes, found⟩ := bind_eq_ok.1 found
    obtain ⟨elseMark, readElse, found⟩ := bind_eq_ok.1 found
    obtain ⟨no, parsedNo, found⟩ := bind_eq_ok.1 found
    obtain ⟨close, readClose, found⟩ := bind_eq_ok.1 found
    obtain ⟨us, boolean, eqCond⟩ := boolean_of_parseBool readCond
    obtain ⟨thenToken, eqThen, isThen⟩ := cons_of_expect readThen
    obtain ⟨vs, derivesYes, eqYes⟩ := readYes cond thenMark yes parsedYes
    obtain ⟨elseToken, eqElse, isElse⟩ := cons_of_expect readElse
    obtain ⟨ws, derivesNo, eqNo⟩ := readNo cond thenMark yes elseMark no parsedNo
    obtain ⟨endToken, eqClose, isEnd⟩ := cons_of_expect readClose
    cases found
    refine ⟨_, .ite kind boolean isThen derivesYes isElse derivesNo isEnd, ?_⟩
    simp only [List.cons_append, List.append_assoc, List.nil_append]
    rw [← eqClose, ← eqNo, ← eqElse, ← eqYes, ← eqThen, ← eqCond]
  case case5 =>
    intro t ts kind readBody p found
    rw [parseAtomic, kind] at found
    obtain ⟨cond, readCond, found⟩ := bind_eq_ok.1 found
    obtain ⟨doMark, readDo, found⟩ := bind_eq_ok.1 found
    obtain ⟨body, parsedBody, found⟩ := bind_eq_ok.1 found
    obtain ⟨close, readClose, found⟩ := bind_eq_ok.1 found
    obtain ⟨us, boolean, eqCond⟩ := boolean_of_parseBool readCond
    obtain ⟨doToken, eqDo, isDo⟩ := cons_of_expect readDo
    obtain ⟨vs, derivesBody, eqBody⟩ := readBody cond doMark body parsedBody
    obtain ⟨endToken, eqClose, isEnd⟩ := cons_of_expect readClose
    cases found
    refine ⟨_, .whileDo kind boolean isDo derivesBody isEnd, ?_⟩
    simp only [List.cons_append, List.append_assoc, List.nil_append]
    rw [← eqClose, ← eqBody, ← eqDo, ← eqCond]
  case case6 =>
    intro t ts notSkip notVar notIf notWhile p found
    rw [parseAtomic] at found
    split at found
    · exact (notSkip ‹_›).elim
    · exact (notVar ‹_›).elim
    · exact (notIf ‹_›).elim
    · exact (notWhile ‹_›).elim
    · cases found
  case case7 =>
    intro ts readFirst readMore p found
    rw [parseCommand] at found
    obtain ⟨first, parsedFirst, found⟩ := bind_eq_ok.1 found
    obtain ⟨us, derivesFirst, eqFirst⟩ := readFirst first parsedFirst
    obtain ⟨vs, derives, eqMore⟩ := readMore first p found us (.single derivesFirst)
    exact ⟨us ++ vs, derives, by rw [List.append_assoc, ← eqMore, ← eqFirst]⟩
  case case8 =>
    intro whole left shorter _ p found us derives
    rw [parseMore] at found
    cases found
    exact ⟨[], by rwa [List.append_nil], rfl⟩
  case case9 =>
    intro whole left t rest shorter semi _ readRight readMore p found us derives
    rw [parseMore, if_pos semi] at found
    obtain ⟨right, parsedRight, found⟩ := bind_eq_ok.1 found
    obtain ⟨vs, derivesRight, eqRight⟩ := readRight right parsedRight
    obtain ⟨ws, derivesAll, eqMore⟩ :=
      readMore right p found (us ++ t :: vs) (.seq derives semi derivesRight)
    refine ⟨t :: vs ++ ws, by rwa [← List.append_assoc], ?_⟩
    rw [List.append_assoc, ← eqMore, List.cons_append, ← eqRight]
  case case10 =>
    intro whole left t rest shorter notSemi _ p found us derives
    rw [parseMore, if_neg notSemi] at found
    cases found
    exact ⟨[], by rwa [List.append_nil], rfl⟩

/-- What a derivation of either sort gives the parser: an atomic command is read as a whole, and
after a command the parser goes on to look for a semicolon. -/
def ReadBack (stop : Int) : Phrase → List Token → Command → Prop
  | .atomic, us, c => ∀ rest, ∃ shorter, parseAtomic stop (us ++ rest) = .ok ⟨c, rest, shorter⟩
  | .command, us, c => ∀ rest, ∃ shorter : rest.length < (us ++ rest).length,
      parseCommand stop (us ++ rest) = parseMore stop c rest shorter

/-- A command is read as a whole where no semicolon follows. -/
theorem ReadBack.parseCommand_cons {us : List Token} {c : Command}
    (readBack : ReadBack stop .command us c) {t : Token} (notSemi : t.kind ≠ .semi)
    (rest : List Token) :
    ∃ shorter, parseCommand stop (us ++ t :: rest) = .ok ⟨c, t :: rest, shorter⟩ := by
  obtain ⟨shorter, read⟩ := readBack (t :: rest)
  rw [parseMore, if_neg notSemi] at read
  exact ⟨shorter, read⟩

theorem readBack_of_derives (stop : Int) {phrase : Phrase} {us : List Token} {c : Command}
    (derives : Derives phrase us c) : ReadBack stop phrase us c := by
  induction derives with
  | skip kind =>
    intro rest
    rw [List.singleton_append, parseAtomic, kind]
    exact ⟨_, rfl⟩
  | @assign name mark us e isVar isAssign arith =>
    intro rest
    obtain ⟨shorter, readValue⟩ := parseArith_of_arith stop .rightHandSide arith rest
    rw [List.cons_append, List.cons_append, parseAtomic, isVar]
    refine ⟨by simp; omega, ?_⟩
    simp only [bind, Except.bind, expect_cons isAssign, readValue]
    rfl
  | @ite ifMark thenMark elseMark endMark us vs ws e a b isIf boolean isThen _ isElse _ isEnd
      readYes readNo =>
    intro rest
    obtain ⟨_, readCond⟩ := parseBool_of_boolean stop .afterIf boolean
      (thenMark :: (vs ++ elseMark :: (ws ++ endMark :: rest))) .zero
    obtain ⟨_, parsedYes⟩ := readYes.parseCommand_cons (t := elseMark) (by simp [isElse])
      (ws ++ endMark :: rest)
    obtain ⟨_, parsedNo⟩ := readNo.parseCommand_cons (t := endMark) (by simp [isEnd]) rest
    rw [List.cons_append, List.append_assoc, List.cons_append, List.append_assoc,
      List.cons_append, List.append_assoc, List.singleton_append, parseAtomic, isIf]
    refine ⟨by simp; omega, ?_⟩
    simp only [bind, Except.bind, readCond, expect_cons isThen, parsedYes, expect_cons isElse,
      parsedNo, expect_cons isEnd]
    rfl
  | @whileDo whileMark doMark endMark us vs e a isWhile boolean isDo _ isEnd readBody =>
    intro rest
    obtain ⟨_, readCond⟩ := parseBool_of_boolean stop .afterWhile boolean
      (doMark :: (vs ++ endMark :: rest)) .zero
    obtain ⟨_, parsedBody⟩ := readBody.parseCommand_cons (t := endMark) (by simp [isEnd]) rest
    rw [three_marks_append, parseAtomic, isWhile]
    refine ⟨by simp; omega, ?_⟩
    simp only [bind, Except.bind, readCond, expect_cons isDo, parsedBody, expect_cons isEnd]
    rfl
  | single _ readAtomic =>
    intro rest
    obtain ⟨shorter, parsed⟩ := readAtomic rest
    refine ⟨shorter, ?_⟩
    rw [parseCommand, parsed]
    rfl
  | @seq semi us vs a b _ isSemi _ readLeft readRight =>
    intro rest
    obtain ⟨_, parsedLeft⟩ := readLeft (semi :: (vs ++ rest))
    obtain ⟨_, parsedRight⟩ := readRight rest
    rw [List.append_assoc, List.cons_append]
    refine ⟨by simp; omega, ?_⟩
    rw [parsedLeft, parseMore, if_pos isSemi, parsedRight]
    rfl

/-! ## Programs -/

/-- No derivation uses a token for the end of the input, so without one in the tokens the parser
stops at the end of the list only. -/
theorem rest_eq_nil_of_current {ts : List Token} (noEnd : ∀ t ∈ ts, t.kind ≠ .eof)
    (atEnd : (current stop ts).kind = .eof) : ts = [] := by
  cases ts with
  | nil => rfl
  | cons t ts => exact (noEnd t List.mem_cons_self atEnd).elim

end Parser

open ImpHost.Parser ImpHost.Grammar

theorem derives_of_ofTokens {ts : List Token} {c : Command} (noEnd : ∀ t ∈ ts, t.kind ≠ .eof)
    (parsed : Command.ofTokens ts = .ok c) : Derives .command ts c := by
  unfold Command.ofTokens at parsed
  split at parsed
  · cases parsed
  · obtain ⟨program, read, parsed⟩ := bind_eq_ok.1 parsed
    obtain ⟨us, derives, eq⟩ := (derives_of_parse (stopOf ts)).2.1 ts program read
    dsimp only at parsed
    split at parsed
    · next atEnd =>
      have noEndAfter : ∀ t ∈ program.rest, t.kind ≠ .eof := by
        intro t member
        exact noEnd t (eq ▸ List.mem_append_right us member)
      rw [rest_eq_nil_of_current noEndAfter atEnd, List.append_nil] at eq
      cases parsed
      exact eq ▸ derives
    · cases parsed

theorem ofTokens_of_derives {ts : List Token} {c : Command} (derives : Derives .command ts c) :
    Command.ofTokens ts = .ok c := by
  have readBack := readBack_of_derives (stopOf ts) derives []
  rw [List.append_nil] at readBack
  obtain ⟨nonempty, read⟩ := readBack
  rw [parseMore] at read
  have someToken : ¬ ts.isEmpty := by
    intro empty
    simp [List.isEmpty_iff.1 empty] at nonempty
  rw [Command.ofTokens, if_neg someToken]
  exact bind_eq_ok.2 ⟨_, read, rfl⟩

/-- Tokens without one for the end of the input are parsed as a program if and only if the grammar
derives that program from all of them, and it derives at most one. -/
theorem ofTokens_eq_ok_iff_derives (ts : List Token) (c : Command)
    (noEnd : ∀ t ∈ ts, t.kind ≠ .eof) :
    (Command.ofTokens ts = .ok c ↔ Derives .command ts c) ∧
      ∀ d, Derives .command ts c → Derives .command ts d → d = c := by
  refine ⟨⟨derives_of_ofTokens noEnd, ofTokens_of_derives⟩, ?_⟩
  intro d derivesC derivesD
  have same := (ofTokens_of_derives derivesD).symm.trans (ofTokens_of_derives derivesC)
  exact Except.ok.inj same

/-- In `while ((x = 0) or true) do skip end` the second parenthesis opens a comparison, for which
the arithmetic that is tried at the first one must not be taken. -/
theorem ofTokens_comparison_in_combination :
    let ts : List Token :=
      [⟨.keyword .kWhile, "while", 0, 1⟩, ⟨.lparen, "(", 0, 7⟩, ⟨.lparen, "(", 0, 8⟩,
        ⟨.var, "x", 0, 9⟩, ⟨.operator .eq, "=", 0, 11⟩, ⟨.int, "0", 0, 13⟩, ⟨.rparen, ")", 0, 14⟩,
        ⟨.keyword .kOr, "or", 0, 16⟩, ⟨.keyword .kTrue, "true", 0, 19⟩, ⟨.rparen, ")", 0, 23⟩,
        ⟨.keyword .kDo, "do", 0, 25⟩, ⟨.keyword .kSkip, "skip", 0, 28⟩,
        ⟨.keyword .kEnd, "end", 0, 33⟩]
    (∀ t ∈ ts, t.kind ≠ .eof) ∧ Command.ofTokens ts =
      .ok (.whileDo (.binary .or (.compare .eq (.var "x") (.int 0)) (.lit true)) .skip) := by
  intro ts
  have noEnd : ∀ t ∈ ts, t.kind ≠ .eof := by decide
  have cond : Boolean (ts.tail.take 9)
      (.binary .or (.compare .eq (.var "x") (.int 0)) (.lit true)) :=
    .binary rfl (.compare rfl (.var rfl) .eq (.int rfl) rfl) .or (.true rfl) rfl
  exact ⟨noEnd, (ofTokens_eq_ok_iff_derives ts _ noEnd).1.2
    (.single (.whileDo rfl cond rfl (.single (.skip rfl)) rfl))⟩

end ImpHost
