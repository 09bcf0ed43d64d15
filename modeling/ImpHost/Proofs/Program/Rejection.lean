import ImpHost.Proofs.Program.Parsing
import ImpHost.Proofs.Token.Tokenization

/-!
Where the parser gives up on tokens that are no program.

Tokens are *viable* for a rule of the grammar if tokens of the language can follow that complete
them. A production that fails blames a token, or the end of the input, and all tokens in front of it
are viable for what the production reads (`Blames`). Such a failure is carried outwards from rule to
rule: what a rule has read in front of one of its parts is completed with the part and with samples
of what the rule still misses (`Blames.inside`). An attempt that finds nothing does not fail, so the
places to which the parser goes back do not enter.

Main statement: `rejected_at_viable_front`.
-/

namespace ImpHost

/-- A computation in two parts fails if one of its parts does. -/
theorem bind_eq_error {ε α β : Type} {x : Except ε α} {f : α → Except ε β} {e : ε} :
    (x >>= f) = .error e ↔ x = .error e ∨ ∃ a, x = .ok a ∧ f a = .error e := by
  cases x with
  | error e' =>
    constructor
    · intro failed
      cases failed
      exact .inl rfl
    · rintro (failed | ⟨a, ok, -⟩)
      · cases failed
        rfl
      · cases ok
  | ok a =>
    constructor
    · intro second
      exact .inr ⟨a, rfl, second⟩
    · rintro (failed | ⟨a', first, second⟩)
      · cases failed
      · cases first
        exact second

/-- A token of each kind, to complete phrases with. -/
def Token.sample : Token.Kind → Token
  | .int => ⟨.int, "0", 0, 0⟩
  | .var => ⟨.var, "x", 0, 0⟩
  | .operator o => ⟨.operator o, o.spelling, 0, 0⟩
  | .keyword w => ⟨.keyword w, w.spelling, 0, 0⟩
  | .semi => ⟨.semi, ";", 0, 0⟩
  | .lparen => ⟨.lparen, "(", 0, 0⟩
  | .rparen => ⟨.rparen, ")", 0, 0⟩
  | .eof => ⟨.eof, "", 0, 0⟩
  | .unknown => ⟨.unknown, "", 0, 0⟩

theorem Token.kind_sample (kind : Token.Kind) : (Token.sample kind).kind = kind := by
  cases kind <;> rfl

theorem Token.isLexeme_sample {kind : Token.Kind} (known : kind ≠ .eof ∧ kind ≠ .unknown) :
    (Token.sample kind).IsLexeme := by
  cases kind with
  | int =>
    have zero : Token.Lexeme .int (String.ofList ['0']) 0 :=
      .int (by decide) (List.all_eq_true.1 rfl) (by decide) (by decide)
    exact zero
  | var =>
    have x : Token.Lexeme .var (String.ofList ['x']) 0 :=
      .var (by decide) (List.forall_mem_nil _) fun w => by cases w <;> decide
    exact x
  | operator o => exact .operator o
  | keyword w => exact .keyword w
  | semi => exact .semi
  | lparen => exact .lparen
  | rparen => exact .rparen
  | eof => exact (known.1 rfl).elim
  | unknown => exact (known.2 rfl).elim

namespace Parser

open Grammar Token

/-! ## Viable tokens -/

/-- Tokens of the language can follow `ts` that make the whole a phrase of the rule. -/
def Viable {α : Type} (rule : List Token → α → Prop) (ts : List Token) : Prop :=
  ∃ more tree, (∀ t ∈ more, t.IsLexeme) ∧ rule (ts ++ more) tree

/-- The failure is for the token behind viable ones at the front of `ts`, or for the end of the
input if none is left. -/
def Blames {α : Type} (stop : Int) (rule : List Token → α → Prop) (ts : List Token)
    (e : GrammarError) : Prop :=
  ∃ front back, ts = front ++ back ∧ Viable rule front ∧
    e.report.kind = Diagnostic.Kind.grammar ∧ e.report.pos = (current stop back).pos

variable {α β : Type} {stop : Int} {place : Place} {rule : List Token → α → Prop}
  {part : List Token → β → Prop} {ts us vs ws rest rest' : List Token} {e : GrammarError}

theorem viable_of_rule {tree : α} (whole : rule ts tree) : Viable rule ts :=
  ⟨[], tree, List.forall_mem_nil _, by rwa [List.append_nil]⟩

/-- A phrase of the rule that ends with samples. -/
theorem viable_of_samples {tree : α} (kinds : List Token.Kind) (whole : rule ws tree)
    (split : ws = us ++ kinds.map sample)
    (known : ∀ kind ∈ kinds, kind ≠ .eof ∧ kind ≠ .unknown) : Viable rule us := by
  refine ⟨kinds.map sample, tree, ?_, split ▸ whole⟩
  intro t member
  obtain ⟨kind, isKind, rfl⟩ := List.mem_map.1 member
  exact isLexeme_sample (known kind isKind)

theorem Blames.here {missing : Missing} (split : ts = us ++ rest) (viable : Viable rule us) :
    Blames stop rule ts (fail stop rest missing) :=
  ⟨us, rest, split, viable, rfl, rfl⟩

/-- A failure in a part of a rule is one of the rule, if the rule can be completed after what it has
read and then the part. -/
theorem Blames.inside (split : ts = us ++ rest)
    (goesOn : ∀ vs tree, part vs tree → Viable rule (us ++ vs)) (blames : Blames stop part rest e) :
    Blames stop rule ts e := by
  obtain ⟨front, back, rfl, ⟨more, tree, lexemes, isPart⟩, kind, pos⟩ := blames
  obtain ⟨more', tree', lexemes', whole⟩ := goesOn _ tree isPart
  refine ⟨us ++ front, back, by rw [split, List.append_assoc],
    ⟨more ++ more', tree', List.forall_mem_append.2 ⟨lexemes, lexemes'⟩, ?_⟩, kind, pos⟩
  simpa only [List.append_assoc] using whole

/-- Reading `vs` moves the place in `ts` on. -/
theorem advance (vs : List Token) (split : ts = us ++ rest) (read : rest = vs ++ rest') :
    ts = us ++ vs ++ rest' := by
  rw [split, read, List.append_assoc]

theorem eq_fail_of_expect {kind : Token.Kind} (failed : expect stop kind place ts = .error e) :
    e = fail stop ts (.token kind place) := by
  cases ts with
  | nil =>
    cases failed
    rfl
  | cons t ts =>
    rw [expect] at failed
    split at failed
    · cases failed
    · cases failed
      rfl

theorem eq_fail_of_required {missing : Missing} {a : Attempt α ts}
    (failed : required stop missing a = .error e) : e = fail stop ts missing := by
  cases a with
  | hit found => cases failed
  | miss opens =>
    cases failed
    rfl

/-! ## Arithmetic expressions -/

section

variable {opened sign : Token} {a b : AExpr}

theorem viable_nil_arith : Viable Arith [] :=
  viable_of_samples [.int] (.int (kind_sample _)) rfl (by decide)

theorem viable_arith_left (isOpen : opened.kind = .lparen) (left : Arith us a) :
    Viable Arith ([opened] ++ us) := by
  have signs : ArithSign (sample (.operator .plus)).kind .add := .plus
  exact viable_of_samples [.operator .plus, .int, .rparen]
    (.binary isOpen left signs (.int (kind_sample _)) (kind_sample _)) (by simp) (by decide)

theorem viable_arith_right {op : ArithOp} (isOpen : opened.kind = .lparen) (left : Arith us a)
    (signs : ArithSign sign.kind op) (right : Arith vs b) :
    Viable Arith ([opened] ++ us ++ [sign] ++ vs) :=
  viable_of_samples [.rparen] (.binary isOpen left signs right (kind_sample _)) (by simp)
    (by decide)

end

/-- An attempt at arithmetic that fails blames a token behind the front of an arithmetic
expression. -/
theorem blames_of_tryArith (failed : tryArith stop ts = .error e) : Blames stop Arith ts e := by
  induction ts using tryArith.induct with
  | case1 => simp [tryArith] at failed
  | case2 t ts kind =>
    rw [tryArith, kind] at failed
    cases failed
  | case3 t ts kind =>
    rw [tryArith, kind] at failed
    cases failed
  | case4 t ts kind first second =>
    have atLeft : t :: ts = [t] ++ ts := rfl
    rw [tryArith, kind] at failed
    rcases bind_eq_error.1 failed with failed | ⟨attempt, readLeft, failed⟩
    · exact .inside atLeft (fun _ _ => viable_arith_left kind) (first failed)
    cases attempt with
    | miss opens => cases failed
    | hit left =>
      obtain ⟨us, arithLeft, eqLeft⟩ := arith_of_tryArith readLeft
      have atSign := advance us atLeft eqLeft
      dsimp only at failed
      split at failed
      · next op readOp =>
        obtain ⟨sign, eqOp, signs⟩ := cons_of_operator? readOp
        have atRight := advance [sign] atSign eqOp
        have goesOn (vs : List Token) (b : AExpr) (right : Arith vs b) :
            Viable Arith ([t] ++ us ++ [sign] ++ vs) :=
          viable_arith_right kind arithLeft (arithOp?_eq_some_iff.1 signs) right
        rcases bind_eq_error.1 failed with failed | ⟨attempt, readRight, failed⟩
        · exact .inside atRight goesOn (second left op failed)
        rcases bind_eq_error.1 failed with failed | ⟨right, isHit, failed⟩
        · obtain rfl := eq_fail_of_required failed
          exact .inside atRight goesOn (.here rfl viable_nil_arith)
        rw [hit_of_required isHit] at readRight
        obtain ⟨vs, arithRight, eqRight⟩ := arith_of_tryArith readRight
        rcases bind_eq_error.1 failed with failed | ⟨close, _, failed⟩
        · obtain rfl := eq_fail_of_expect failed
          exact .here (advance vs atRight eqRight) (goesOn vs _ arithRight)
        · cases failed
      · cases failed
  | case5 t ts notInt notVar notOpen =>
    rw [tryArith] at failed
    split at failed
    · exact (notInt ‹_›).elim
    · exact (notVar ‹_›).elim
    · exact (notOpen ‹_›).elim
    · cases failed

theorem blames_of_parseArith (failed : parseArith stop place ts = .error e) :
    Blames stop Arith ts e := by
  rcases bind_eq_error.1 failed with failed | ⟨attempt, -, failed⟩
  · exact blames_of_tryArith failed
  · obtain rfl := eq_fail_of_required failed
    exact .here rfl viable_nil_arith

/-! ## Boolean expressions -/

section

variable {opened sign mark : Token}

/-- A comparison without its open parenthesis. -/
abbrev CompareAfter (opened : Token) (us : List Token) (e : BExpr) : Prop :=
  Boolean (opened :: us) e

theorem viable_compare_left {a : AExpr} (isOpen : opened.kind = .lparen) (left : Arith us a) :
    Viable (CompareAfter opened) us := by
  have signs : CompareSign (sample (.operator .lte)).kind .le := .lte
  exact viable_of_samples [.operator .lte, .int, .rparen]
    (.compare isOpen left signs (.int (kind_sample _)) (kind_sample _)) (by simp) (by decide)

theorem viable_compare_right {op : CompareOp} {a b : AExpr} (isOpen : opened.kind = .lparen)
    (left : Arith us a) (signs : CompareSign sign.kind op) (right : Arith vs b) :
    Viable (CompareAfter opened) (us ++ [sign] ++ vs) :=
  viable_of_samples [.rparen] (.compare isOpen left signs right (kind_sample _)) (by simp)
    (by decide)

theorem viable_nil_boolean : Viable Boolean [] :=
  viable_of_samples [.keyword .kTrue] (.true (kind_sample _)) rfl (by decide)

theorem viable_not (isNot : mark.kind = .keyword .kNot) : Viable Boolean [mark] :=
  viable_of_samples [.lparen, .keyword .kTrue, .rparen]
    (.not isNot (kind_sample _) (.true (kind_sample _)) (kind_sample _)) (by simp) (by decide)

theorem viable_not_operand {a : BExpr} (isNot : mark.kind = .keyword .kNot)
    (isOpen : opened.kind = .lparen) (operand : Boolean us a) :
    Viable Boolean ([mark] ++ [opened] ++ us) :=
  viable_of_samples [.rparen] (.not isNot isOpen operand (kind_sample _)) (by simp) (by decide)

theorem viable_boolean_left {a : BExpr} (isOpen : opened.kind = .lparen) (left : Boolean us a) :
    Viable Boolean ([opened] ++ us) := by
  have signs : BoolSign (sample (.keyword .kAnd)).kind .and := .and
  exact viable_of_samples [.keyword .kAnd, .keyword .kTrue, .rparen]
    (.binary isOpen left signs (.true (kind_sample _)) (kind_sample _)) (by simp) (by decide)

theorem viable_boolean_right {op : BoolOp} {a b : BExpr} (isOpen : opened.kind = .lparen)
    (left : Boolean us a) (signs : BoolSign sign.kind op) (right : Boolean vs b) :
    Viable Boolean ([opened] ++ us ++ [sign] ++ vs) :=
  viable_of_samples [.rparen] (.binary isOpen left signs right (kind_sample _)) (by simp)
    (by decide)

end

theorem blames_of_tryCompare {opens : Nat} {opened : Token} (isOpen : opened.kind = .lparen)
    (failed : tryCompare stop opens ts = .error e) : Blames stop (CompareAfter opened) ts e := by
  have atLeft : ts = [] ++ ts := rfl
  unfold tryCompare at failed
  split at failed
  · cases failed
  rcases bind_eq_error.1 failed with failed | ⟨attempt, readLeft, failed⟩
  · exact .inside atLeft (fun _ _ => viable_compare_left isOpen) (blames_of_tryArith failed)
  cases attempt with
  | miss _ => cases failed
  | hit left =>
    obtain ⟨us, arithLeft, eqLeft⟩ := arith_of_tryArith readLeft
    dsimp only at failed
    split at failed
    · next op readOp =>
      obtain ⟨sign, eqOp, signs⟩ := cons_of_operator? readOp
      have atRight : ts = us ++ [sign] ++ op.rest := advance [sign] eqLeft eqOp
      have goesOn (vs : List Token) (b : AExpr) (right : Arith vs b) :
          Viable (CompareAfter opened) (us ++ [sign] ++ vs) :=
        viable_compare_right isOpen arithLeft (compareOp?_eq_some_iff.1 signs) right
      rcases bind_eq_error.1 failed with failed | ⟨right, readRight, failed⟩
      · exact .inside atRight goesOn (blames_of_parseArith failed)
      obtain ⟨vs, arithRight, eqRight⟩ := arith_of_parseArith readRight
      rcases bind_eq_error.1 failed with failed | ⟨close, _, failed⟩
      · obtain rfl := eq_fail_of_expect failed
        exact .here (advance vs atRight eqRight) (goesOn vs _ arithRight)
      · cases failed
    · cases failed

/-- A boolean expression that is missing or broken is blamed on a token behind the front of one,
whichever rule the parser has tried first. -/
theorem blames_of_parseBool {opens : Nat} (failed : parseBool stop opens place ts = .error e) :
    Blames stop Boolean ts e := by
  induction opens, place, ts using parseBool.induct with
  | case1 opens place =>
    rw [parseBool] at failed
    cases failed
    exact .here rfl viable_nil_boolean
  | case2 opens place t ts kind =>
    rw [parseBool, kind] at failed
    cases failed
  | case3 opens place t ts kind =>
    rw [parseBool, kind] at failed
    cases failed
  | case4 opens place t ts kind inner =>
    rw [parseBool, kind] at failed
    have atOpen : t :: ts = [t] ++ ts := rfl
    rcases bind_eq_error.1 failed with failed | ⟨opened, readOpen, failed⟩
    · obtain rfl := eq_fail_of_expect failed
      exact .here atOpen (viable_not kind)
    obtain ⟨openMark, eqOpen, isOpen⟩ := cons_of_expect readOpen
    have atOperand := advance [openMark] atOpen eqOpen
    rcases bind_eq_error.1 failed with failed | ⟨operand, readOperand, failed⟩
    · exact .inside atOperand (fun _ _ => viable_not_operand kind isOpen) (inner opened failed)
    obtain ⟨us, boolean, eqOperand⟩ := boolean_of_parseBool readOperand
    rcases bind_eq_error.1 failed with failed | ⟨close, _, failed⟩
    · obtain rfl := eq_fail_of_expect failed
      exact .here (advance us atOperand eqOperand) (viable_not_operand kind isOpen boolean)
    · cases failed
  | case5 opens place t ts kind first second =>
    rw [parseBool, kind] at failed
    have atLeft : t :: ts = [t] ++ ts := rfl
    rcases bind_eq_error.1 failed with failed | ⟨attempt, tried, failed⟩
    · exact .inside atLeft (fun _ _ => viable_of_rule) (blames_of_tryCompare kind failed)
    cases attempt with
    | hit compare => cases failed
    | miss ahead =>
      rcases bind_eq_error.1 failed with failed | ⟨left, readLeft, failed⟩
      · exact .inside atLeft (fun _ _ => viable_boolean_left kind) (first ahead failed)
      obtain ⟨us, booleanLeft, eqLeft⟩ := boolean_of_parseBool readLeft
      have atSign := advance us atLeft eqLeft
      split at failed
      · next op readOp =>
        obtain ⟨sign, eqOp, signs⟩ := cons_of_operator? readOp
        have atRight := advance [sign] atSign eqOp
        have goesOn (vs : List Token) (b : BExpr) (right : Boolean vs b) :
            Viable Boolean ([t] ++ us ++ [sign] ++ vs) :=
          viable_boolean_right kind booleanLeft (boolOp?_eq_some_iff.1 signs) right
        rcases bind_eq_error.1 failed with failed | ⟨right, readRight, failed⟩
        · exact .inside atRight goesOn (second left op failed)
        obtain ⟨vs, booleanRight, eqRight⟩ := boolean_of_parseBool readRight
        rcases bind_eq_error.1 failed with failed | ⟨close, _, failed⟩
        · obtain rfl := eq_fail_of_expect failed
          exact .here (advance vs atRight eqRight) (goesOn vs _ booleanRight)
        · cases failed
      · cases failed
        exact .here atSign (viable_boolean_left kind booleanLeft)
  | case6 opens place t ts notTrue notFalse notNot notOpen =>
    rw [parseBool] at failed
    split at failed
    · exact (notTrue ‹_›).elim
    · exact (notFalse ‹_›).elim
    · exact (notNot ‹_›).elim
    · exact (notOpen ‹_›).elim
    · cases failed
      exact .here rfl viable_nil_boolean

/-! ## Commands -/

section

variable {ifMark thenMark elseMark whileMark doMark name mark : Token} {cond : BExpr}
  {a b : Command}

/-- The command to complete others with. -/
theorem derives_sample : Derives .command [sample (.keyword .kSkip)] .skip :=
  .single (.skip (kind_sample _))

theorem viable_nil_atomic : Viable (Derives .atomic) [] :=
  viable_of_samples [.keyword .kSkip] (.skip (kind_sample _)) rfl (by decide)

theorem viable_assign (isVar : name.kind = .var) : Viable (Derives .atomic) [name] :=
  viable_of_samples [.operator .assign, .int] (.assign isVar (kind_sample _) (.int (kind_sample _)))
    rfl (by decide)

theorem viable_if (isIf : ifMark.kind = .keyword .kIf) (boolean : Boolean us cond) :
    Viable (Derives .atomic) ([ifMark] ++ us) :=
  viable_of_samples
    [.keyword .kThen, .keyword .kSkip, .keyword .kElse, .keyword .kSkip, .keyword .kEnd]
    (.ite isIf boolean (kind_sample _) derives_sample (kind_sample _) derives_sample
      (kind_sample _)) (by simp) (by decide)

theorem viable_then (isIf : ifMark.kind = .keyword .kIf) (boolean : Boolean us cond)
    (isThen : thenMark.kind = .keyword .kThen) (yes : Derives .command vs a) :
    Viable (Derives .atomic) ([ifMark] ++ us ++ [thenMark] ++ vs) :=
  viable_of_samples [.keyword .kElse, .keyword .kSkip, .keyword .kEnd]
    (.ite isIf boolean isThen yes (kind_sample _) derives_sample (kind_sample _)) (by simp)
    (by decide)

theorem viable_else (isIf : ifMark.kind = .keyword .kIf) (boolean : Boolean us cond)
    (isThen : thenMark.kind = .keyword .kThen) (yes : Derives .command vs a)
    (isElse : elseMark.kind = .keyword .kElse) (no : Derives .command ws b) :
    Viable (Derives .atomic) ([ifMark] ++ us ++ [thenMark] ++ vs ++ [elseMark] ++ ws) :=
  viable_of_samples [.keyword .kEnd]
    (.ite isIf boolean isThen yes isElse no (kind_sample _)) (by simp) (by decide)

theorem viable_while (isWhile : whileMark.kind = .keyword .kWhile) (boolean : Boolean us cond) :
    Viable (Derives .atomic) ([whileMark] ++ us) :=
  viable_of_samples [.keyword .kDo, .keyword .kSkip, .keyword .kEnd]
    (.whileDo isWhile boolean (kind_sample _) derives_sample (kind_sample _)) (by simp) (by decide)

theorem viable_do (isWhile : whileMark.kind = .keyword .kWhile) (boolean : Boolean us cond)
    (isDo : doMark.kind = .keyword .kDo) (body : Derives .command vs a) :
    Viable (Derives .atomic) ([whileMark] ++ us ++ [doMark] ++ vs) :=
  viable_of_samples [.keyword .kEnd] (.whileDo isWhile boolean isDo body (kind_sample _)) (by simp)
    (by decide)

end

/-- What the three productions for commands blame, together: `parseMore` fails behind the command
that it is given. -/
theorem blames_of_parse (stop : Int) :
    (∀ ts e, parseAtomic stop ts = .error e → Blames stop (Derives .atomic) ts e) ∧
    (∀ ts e, parseCommand stop ts = .error e → Blames stop (Derives .command) ts e) ∧
    ∀ (whole : List Token) left ts (shorter : ts.length < whole.length) e,
      parseMore stop left ts shorter = .error e → ∀ us, Derives .command us left →
        Blames stop (Derives .command) (us ++ ts) e := by
  apply parseAtomic.mutual_induct
  case case1 =>
    intro e failed
    rw [parseAtomic] at failed
    cases failed
    exact .here rfl viable_nil_atomic
  case case2 =>
    intro t ts kind e failed
    rw [parseAtomic, kind] at failed
    cases failed
  case case3 =>
    intro t ts kind e failed
    rw [parseAtomic, kind] at failed
    have atAssign : t :: ts = [t] ++ ts := rfl
    rcases bind_eq_error.1 failed with failed | ⟨assign, readAssign, failed⟩
    · obtain rfl := eq_fail_of_expect failed
      exact .here atAssign (viable_assign kind)
    obtain ⟨mark, eqMark, isAssign⟩ := cons_of_expect readAssign
    rcases bind_eq_error.1 failed with failed | ⟨value, _, failed⟩
    · exact .inside (advance [mark] atAssign eqMark)
        (fun _ _ value => viable_of_rule (.assign kind isAssign value))
        (blames_of_parseArith failed)
    · cases failed
  case case4 =>
    intro t ts kind blamesYes blamesNo e failed
    rw [parseAtomic, kind] at failed
    have atCond : t :: ts = [t] ++ ts := rfl
    rcases bind_eq_error.1 failed with failed | ⟨cond, readCond, failed⟩
    · exact .inside atCond (fun _ _ => viable_if kind) (blames_of_parseBool failed)
    obtain ⟨us, boolean, eqCond⟩ := boolean_of_parseBool readCond
    have atThen := advance us atCond eqCond
    rcases bind_eq_error.1 failed with failed | ⟨thenMark, readThen, failed⟩
    · obtain rfl := eq_fail_of_expect failed
      exact .here atThen (viable_if kind boolean)
    obtain ⟨thenToken, eqThen, isThen⟩ := cons_of_expect readThen
    have atYes := advance [thenToken] atThen eqThen
    rcases bind_eq_error.1 failed with failed | ⟨yes, readYes, failed⟩
    · exact .inside atYes (fun _ _ => viable_then kind boolean isThen)
        (blamesYes cond thenMark e failed)
    obtain ⟨vs, derivesYes, eqYes⟩ := (derives_of_parse stop).2.1 _ yes readYes
    have atElse := advance vs atYes eqYes
    rcases bind_eq_error.1 failed with failed | ⟨elseMark, readElse, failed⟩
    · obtain rfl := eq_fail_of_expect failed
      exact .here atElse (viable_then kind boolean isThen derivesYes)
    obtain ⟨elseToken, eqElse, isElse⟩ := cons_of_expect readElse
    have atNo := advance [elseToken] atElse eqElse
    rcases bind_eq_error.1 failed with failed | ⟨no, readNo, failed⟩
    · exact .inside atNo (fun _ _ => viable_else kind boolean isThen derivesYes isElse)
        (blamesNo cond thenMark yes elseMark e failed)
    obtain ⟨ws, derivesNo, eqNo⟩ := (derives_of_parse stop).2.1 _ no readNo
    rcases bind_eq_error.1 failed with failed | ⟨close, _, failed⟩
    · obtain rfl := eq_fail_of_expect failed
      exact .here (advance ws atNo eqNo)
        (viable_else kind boolean isThen derivesYes isElse derivesNo)
    · cases failed
  case case5 =>
    intro t ts kind blamesBody e failed
    rw [parseAtomic, kind] at failed
    have atCond : t :: ts = [t] ++ ts := rfl
    rcases bind_eq_error.1 failed with failed | ⟨cond, readCond, failed⟩
    · exact .inside atCond (fun _ _ => viable_while kind) (blames_of_parseBool failed)
    obtain ⟨us, boolean, eqCond⟩ := boolean_of_parseBool readCond
    have atDo := advance us atCond eqCond
    rcases bind_eq_error.1 failed with failed | ⟨doMark, readDo, failed⟩
    · obtain rfl := eq_fail_of_expect failed
      exact .here atDo (viable_while kind boolean)
    obtain ⟨doToken, eqDo, isDo⟩ := cons_of_expect readDo
    have atBody := advance [doToken] atDo eqDo
    rcases bind_eq_error.1 failed with failed | ⟨body, readBody, failed⟩
    · exact .inside atBody (fun _ _ => viable_do kind boolean isDo)
        (blamesBody cond doMark e failed)
    obtain ⟨vs, derivesBody, eqBody⟩ := (derives_of_parse stop).2.1 _ body readBody
    rcases bind_eq_error.1 failed with failed | ⟨close, _, failed⟩
    · obtain rfl := eq_fail_of_expect failed
      exact .here (advance vs atBody eqBody) (viable_do kind boolean isDo derivesBody)
    · cases failed
  case case6 =>
    intro t ts notSkip notVar notIf notWhile e failed
    rw [parseAtomic] at failed
    split at failed
    · exact (notSkip ‹_›).elim
    · exact (notVar ‹_›).elim
    · exact (notIf ‹_›).elim
    · exact (notWhile ‹_›).elim
    · cases failed
      exact .here rfl viable_nil_atomic
  case case7 =>
    intro ts blamesFirst blamesMore e failed
    rw [parseCommand] at failed
    rcases bind_eq_error.1 failed with failed | ⟨first, readFirst, failed⟩
    · have atFirst : ts = [] ++ ts := rfl
      exact .inside atFirst (fun _ _ atomic => viable_of_rule (.single atomic))
        (blamesFirst e failed)
    obtain ⟨us, derivesFirst, eqFirst⟩ := (derives_of_parse stop).1 _ first readFirst
    rw [eqFirst]
    exact blamesMore first e failed us (.single derivesFirst)
  case case8 =>
    intro whole left shorter _ e failed
    rw [parseMore] at failed
    cases failed
  case case9 =>
    intro whole left t rest shorter semi _ blamesRight blamesMore e failed us derives
    rw [parseMore, if_pos semi] at failed
    have atRight : us ++ t :: rest = us ++ [t] ++ rest := advance [t] rfl rfl
    rcases bind_eq_error.1 failed with failed | ⟨right, readRight, failed⟩
    · refine .inside atRight (fun vs b atomic => ?_) (blamesRight e failed)
      rw [List.append_assoc]
      exact viable_of_rule (.seq derives semi atomic)
    obtain ⟨vs, derivesRight, eqRight⟩ := (derives_of_parse stop).1 _ right readRight
    have blames := blamesMore right e failed (us ++ t :: vs) (.seq derives semi derivesRight)
    rwa [List.append_assoc, List.cons_append, ← eqRight] at blames
  case case10 =>
    intro whole left t rest shorter notSemi _ e failed
    rw [parseMore, if_neg notSemi] at failed
    cases failed

/-! ## Programs -/

theorem blames_of_ofTokens (rejected : Command.ofTokens ts = .error e) :
    Blames (stopOf ts) (Derives .command) ts e := by
  unfold Command.ofTokens at rejected
  split at rejected
  · next empty =>
    obtain rfl := List.isEmpty_iff.1 empty
    cases rejected
    have viable : Viable (Derives .command) [] :=
      viable_of_samples [.keyword .kSkip] derives_sample rfl (by decide)
    exact ⟨[], [], rfl, viable, rfl, rfl⟩
  · rcases bind_eq_error.1 rejected with failed | ⟨program, read, rejected⟩
    · exact (blames_of_parse (stopOf ts)).2.1 ts e failed
    obtain ⟨us, derives, split⟩ := (derives_of_parse (stopOf ts)).2.1 ts program read
    dsimp only at rejected
    split at rejected
    · cases rejected
    · cases rejected
      exact ⟨us, program.rest, split, viable_of_rule derives, rfl, rfl⟩

/-- The end of the input is behind all tokens. -/
theorem pos_lt_stopOf (ascending : ts.Pairwise fun t u => t.pos < u.pos)
    (emitted : ∀ t ∈ ts, Emitted t) : ∀ t ∈ ts, t.pos < stopOf ts := by
  intro t member
  cases ends : ts.getLast? with
  | none => simp [List.getLast?_eq_none_iff.1 ends] at member
  | some last =>
    obtain ⟨init, rfl⟩ := List.getLast?_eq_some_iff.1 ends
    have longer := (emitted last (by simp)).length_pos
    rw [String.length_toList] at longer
    rw [stopOf, ends]
    dsimp only
    rcases List.mem_append.1 member with before | same
    · have := (List.pairwise_append.1 ascending).2.2 t before last List.mem_cons_self
      omega
    · obtain rfl := List.mem_singleton.1 same
      omega

/-- The tokens that stand before the place behind `us` are those of `us`. -/
theorem filter_before (split : ts = us ++ rest)
    (ascending : ts.Pairwise fun t u => t.pos < u.pos) (emitted : ∀ t ∈ ts, Emitted t) :
    ts.filter (fun t => decide (t.pos < (current (stopOf ts) rest).pos)) = us := by
  have inFront := pos_lt_stopOf ascending emitted
  subst split
  obtain ⟨-, pairwise, between⟩ := List.pairwise_append.1 ascending
  rw [List.filter_append, List.filter_eq_self.2, List.filter_eq_nil_iff.2, List.append_nil]
  · intro u member
    cases rest with
    | nil => cases member
    | cons t rest =>
      rw [decide_eq_true_iff, Int.not_lt]
      rcases List.mem_cons.1 member with rfl | member
      · exact Int.le_refl _
      · exact Int.le_of_lt ((List.pairwise_cons.1 pairwise).1 u member)
  · intro u member
    rw [decide_eq_true_iff]
    cases rest with
    | nil => exact inFront u (List.mem_append_left _ member)
    | cons t rest => exact between u member t List.mem_cons_self

end Parser

open ImpHost.Parser

/-- A source whose tokens are no program is rejected at one of its tokens or at its end, behind the
last one. The tokens in front of that place can be completed to a program, so the place is not
behind the first token after which no program is possible. -/
theorem rejected_at_viable_front (source : Text) (ts : List Token) (e : GrammarError)
    (lexed : Token.lex source.chars = .ok ts) (rejected : Command.ofTokens ts = .error e) :
    e.report.kind = Diagnostic.Kind.grammar ∧
    ((∃ t ∈ ts, e.report.pos = t.pos) ∨ (ts = [] ∧ e.report.pos = 1) ∨
      ∃ last, ts.getLast? = some last ∧ e.report.pos = last.pos + last.text.length) ∧
    (∃ more c, (∀ t ∈ more, t.IsLexeme) ∧
      Command.ofTokens (ts.filter (fun t => t.pos < e.report.pos) ++ more) = .ok c) ∧
    ∀ front t back, ts = front ++ t :: back →
      (∀ more c, Command.ofTokens (front ++ t :: more) ≠ .ok c) → e.report.pos ≤ t.pos := by
  have ascending := Token.ascending_of_lex lexed
  obtain ⟨viable, rest, split, ⟨more, c, lexemes, derives⟩, kind, pos⟩ :=
    blames_of_ofTokens rejected
  have accepted :
      Command.ofTokens (ts.filter (fun t => t.pos < e.report.pos) ++ more) = .ok c := by
    rw [pos, filter_before split ascending (Token.emitted_of_lex lexed)]
    exact ofTokens_of_derives derives
  refine ⟨kind, ?_, ⟨more, c, lexemes, accepted⟩, ?_⟩
  · cases rest with
    | cons t rest => exact .inl ⟨t, split ▸ List.mem_append_right _ List.mem_cons_self, pos⟩
    | nil =>
      right
      cases ends : ts.getLast? with
      | none =>
        obtain rfl := List.getLast?_eq_none_iff.1 ends
        exact .inl ⟨rfl, pos⟩
      | some last => exact .inr ⟨last, rfl, by rw [pos, current, stopOf, ends]⟩
  · rintro front t back rfl hopeless
    -- Else the token is one of those in front of the place, which are no hopeless beginning.
    refine Int.not_lt.1 fun before => ?_
    obtain ⟨-, -, between⟩ := List.pairwise_append.1 ascending
    have kept : ∀ u ∈ front, decide (u.pos < e.report.pos) = true := by
      intro u member
      exact decide_eq_true (Int.lt_trans (between u member t List.mem_cons_self) before)
    rw [List.filter_append, List.filter_eq_self.2 kept,
      List.filter_cons_of_pos (by simpa using before), List.append_assoc,
      List.cons_append] at accepted
    exact hopeless _ _ accepted

/-- In `if (x) then skip else skip end` arithmetic is read behind the parenthesis and then given
back, for it is no boolean expression. -/
theorem rejected_at_viable_front_given_back :
    let ts : List Token := [⟨.keyword .kIf, "if", 0, 1⟩, ⟨.lparen, "(", 0, 4⟩, ⟨.var, "x", 0, 5⟩,
      ⟨.rparen, ")", 0, 6⟩, ⟨.keyword .kThen, "then", 0, 8⟩, ⟨.keyword .kSkip, "skip", 0, 13⟩,
      ⟨.keyword .kElse, "else", 0, 18⟩, ⟨.keyword .kSkip, "skip", 0, 23⟩,
      ⟨.keyword .kEnd, "end", 0, 28⟩]
    ∃ e, Command.ofTokens ts = .error e ∧ e.report.pos = 5 ∧
      ∃ more c, Command.ofTokens (ts.take 2 ++ more) = .ok c := by
  intro ts
  have lexed : Token.lex (Text.chars "if (x) then skip else skip end") = .ok ts := by
    rw [Text.chars_ofString]
    decide +kernel
  have rejected : Command.ofTokens ts =
      .error (.expected (.bool .afterOpen) ⟨.var, "x", 0, 5⟩) := by
    cbv
  obtain ⟨-, -, ⟨more, c, -, accepted⟩, -⟩ :=
    rejected_at_viable_front _ ts _ lexed rejected
  exact ⟨_, rejected, rfl, more, c, accepted⟩

end ImpHost
