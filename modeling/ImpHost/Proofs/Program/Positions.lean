import Mathlib.Data.List.Forall2
import ImpHost.Proofs.Program.RoundTrip
import ImpHost.Proofs.Token.Respacing

/-!
Where tokens stand does not matter to the parser.

Two lists of tokens are `SameTokens` if they differ in positions only. Each production is followed
on both lists at once: it reads the same tree and leaves the same tokens, or it fails on both for
the same reason (`same_tryArith`, `same_parseBool`, `same_commands`). The relation is carried from
the parts of a production to the whole by `Alike.bind`. The position of the end of the input is a
parameter of its own on either side, because it only ever goes into an error.

Main statement: `spacing_is_free`.
-/

namespace ImpHost

/-- The error wherever it was found: what is left of it without its position. -/
def GrammarError.unplaced : GrammarError → GrammarError
  | .tooLarge => .tooLarge
  | .emptyProgram => .emptyProgram
  | .trailing found => .trailing found.unplaced
  | .expected missing found => .expected missing found.unplaced

/-- The message of an error does not tell where it was found. -/
theorem GrammarError.message_unplaced (e : GrammarError) :
    e.unplaced.report.message = e.report.message := by
  cases e <;> rfl

theorem GrammarError.report_kind (e : GrammarError) : e.report.kind = Diagnostic.Kind.grammar := by
  cases e <;> rfl

theorem Token.unplaced_eq_iff {t u : Token} :
    t.unplaced = u.unplaced ↔ t.kind = u.kind ∧ t.text = u.text ∧ t.value = u.value := by
  simp [Token.unplaced]

namespace Parser

variable {stop stop' : Int} {ts us : List Token}

/-! ## What two runs of a production have in common -/

/-- The tokens are the same wherever they stand. -/
def SameTokens : List Token → List Token → Prop :=
  List.Forall₂ fun t u => t.unplaced = u.unplaced

theorem sameTokens_iff : SameTokens ts us ↔ ts.map Token.unplaced = us.map Token.unplaced := by
  rw [← List.forall₂_eq_eq_eq, List.forall₂_map_left_iff, List.forall₂_map_right_iff]
  rfl

/-- The same was read, and the same is left. -/
structure SameRead {α : Type} (p : Parsed α ts) (q : Parsed α us) : Prop where
  tree : p.tree = q.tree
  rest : SameTokens p.rest q.rest

/-- Both attempts have read the same, or neither anything. -/
inductive SameAttempt {α : Type} : Attempt α ts → Attempt α us → Prop
  | hit {p : Parsed α ts} {q : Parsed α us} : SameRead p q → SameAttempt (.hit p) (.hit q)
  | miss (opens : Nat) : SameAttempt (.miss opens) (.miss opens)

/-- Both fail for the same reason, wherever it was found, or both succeed with results that `R`
relates. -/
inductive Alike {α β : Type} (R : α → β → Prop) :
    Except GrammarError α → Except GrammarError β → Prop
  | ok {a : α} {b : β} : R a b → Alike R (.ok a) (.ok b)
  | error {e e' : GrammarError} : e.unplaced = e'.unplaced → Alike R (.error e) (.error e')

/-- What two runs have in common is carried from their first parts to the whole. -/
theorem Alike.bind {α β γ δ : Type} {R : α → β → Prop} {S : γ → δ → Prop}
    {x : Except GrammarError α} {y : Except GrammarError β} {f : α → Except GrammarError γ}
    {g : β → Except GrammarError δ} (first : Alike R x y)
    (rest : ∀ a b, R a b → Alike S (f a) (g b)) : Alike S (x >>= f) (y >>= g) := by
  cases first with
  | ok related => exact rest _ _ related
  | error same => exact .error same

/-! ## Single tokens -/

theorem unplaced_current (same : SameTokens ts us) :
    (current stop ts).unplaced = (current stop' us).unplaced := by
  cases same with
  | nil => rfl
  | cons head tail => exact head

theorem unplaced_fail (same : SameTokens ts us) (missing : Missing) :
    (fail stop ts missing).unplaced = (fail stop' us missing).unplaced :=
  congrArg (GrammarError.expected missing) (unplaced_current same)

theorem same_expect (same : SameTokens ts us) (kind : Token.Kind) (place : Place) :
    Alike SameRead (expect stop kind place ts) (expect stop' kind place us) := by
  cases same with
  | nil => exact .error rfl
  | @cons t u ts us head tail =>
    obtain ⟨sameKind, -, -⟩ := Token.unplaced_eq_iff.1 head
    rw [expect, expect, ← sameKind]
    split
    · exact .ok ⟨rfl, tail⟩
    · exact .error (unplaced_fail (.cons head tail) _)

/-- The same operator is found, or none. -/
theorem same_operator? {α : Type} (same : SameTokens ts us) (read : Token.Kind → Option α) :
    (operator? read ts = none ∧ operator? read us = none) ∨
      ∃ p q, operator? read ts = some p ∧ operator? read us = some q ∧ SameRead p q := by
  cases same with
  | nil => exact .inl ⟨rfl, rfl⟩
  | @cons t u ts us head tail =>
    obtain ⟨sameKind, -, -⟩ := Token.unplaced_eq_iff.1 head
    rw [operator?, operator?, ← sameKind]
    cases read t.kind with
    | none => exact .inl ⟨rfl, rfl⟩
    | some op => exact .inr ⟨_, _, rfl, rfl, rfl, tail⟩

theorem same_required {α : Type} (same : SameTokens ts us) (missing : Missing)
    {attempt : Attempt α ts} {attempt' : Attempt α us} (both : SameAttempt attempt attempt') :
    Alike SameRead (required stop missing attempt) (required stop' missing attempt') := by
  cases both with
  | hit read => exact .ok read
  | miss opens => exact .error (unplaced_fail same missing)

/-! ## Arithmetic -/

/-- The induction follows the attempt on the first list; the second list has a token of the same
kind wherever the first one has one, and so the attempt on it takes the same way. -/
theorem same_tryArith (same : SameTokens ts us) :
    Alike SameAttempt (tryArith stop ts) (tryArith stop' us) := by
  induction ts using tryArith.induct generalizing us with
  | case1 =>
    cases same
    rw [tryArith, tryArith]
    exact .ok (.miss 0)
  | case2 t ts kind =>
    cases same with
    | cons head tail =>
      obtain ⟨sameKind, -, sameValue⟩ := Token.unplaced_eq_iff.1 head
      rw [tryArith, tryArith, ← sameKind, kind, sameValue]
      exact .ok (.hit ⟨rfl, tail⟩)
  | case3 t ts kind =>
    cases same with
    | cons head tail =>
      obtain ⟨sameKind, sameText, -⟩ := Token.unplaced_eq_iff.1 head
      rw [tryArith, tryArith, ← sameKind, kind, sameText]
      exact .ok (.hit ⟨rfl, tail⟩)
  | case4 t ts kind first second =>
    cases same with
    | cons head tail =>
      obtain ⟨sameKind, -, -⟩ := Token.unplaced_eq_iff.1 head
      rw [tryArith, tryArith, ← sameKind, kind]
      refine (first tail).bind fun attempt attempt' both => ?_
      cases both with
      | miss opens => exact .ok (.miss _)
      | @hit left left' sameLeft =>
        dsimp only
        rcases same_operator? sameLeft.rest arithOp? with
          ⟨found, found'⟩ | ⟨op, op', found, found', sameOp⟩
        · rw [found, found']
          exact .ok (.miss 1)
        · rw [found, found']
          dsimp only
          refine (second left op sameOp.rest).bind fun attempt attempt' both => ?_
          rw [← sameOp.tree]
          refine (same_required sameOp.rest _ both).bind fun right right' sameRight => ?_
          refine (same_expect sameRight.rest _ _).bind fun close close' sameClose => ?_
          rw [← sameLeft.tree, ← sameRight.tree]
          exact .ok (.hit ⟨rfl, sameClose.rest⟩)
  | case5 t ts notInt notVar notOpen =>
    cases same with
    | cons head tail =>
      obtain ⟨sameKind, -, -⟩ := Token.unplaced_eq_iff.1 head
      rw [tryArith, tryArith, ← sameKind]
      split
      · exact (notInt ‹_›).elim
      · exact (notVar ‹_›).elim
      · exact (notOpen ‹_›).elim
      · exact .ok (.miss 0)

theorem same_parseArith (same : SameTokens ts us) (place : Place) :
    Alike SameRead (parseArith stop place ts) (parseArith stop' place us) :=
  (same_tryArith same).bind fun _ _ both => same_required same _ both

/-! ## Boolean expressions -/

theorem same_tryCompare (same : SameTokens ts us) (opens : Nat) :
    Alike SameAttempt (tryCompare stop opens ts) (tryCompare stop' opens us) := by
  unfold tryCompare
  split
  · exact .ok (.miss opens)
  · refine (same_tryArith same).bind fun attempt attempt' both => ?_
    cases both with
    | miss opens => exact .ok (.miss opens)
    | @hit left left' sameLeft =>
      dsimp only
      rcases same_operator? sameLeft.rest compareOp? with
        ⟨found, found'⟩ | ⟨op, op', found, found', sameOp⟩
      · rw [found, found']
        exact .ok (.miss 0)
      · rw [found, found']
        dsimp only
        rw [← sameOp.tree]
        refine (same_parseArith sameOp.rest _).bind fun right right' sameRight => ?_
        refine (same_expect sameRight.rest _ _).bind fun close close' sameClose => ?_
        rw [← sameLeft.tree, ← sameRight.tree]
        exact .ok (.hit ⟨rfl, sameClose.rest⟩)

/-- A count that is handed on is the same on both sides, since `SameAttempt` keeps it. -/
theorem same_parseBool (same : SameTokens ts us) (opens : Nat) (place : Place) :
    Alike SameRead (parseBool stop opens place ts) (parseBool stop' opens place us) := by
  induction opens, place, ts using parseBool.induct generalizing us with
  | case1 opens place =>
    cases same
    rw [parseBool, parseBool]
    exact .error (unplaced_fail .nil _)
  | case2 opens place t ts kind =>
    cases same with
    | cons head tail =>
      obtain ⟨sameKind, -, -⟩ := Token.unplaced_eq_iff.1 head
      rw [parseBool, parseBool, ← sameKind, kind]
      exact .ok ⟨rfl, tail⟩
  | case3 opens place t ts kind =>
    cases same with
    | cons head tail =>
      obtain ⟨sameKind, -, -⟩ := Token.unplaced_eq_iff.1 head
      rw [parseBool, parseBool, ← sameKind, kind]
      exact .ok ⟨rfl, tail⟩
  | case4 opens place t ts kind operand =>
    cases same with
    | cons head tail =>
      obtain ⟨sameKind, -, -⟩ := Token.unplaced_eq_iff.1 head
      rw [parseBool, parseBool, ← sameKind, kind]
      refine (same_expect tail _ _).bind fun opened opened' sameOpened => ?_
      refine (operand opened sameOpened.rest).bind fun operand operand' sameOperand => ?_
      refine (same_expect sameOperand.rest _ _).bind fun close close' sameClose => ?_
      rw [← sameOperand.tree]
      exact .ok ⟨rfl, sameClose.rest⟩
  | case5 opens place t ts kind first second =>
    cases same with
    | cons head tail =>
      obtain ⟨sameKind, -, -⟩ := Token.unplaced_eq_iff.1 head
      rw [parseBool, parseBool, ← sameKind, kind]
      refine (same_tryCompare tail _).bind fun attempt attempt' both => ?_
      cases both with
      | hit sameCompare => exact .ok ⟨sameCompare.tree, sameCompare.rest⟩
      | miss opens =>
        refine (first opens tail).bind fun left left' sameLeft => ?_
        rcases same_operator? sameLeft.rest boolOp? with
          ⟨found, found'⟩ | ⟨op, op', found, found', sameOp⟩
        · rw [found, found']
          exact .error (unplaced_fail sameLeft.rest _)
        · rw [found, found']
          dsimp only
          rw [← sameOp.tree]
          refine (second left op sameOp.rest).bind fun right right' sameRight => ?_
          refine (same_expect sameRight.rest _ _).bind fun close close' sameClose => ?_
          rw [← sameLeft.tree, ← sameRight.tree]
          exact .ok ⟨rfl, sameClose.rest⟩
  | case6 opens place t ts notTrue notFalse notNot notOpen =>
    cases same with
    | cons head tail =>
      obtain ⟨sameKind, -, -⟩ := Token.unplaced_eq_iff.1 head
      rw [parseBool, parseBool, ← sameKind]
      split
      · exact (notTrue ‹_›).elim
      · exact (notFalse ‹_›).elim
      · exact (notNot ‹_›).elim
      · exact (notOpen ‹_›).elim
      · exact .error (unplaced_fail (.cons head tail) _)

/-! ## Commands -/

/-- The three productions for commands, together. -/
theorem same_commands (stop stop' : Int) :
    (∀ ts us, SameTokens ts us → Alike SameRead (parseAtomic stop ts) (parseAtomic stop' us)) ∧
    (∀ ts us, SameTokens ts us → Alike SameRead (parseCommand stop ts) (parseCommand stop' us)) ∧
    ∀ (whole : List Token) left ts (shorter : ts.length < whole.length) (whole' : List Token) us
      (shorter' : us.length < whole'.length), SameTokens ts us →
      Alike SameRead (parseMore stop left ts shorter) (parseMore stop' left us shorter') := by
  apply parseAtomic.mutual_induct
  case case1 =>
    intro us same
    cases same
    rw [parseAtomic, parseAtomic]
    exact .error (unplaced_fail .nil _)
  case case2 =>
    rintro t ts kind - (_ | ⟨head, tail⟩)
    obtain ⟨sameKind, -, -⟩ := Token.unplaced_eq_iff.1 head
    rw [parseAtomic, parseAtomic, ← sameKind, kind]
    exact .ok ⟨rfl, tail⟩
  case case3 =>
    rintro t ts kind - (_ | ⟨head, tail⟩)
    obtain ⟨sameKind, sameText, -⟩ := Token.unplaced_eq_iff.1 head
    rw [parseAtomic, parseAtomic, ← sameKind, kind, ← sameText]
    refine (same_expect tail _ _).bind fun assign assign' sameAssign => ?_
    refine (same_parseArith sameAssign.rest _).bind fun value value' sameValue => ?_
    rw [← sameValue.tree]
    exact .ok ⟨rfl, sameValue.rest⟩
  case case4 =>
    rintro t ts kind yes no - (_ | ⟨head, tail⟩)
    obtain ⟨sameKind, -, -⟩ := Token.unplaced_eq_iff.1 head
    rw [parseAtomic, parseAtomic, ← sameKind, kind]
    refine (same_parseBool tail _ _).bind fun cond cond' sameCond => ?_
    refine (same_expect sameCond.rest _ _).bind fun thenMark thenMark' sameThen => ?_
    refine (yes cond thenMark _ sameThen.rest).bind fun yes yes' sameYes => ?_
    refine (same_expect sameYes.rest _ _).bind fun elseMark elseMark' sameElse => ?_
    refine (no cond thenMark yes elseMark _ sameElse.rest).bind fun no no' sameNo => ?_
    refine (same_expect sameNo.rest _ _).bind fun close close' sameClose => ?_
    rw [← sameCond.tree, ← sameYes.tree, ← sameNo.tree]
    exact .ok ⟨rfl, sameClose.rest⟩
  case case5 =>
    rintro t ts kind body - (_ | ⟨head, tail⟩)
    obtain ⟨sameKind, -, -⟩ := Token.unplaced_eq_iff.1 head
    rw [parseAtomic, parseAtomic, ← sameKind, kind]
    refine (same_parseBool tail _ _).bind fun cond cond' sameCond => ?_
    refine (same_expect sameCond.rest _ _).bind fun doMark doMark' sameDo => ?_
    refine (body cond doMark _ sameDo.rest).bind fun body body' sameBody => ?_
    refine (same_expect sameBody.rest _ _).bind fun close close' sameClose => ?_
    rw [← sameCond.tree, ← sameBody.tree]
    exact .ok ⟨rfl, sameClose.rest⟩
  case case6 =>
    rintro t ts notSkip notVar notIf notWhile - (_ | ⟨head, tail⟩)
    obtain ⟨sameKind, -, -⟩ := Token.unplaced_eq_iff.1 head
    rw [parseAtomic, parseAtomic, ← sameKind]
    split
    · exact (notSkip ‹_›).elim
    · exact (notVar ‹_›).elim
    · exact (notIf ‹_›).elim
    · exact (notWhile ‹_›).elim
    · exact .error (unplaced_fail (.cons head tail) _)
  case case7 =>
    intro ts atomic more us same
    rw [parseCommand, parseCommand]
    refine (atomic us same).bind fun first first' sameFirst => ?_
    rw [← sameFirst.tree]
    exact more first _ _ _ sameFirst.rest
  case case8 =>
    rintro whole left shorter - whole' - shorter' ⟨⟩
    rw [parseMore, parseMore]
    exact .ok ⟨rfl, .nil⟩
  case case9 =>
    rintro whole left t rest shorter semi _ atomic more whole' - shorter' (_ | ⟨head, tail⟩)
    obtain ⟨sameKind, -, -⟩ := Token.unplaced_eq_iff.1 head
    rw [parseMore, parseMore, ← sameKind, if_pos semi, if_pos semi]
    refine (atomic _ tail).bind fun right right' sameRight => ?_
    rw [← sameRight.tree]
    exact more right _ _ _ sameRight.rest
  case case10 =>
    rintro whole left t rest shorter notSemi _ whole' - shorter' (_ | ⟨head, tail⟩)
    obtain ⟨sameKind, -, -⟩ := Token.unplaced_eq_iff.1 head
    rw [parseMore, parseMore, ← sameKind, if_neg notSemi, if_neg notSemi]
    exact .ok ⟨rfl, .cons head tail⟩

end Parser

/-! ## Programs -/

namespace Command

open ImpHost.Parser

/-- Tokens are the same program, or no program for the same reason, wherever they stand. -/
theorem same_ofTokens {ts us : List Token} (same : SameTokens ts us) :
    Alike Eq (ofTokens ts) (ofTokens us) := by
  have sameEmpty : ts.isEmpty = us.isEmpty := by cases same <;> rfl
  unfold ofTokens
  rw [← sameEmpty]
  split
  · exact .error rfl
  · refine ((same_commands _ _).2.1 ts us same).bind fun program program' sameProgram => ?_
    dsimp only
    have sameAfter : (current (stopOf ts) program.rest).unplaced =
        (current (stopOf us) program'.rest).unplaced := unplaced_current sameProgram.rest
    obtain ⟨sameKind, -, -⟩ := Token.unplaced_eq_iff.1 sameAfter
    rw [← sameKind]
    split
    · exact .ok sameProgram.tree
    · exact .error (congrArg GrammarError.trailing sameAfter)

/-- The same program was read, or none was, and the reports are both of a violation of the grammar
and give the same message. -/
inductive SameReading : Except GrammarError Command → Except GrammarError Command → Prop
  | program (c : Command) : SameReading (.ok c) (.ok c)
  | rejection {e e' : GrammarError} : e.report.kind = Diagnostic.Kind.grammar →
    e'.report.kind = Diagnostic.Kind.grammar → e.report.message = e'.report.message →
    SameReading (.error e) (.error e')

theorem SameReading.of_alike {x y : Except GrammarError Command} (alike : Alike Eq x y) :
    SameReading x y := by
  cases alike with
  | @ok c d same =>
    subst same
    exact .program c
  | @error e e' same =>
    refine .rejection e.report_kind e'.report_kind ?_
    rw [← e.message_unplaced, same, e'.message_unplaced]

end Command

namespace Token

open ImpHost.Parser

/-- White space between tokens is free. With any white space around its tokens, and some between any
two of them, a source has the same tokens, each at the place where its text has come to stand.
Another source with the same tokens, wherever they stand there, is parsed as the same program or
rejected with the same message. -/
theorem spacing_is_free {source : Text} {ts : List Token} (lexed : lex source.chars = .ok ts) :
    (∀ front gaps, Spacing ts front gaps →
      ∃ us, lex (Text.ofString (respaced ts front gaps)).chars = .ok us ∧
        us.map unplaced = ts.map unplaced ∧
        ∀ before p after, ts.zip gaps = before ++ p :: after →
          (us[before.length]?).map Token.pos =
            some ((1 + (front ++ spelled before).length : Nat) : Int)) ∧
      ∀ (source' : Text) us, lex source'.chars = .ok us → us.map unplaced = ts.map unplaced →
        Command.SameReading (Command.ofTokens us) (Command.ofTokens ts) := by
  constructor
  · intro front gaps spacing
    rw [Text.chars_ofString]
    exact lex_respaced lexed spacing
  · intro source' us _ same
    exact .of_alike (Command.same_ofTokens (sameTokens_iff.2 same))

/-- An assignment written without any white space, and with some. -/
theorem spacing_is_free_assignment :
    let ts : List Token :=
      [⟨.var, "x", 0, 1⟩, ⟨.operator .assign, ":=", 0, 2⟩, ⟨.int, "1", 1, 4⟩]
    lex (Text.ofString "x:=1").chars = .ok ts ∧ Spacing ts ['\t'] [[' '], ['\n', ' '], []] ∧
      ∃ us, lex (Text.ofString "\tx :=\n 1").chars = .ok us ∧
        us.map unplaced = ts.map unplaced ∧ (us[2]?).map Token.pos = some 8 ∧
        Command.SameReading (Command.ofTokens us) (Command.ofTokens ts) := by
  intro ts
  have lexed : lex (Text.ofString "x:=1").chars = .ok ts := by
    rw [Text.chars_ofString]
    decide +kernel
  have tab : Text.isSpace '\t' = true := by decide
  have blank : Text.isSpace ' ' = true := by decide
  have newline : Text.isSpace '\n' = true := by decide
  have spacing : Spacing ts ['\t'] [[' '], ['\n', ' '], []] :=
    ⟨rfl, by simp [tab, blank, newline], by simp⟩
  obtain ⟨us, again, same, places⟩ := (spacing_is_free lexed).1 _ _ spacing
  have third := places [(ts[0], [' ']), (ts[1], ['\n', ' '])] (ts[2], []) [] rfl
  have place : 1 + (['\t'] ++ spelled [(ts[0], [' ']), (ts[1], ['\n', ' '])]).length = 8 := by
    decide +kernel
  rw [place] at third
  exact ⟨lexed, spacing, us, again, same, third, (spacing_is_free lexed).2 _ us again same⟩

end Token

end ImpHost
