import ImpHost.Proofs.Program.Notes
import ImpHost.Proofs.Program.Parsing

/-!
The table of vain attempts makes no difference.

A table is *right* if at each of its positions an attempt at arithmetic finds nothing (`Right`). A
production `Agrees` with another one if from every right table it has the same outcome and leaves a
right table, also when it fails. Agreement is carried from the parts of a production to the whole
(`Agrees.bind`), so that each production needs to be compared step by step only. What is noted where
an attempt is given up is right because the attempt depends on nothing but its position
(`agrees_giveUp`), and where an attempt is left out, it would have found nothing
(`agrees_tryArith`).

The parser of the library hands counts on instead of keeping a table. They are right in the same
sense (`Missed`), and so it agrees both with the parser that takes notes and with the one that takes
none.

Main statement: `notes_are_transparent`.
-/

namespace ImpHost.Parser

open Grammar

variable {stop : Int} {place : Place}

/-! ## Counts that are handed on -/

/-- At each of the first `opens` tokens an attempt at arithmetic finds nothing. -/
def Missed (stop : Int) (opens : Nat) (ts : List Token) : Prop :=
  ∀ i < opens, ∃ n, tryArith stop (ts.drop i) = .ok (.miss n)

theorem Missed.zero {ts : List Token} : Missed stop 0 ts :=
  fun _ before => (Nat.not_lt_zero _ before).elim

theorem Missed.tail {opens : Nat} {t : Token} {ts : List Token}
    (missed : Missed stop opens (t :: ts)) : Missed stop (opens - 1) ts :=
  fun i before => missed (i + 1) (Nat.add_lt_of_lt_sub before)

theorem Missed.cons {opens n : Nat} {t : Token} {ts : List Token}
    (here : tryArith stop (t :: ts) = .ok (.miss n)) (missed : Missed stop opens ts) :
    Missed stop (opens + 1) (t :: ts) := by
  intro i before
  cases i with
  | zero => exact ⟨n, here⟩
  | succ i => exact missed i (Nat.lt_of_succ_lt_succ before)

theorem tryArith_of_miss {t : Token} {ts : List Token} {opens : Nat} (kind : t.kind = .lparen)
    (missed : tryArith stop ts = .ok (.miss opens)) :
    tryArith stop (t :: ts) = .ok (.miss (opens + 1)) := by
  rw [tryArith, kind]
  simp only [missed]
  rfl

theorem tryArith_of_no_operator {t : Token} {ts : List Token} {left : Parsed AExpr ts}
    (kind : t.kind = .lparen) (read : tryArith stop ts = .ok (.hit left))
    (noOperator : operator? arithOp? left.rest = none) :
    tryArith stop (t :: ts) = .ok (.miss 1) := by
  rw [tryArith, kind]
  simp only [read, bind, Except.bind, noOperator]
  rfl

/-- The count of an unsuccessful attempt tells where other attempts would be unsuccessful. -/
theorem missed_of_miss {ts : List Token} {opens : Nat}
    (missed : tryArith stop ts = .ok (.miss opens)) : Missed stop opens ts := by
  induction ts using tryArith.induct generalizing opens with
  | case1 =>
    rw [tryArith] at missed
    cases missed
    exact .zero
  | case2 t ts kind =>
    rw [tryArith, kind] at missed
    cases missed
  | case3 t ts kind =>
    rw [tryArith, kind] at missed
    cases missed
  | case4 t ts kind first second =>
    have whole := missed
    rw [tryArith, kind] at missed
    obtain ⟨attempt, read, missed⟩ := bind_eq_ok.1 missed
    cases attempt with
    | miss inner =>
      cases missed
      exact .cons whole (first read)
    | hit left =>
      dsimp only at missed
      split at missed
      · obtain ⟨_, _, missed⟩ := bind_eq_ok.1 missed
        obtain ⟨_, _, missed⟩ := bind_eq_ok.1 missed
        obtain ⟨_, _, missed⟩ := bind_eq_ok.1 missed
        cases missed
      · cases missed
        exact .cons whole .zero
  | case5 t ts notInt notVar notOpen =>
    rw [tryArith] at missed
    split at missed
    · exact (notInt ‹_›).elim
    · exact (notVar ‹_›).elim
    · exact (notOpen ‹_›).elim
    · cases missed
      exact .zero

theorem missed_of_tryCompare {opens opens' : Nat} {ts : List Token} (ahead : Missed stop opens ts)
    (missed : tryCompare stop opens ts = .ok (.miss opens')) : Missed stop opens' ts := by
  unfold tryCompare at missed
  split at missed
  · cases missed
    exact ahead
  · obtain ⟨attempt, read, missed⟩ := bind_eq_ok.1 missed
    cases attempt with
    | miss inner =>
      cases missed
      exact missed_of_miss read
    | hit left =>
      dsimp only at missed
      split at missed
      · obtain ⟨_, _, missed⟩ := bind_eq_ok.1 missed
        obtain ⟨_, _, missed⟩ := bind_eq_ok.1 missed
        cases missed
      · cases missed
        exact .zero

namespace Noting

/-! ## Right notes -/

/-- Each position is one of the tokens', and an attempt at arithmetic finds nothing there. -/
def Right (tokens : List Token) (notes : Notes) : Prop :=
  ∀ p ∈ notes, p < tokens.length ∧
    ∃ n, Parser.tryArith (stopOf tokens) (tokens.drop p) = .ok (.miss n)

/-- What a production does to the table: it adds positions to it, or none if none are kept. -/
def Extends (keeps : Bool) (before after : Notes) : Prop :=
  before <:+ after ∧ (keeps = false → after = before)

theorem Extends.refl {keeps : Bool} {notes : Notes} : Extends keeps notes notes :=
  ⟨List.suffix_rfl, fun _ => rfl⟩

theorem Extends.trans {keeps : Bool} {first second third : Notes}
    (one : Extends keeps first second) (two : Extends keeps second third) :
    Extends keeps first third :=
  ⟨one.1.trans two.1, fun off => (two.2 off).trans (one.2 off)⟩

/-- The tokens at the position of an end of them are this end. -/
theorem drop_position {tokens ts : List Token} (isEnd : ts <:+ tokens) :
    tokens.drop (position tokens ts) = ts := by
  obtain ⟨front, rfl⟩ := isEnd
  have length : position (front ++ ts) ts = front.length := by
    rw [position, List.length_append, Nat.add_sub_cancel]
  rw [length, List.drop_left]

theorem position_lt {tokens ts : List Token} {t : Token} (isEnd : t :: ts <:+ tokens) :
    position tokens (t :: ts) < tokens.length := by
  have long := isEnd.length_le
  rw [position, List.length_cons] at *
  omega

/-! ## Agreement -/

/-- Both fail in the same way, or both succeed with results that `R` relates. -/
inductive Alike {α β : Type} (R : α → β → Prop) :
    Except GrammarError α → Except GrammarError β → Prop
  | ok {a : α} {b : β} : R a b → Alike R (.ok a) (.ok b)
  | error (e : GrammarError) : Alike R (.error e) (.error e)

theorem Alike.eq {α : Type} {x y : Except GrammarError α} (alike : Alike Eq x y) : x = y := by
  cases alike with
  | ok same => rw [same]
  | error e => rfl

/-- From every right table, `x` has an outcome like `y` and leaves a right table that extends the
one before. -/
def Agrees {α β : Type} (keeps : Bool) (tokens : List Token) (R : α → β → Prop) (x : Noting α)
    (y : Except GrammarError β) : Prop :=
  ∀ notes, Right tokens notes →
    Alike R (x notes).1 y ∧ Right tokens (x notes).2 ∧ Extends keeps notes (x notes).2

section

variable {keeps : Bool} {tokens : List Token} {α β γ δ : Type} {R : α → β → Prop}
  {S : γ → δ → Prop}

theorem agrees_once {x : Except GrammarError α} {y : Except GrammarError β} (alike : Alike R x y) :
    Agrees keeps tokens R (once x) y :=
  fun _ right => ⟨alike, right, .refl⟩

theorem agrees_same (x : Except GrammarError α) : Agrees keeps tokens Eq (once x) x := by
  cases x with
  | ok a => exact agrees_once (.ok rfl)
  | error e => exact agrees_once (.error e)

theorem agrees_return {a : α} {b : β} (related : R a b) :
    Agrees keeps tokens R (pure a) (.ok b) :=
  agrees_once (.ok related)

theorem bind_of_ok {x : Noting α} {f : α → Noting γ} {notes after : Notes} {a : α}
    (ran : x notes = (.ok a, after)) : (x >>= f) notes = f a after := by
  simp only [bind, ExceptT.bind, ExceptT.mk, StateT.bind, ran, ExceptT.bindCont]

theorem bind_of_error {x : Noting α} {f : α → Noting γ} {notes after : Notes} {e : GrammarError}
    (ran : x notes = (.error e, after)) : (x >>= f) notes = (.error e, after) := by
  simp only [bind, ExceptT.bind, ExceptT.mk, StateT.bind, ran, ExceptT.bindCont]
  rfl

/-- Productions agree if their first parts do and then the rest does. -/
theorem Agrees.bind {x : Noting α} {y : Except GrammarError β} {f : α → Noting γ}
    {g : β → Except GrammarError δ} (first : Agrees keeps tokens R x y)
    (rest : ∀ a b, y = .ok b → R a b → Agrees keeps tokens S (f a) (g b)) :
    Agrees keeps tokens S (x >>= f) (y >>= g) := by
  intro notes right
  obtain ⟨alike, rightAfter, added⟩ := first notes right
  cases ran : x notes with
  | mk outcome after =>
    rw [ran] at alike rightAfter added
    cases outcome with
    | error e =>
      rw [bind_of_error ran]
      cases alike
      exact ⟨.error e, rightAfter, added⟩
    | ok a =>
      rw [bind_of_ok ran]
      cases alike with
      | @ok _ b related =>
        obtain ⟨alike, right, more⟩ := rest a b rfl related after rightAfter
        exact ⟨alike, right, added.trans more⟩

/-- A part that needs no notes. -/
theorem Agrees.bind_same {x : Except GrammarError α} {f : α → Noting γ}
    {g : α → Except GrammarError δ}
    (rest : ∀ a, x = .ok a → Agrees keeps tokens S (f a) (g a)) :
    Agrees keeps tokens S (once x >>= f) (x >>= g) :=
  (agrees_same x).bind fun a _ read same => by
    subst same
    exact rest a read

/-- A part with the same results. -/
theorem Agrees.bind_eq {x : Noting α} {y : Except GrammarError α} {f : α → Noting γ}
    {g : α → Except GrammarError δ} (first : Agrees keeps tokens Eq x y)
    (rest : ∀ a, y = .ok a → Agrees keeps tokens S (f a) (g a)) :
    Agrees keeps tokens S (x >>= f) (y >>= g) :=
  first.bind fun a _ read same => by
    subst same
    exact rest a read

end

/-! ## Arithmetic -/

section

variable {keeps : Bool} {tokens : List Token}

/-- Both attempts have read the same, or neither anything. -/
inductive SameHit {α : Type} {ts : List Token} : Trial α ts → Attempt α ts → Prop
  | hit (found : Parsed α ts) : SameHit (.hit found) (.hit found)
  | miss (rest : List Token) (opens : Nat) : SameHit (.miss rest) (.miss opens)

/-- As `SameHit`, and an attempt that reads nothing leaves the cursor where it was. -/
inductive Restored {α : Type} {ts : List Token} : Trial α ts → Attempt α ts → Prop
  | hit (found : Parsed α ts) : Restored (.hit found) (.hit found)
  | miss (opens : Nat) : Restored (.miss ts) (.miss opens)

theorem suffix_of_parsed {α : Type} {us ts : List Token} {p : Parsed α ts} (isEnd : ts <:+ tokens)
    (read : ts = us ++ p.rest) : p.rest <:+ tokens :=
  List.IsSuffix.trans ⟨us, read.symm⟩ isEnd

theorem suffix_of_cons {α : Type} {t : Token} {ts : List Token} {p : Parsed α ts}
    (isEnd : ts <:+ tokens) (read : ts = t :: p.rest) : p.rest <:+ tokens :=
  List.IsSuffix.trans ⟨[t], read.symm⟩ isEnd

/-- What is noted is right where the attempt finds nothing. -/
theorem agrees_giveUp {t : Token} {ts : List Token} {opens : Nat} (isEnd : t :: ts <:+ tokens)
    (missed : Parser.tryArith (stopOf tokens) (t :: ts) = .ok (.miss opens)) :
    Agrees keeps tokens Restored (giveUp keeps tokens (t :: ts)) (.ok (.miss opens)) := by
  intro notes right
  refine ⟨.ok (.miss opens), ?_, ?_⟩
  · have noted : Right tokens (position tokens (t :: ts) :: notes) := by
      intro p member
      rcases List.mem_cons.1 member with rfl | earlier
      · exact ⟨position_lt isEnd, opens, by rw [drop_position isEnd]; exact missed⟩
      · exact right p earlier
    cases keeps with
    | true => exact noted
    | false => exact right
  · cases keeps with
    | true => exact ⟨List.suffix_cons .., nofun⟩
    | false => exact .refl

theorem required_eq {α : Type} {ts : List Token} {trial : Trial α ts} {attempt : Attempt α ts}
    (restored : Restored trial attempt) (missing : Missing) :
    required (stopOf tokens) missing trial = Parser.required (stopOf tokens) missing attempt := by
  cases restored <;> rfl

/-- An attempt may be left out where it is noted, if all right notes there tell its outcome. -/
theorem agrees_unless_noted {α β : Type} {R : α → β → Prop} {p : Nat} {known : α} {x : Noting α}
    {y : Except GrammarError β}
    (told : ∀ notes, Right tokens notes → p ∈ notes → Alike R (.ok known) y)
    (made : Agrees keeps tokens R x y) :
    Agrees keeps tokens R (do let notes ← get; if p ∈ notes then return known else x) y := by
  intro notes right
  have asked : (do let notes ← get; if p ∈ notes then return known else x : Noting α) notes =
      (if p ∈ notes then return known else x : Noting α) notes := rfl
  rw [asked]
  split
  · next noted => exact ⟨told notes right noted, right, .refl⟩
  · exact made notes right

/-- An attempt at arithmetic reads the same with notes and without, and where it reads nothing, it
leaves the cursor where it was. -/
theorem agrees_tryArith {ts : List Token} (isEnd : ts <:+ tokens) :
    Agrees keeps tokens Restored (tryArith keeps tokens ts)
      (Parser.tryArith (stopOf tokens) ts) := by
  induction ts using Parser.tryArith.induct with
  | case1 =>
    rw [tryArith, Parser.tryArith]
    exact agrees_return (.miss 0)
  | case2 t ts kind =>
    rw [tryArith, Parser.tryArith, kind]
    exact agrees_return (.hit _)
  | case3 t ts kind =>
    rw [tryArith, Parser.tryArith, kind]
    exact agrees_return (.hit _)
  | case4 t ts kind first second =>
    have inner : ts <:+ tokens := (List.suffix_cons t ts).trans isEnd
    rw [tryArith, kind]
    refine agrees_unless_noted ?_ ?_
    · intro notes right noted
      obtain ⟨-, opens, missed⟩ := right _ noted
      rw [drop_position isEnd] at missed
      rw [missed]
      exact .ok (.miss opens)
    · rw [Parser.tryArith, kind]
      refine (first inner).bind fun trial attempt read restored => ?_
      cases restored with
      | miss opens => exact agrees_giveUp isEnd (tryArith_of_miss kind read)
      | hit left =>
        obtain ⟨us, -, eqLeft⟩ := arith_of_tryArith read
        dsimp only
        cases found : operator? arithOp? left.rest with
        | none => exact agrees_giveUp isEnd (tryArith_of_no_operator kind read found)
        | some op =>
          obtain ⟨sign, eqOp, -⟩ := cons_of_operator? found
          have afterSign : op.rest <:+ tokens :=
            suffix_of_cons (suffix_of_parsed inner eqLeft) eqOp
          refine (second left op afterSign).bind fun trial attempt _ restored => ?_
          rw [required_eq restored]
          exact .bind_same fun right _ => .bind_same fun close _ => agrees_return (.hit _)
  | case5 t ts notInt notVar notOpen =>
    rw [tryArith]
    split
    · exact (notInt ‹_›).elim
    · exact (notVar ‹_›).elim
    · exact (notOpen ‹_›).elim
    rw [Parser.tryArith]
    split
    · exact (notInt ‹_›).elim
    · exact (notVar ‹_›).elim
    · exact (notOpen ‹_›).elim
    · exact agrees_return (.miss 0)

-- An attempt at `(x =` is given up and noted, and it is not made a second time.
example :
    let ts : List Token := [⟨.lparen, "(", 0, 1⟩, ⟨.var, "x", 0, 2⟩, ⟨.operator .eq, "=", 0, 3⟩]
    tryArith true ts ts [] = (.ok (.miss ts), [0]) ∧
      tryArith true ts ts [0] = (.ok (.miss ts), [0]) := by
  intro ts
  simp only [ts, tryArith]
  exact ⟨rfl, rfl⟩

theorem agrees_parseArith (place : Place) {ts : List Token} (isEnd : ts <:+ tokens) :
    Agrees keeps tokens Eq (parseArith keeps tokens place ts)
      (Parser.parseArith (stopOf tokens) place ts) := by
  refine (agrees_tryArith isEnd).bind fun trial attempt _ restored => ?_
  rw [required_eq restored]
  exact agrees_same _

/-! ## Boolean expressions -/

/-- A comparison is found with notes if and only if it is found with a right count. -/
theorem agrees_tryCompare {opens : Nat} {ts : List Token} (isEnd : ts <:+ tokens)
    (ahead : Missed (stopOf tokens) opens ts) :
    Agrees keeps tokens SameHit (tryCompare keeps tokens ts)
      (Parser.tryCompare (stopOf tokens) opens ts) := by
  unfold Parser.tryCompare
  split
  · next known =>
    -- With a right count the attempt is left out; with notes it finds nothing.
    obtain ⟨n, missed⟩ := ahead 0 known
    have tried : Agrees keeps tokens Restored (tryArith keeps tokens ts) (.ok (.miss n)) :=
      missed ▸ agrees_tryArith isEnd
    have leftOut : (pure (.miss opens) : Except GrammarError (Attempt BExpr ts)) =
        (.ok (.miss n) : Except GrammarError (Attempt AExpr ts)) >>= fun _ => .ok (.miss opens) :=
      rfl
    rw [leftOut]
    refine tried.bind fun trial attempt read restored => ?_
    cases read
    cases restored
    exact agrees_return (.miss ts opens)
  · refine (agrees_tryArith isEnd).bind fun trial attempt read restored => ?_
    cases restored with
    | miss n => exact agrees_return (.miss ..)
    | hit left =>
      obtain ⟨us, -, eqLeft⟩ := arith_of_tryArith read
      dsimp only
      cases found : operator? compareOp? left.rest with
      | none => exact agrees_return (.miss ..)
      | some op =>
        obtain ⟨sign, eqOp, -⟩ := cons_of_operator? found
        have afterSign : op.rest <:+ tokens :=
          suffix_of_cons (suffix_of_parsed isEnd eqLeft) eqOp
        exact (agrees_parseArith _ afterSign).bind_eq fun right _ =>
          .bind_same fun close _ => agrees_return (.hit _)

/-- A boolean expression is read with notes as it is read with a right count. -/
theorem agrees_parseBool {opens : Nat} {place : Place} {ts : List Token} (isEnd : ts <:+ tokens)
    (ahead : Missed (stopOf tokens) opens ts) :
    Agrees keeps tokens Eq (parseBool keeps tokens place ts)
      (Parser.parseBool (stopOf tokens) opens place ts) := by
  induction opens, place, ts using Parser.parseBool.induct with
  | case1 opens place =>
    rw [parseBool, Parser.parseBool]
    exact agrees_same _
  | case2 opens place t ts kind =>
    rw [parseBool, Parser.parseBool, kind]
    exact agrees_return rfl
  | case3 opens place t ts kind =>
    rw [parseBool, Parser.parseBool, kind]
    exact agrees_return rfl
  | case4 opens place t ts kind operand =>
    have inner : ts <:+ tokens := (List.suffix_cons t ts).trans isEnd
    rw [parseBool, Parser.parseBool, kind]
    refine .bind_same fun opened readOpen => ?_
    obtain ⟨mark, eqOpen, -⟩ := cons_of_expect readOpen
    have afterOpen : opened.rest <:+ tokens := suffix_of_cons inner eqOpen
    exact (operand opened afterOpen .zero).bind_eq fun operand _ =>
      .bind_same fun close _ => agrees_return rfl
  | case5 opens place t ts kind first second =>
    have inner : ts <:+ tokens := (List.suffix_cons t ts).trans isEnd
    rw [parseBool, Parser.parseBool, kind]
    refine (agrees_tryCompare inner ahead.tail).bind fun trial attempt tried same => ?_
    cases same with
    | hit compare => exact agrees_return rfl
    | miss rest opens' =>
      -- The count that is handed on is right for the left operand, which begins at the same token.
      have ahead' := missed_of_tryCompare ahead.tail tried
      refine (first opens' inner ahead').bind_eq fun left read => ?_
      obtain ⟨us, -, eqLeft⟩ := boolean_of_parseBool read
      cases found : operator? boolOp? left.rest with
      | none => exact agrees_same _
      | some op =>
        obtain ⟨sign, eqOp, -⟩ := cons_of_operator? found
        have afterSign : op.rest <:+ tokens :=
          suffix_of_cons (suffix_of_parsed inner eqLeft) eqOp
        exact (second left op afterSign .zero).bind_eq fun right _ =>
          .bind_same fun close _ => agrees_return rfl
  | case6 opens place t ts notTrue notFalse notNot notOpen =>
    rw [parseBool]
    split
    · exact (notTrue ‹_›).elim
    · exact (notFalse ‹_›).elim
    · exact (notNot ‹_›).elim
    · exact (notOpen ‹_›).elim
    rw [Parser.parseBool]
    split
    · exact (notTrue ‹_›).elim
    · exact (notFalse ‹_›).elim
    · exact (notNot ‹_›).elim
    · exact (notOpen ‹_›).elim
    · exact agrees_same _

/-! ## Commands -/

/-- The three productions for commands, together. -/
theorem agrees_commands :
    (∀ ts, ts <:+ tokens → Agrees keeps tokens Eq (parseAtomic keeps tokens ts)
      (Parser.parseAtomic (stopOf tokens) ts)) ∧
    (∀ ts, ts <:+ tokens → Agrees keeps tokens Eq (parseCommand keeps tokens ts)
      (Parser.parseCommand (stopOf tokens) ts)) ∧
    ∀ (whole : List Token) left ts (shorter : ts.length < whole.length), ts <:+ tokens →
      Agrees keeps tokens Eq (parseMore keeps tokens left ts shorter)
        (Parser.parseMore (stopOf tokens) left ts shorter) := by
  apply Parser.parseAtomic.mutual_induct
  case case1 =>
    intro _
    rw [parseAtomic, Parser.parseAtomic]
    exact agrees_same _
  case case2 =>
    intro t ts kind _
    rw [parseAtomic, Parser.parseAtomic, kind]
    exact agrees_return rfl
  case case3 =>
    intro t ts kind isEnd
    have inner : ts <:+ tokens := (List.suffix_cons t ts).trans isEnd
    rw [parseAtomic, Parser.parseAtomic, kind]
    refine .bind_same fun assign readAssign => ?_
    obtain ⟨mark, eqAssign, -⟩ := cons_of_expect readAssign
    exact (agrees_parseArith _ (suffix_of_cons inner eqAssign)).bind_eq fun value _ =>
      agrees_return rfl
  case case4 =>
    intro t ts kind yes no isEnd
    have inner : ts <:+ tokens := (List.suffix_cons t ts).trans isEnd
    rw [parseAtomic, Parser.parseAtomic, kind]
    refine (agrees_parseBool inner .zero).bind_eq fun cond readCond => ?_
    obtain ⟨us, -, eqCond⟩ := boolean_of_parseBool readCond
    refine .bind_same fun thenMark readThen => ?_
    obtain ⟨_, eqThen, -⟩ := cons_of_expect readThen
    have afterThen : thenMark.rest <:+ tokens :=
      suffix_of_cons (suffix_of_parsed inner eqCond) eqThen
    refine (yes cond thenMark afterThen).bind_eq fun yes readYes => ?_
    obtain ⟨vs, -, eqYes⟩ := (derives_of_parse _).2.1 _ yes readYes
    refine .bind_same fun elseMark readElse => ?_
    obtain ⟨_, eqElse, -⟩ := cons_of_expect readElse
    have afterElse : elseMark.rest <:+ tokens :=
      suffix_of_cons (suffix_of_parsed afterThen eqYes) eqElse
    exact (no cond thenMark yes elseMark afterElse).bind_eq fun no _ =>
      .bind_same fun close _ => agrees_return rfl
  case case5 =>
    intro t ts kind body isEnd
    have inner : ts <:+ tokens := (List.suffix_cons t ts).trans isEnd
    rw [parseAtomic, Parser.parseAtomic, kind]
    refine (agrees_parseBool inner .zero).bind_eq fun cond readCond => ?_
    obtain ⟨us, -, eqCond⟩ := boolean_of_parseBool readCond
    refine .bind_same fun doMark readDo => ?_
    obtain ⟨_, eqDo, -⟩ := cons_of_expect readDo
    have afterDo : doMark.rest <:+ tokens :=
      suffix_of_cons (suffix_of_parsed inner eqCond) eqDo
    exact (body cond doMark afterDo).bind_eq fun body _ =>
      .bind_same fun close _ => agrees_return rfl
  case case6 =>
    intro t ts notSkip notVar notIf notWhile _
    rw [parseAtomic]
    split
    · exact (notSkip ‹_›).elim
    · exact (notVar ‹_›).elim
    · exact (notIf ‹_›).elim
    · exact (notWhile ‹_›).elim
    rw [Parser.parseAtomic]
    split
    · exact (notSkip ‹_›).elim
    · exact (notVar ‹_›).elim
    · exact (notIf ‹_›).elim
    · exact (notWhile ‹_›).elim
    · exact agrees_same _
  case case7 =>
    intro ts atomic more isEnd
    rw [parseCommand, Parser.parseCommand]
    refine (atomic isEnd).bind_eq fun first readFirst => ?_
    obtain ⟨us, -, eqFirst⟩ := (derives_of_parse _).1 _ first readFirst
    exact more first (suffix_of_parsed isEnd eqFirst)
  case case8 =>
    intro whole left shorter _ _
    rw [parseMore, Parser.parseMore]
    exact agrees_return rfl
  case case9 =>
    intro whole left t rest shorter semi _ atomic more isEnd
    have inner : rest <:+ tokens := (List.suffix_cons t rest).trans isEnd
    rw [parseMore, Parser.parseMore, if_pos semi, if_pos semi]
    refine (atomic inner).bind_eq fun right readRight => ?_
    obtain ⟨us, -, eqRight⟩ := (derives_of_parse _).1 _ right readRight
    exact more right (suffix_of_parsed inner eqRight)
  case case10 =>
    intro whole left t rest shorter notSemi _ _
    rw [parseMore, Parser.parseMore, if_neg notSemi, if_neg notSemi]
    exact agrees_return rfl

/-! ## Programs -/

theorem agrees_parseProgram (keeps : Bool) (tokens : List Token) :
    Agrees keeps tokens Eq (parseProgram keeps tokens) (Command.ofTokens tokens) := by
  unfold parseProgram Command.ofTokens
  split
  · exact agrees_same _
  · refine (agrees_commands.2.1 tokens List.suffix_rfl).bind_eq fun program _ => ?_
    dsimp only
    split
    · exact agrees_return rfl
    · exact agrees_same _

/-- Where an attempt with a right count finds nothing, so does one without notes, and it goes back
to where it began. -/
theorem tryArith_without_notes {ts : List Token} {opens : Nat} (isEnd : ts <:+ tokens)
    (missed : Parser.tryArith (stopOf tokens) ts = .ok (.miss opens)) :
    tryArith false tokens ts [] = (.ok (.miss ts), []) := by
  have agrees : Agrees false tokens Restored (tryArith false tokens ts) (.ok (.miss opens)) :=
    missed ▸ agrees_tryArith isEnd
  obtain ⟨alike, -, added⟩ := agrees [] nofun
  have outcome : (tryArith false tokens ts []).1 = .ok (.miss ts) := by
    cases found : (tryArith false tokens ts []).1 with
    | error e =>
      rw [found] at alike
      cases alike
    | ok trial =>
      rw [found] at alike
      cases alike with
      | ok restored =>
        cases restored
        rfl
  exact Prod.ext outcome (added.2 rfl)

end

end Noting

end ImpHost.Parser

namespace ImpHost.Command

open ImpHost.Parser ImpHost.Parser.Noting

/-- The notes change nothing. With them and without them, the tokens are parsed as the same program
or rejected with the same error, and both ways as the library's own parser does it. At every moment,
which is to say in every part that the final list of notes ends in, each position of the table is
one at which an attempt without notes finds nothing and leaves the cursor where it was. -/
theorem notes_are_transparent (ts : List Token) :
    (ofTokensNoting true ts).1 = (ofTokensNoting false ts).1 ∧
      (ofTokensNoting true ts).1 = ofTokens ts ∧
      (ofTokensNoting false ts).2 = [] ∧
      ∀ table, table <:+ (ofTokensNoting true ts).2 → ∀ p ∈ table, p < ts.length ∧
        tryArith false ts (ts.drop p) [] = (.ok (.miss (ts.drop p)), []) := by
  obtain ⟨noting, right, -⟩ := agrees_parseProgram true ts [] nofun
  obtain ⟨rescanning, -, added⟩ := agrees_parseProgram false ts [] nofun
  refine ⟨noting.eq.trans rescanning.eq.symm, noting.eq, added.2 rfl, ?_⟩
  intro table isPart p member
  obtain ⟨within, opens, missed⟩ := right p (isPart.subset member)
  exact ⟨within, tryArith_without_notes (List.drop_suffix p ts) missed⟩

end ImpHost.Command
