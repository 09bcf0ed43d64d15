import ImpHost.Program.Printer
import ImpHost.Proofs.Program.Normal
import ImpHost.Proofs.Program.Parsing

/-!
Printed programs are read back.

`Reads P cs k` says that the lexer, whatever it has read before, reads tokens with the property `P`
from `cs` and goes on at `k`. Such statements are put together like the printers themselves, which
write in front of what follows. For each printer one induction over the tree shows that the
grammar derives the tree's normal form from the tokens that are read, and the parser, which accepts
exactly the grammar, returns it.
-/

namespace ImpHost

open Token Grammar

namespace Token

/-- From `cs` the lexer reads tokens with the property `P`, and goes on at `k`. -/
def Reads (P : List Token → Prop) (cs k : List Char) : Prop :=
  ∀ pos acc, ∃ pos' ts, P ts ∧ lexFrom pos acc cs = lexFrom pos' (ts.reverse ++ acc) k

/-- The tokens are one of the given kind. -/
def One (kind : Token.Kind) (ts : List Token) : Prop :=
  ∃ t, t.kind = kind ∧ ts = [t]

/-- Tokens with the property `P`, and after them tokens with the property `Q`. -/
def Then (P Q : List Token → Prop) (ts : List Token) : Prop :=
  ∃ us vs, P us ∧ Q vs ∧ ts = us ++ vs

variable {P Q : List Token → Prop} {cs k l : List Char}

theorem Reads.trans (first : Reads P cs k) (second : Reads Q k l) : Reads (Then P Q) cs l := by
  intro pos acc
  obtain ⟨pos₁, us, holdsUs, stepUs⟩ := first pos acc
  obtain ⟨pos₂, vs, holdsVs, stepVs⟩ := second pos₁ (us.reverse ++ acc)
  refine ⟨pos₂, us ++ vs, ⟨us, vs, holdsUs, holdsVs, rfl⟩, ?_⟩
  rw [stepUs, stepVs, List.reverse_append, List.append_assoc]

theorem Reads.imp (reads : Reads P cs k) (weaker : ∀ ts, P ts → Q ts) : Reads Q cs k := by
  intro pos acc
  obtain ⟨pos', ts, holds, step⟩ := reads pos acc
  exact ⟨pos', ts, weaker ts holds, step⟩

theorem Reads.space {c : Char} (space : Text.isSpace c = true) (reads : Reads P cs k) :
    Reads P (c :: cs) k := by
  intro pos acc
  obtain ⟨pos', ts, holds, step⟩ := reads (pos + 1) acc
  exact ⟨pos', ts, holds, by rw [lexFrom_space space, step]⟩

theorem Reads.spaceAfter {c : Char} (space : Text.isSpace c = true) (reads : Reads P cs (c :: k)) :
    Reads P cs k := by
  intro pos acc
  obtain ⟨pos', ts, holds, step⟩ := reads pos acc
  exact ⟨pos' + 1, ts, holds, by rw [step, lexFrom_space space]⟩

/-- Blanks in front are skipped. -/
theorem Reads.blanks (n : Nat) (reads : Reads P cs k) :
    Reads P (List.replicate n ' ' ++ cs) k := by
  induction n with
  | zero => exact reads
  | succ n ih => exact ih.space rfl

theorem reads_open : Reads (One .lparen) ('(' :: k) k :=
  fun pos _ => ⟨_, [⟨.lparen, "(", 0, pos⟩], ⟨_, rfl, rfl⟩, lexFrom_open⟩

theorem reads_close : Reads (One .rparen) (')' :: k) k :=
  fun pos _ => ⟨_, [⟨.rparen, ")", 0, pos⟩], ⟨_, rfl, rfl⟩, lexFrom_close⟩

theorem reads_semi : Reads (One .semi) (';' :: k) k :=
  fun pos _ => ⟨_, [⟨.semi, ";", 0, pos⟩], ⟨_, rfl, rfl⟩, lexFrom_semi⟩

theorem reads_operator (o : Operator) : Reads (One (.operator o)) (writeString o.spelling k) k :=
  fun pos _ => ⟨_, [⟨.operator o, o.spelling, 0, pos⟩], ⟨_, rfl, rfl⟩, lexFrom_operator o⟩

/-- A reserved word is read as one where no other word goes on. -/
theorem reads_keyword (w : Keyword) (boundary : Boundary k) :
    Reads (One (.keyword w)) (writeString w.spelling k) k := by
  obtain ⟨c, ds, spelled, letter, parts, kind⟩ := spelling_of_keyword w
  intro pos acc
  refine ⟨pos + 1 + ds.length, [⟨.keyword w, w.spelling, 0, pos⟩], ⟨_, rfl, rfl⟩, ?_⟩
  rw [writeString, spelled, String.toList_ofList,
    lexFrom_word letter parts boundary, ← spelled, kind]
  rfl

/-- A name is read as one where no other word goes on. -/
theorem reads_name {x : String} (name : IsName x) (boundary : Boundary k) :
    Reads (fun ts => ∃ t, t.kind = .var ∧ t.text = x ∧ ts = [t]) (writeString x k) k :=
  fun pos _ => ⟨_, [⟨.var, x, 0, pos⟩], ⟨_, rfl, rfl, rfl⟩, lexFrom_name name boundary⟩

/-- The decimal digits of a number in range are read as one token for it. -/
theorem reads_nat {n : Nat} (small : n ≤ Value.maxInt.toNat) (boundary : Boundary k) :
    Reads (fun ts => ∃ t, t.kind = .int ∧ t.value = Int64.ofNat n ∧ ts = [t]) (writeNat n k) k := by
  have value : Text.digitsValue (Nat.toDigits 10 n) = n := Nat.ofDigitChars_ten_toDigits
  have digits : ∀ d ∈ Nat.toDigits 10 n, Text.isAsciiDigit d = true := fun d member =>
    Nat.isDigit_of_mem_toDigits (by decide) (by decide) member
  unfold writeNat
  cases chars : Nat.toDigits 10 n with
  | nil => exact (Nat.toDigits_ne_nil chars).elim
  | cons c ds =>
    rw [chars] at value digits
    have inRange : Text.digitsValue (c :: ds) ≤ Value.maxInt.toNat := by
      rw [value]
      exact small
    intro pos acc
    exact ⟨_, [⟨.int, String.ofList (c :: ds), Int64.ofNat (Text.digitsValue (c :: ds)), pos⟩],
      ⟨_, rfl, congrArg Int64.ofNat value, rfl⟩,
      lexFrom_int digits inRange boundary.head_not_digit⟩

/-- An operation in parentheses is read part by part. -/
theorem reads_parens {kind : Token.Kind} {sign : String} {left right : List Char → List Char}
    (readsLeft : ∀ k, Boundary k → Reads P (left k) k)
    (readsSign : ∀ k, Reads (One kind) (writeString sign (' ' :: k)) (' ' :: k))
    (readsRight : ∀ k, Boundary k → Reads Q (right k) k) :
    Reads (fun ts => ∃ opened us mark vs closed, opened.kind = .lparen ∧ P us ∧ mark.kind = kind ∧
        Q vs ∧ closed.kind = .rparen ∧ ts = opened :: (us ++ mark :: (vs ++ [closed])))
      ('(' :: left (' ' :: writeString sign (' ' :: right (')' :: k)))) k := by
  have blank : ∀ {k}, Boundary (' ' :: k) := .cons rfl
  have close : ∀ {k}, Boundary (')' :: k) := .cons rfl
  refine (reads_open.trans ((readsLeft _ blank).trans (Reads.space rfl ((readsSign _).trans
    (Reads.space rfl ((readsRight _ close).trans reads_close)))))).imp ?_
  rintro ts ⟨_, _, ⟨opened, isOpen, rfl⟩, ⟨us, _, holdsUs, ⟨_, _, ⟨mark, isMark, rfl⟩,
    ⟨vs, _, holdsVs, ⟨closed, isClose, rfl⟩, rfl⟩, rfl⟩, rfl⟩, rfl⟩
  exact ⟨opened, us, mark, vs, closed, isOpen, holdsUs, isMark, holdsVs, isClose, rfl⟩

end Token

/-! ## Expressions -/

/-- The sign of an operator of the language is read as the token that the grammar wants. -/
theorem ArithOp.reads_spelling {op : ArithOp} (known : op.Known) :
    ∃ kind, ArithSign kind op ∧
      ∀ k, Reads (One kind) (writeString op.spelling (' ' :: k)) (' ' :: k) := by
  cases op with
  | add => exact ⟨_, .plus, fun _ => reads_operator .plus⟩
  | sub => exact ⟨_, .minus, fun _ => reads_operator .minus⟩
  | mul => exact ⟨_, .star, fun _ => reads_operator .star⟩
  | other s => exact known.elim

theorem CompareOp.reads_spelling {op : CompareOp} (known : op.Known) :
    ∃ kind, CompareSign kind op ∧
      ∀ k, Reads (One kind) (writeString op.spelling (' ' :: k)) (' ' :: k) := by
  cases op with
  | le => exact ⟨_, .lte, fun _ => reads_operator .lte⟩
  | eq => exact ⟨_, .eq, fun _ => reads_operator .eq⟩
  | other s => exact known.elim

theorem BoolOp.reads_spelling {op : BoolOp} (known : op.Known) :
    ∃ kind, BoolSign kind op ∧
      ∀ k, Reads (One kind) (writeString op.spelling (' ' :: k)) (' ' :: k) := by
  cases op with
  | and => exact ⟨_, .and, fun _ => reads_keyword .kAnd (.cons rfl)⟩
  | or => exact ⟨_, .or, fun _ => reads_keyword .kOr (.cons rfl)⟩
  | other s => exact known.elim

/-- A printed arithmetic operation is read as one of what its operands are read as. -/
theorem reads_arith_binary (op : ArithOp) (known : op.Known) {a b : AExpr}
    {left right : List Char → List Char} {k : List Char}
    (readsLeft : ∀ k, Boundary k → Reads (Arith · a) (left k) k)
    (readsRight : ∀ k, Boundary k → Reads (Arith · b) (right k) k) :
    Reads (Arith · (.binary op a b))
      ('(' :: left (' ' :: writeString op.spelling (' ' :: right (')' :: k)))) k := by
  obtain ⟨kind, sign, readsSign⟩ := ArithOp.reads_spelling known
  refine (reads_parens readsLeft readsSign readsRight).imp ?_
  rintro ts ⟨opened, us, mark, vs, closed, isOpen, arithUs, isMark, arithVs, isClose, rfl⟩
  exact .binary isOpen arithUs (isMark ▸ sign) arithVs isClose

theorem reads_arith_nat {n : Int64} (nonneg : 0 ≤ n) {k : List Char} (boundary : Boundary k) :
    Reads (Arith · (.int n)) (writeNat n.toInt.toNat k) k := by
  have small : n.toInt.toNat ≤ Value.maxInt.toNat := Int.toNat_le_toNat n.toInt_le
  refine (reads_nat small boundary).imp ?_
  rintro ts ⟨t, isInt, value, rfl⟩
  have same : t.value = n := value.trans (Int64.ofNat_toNatClampNeg n nonneg)
  exact same ▸ .int isInt

/-- A printed number is read as its normal form. -/
theorem reads_writeInt (n : Int64) {k : List Char} (boundary : Boundary k) :
    Reads (Arith · (.ofInt n)) (writeInt n k) k := by
  have zero : ∀ k, Boundary k → Reads (Arith · (.int 0)) (writeNat 0 k) k :=
    fun _ => reads_arith_nat (by decide)
  have one : ∀ k, Boundary k → Reads (Arith · (.int 1)) (writeNat 1 k) k :=
    fun _ => reads_arith_nat (by decide)
  have greatest : ∀ k, Boundary k →
      Reads (Arith · (.int Int64.maxValue)) (writeNat Int64.maxValue.toInt.toNat k) k :=
    fun _ => reads_arith_nat (by decide)
  unfold AExpr.ofInt writeInt
  split
  · next nonneg => exact reads_arith_nat nonneg boundary
  split
  · exact reads_arith_binary .sub trivial
      (fun _ _ => reads_arith_binary .sub trivial zero greatest) one
  · next negative notLeast =>
    have positive : ¬ -n ≤ 0 := by
      rw [Int64.neg_nonpos_iff]
      exact fun either => either.elim notLeast negative
    exact reads_arith_binary .sub trivial zero fun _ =>
      reads_arith_nat (Int64.le_of_lt (Int64.not_le.1 positive))

/-- A printed arithmetic expression is read as its normal form. -/
theorem AExpr.reads_write {e : AExpr} (wf : e.WellFormed) :
    ∀ k, Boundary k → Reads (Arith · e.normal) (e.write k) k := by
  induction e with
  | int n => exact fun k boundary => reads_writeInt n boundary
  | var x =>
    intro k boundary
    refine (reads_name wf boundary).imp ?_
    rintro ts ⟨t, isVar, rfl, rfl⟩
    exact .var isVar
  | binary op a b left right =>
    exact fun k _ => reads_arith_binary op wf.1 (left wf.2.1) (right wf.2.2)
  | hole => exact wf.elim

/-- A printed boolean expression is read as its normal form. -/
theorem BExpr.reads_write {e : BExpr} (wf : e.WellFormed) :
    ∀ k, Boundary k → Reads (Boolean · e.normal) (e.write k) k := by
  induction e with
  | lit b =>
    intro k boundary
    cases b with
    | true =>
      refine (reads_keyword .kTrue boundary).imp ?_
      rintro ts ⟨t, isTrue, rfl⟩
      exact .true isTrue
    | false =>
      refine (reads_keyword .kFalse boundary).imp ?_
      rintro ts ⟨t, isFalse, rfl⟩
      exact .false isFalse
  | not a inner =>
    intro k _
    refine ((reads_keyword .kNot (.cons rfl)).trans (Reads.space rfl (reads_open.trans
      ((inner wf _ (.cons rfl)).trans reads_close)))).imp ?_
    rintro ts ⟨_, _, ⟨mark, isNot, rfl⟩, ⟨_, _, ⟨opened, isOpen, rfl⟩,
      ⟨us, _, boolean, ⟨closed, isClose, rfl⟩, rfl⟩, rfl⟩, rfl⟩
    exact .not isNot isOpen boolean isClose
  | binary op a b left right =>
    intro k _
    obtain ⟨kind, sign, readsSign⟩ := BoolOp.reads_spelling wf.1
    refine (reads_parens (left wf.2.1) readsSign (right wf.2.2)).imp ?_
    rintro ts ⟨opened, us, mark, vs, closed, isOpen, boolUs, isMark, boolVs, isClose, rfl⟩
    exact .binary isOpen boolUs (isMark ▸ sign) boolVs isClose
  | compare op a b =>
    intro k _
    obtain ⟨kind, sign, readsSign⟩ := CompareOp.reads_spelling wf.1
    refine (reads_parens (AExpr.reads_write wf.2.1) readsSign (AExpr.reads_write wf.2.2)).imp ?_
    rintro ts ⟨opened, us, mark, vs, closed, isOpen, arithUs, isMark, arithVs, isClose, rfl⟩
    exact .compare isOpen arithUs (isMark ▸ sign) arithVs isClose
  | hole => exact wf.elim

/-! ## Commands

The two printers differ in the spaces between the parts of a command, so each command is put
together from its parts wherever these stand. -/

section

variable {e : BExpr} {a b : Command} {c₀ c₁ c₂ c₃ c₄ c₅ c₆ c₇ : List Char}

theorem reads_seq (first : Reads (Derives .command · a) c₀ c₁) (semi : Reads (One .semi) c₁ c₂)
    (second : Reads (Derives .command · b) c₂ c₃) :
    Reads (Derives .command · (a.join b)) c₀ c₃ := by
  refine (first.trans (semi.trans second)).imp ?_
  rintro ts ⟨us, _, derivesUs, ⟨_, vs, ⟨mark, isSemi, rfl⟩, derivesVs, rfl⟩, rfl⟩
  exact derivesUs.join isSemi derivesVs

theorem reads_ite (ifMark : Reads (One (.keyword .kIf)) c₀ c₁)
    (condition : Reads (Boolean · e) c₁ c₂) (thenMark : Reads (One (.keyword .kThen)) c₂ c₃)
    (yes : Reads (Derives .command · a) c₃ c₄) (elseMark : Reads (One (.keyword .kElse)) c₄ c₅)
    (no : Reads (Derives .command · b) c₅ c₆) (endMark : Reads (One (.keyword .kEnd)) c₆ c₇) :
    Reads (Derives .command · (.ite e a b)) c₀ c₇ := by
  refine (ifMark.trans (condition.trans (thenMark.trans (yes.trans (elseMark.trans
    (no.trans endMark)))))).imp ?_
  rintro ts ⟨_, _, ⟨ifs, isIf, rfl⟩, ⟨us, _, boolean, ⟨_, _, ⟨thens, isThen, rfl⟩,
    ⟨vs, _, derivesVs, ⟨_, _, ⟨elses, isElse, rfl⟩,
    ⟨ws, _, derivesWs, ⟨ends, isEnd, rfl⟩, rfl⟩, rfl⟩, rfl⟩, rfl⟩, rfl⟩, rfl⟩
  exact .single (.ite isIf boolean isThen derivesVs isElse derivesWs isEnd)

theorem reads_whileDo (whileMark : Reads (One (.keyword .kWhile)) c₀ c₁)
    (condition : Reads (Boolean · e) c₁ c₂) (doMark : Reads (One (.keyword .kDo)) c₂ c₃)
    (body : Reads (Derives .command · a) c₃ c₄) (endMark : Reads (One (.keyword .kEnd)) c₄ c₅) :
    Reads (Derives .command · (.whileDo e a)) c₀ c₅ := by
  refine (whileMark.trans (condition.trans (doMark.trans (body.trans endMark)))).imp ?_
  rintro ts ⟨_, _, ⟨whiles, isWhile, rfl⟩, ⟨us, _, boolean, ⟨_, _, ⟨dos, isDo, rfl⟩,
    ⟨vs, _, derivesVs, ⟨ends, isEnd, rfl⟩, rfl⟩, rfl⟩, rfl⟩, rfl⟩
  exact .single (.whileDo isWhile boolean isDo derivesVs isEnd)

end

theorem reads_assign {x : String} {e : AExpr} (name : IsName x) (wf : e.WellFormed)
    {k : List Char} (boundary : Boundary k) :
    Reads (Derives .command · (.assign x e.normal)) (Command.write (.assign x e) k) k := by
  refine ((reads_name name (.cons rfl)).trans (Reads.space rfl ((reads_operator .assign).trans
    (Reads.space rfl (AExpr.reads_write wf k boundary))))).imp ?_
  rintro ts ⟨_, _, ⟨t, isVar, rfl, rfl⟩, ⟨_, us, ⟨mark, isAssign, rfl⟩, arith, rfl⟩, rfl⟩
  exact .single (.assign isVar isAssign arith)

theorem reads_skip {k : List Char} (boundary : Boundary k) :
    Reads (Derives .command · .skip) (Command.write .skip k) k := by
  refine (reads_keyword .kSkip boundary).imp ?_
  rintro ts ⟨t, isSkip, rfl⟩
  exact .single (.skip isSkip)

/-- A command on one line is read as its normal form. -/
theorem Command.reads_write {c : Command} (wf : c.WellFormed) :
    ∀ k, Boundary k → Reads (Derives .command · c.normal) (c.write k) k := by
  have blank : ∀ {k}, Boundary (' ' :: k) := .cons rfl
  induction c with
  | skip => exact fun k => reads_skip
  | assign x e => exact fun k => reads_assign wf.1 wf.2
  | seq a b left right =>
    intro k boundary
    exact reads_seq (left wf.1 _ (.cons rfl)) reads_semi (.space rfl (right wf.2 k boundary))
  | ite e a b left right =>
    intro k boundary
    exact reads_ite (reads_keyword .kIf blank) (.space rfl (BExpr.reads_write wf.1 _ blank))
      (.space rfl (reads_keyword .kThen blank)) (.space rfl (left wf.2.1 _ blank))
      (.space rfl (reads_keyword .kElse blank)) (.space rfl (right wf.2.2 _ blank))
      (.space rfl (reads_keyword .kEnd boundary))
  | whileDo e a inner =>
    intro k boundary
    exact reads_whileDo (reads_keyword .kWhile blank)
      (.space rfl (BExpr.reads_write wf.1 _ blank)) (.space rfl (reads_keyword .kDo blank))
      (.space rfl (inner wf.2 _ blank)) (.space rfl (reads_keyword .kEnd boundary))
  | hole => exact wf.elim

/-- The lines of a command are read as its normal form. -/
theorem Command.reads_writeLines {c : Command} (wf : c.WellFormed) :
    ∀ depth k, Boundary k → Reads (Derives .command · c.normal) (c.writeLines depth k) k := by
  have blank : ∀ {k}, Boundary (' ' :: k) := .cons rfl
  have newline : ∀ {k}, Boundary ('\n' :: k) := .cons rfl
  induction c with
  | skip => exact fun depth k boundary => (reads_skip boundary).blanks _
  | assign x e => exact fun depth k boundary => (reads_assign wf.1 wf.2 boundary).blanks _
  | seq a b left right =>
    intro depth k boundary
    exact reads_seq (left wf.1 depth _ (.cons rfl)) reads_semi
      (.space rfl (right wf.2 depth k boundary))
  | ite e a b left right =>
    intro depth k boundary
    exact reads_ite ((reads_keyword .kIf blank).blanks _)
      (.space rfl (BExpr.reads_write wf.1 _ blank)) (.space rfl (reads_keyword .kThen newline))
      (.space rfl (left wf.2.1 _ _ newline))
      (.space rfl ((reads_keyword .kElse newline).blanks _))
      (.space rfl (right wf.2.2 _ _ newline))
      (.space rfl ((reads_keyword .kEnd boundary).blanks _))
  | whileDo e a inner =>
    intro depth k boundary
    exact reads_whileDo ((reads_keyword .kWhile blank).blanks _)
      (.space rfl (BExpr.reads_write wf.1 _ blank)) (.space rfl (reads_keyword .kDo newline))
      (.space rfl (inner wf.2 _ _ newline)) (.space rfl ((reads_keyword .kEnd boundary).blanks _))
  | hole => exact wf.elim

/-! ## The round trip -/

/-- The lexer and then the parser succeed on `source`, and the parser returns `c`. -/
def Command.ReadFrom (source : List Char) (c : Command) : Prop :=
  ∃ ts, Token.lex source = .ok ts ∧ Command.ofTokens ts = .ok c

theorem readFrom_of_reads {c : Command} {source : List Char}
    (reads : Reads (Derives .command · c) source []) : Command.ReadFrom source c := by
  obtain ⟨pos, ts, derives, step⟩ := reads 1 []
  refine ⟨ts, ?_, ofTokens_of_derives derives⟩
  rw [Token.lex, step, lexFrom_nil, List.append_nil, List.reverse_reverse]

theorem Command.readFrom_format {c : Command} (wf : c.WellFormed) :
    ReadFrom c.format.toList c.normal := by
  rw [format, String.toList_ofList]
  exact readFrom_of_reads (Command.reads_write wf [] .nil)

theorem Command.readFrom_formatIndent {c : Command} (wf : c.WellFormed) :
    ReadFrom c.formatIndent.toList c.normal := by
  rw [formatIndent, String.toList_ofList]
  exact readFrom_of_reads (.spaceAfter rfl (Command.reads_writeLines wf 0 ['\n'] (.cons rfl)))

/-- What is read from a source is well-formed and in normal form. -/
theorem Command.wellFormed_and_normal_of_readFrom {c : Command} {source : List Char}
    (read : ReadFrom source c) : c.WellFormed ∧ c.normal = c := by
  obtain ⟨ts, lexed, parsed⟩ := read
  have emitted := emitted_of_lex lexed
  have derives := derives_of_ofTokens (fun t member => (emitted t member).kind_ne_eof) parsed
  exact derives.wellFormed_and_normal emitted

/-- Both printers write a well-formed tree as a text that is read as its normal form, and a tree
that was read from a source, whatever its spaces, is read again from what they write. -/
theorem Command.readFrom_printed (t : Command) :
    (t.WellFormed → ReadFrom t.format.toList t.normal ∧ ReadFrom t.formatIndent.toList t.normal) ∧
      ∀ source, ReadFrom source t → t.WellFormed ∧ t.normal = t ∧
        ∃ u, ReadFrom t.format.toList u ∧ ReadFrom t.formatIndent.toList u ∧ t.same u = true := by
  refine ⟨fun wf => ⟨readFrom_format wf, readFrom_formatIndent wf⟩, ?_⟩
  intro source read
  obtain ⟨wf, normal⟩ := wellFormed_and_normal_of_readFrom read
  refine ⟨wf, normal, t.normal, readFrom_format wf, readFrom_formatIndent wf, ?_⟩
  rw [normal]
  exact same_self wf

/-- A sequence that is nested to the right, with a negative number in it, and the source that it is
printed as. -/
theorem Command.readFrom_printed_nested :
    let t : Command := .seq .skip (.seq (.assign "x" (.int (-2))) .skip)
    let u : Command := .seq (.seq .skip (.assign "x" (.binary .sub (.int 0) (.int 2)))) .skip
    ReadFrom t.format.toList u ∧ ReadFrom t.formatIndent.toList u ∧ u.normal = u := by
  intro t u
  have name : IsName "x" := isName_iff.2 ⟨'x', [], by decide, by decide, by simp, by decide⟩
  obtain ⟨line, lines⟩ := (readFrom_printed t).1 ⟨trivial, ⟨name, trivial⟩, trivial⟩
  have normal : t.normal = u := by decide
  rw [normal] at line lines
  exact ⟨line, lines, ((readFrom_printed u).2 _ line).2.1⟩

end ImpHost
