import ImpHost.Proofs.Encoding
import ImpHost.Proofs.Manifest

/-!
Sizes of printed programs.

A printer puts at most one blank or line break behind a token, and an indented line has two blanks
more for each body around it. `Command.size` counts the bytes of both printed forms at once. One
induction over the grammar compares it with the tokens of a source (`Grammar.Derives.size_lt`), and
the tokens are parts of the source: on one line a program takes less than twice the bytes of its
source, and on indented lines a multiple of them that grows with its depth
(`Command.size_lt_of_parse`).

A program that was read may thus be printed as more bytes than a source may have. This is the only
reason for which what is printed is not read again (`Command.parse_printed`), and it happens with
both printers (`Command.printed_too_large`).
-/

namespace ImpHost

open Text Grammar

/-! ## Bytes of characters -/

/-- The bytes that characters take. -/
def Text.width : List Char → Nat
  | [] => 0
  | c :: cs => c.utf8Size + width cs

theorem Text.width_cons (c : Char) (cs : List Char) :
    width (c :: cs) = c.utf8Size + width cs := rfl

theorem Text.width_append (cs ds : List Char) : width (cs ++ ds) = width cs + width ds := by
  induction cs with
  | nil => exact (Nat.zero_add _).symm
  | cons c cs ih => rw [List.cons_append, width_cons, ih, width_cons, Nat.add_assoc]

theorem Text.utf8ByteSize_ofList (cs : List Char) :
    (String.ofList cs).utf8ByteSize = width cs := by
  rw [← String.size_toByteArray, String.toByteArray_ofList]
  induction cs with
  | nil => rfl
  | cons c cs ih =>
    rw [List.utf8Encode_cons, ByteArray.size_append, ih, List.utf8Encode_singleton,
      List.size_toByteArray, String.length_utf8EncodeChar, width_cons]

theorem Text.width_toList (s : String) : width s.toList = s.utf8ByteSize := by
  rw [← utf8ByteSize_ofList, String.ofList_toList]

theorem Text.width_of_ascii {cs : List Char} (ascii : ∀ c ∈ cs, c.utf8Size = 1) :
    width cs = cs.length := by
  induction cs with
  | nil => rfl
  | cons c cs ih =>
    rw [width_cons, ascii c List.mem_cons_self, List.length_cons,
      ih fun d member => ascii d (List.mem_cons_of_mem c member), Nat.add_comm]

theorem Text.utf8Size_of_isAsciiDigit {c : Char} (digit : isAsciiDigit c = true) :
    c.utf8Size = 1 := by
  have range := toNat_of_isAsciiDigit digit
  rw [Char.utf8Size_eq_one_iff, UInt32.le_iff_toNat_le]
  exact Nat.le_trans range.2 (by decide)

/-- A number that is read from digits has no more digits than these. -/
theorem Text.length_toDigits_digitsValue_le {ds : List Char} (nonempty : 0 < ds.length)
    (digits : ∀ d ∈ ds, isAsciiDigit d = true) :
    (Nat.toDigits 10 (digitsValue ds)).length ≤ ds.length := by
  rw [Nat.length_toDigits_le_iff (by decide) nonempty]
  clear nonempty
  have bound (n : Nat) : ds.foldl (fun n c => 10 * n + (c.toNat - '0'.toNat)) n <
      10 ^ ds.length * (n + 1) := by
    induction ds generalizing n with
    | nil => simp
    | cons d ds ih =>
      have rest := ih (fun c member => digits c (List.mem_cons_of_mem d member))
        (10 * n + (d.toNat - '0'.toNat))
      have digit := toNat_of_isAsciiDigit (digits d List.mem_cons_self)
      have zero : '0'.toNat = 48 := rfl
      rw [List.foldl_cons, List.length_cons, Nat.pow_succ, Nat.mul_assoc]
      refine Nat.lt_of_lt_of_le rest (Nat.mul_le_mul_left _ ?_)
      omega
  exact Nat.lt_of_lt_of_le (bound 0) (by simp)

/-! ## Bytes of a printed program -/

/-- The bytes of a printed expression. -/
def AExpr.size : AExpr → Nat
  | .int n => width (writeInt n [])
  | .var x => x.utf8ByteSize
  | .binary op a b => a.size + op.spelling.utf8ByteSize + b.size + 4
  | .hole => holeText.utf8ByteSize

/-- The bytes of a printed expression. -/
def BExpr.size : BExpr → Nat
  | .lit true => 4
  | .lit false => 5
  | .not a => a.size + 6
  | .binary op a b => a.size + op.spelling.utf8ByteSize + b.size + 4
  | .compare op a b => a.size + op.spelling.utf8ByteSize + b.size + 4
  | .hole => holeText.utf8ByteSize

/-- The bytes of a printed command at `depth` that has `pad` blanks in front of a line for each body
around it. The line breaks stand where a command on one line has blanks. -/
def Command.size (pad depth : Nat) : Command → Nat
  | .skip => 4 + pad * depth
  | .assign x e => x.utf8ByteSize + e.size + 4 + pad * depth
  | .seq a b => a.size pad depth + b.size pad depth + 2
  | .ite e a b =>
    e.size + a.size pad (depth + 1) + b.size pad (depth + 1) + 19 + 3 * (pad * depth)
  | .whileDo e a => e.size + a.size pad (depth + 1) + 14 + 2 * (pad * depth)
  | .hole => holeText.utf8ByteSize + pad * depth

theorem width_writeString (s : String) (k : List Char) :
    width (writeString s k) = s.utf8ByteSize + width k := by
  rw [writeString, width_append, width_toList]

theorem width_writeNat (n : Nat) (k : List Char) :
    width (writeNat n k) = (Nat.toDigits 10 n).length + width k := by
  rw [writeNat, width_append, width_of_ascii]
  exact fun c member =>
    utf8Size_of_isAsciiDigit (Nat.isDigit_of_mem_toDigits (by decide) (by decide) member)

theorem width_writePad (depth : Nat) (k : List Char) :
    width (writePad depth k) = 2 * depth + width k := by
  rw [writePad, width_append, width_of_ascii, List.length_replicate]
  intro c member
  rw [List.eq_of_mem_replicate member]
  rfl

theorem width_writeInt (n : Int64) (k : List Char) :
    width (writeInt n k) = width (writeInt n []) + width k := by
  have front : writeInt n k = writeInt n [] ++ k := by
    unfold writeInt writeNat writeString
    split
    · simp
    · split <;> simp
  rw [front, width_append]

/-- An operation in parentheses has two of them and two blanks beside its parts. -/
theorem width_parens {left right : List Char → List Char} {m n : Nat}
    (widthLeft : ∀ k, width (left k) = m + width k)
    (widthRight : ∀ k, width (right k) = n + width k) (sign : String) (k : List Char) :
    width ('(' :: left (' ' :: writeString sign (' ' :: right (')' :: k)))) =
      m + sign.utf8ByteSize + n + 4 + width k := by
  have ascii : '('.utf8Size = 1 ∧ ' '.utf8Size = 1 ∧ ')'.utf8Size = 1 := by decide
  simp only [width_cons, ascii, widthLeft, widthRight, width_writeString]
  omega

theorem AExpr.width_write (e : AExpr) : ∀ k, width (e.write k) = e.size + width k := by
  induction e with
  | int n => exact width_writeInt n
  | var x => exact width_writeString x
  | hole => exact width_writeString holeText
  | binary op a b left right => exact width_parens left right op.spelling

theorem BExpr.width_write (e : BExpr) : ∀ k, width (e.write k) = e.size + width k := by
  induction e with
  | lit b =>
    cases b with
    | true => exact width_writeString "true"
    | false => exact width_writeString "false"
  | not a inner =>
    intro k
    have opened : "not (".utf8ByteSize = 5 := rfl
    have closed : ')'.utf8Size = 1 := rfl
    simp only [write, size, width_writeString, inner, width_cons, opened, closed]
    omega
  | binary op a b left right => exact width_parens left right op.spelling
  | compare op a b => exact width_parens a.width_write b.width_write op.spelling
  | hole => exact width_writeString holeText

/-- On one line nothing is in front of a command, however deep it is. -/
theorem Command.width_write (c : Command) :
    ∀ depth k, width (c.write k) = c.size 0 depth + width k := by
  induction c with
  | skip =>
    intro depth k
    have word : "skip".utf8ByteSize = 4 := rfl
    rw [write, width_writeString, word, size, Nat.zero_mul]
  | assign x e =>
    intro depth k
    have mark : " := ".utf8ByteSize = 4 := rfl
    simp only [write, size, width_writeString, e.width_write, mark]
    omega
  | seq a b left right =>
    intro depth k
    have semi : "; ".utf8ByteSize = 2 := rfl
    simp only [write, size, width_writeString, left depth, right depth, semi]
    omega
  | ite e a b left right =>
    intro depth k
    have words : "if ".utf8ByteSize = 3 ∧ " then ".utf8ByteSize = 6 ∧ " else ".utf8ByteSize = 6 ∧
        " end".utf8ByteSize = 4 := by decide
    simp only [write, size, width_writeString, e.width_write, left (depth + 1), right (depth + 1),
      words]
    omega
  | whileDo e a inner =>
    intro depth k
    have words : "while ".utf8ByteSize = 6 ∧ " do ".utf8ByteSize = 4 ∧
        " end".utf8ByteSize = 4 := by decide
    simp only [write, size, width_writeString, e.width_write, inner (depth + 1), words]
    omega
  | hole =>
    intro depth k
    rw [write, width_writeString, size, Nat.zero_mul]
    rfl

theorem Command.width_writeLines (c : Command) :
    ∀ depth k, width (c.writeLines depth k) = c.size 2 depth + width k := by
  have newline : '\n'.utf8Size = 1 := rfl
  induction c with
  | skip | assign | hole =>
    intro depth k
    rw [writeLines, width_writePad, width_write _ depth, size, size]
    · omega
    all_goals nofun
  | seq a b left right =>
    intro depth k
    have semi : ";\n".utf8ByteSize = 2 := rfl
    simp only [writeLines, size, width_writeString, left, right, semi]
    omega
  | ite e a b left right =>
    intro depth k
    have words : "if ".utf8ByteSize = 3 ∧ " then\n".utf8ByteSize = 6 ∧
        "else\n".utf8ByteSize = 5 ∧ "end".utf8ByteSize = 3 := by decide
    simp only [writeLines, size, width_writeString, width_writePad, width_cons, e.width_write,
      left, right, newline, words]
    omega
  | whileDo e a inner =>
    intro depth k
    have words : "while ".utf8ByteSize = 6 ∧ " do\n".utf8ByteSize = 4 ∧
        "end".utf8ByteSize = 3 := by decide
    simp only [writeLines, size, width_writeString, width_writePad, width_cons, e.width_write,
      inner, newline, words]
    omega

theorem Command.utf8ByteSize_format (c : Command) : c.format.utf8ByteSize = c.size 0 0 := by
  rw [format, utf8ByteSize_ofList, width_write c 0]
  rfl

theorem Command.utf8ByteSize_formatIndent (c : Command) :
    c.formatIndent.utf8ByteSize = c.size 2 0 + 1 := by
  rw [formatIndent, utf8ByteSize_ofList, width_writeLines]
  rfl

/-! ## Bytes of a source -/

/-- The bytes of a token of this kind, where the kind settles them. -/
def Token.Kind.size : Token.Kind → Nat
  | .operator o => o.spelling.utf8ByteSize
  | .keyword w => w.spelling.utf8ByteSize
  | _ => 1

/-- The bytes with which a printer spells a token. -/
def Token.size (t : Token) : Nat :=
  match t.kind with
  | .int => width (writeInt t.value [])
  | .var => t.text.utf8ByteSize
  | kind => kind.size

/-- The bytes that the tokens may take in print, with `extra` bytes behind each of them. -/
def Token.room (extra : Nat) : List Token → Nat
  | [] => 0
  | t :: ts => t.size + extra + room extra ts

namespace Token

theorem room_nil (extra : Nat) : room extra [] = 0 := rfl

theorem room_cons (extra : Nat) (t : Token) (ts : List Token) :
    room extra (t :: ts) = t.size + extra + room extra ts := rfl

theorem room_append (extra : Nat) (ts us : List Token) :
    room extra (ts ++ us) = room extra ts + room extra us := by
  induction ts with
  | nil => exact (Nat.zero_add _).symm
  | cons t ts ih =>
    rw [List.cons_append, room_cons, ih, room_cons]
    omega

theorem Emitted.size_pos {t : Token} (emitted : Emitted t) : 0 < t.text.utf8ByteSize := by
  rw [← width_toList]
  have nonempty := emitted.length_pos
  cases chars : t.text.toList with
  | nil =>
    rw [chars] at nonempty
    cases nonempty
  | cons c cs =>
    rw [width_cons]
    exact Nat.add_pos_left c.utf8Size_pos _

/-- A number is not printed with more digits than it was read from. -/
theorem width_writeInt_ofNat_le {ds : List Char} (digits : ∀ d ∈ ds, isAsciiDigit d = true)
    (small : digitsValue ds ≤ Value.maxInt.toNat) (nonempty : 0 < ds.length) :
    width (writeInt (Int64.ofNat (digitsValue ds)) []) ≤ width ds := by
  have nonneg : 0 ≤ Int64.ofNat (digitsValue ds) :=
    (Int64.ofNat_le_iff_le (by decide) (Nat.lt_succ_of_le small)).2 (Nat.zero_le _)
  have value : (Int64.ofNat (digitsValue ds)).toInt.toNat = digitsValue ds :=
    Int64.toNatClampNeg_ofNat_of_lt (Nat.lt_succ_of_le small)
  rw [writeInt, if_pos nonneg, value, width_writeNat,
    width_of_ascii fun d member => utf8Size_of_isAsciiDigit (digits d member)]
  exact length_toDigits_digitsValue_le nonempty digits

theorem Emitted.size_le {t : Token} (emitted : Emitted t) : t.size ≤ t.text.utf8ByteSize := by
  cases emitted with
  | semi | lparen | rparen | operator => exact Nat.le_refl _
  | int digits small =>
    rw [Token.size, utf8ByteSize_ofList]
    exact width_writeInt_ofNat_le digits small (Nat.succ_pos _)
  | @word c ds pos letter parts =>
    unfold Token.size wordKind
    cases found : Keyword.ofSpelling? (String.ofList (c :: ds)) with
    | none => exact Nat.le_refl _
    | some w =>
      have spelled := List.find?_some found
      rw [← eq_of_beq spelled]
      exact Nat.le_refl _

/-- The tokens of a source have room in it if each byte counts once for itself and `extra` times for
what is behind its token. -/
theorem room_le_of_lex {cs : List Char} {ts : List Token} (extra : Nat) (lexed : lex cs = .ok ts) :
    room extra ts ≤ (extra + 1) * width cs := by
  have space (c : Char) (cs : List Char) (us : List Token) (_ : isSpace c = true)
      (within : room extra us ≤ (extra + 1) * width cs) :
      room extra us ≤ (extra + 1) * width (c :: cs) := by
    rw [width_cons, Nat.mul_add]
    exact Nat.le_add_left_of_le within
  have token (t : Token) (k : List Char) (us : List Token) (emitted : Emitted t)
      (within : room extra us ≤ (extra + 1) * width k) :
      room extra (t :: us) ≤ (extra + 1) * width (t.text.toList ++ k) := by
    have size := emitted.size_le
    have each : extra ≤ extra * t.text.utf8ByteSize := Nat.le_mul_of_pos_right _ emitted.size_pos
    rw [room_cons, width_append, width_toList, Nat.mul_add, Nat.add_mul, Nat.one_mul]
    omega
  obtain ⟨us, rfl, within⟩ := lexFrom_induction
    (motive := fun cs us => room extra us ≤ (extra + 1) * width cs) (Nat.zero_le _) space token
    lexed
  exact within

end Token

/-- The greatest number of bodies around a command inside a command. -/
def Command.depth : Command → Nat
  | .seq a b => max a.depth b.depth
  | .ite _ a b => max a.depth b.depth + 1
  | .whileDo _ a => a.depth + 1
  | _ => 0

namespace Grammar

open Token

theorem ArithSign.size_eq {t : Token} {op : ArithOp} (sign : ArithSign t.kind op) :
    t.size = op.spelling.utf8ByteSize := by
  generalize isKind : t.kind = kind at sign
  rw [Token.size, isKind]
  cases sign <;> rfl

theorem CompareSign.size_eq {t : Token} {op : CompareOp} (sign : CompareSign t.kind op) :
    t.size = op.spelling.utf8ByteSize := by
  generalize isKind : t.kind = kind at sign
  rw [Token.size, isKind]
  cases sign <;> rfl

theorem BoolSign.size_eq {t : Token} {op : BoolOp} (sign : BoolSign t.kind op) :
    t.size = op.spelling.utf8ByteSize := by
  generalize isKind : t.kind = kind at sign
  rw [Token.size, isKind]
  cases sign <;> rfl

/-- The room of an operation in parentheses. -/
theorem room_parens (extra : Nat) {opened sign closed : Token} (us vs : List Token)
    (isOpen : opened.kind = .lparen) (isClose : closed.kind = .rparen) :
    room extra (opened :: (us ++ sign :: (vs ++ [closed]))) =
      room extra us + sign.size + room extra vs + 3 * extra + 2 := by
  have parens : opened.size = 1 ∧ closed.size = 1 := by
    simp only [Token.size, isOpen, isClose]
    exact ⟨rfl, rfl⟩
  simp only [room_cons, room_append, room_nil, parens]
  omega

section

variable {ts : List Token} {extra : Nat}

/-- An expression has room in print if there is a byte behind each token. -/
theorem Arith.size_lt {e : AExpr} (arith : Arith ts e) (blank : 0 < extra) :
    e.size < room extra ts := by
  induction arith with
  | @int t isInt =>
    have size : t.size = (AExpr.int t.value).size := by
      simp only [Token.size, isInt, AExpr.size]
    rw [room_cons, size]
    omega
  | @var t isVar =>
    have size : t.size = (AExpr.var t.text).size := by
      simp only [Token.size, isVar, AExpr.size]
    rw [room_cons, size]
    omega
  | binary isOpen _ sign _ isClose left right =>
    rw [room_parens _ _ _ isOpen isClose, sign.size_eq, AExpr.size]
    omega

theorem Boolean.size_lt {e : BExpr} (boolean : Boolean ts e) (blank : 0 < extra) :
    e.size < room extra ts := by
  induction boolean with
  | @true t isTrue =>
    have size : t.size = 4 := by
      simp only [Token.size, isTrue]
      rfl
    rw [room_cons, size, BExpr.size]
    omega
  | @false t isFalse =>
    have size : t.size = 5 := by
      simp only [Token.size, isFalse]
      rfl
    rw [room_cons, size, BExpr.size]
    omega
  | @not mark opened closed us a isNot isOpen _ isClose inner =>
    have sizes : mark.size = 3 ∧ opened.size = 1 ∧ closed.size = 1 := by
      simp only [Token.size, isNot, isOpen, isClose]
      exact ⟨rfl, rfl, rfl⟩
    simp only [room_cons, room_append, room_nil, sizes, BExpr.size]
    omega
  | compare isOpen left sign right isClose =>
    have sizeLeft := left.size_lt blank
    have sizeRight := right.size_lt blank
    rw [room_parens _ _ _ isOpen isClose, sign.size_eq, BExpr.size]
    omega
  | binary isOpen _ sign _ isClose left right =>
    rw [room_parens _ _ _ isOpen isClose, sign.size_eq, BExpr.size]
    omega

/-- A command has room in print if there is a byte behind each token, and as many more as the blanks
in front of its deepest line. -/
theorem Derives.size_lt {phrase : Phrase} {c : Command} (derives : Derives phrase ts c)
    (pad depth most : Nat) (within : depth + c.depth ≤ most) :
    c.size pad depth < room (pad * most + 1) ts := by
  have blank : 0 < pad * most + 1 := Nat.succ_pos _
  have pads {depth : Nat} (le : depth ≤ most) : pad * depth ≤ pad * most :=
    Nat.mul_le_mul_left pad le
  induction derives generalizing depth with
  | @skip t isSkip =>
    have size : t.size = 4 := by
      simp only [Token.size, isSkip]
      rfl
    have inFront := pads (Nat.le_of_add_right_le within)
    rw [room_cons, size, Command.size]
    omega
  | @assign name mark us e isVar isAssign arith =>
    have sizeName : name.size = name.text.utf8ByteSize := by
      simp only [Token.size, isVar]
    have sizeMark : mark.size = 2 := by
      simp only [Token.size, isAssign]
      rfl
    have inFront := pads (Nat.le_of_add_right_le within)
    have value := arith.size_lt blank
    rw [room_cons, room_cons, sizeName, sizeMark, Command.size]
    omega
  | @ite ifMark thenMark elseMark endMark us vs ws e a b isIf boolean isThen _ isElse _ isEnd
      yes no =>
    have sizes : ifMark.size = 2 ∧ thenMark.size = 4 ∧ elseMark.size = 4 ∧ endMark.size = 3 := by
      simp only [Token.size, isIf, isThen, isElse, isEnd]
      exact ⟨rfl, rfl, rfl, rfl⟩
    have inFront := pads (Nat.le_of_add_right_le within)
    rw [Command.depth] at within
    -- Three of the four marks begin a line, and what is behind each of them has room for it.
    have condition := boolean.size_lt blank
    have first := yes (depth + 1) (by omega)
    have second := no (depth + 1) (by omega)
    simp only [room_cons, room_append, room_nil, sizes, Command.size]
    omega
  | @whileDo whileMark doMark endMark us vs e a isWhile boolean isDo _ isEnd body =>
    have sizes : whileMark.size = 5 ∧ doMark.size = 2 ∧ endMark.size = 3 := by
      simp only [Token.size, isWhile, isDo, isEnd]
      exact ⟨rfl, rfl, rfl⟩
    have inFront := pads (Nat.le_of_add_right_le within)
    rw [Command.depth] at within
    have condition := boolean.size_lt blank
    have inner := body (depth + 1) (by omega)
    simp only [room_cons, room_append, room_nil, sizes, Command.size]
    omega
  | single _ atomic => exact atomic depth within
  | @seq semi us vs a b _ isSemi _ first second =>
    have size : semi.size = 1 := by
      simp only [Token.size, isSemi]
      rfl
    rw [Command.depth] at within
    have left := first depth (by omega)
    have right := second depth (by omega)
    rw [room_append, room_cons, size, Command.size]
    omega

end

end Grammar

/-! ## What is printed and read again -/

namespace Command

theorem parse_of_large {source : String} (large : maxSourceSize < source.utf8ByteSize) :
    parse source = .error (.grammar .tooLarge) :=
  if_pos large

/-- A text of characters that are read as a program is refused only for its size. -/
theorem parse_eq_of_readFrom {source : String} {t : Command} (read : ReadFrom source.toList t) :
    parse source = if source.utf8ByteSize ≤ maxSourceSize then .ok t
      else .error (.grammar .tooLarge) := by
  split
  · next small => exact parse_of_readFrom small read
  · next large => exact parse_of_large (Nat.not_le.1 large)

/-- A program is printed as less than two bytes for a byte of its source, and as much as the blanks
in front of its deepest line more. -/
theorem size_lt_of_parse {source : Text} {t : Command} (parsed : parse source = .ok t)
    (pad : Nat) : t.size pad 0 < (pad * t.depth + 2) * source.size := by
  have bytes : width source.chars = source.size := by
    rw [← utf8ByteSize_ofList]
    exact congrArg Text.size (isUtf8_of_parse parsed).ofString_lossy
  obtain ⟨ts, lexed, tree⟩ := readFrom_of_parse parsed
  have emitted := Token.emitted_of_lex lexed
  have derives := derives_of_ofTokens (fun t member => (emitted t member).kind_ne_eof) tree
  calc t.size pad 0 < Token.room (pad * t.depth + 1) ts :=
        derives.size_lt pad 0 t.depth (Nat.le_of_eq (Nat.zero_add _))
    _ ≤ (pad * t.depth + 2) * width source.chars := Token.room_le_of_lex _ lexed
    _ = (pad * t.depth + 2) * source.size := by rw [bytes]

/-- What is printed for a program that was read is read as this program again, unless it is larger
than a source may be, and then it is refused for its size. On one line a program has less than two
bytes for each byte of its source. On indented lines it has at most two, and two more for each body
around its innermost command. -/
theorem parse_printed (source : Text) (t : Command) (parsed : parse source = .ok t) :
    t.same t = true ∧
      (∀ printed ∈ [t.format, t.formatIndent],
        parse printed = if printed.utf8ByteSize ≤ maxSourceSize then .ok t
          else .error (.grammar .tooLarge)) ∧
      t.format.utf8ByteSize < 2 * source.size ∧
      t.formatIndent.utf8ByteSize ≤ (2 * t.depth + 2) * source.size := by
  obtain ⟨wf, normal⟩ := wellFormed_and_normal_of_readFrom (readFrom_of_parse parsed)
  have line := readFrom_format wf
  have lines := readFrom_formatIndent wf
  rw [normal] at line lines
  refine ⟨same_self wf, ?_, ?_, ?_⟩
  · rw [List.forall_mem_cons, List.forall_mem_singleton]
    exact ⟨parse_eq_of_readFrom line, parse_eq_of_readFrom lines⟩
  · have size := size_lt_of_parse parsed 0
    rwa [Nat.zero_mul, Nat.zero_add, ← utf8ByteSize_format] at size
  · rw [utf8ByteSize_formatIndent]
    exact size_lt_of_parse parsed 2

/-- The lines of a loop have few enough bytes for a source, since one line of it has. -/
theorem parse_printed_loop :
    let t : Command := .whileDo (.lit true) .skip
    t.format.utf8ByteSize = 22 ∧ t.depth = 1 ∧ parse t.formatIndent = .ok t := by
  intro t
  have line : ReadFrom t.format.toList t.normal := readFrom_format ⟨trivial, trivial⟩
  have parsed : parse t.format = .ok t := parse_of_readFrom (by decide) line
  obtain ⟨_, read, _, few⟩ := parse_printed t.format t parsed
  have small : t.formatIndent.utf8ByteSize ≤ maxSourceSize := Nat.le_trans few (by decide)
  refine ⟨rfl, rfl, ?_⟩
  rw [read t.formatIndent (by simp), if_pos small]

/-! ## Programs that are printed too large -/

/-- A command in the bodies of `n` loops. -/
def loops : Nat → Command
  | 0 => .skip
  | n + 1 => .whileDo (.lit true) (loops n)

/-- A command and then `n` others. -/
def skips : Nat → Command
  | 0 => .skip
  | n + 1 => .seq (skips n) .skip

/-- A source of `skips n` without white space, in front of `k`. -/
def writeSkips : Nat → List Char → List Char
  | 0, k => writeString "skip" k
  | n + 1, k => writeSkips n (';' :: writeString "skip" k)

theorem wellFormed_loops (n : Nat) : (loops n).WellFormed := by
  induction n with
  | zero => trivial
  | succ n ih => exact ⟨trivial, ih⟩

theorem normal_loops (n : Nat) : (loops n).normal = loops n := by
  induction n with
  | zero => rfl
  | succ n ih => rw [loops, normal, ih, BExpr.normal]

/-- The loops begin and end on lines that are deeper each, so their blanks grow with the square of
their number. -/
theorem size_loops (pad depth n : Nat) :
    (loops n).size pad depth = 4 + 18 * n + pad * (n * n + 2 * depth * n + depth) := by
  induction n generalizing depth with
  | zero => simp [loops, size]
  | succ n ih =>
    rw [loops, size, ih, BExpr.size]
    grind

theorem size_skips (n : Nat) : (skips n).size 0 0 = 4 + 6 * n := by
  induction n with
  | zero => rfl
  | succ n ih =>
    rw [skips, size, ih, size]
    omega

theorem width_writeSkips (n : Nat) (k : List Char) :
    width (writeSkips n k) = 4 + 5 * n + width k := by
  have word : "skip".utf8ByteSize = 4 := rfl
  have semi : ';'.utf8Size = 1 := rfl
  induction n generalizing k with
  | zero => rw [writeSkips, width_writeString, word]
  | succ n ih =>
    rw [writeSkips, ih, width_cons, width_writeString, word, semi]
    omega

theorem reads_writeSkips (n : Nat) :
    ∀ k, Token.Boundary k → Token.Reads (Derives .command · (skips n)) (writeSkips n k) k := by
  induction n with
  | zero => exact fun k => reads_skip
  | succ n ih =>
    exact fun k boundary => reads_seq (ih _ (.cons rfl)) Token.reads_semi (reads_skip boundary)

theorem parse_loops (n : Nat) (small : 4 + 18 * n ≤ maxSourceSize) :
    parse (loops n).format = .ok (loops n) := by
  have read := readFrom_format (wellFormed_loops n)
  rw [normal_loops] at read
  refine parse_of_readFrom ?_ read
  rwa [utf8ByteSize_format, size_loops, Nat.zero_mul]

theorem parse_writeSkips (n : Nat) (small : 4 + 5 * n ≤ maxSourceSize) :
    parse (String.ofList (writeSkips n [])) = .ok (skips n) := by
  refine parse_of_readFrom ?_ ?_
  · rwa [utf8ByteSize_ofList, width_writeSkips]
  · rw [String.toList_ofList]
    exact readFrom_of_reads (reads_writeSkips n [] .nil)

/-- On indented lines 252 loops, each around the next, are too large for a source, although they
have a source of 4540 bytes. A sequence of 22001 commands is too large even on one line, although it
is not too large without white space. -/
theorem printed_too_large :
    (parse (loops 252).format = .ok (loops 252) ∧
      parse (loops 252).formatIndent = .error (.grammar .tooLarge)) ∧
    parse (String.ofList (writeSkips 22000 [])) = .ok (skips 22000) ∧
      parse (skips 22000).format = .error (.grammar .tooLarge) := by
  refine ⟨⟨parse_loops 252 (by decide), parse_of_large ?_⟩,
    parse_writeSkips 22000 (by decide), parse_of_large ?_⟩
  · rw [utf8ByteSize_formatIndent, size_loops]
    decide
  · rw [utf8ByteSize_format, size_skips]
    decide

end Command

end ImpHost
