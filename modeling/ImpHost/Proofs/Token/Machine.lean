import ImpHost.Proofs.Token.Lexing

/-!
The lexer as a state machine.

A `Lexer` reads one character at a time over a cursor. Between tokens it looks at the character
under the cursor and skips it, emits it as a token, or opens a token with it. A token that is open
is kept in a buffer. Integers and words take in one character after the other until one comes that
does not belong to them, which stays under the cursor. An operator takes in a second character only
if both together spell one.

`lexFrom` reads a token at once, with all that belongs to it. What a machine has still to emit is
therefore what `lexFrom` reads from where the open token starts (`pending`), and no step changes
that (`keeps_step`).

Main statement: `run_initial` says that the machine has the tokens of `lex`, or its error, for every
source.
-/

namespace ImpHost

/-- Every operator. -/
def Operator.all : List Operator :=
  [.plus, .minus, .star, .assign, .lte, .eq]

/-- The operator with the given spelling. -/
def Operator.ofSpelling? (s : String) : Option Operator :=
  Operator.all.find? fun o => o.spelling == s

theorem Operator.ofSpelling?_eq_some_iff {s : String} {o : Operator} :
    Operator.ofSpelling? s = some o ↔ o.spelling = s := by
  constructor
  · intro found
    have same : (o.spelling == s) = true :=
      List.find?_some (p := fun o : Operator => o.spelling == s) found
    exact beq_iff_eq.1 same
  · rintro rfl
    cases o <;> decide

namespace Token

open Text

/-! ## The machine -/

/-- The characters of a token that is open, of which there is at least one, and the cursor of the
first. -/
structure Buffer where
  first : Char
  more : List Char
  start : Nat
deriving DecidableEq

namespace Buffer

def chars (b : Buffer) : List Char :=
  b.first :: b.more

def text (b : Buffer) : String :=
  String.ofList b.chars

def push (b : Buffer) (c : Char) : Buffer :=
  { b with more := b.more ++ [c] }

end Buffer

/-- Whether the machine is between tokens, has one open, or is done. -/
inductive Mode where
  | start
  | integer (b : Buffer)
  | word (b : Buffer)
  | operator (b : Buffer)
  | done
deriving DecidableEq

/-- How far a mode is from the end. -/
def Mode.rank : Mode → Nat
  | .start => 1
  | .integer _ | .word _ | .operator _ => 2
  | .done => 0

/-- The machine. Its cursor counts characters from zero, the positions of tokens from one. -/
structure Lexer where
  input : List Char
  cursor : Nat
  mode : Mode
  tokens : List Token

namespace Lexer

/-- The machine in front of a source. -/
def initial (source : List Char) : Lexer :=
  ⟨source, 0, .start, []⟩

/-- The character under the cursor. -/
def peek (m : Lexer) : Option Char :=
  m.input[m.cursor]?

def advance (m : Lexer) : Lexer :=
  { m with cursor := m.cursor + 1 }

def enter (m : Lexer) (mode : Mode) : Lexer :=
  { m with mode := mode }

/-- Emits a token whose first character is the one at `start`. -/
def emit (m : Lexer) (kind : Token.Kind) (text : String) (value : Int64) (start : Nat) : Lexer :=
  { m with tokens := m.tokens ++ [⟨kind, text, value, ((start + 1 : Nat) : Int)⟩] }

/-- Opens a token with `c`, the character under the cursor. -/
def openWith (m : Lexer) (mode : Buffer → Mode) (c : Char) : Lexer :=
  (m.enter (mode ⟨c, [], m.cursor⟩)).advance

/-- Goes on between tokens, or is done at the end of the input. -/
def finish (m : Lexer) : Lexer :=
  m.enter (if m.peek.isSome then .start else .done)

def stepStart (m : Lexer) : Except LexError Lexer :=
  match m.peek with
  | none => .ok (m.enter .done)
  | some c =>
    if isSpace c then .ok m.advance
    else if c == ';' then .ok (m.emit .semi ";" 0 m.cursor).advance
    else if c == '(' then .ok (m.emit .lparen "(" 0 m.cursor).advance
    else if c == ')' then .ok (m.emit .rparen ")" 0 m.cursor).advance
    else if isAsciiDigit c then .ok (m.openWith .integer c)
    else if isLetter c then .ok (m.openWith .word c)
    else if isOperatorStart c then .ok (m.openWith .operator c)
    else .error (.unexpected c (m.cursor + 1))

def stepInteger (m : Lexer) (b : Buffer) : Except LexError Lexer :=
  match m.peek.filter isAsciiDigit with
  | some c => .ok (m.enter (.integer (b.push c))).advance
  | none =>
    if digitsValue b.chars ≤ Value.maxInt.toNat then
      .ok (m.emit .int b.text (Int64.ofNat (digitsValue b.chars)) b.start).finish
    else .error (.outOfRange b.first b.more (b.start + 1))

def stepWord (m : Lexer) (b : Buffer) : Lexer :=
  match m.peek.filter isWordPart with
  | some c => (m.enter (.word (b.push c))).advance
  | none => (m.emit (wordKind b.text) b.text 0 b.start).finish

/-- The character under the cursor is taken in only if it completes an operator of two. -/
def stepOperator (m : Lexer) (b : Buffer) : Except LexError Lexer :=
  match m.peek.bind fun c => Operator.ofSpelling? (b.push c).text with
  | some o => .ok ((m.enter .start).emit (.operator o) o.spelling 0 b.start).advance
  | none =>
    match Operator.ofSpelling? b.text with
    | some o => .ok (m.emit (.operator o) o.spelling 0 b.start).finish
    | none => .error (.incomplete b.first (b.start + 1))

/-- One step of the machine. -/
def step (m : Lexer) : Except LexError Lexer :=
  match m.mode with
  | .start => m.stepStart
  | .integer b => m.stepInteger b
  | .word b => .ok (m.stepWord b)
  | .operator b => m.stepOperator b
  | .done => .ok m

variable {m m' n : Lexer} {b : Buffer} {c : Char}

/-! ## The run -/

/-- Each step makes this smaller: it takes a character in, or else it closes a token or ends. -/
def size (m : Lexer) : Nat :=
  2 * (m.input.length - m.cursor) + m.mode.rank

theorem drop_of_peek (here : m.peek = some c) :
    m.input.drop m.cursor = c :: m.input.drop (m.cursor + 1) := by
  obtain ⟨inside, rfl⟩ := List.getElem?_eq_some_iff.1 here
  exact List.drop_eq_getElem_cons inside

theorem drop_of_peek_eq_none (atEnd : m.peek = none) : m.input.drop m.cursor = [] :=
  List.drop_eq_nil_of_le (List.getElem?_eq_none_iff.1 atEnd)

/-- To take a character in makes the machine smaller, whatever becomes of its mode. -/
theorem size_advance_lt (here : m.peek = some c) (going : m.mode ≠ .done)
    (input : n.input = m.input) (cursor : n.cursor = m.cursor) : n.advance.size < m.size := by
  obtain ⟨inside, -⟩ := List.getElem?_eq_some_iff.1 here
  have above : n.mode.rank ≤ 2 := by
    cases n.mode <;> simp [Mode.rank]
  have below : 0 < m.mode.rank := by
    cases mode : m.mode with
    | done => exact (going mode).elim
    | start | integer | word | operator => simp [Mode.rank]
  simp only [size, advance, input, cursor]
  omega

/-- To close a token makes the machine smaller. -/
theorem size_finish_lt (reading : m.mode.rank = 2) (input : n.input = m.input)
    (cursor : n.cursor = m.cursor) : n.finish.size < m.size := by
  have closed : (if n.peek.isSome then Mode.start else .done).rank ≤ 1 := by
    split <;> simp [Mode.rank]
  simp only [size, finish, enter, input, cursor, reading]
  omega

theorem size_lt_of_stepStart (mode : m.mode = .start) (stepped : m.stepStart = .ok m') :
    m'.size < m.size := by
  have going : m.mode ≠ .done := by simp [mode]
  unfold stepStart at stepped
  split at stepped
  · cases stepped
    simp [size, enter, mode, Mode.rank]
  · next here =>
    repeat' split at stepped
    all_goals cases stepped
    all_goals exact size_advance_lt here going rfl rfl

theorem size_lt_of_stepInteger (mode : m.mode = .integer b) (stepped : m.stepInteger b = .ok m') :
    m'.size < m.size := by
  unfold stepInteger at stepped
  split at stepped
  · next taken =>
    cases stepped
    exact size_advance_lt (Option.filter_eq_some_iff.1 taken).1 (by simp [mode]) rfl rfl
  · split at stepped
    · cases stepped
      exact size_finish_lt (by rw [mode]; rfl) rfl rfl
    · cases stepped

theorem size_stepWord_lt (mode : m.mode = .word b) : (m.stepWord b).size < m.size := by
  unfold stepWord
  split
  · next taken =>
    exact size_advance_lt (Option.filter_eq_some_iff.1 taken).1 (by simp [mode]) rfl rfl
  · exact size_finish_lt (by rw [mode]; rfl) rfl rfl

theorem size_lt_of_stepOperator (mode : m.mode = .operator b)
    (stepped : m.stepOperator b = .ok m') : m'.size < m.size := by
  unfold stepOperator at stepped
  split at stepped
  · next pair =>
    cases stepped
    obtain ⟨c, here, -⟩ := Option.bind_eq_some_iff.1 pair
    exact size_advance_lt here (by simp [mode]) rfl rfl
  · split at stepped
    · cases stepped
      exact size_finish_lt (by rw [mode]; rfl) rfl rfl
    · cases stepped

theorem size_lt_of_step (going : m.mode ≠ .done) (stepped : m.step = .ok m') :
    m'.size < m.size := by
  unfold step at stepped
  split at stepped
  · next mode => exact size_lt_of_stepStart mode stepped
  · next mode => exact size_lt_of_stepInteger mode stepped
  · next mode =>
    cases stepped
    exact size_stepWord_lt mode
  · next mode => exact size_lt_of_stepOperator mode stepped
  · next mode => exact (going mode).elim

/-- Steps until the machine is done. The first error ends the run. -/
def run (m : Lexer) : Except LexError (List Token) :=
  if _ended : m.mode = .done then .ok m.tokens
  else
    match _stepped : m.step with
    | .ok m' => m'.run
    | .error e => .error e
termination_by m.size
decreasing_by exact size_lt_of_step _ended _stepped

theorem run_of_done (ended : m.mode = .done) : m.run = .ok m.tokens := by
  rw [run, dif_pos ended]

theorem run_of_ok (going : m.mode ≠ .done) (stepped : m.step = .ok m') : m.run = m'.run := by
  rw [run, dif_neg going]
  split
  · next taken => rw [Except.ok.inj (taken.symm.trans stepped)]
  · next failed => cases failed.symm.trans stepped

theorem run_of_error {e : LexError} (going : m.mode ≠ .done) (failed : m.step = .error e) :
    m.run = .error e := by
  rw [run, dif_neg going]
  split
  · next taken => cases taken.symm.trans failed
  · next failed' => rw [Except.error.inj (failed'.symm.trans failed)]

/-! ## What a step leaves to be read -/

/-- The cursor of the first character whose token is still to be emitted. -/
def origin (m : Lexer) : Nat :=
  match m.mode with
  | .start | .done => m.cursor
  | .integer b | .word b | .operator b => b.start

/-- What `lexFrom` reads from there. -/
def pending (m : Lexer) : Except LexError (List Token) :=
  lexFrom (m.origin + 1) m.tokens.reverse (m.input.drop m.origin)

/-- The buffer has the characters from its start to the cursor. -/
structure Holds (m : Lexer) (b : Buffer) : Prop where
  chars : m.input.drop b.start = b.chars ++ m.input.drop m.cursor
  cursor : m.cursor = b.start + b.chars.length

/-- A machine in the middle of a run: an open token has in its buffer what such a token can start
with, and nothing is left when the machine is done. -/
def Sound (m : Lexer) : Prop :=
  match m.mode with
  | .start => True
  | .integer b => m.Holds b ∧ ∀ c ∈ b.chars, isAsciiDigit c = true
  | .word b => m.Holds b ∧ isLetter b.first = true ∧ ∀ c ∈ b.more, isWordPart c = true
  | .operator b => m.Holds b ∧ isOperatorStart b.first = true ∧ b.more = []
  | .done => m.input.drop m.cursor = []

/-- What a step from `m` comes to: a machine that has the same to read, or the error that reading it
comes to. -/
inductive Keeps (m : Lexer) : Except LexError Lexer → Prop
  | ok {m' : Lexer} : m'.Sound → m'.pending = m.pending → Keeps m (.ok m')
  | error {e : LexError} : m.pending = .error e → Keeps m (.error e)

theorem pending_of_start (mode : m.mode = .start) :
    m.pending = lexFrom (m.cursor + 1) m.tokens.reverse (m.input.drop m.cursor) := by
  simp only [pending, origin, mode]

theorem Holds.of_openWith (here : m.peek = some c) (mode : Buffer → Mode) :
    (m.openWith mode c).Holds ⟨c, [], m.cursor⟩ :=
  ⟨drop_of_peek here, rfl⟩

theorem Holds.push (holds : m.Holds b) (here : m.peek = some c) (mode : Mode) :
    (m.enter mode).advance.Holds (b.push c) := by
  constructor
  · change m.input.drop b.start = b.first :: (b.more ++ [c]) ++ m.input.drop (m.cursor + 1)
    rw [holds.chars, drop_of_peek here, Buffer.chars]
    simp
  · change m.cursor + 1 = b.start + (b.first :: (b.more ++ [c])).length
    rw [holds.cursor, Buffer.chars]
    simp
    omega

theorem sound_finish (n : Lexer) : n.finish.Sound := by
  unfold finish
  cases here : n.peek with
  | none => exact drop_of_peek_eq_none here
  | some c => exact trivial

theorem pending_finish (n : Lexer) :
    n.finish.pending = lexFrom (n.cursor + 1) n.tokens.reverse (n.input.drop n.cursor) := by
  unfold finish
  cases n.peek <;> rfl

/-- A step that takes a character in and is between tokens then. -/
theorem keeps_advance (between : n.mode = .start) (input : n.input = m.input)
    (cursor : n.cursor = m.cursor)
    (next : m.pending = lexFrom (m.cursor + 1 + 1) n.tokens.reverse (m.input.drop (m.cursor + 1))) :
    m.Keeps (.ok n.advance) := by
  refine .ok ?_ ?_
  · simp only [Sound, advance, between]
  · rw [next, pending_of_start (m := n.advance) between]
    simp only [advance, input, cursor]

/-- A step that closes a token and leaves the character under the cursor. -/
theorem keeps_finish (input : n.input = m.input) (cursor : n.cursor = m.cursor)
    (next : m.pending = lexFrom (m.cursor + 1) n.tokens.reverse (m.input.drop m.cursor)) :
    m.Keeps (.ok n.finish) := by
  refine .ok n.sound_finish ?_
  rw [n.pending_finish, next, input, cursor]

theorem tokens_emit (m : Lexer) (kind : Token.Kind) (text : String) (value : Int64) (start : Nat) :
    (m.emit kind text value start).tokens.reverse =
      ⟨kind, text, value, ((start + 1 : Nat) : Int)⟩ :: m.tokens.reverse := by
  simp [emit]

theorem keeps_stepStart (mode : m.mode = .start) : m.Keeps m.stepStart := by
  unfold stepStart
  split
  · next atEnd => exact .ok (drop_of_peek_eq_none atEnd) (pending_of_start mode).symm
  next c here =>
  have read := pending_of_start mode
  have reopened := read.symm
  rw [drop_of_peek here] at read
  split
  · next space => exact keeps_advance mode rfl rfl (by rw [read, lexFrom_space space])
  split
  · next same =>
    refine keeps_advance mode rfl rfl ?_
    rw [read, beq_iff_eq.1 same, lexFrom_semi, tokens_emit]
  split
  · next same =>
    refine keeps_advance mode rfl rfl ?_
    rw [read, beq_iff_eq.1 same, lexFrom_open, tokens_emit]
  split
  · next same =>
    refine keeps_advance mode rfl rfl ?_
    rw [read, beq_iff_eq.1 same, lexFrom_close, tokens_emit]
  split
  · next digit =>
    exact .ok ⟨.of_openWith here .integer, List.forall_mem_singleton.2 digit⟩ reopened
  split
  · next letter =>
    exact .ok ⟨.of_openWith here .word, letter, List.forall_mem_nil _⟩ reopened
  split
  · next starts => exact .ok ⟨.of_openWith here .operator, starts, rfl⟩ reopened
  · next notSpace notSemi notOpen notClose notDigit notLetter notStart =>
    exact .error (read.trans
      (lexFrom_unexpected notSpace notSemi notOpen notClose notDigit notLetter notStart))

/-- With an open token the machine has to read this token from its first character. -/
theorem Holds.pending_eq (holds : m.Holds b) (opened : m.origin = b.start) :
    m.pending = lexFrom (b.start + 1) m.tokens.reverse (b.chars ++ m.input.drop m.cursor) := by
  rw [← holds.chars, pending, opened]

/-- The cursor is behind the characters of the buffer. -/
theorem Holds.cursor_eq (holds : m.Holds b) : b.start + 1 + 1 + b.more.length = m.cursor + 1 := by
  rw [holds.cursor, Buffer.chars, List.length_cons]
  omega

/-- What stands under the cursor does not belong to a token that takes in characters of `p`. -/
theorem head_of_filter {p : Char → Bool} (closed : m.peek.filter p = none) :
    ∀ d, (m.input.drop m.cursor).head? = some d → p d = false := by
  intro d head
  rw [List.head?_drop] at head
  exact Bool.eq_false_iff.2 (Option.filter_eq_none_iff.1 closed d head)

theorem keeps_stepInteger (mode : m.mode = .integer b) (holds : m.Holds b)
    (digits : ∀ c ∈ b.chars, isAsciiDigit c = true) : m.Keeps (m.stepInteger b) := by
  unfold stepInteger
  split
  · next c taken =>
    obtain ⟨here, digit⟩ := Option.filter_eq_some_iff.1 taken
    refine .ok ⟨holds.push here _, ?_⟩ ?_
    · exact List.forall_mem_append.2 ⟨digits, List.forall_mem_singleton.2 digit⟩
    · simp only [pending, origin, mode]
      rfl
  · next closed =>
    have read := holds.pending_eq (by rw [origin, mode])
    rw [Buffer.chars, lexFrom_digits digits (head_of_filter closed), holds.cursor_eq] at read
    split
    · next small =>
      refine keeps_finish rfl rfl ?_
      rw [tokens_emit]
      exact read.trans (if_pos small)
    · next large => exact .error (read.trans (if_neg large))

theorem keeps_stepWord (mode : m.mode = .word b) (holds : m.Holds b)
    (letter : isLetter b.first = true) (parts : ∀ c ∈ b.more, isWordPart c = true) :
    m.Keeps (.ok (m.stepWord b)) := by
  unfold stepWord
  split
  · next c taken =>
    obtain ⟨here, part⟩ := Option.filter_eq_some_iff.1 taken
    refine .ok ⟨holds.push here _, letter, ?_⟩ ?_
    · exact List.forall_mem_append.2 ⟨parts, List.forall_mem_singleton.2 part⟩
    · simp only [pending, origin, mode]
      rfl
  · next closed =>
    refine keeps_finish rfl rfl ?_
    rw [holds.pending_eq (by rw [origin, mode]), Buffer.chars,
      lexFrom_word letter parts (head_of_filter closed), holds.cursor_eq, tokens_emit]
    rfl

theorem ofSpelling?_single (c : Char) :
    Operator.ofSpelling? (String.ofList [c]) = singleOperator? c := by
  ext o
  rw [Operator.ofSpelling?_eq_some_iff, singleOperator?_eq_some_iff, ← String.toList_inj,
    String.toList_ofList]

theorem ofSpelling?_double (c d : Char) :
    Operator.ofSpelling? (String.ofList [c, d]) = doubleOperator? c d := by
  ext o
  rw [Operator.ofSpelling?_eq_some_iff, doubleOperator?_eq_some_iff, ← String.toList_inj,
    String.toList_ofList]

/-- Where the machine finds neither an operator of two characters nor one of one, there is none. -/
theorem operatorAt?_eq_none {cs : List Char}
    (unpaired : (cs.head?.bind fun d => Operator.ofSpelling? (String.ofList [c, d])) = none)
    (unspelled : Operator.ofSpelling? (String.ofList [c]) = none) : operatorAt? c cs = none := by
  rw [ofSpelling?_single] at unspelled
  cases cs with
  | nil => simp [operatorAt?, unspelled]
  | cons d ds =>
    have unpaired : doubleOperator? c d = none := (ofSpelling?_double c d).symm.trans unpaired
    simp [operatorAt?, unpaired, unspelled]

/-- An operator that the machine finds is the next token. -/
theorem Holds.pending_of_operator {o : Operator} {chars k : List Char} (holds : m.Holds b)
    (opened : m.origin = b.start) (spelled : Operator.ofSpelling? (String.ofList chars) = some o)
    (text : b.chars ++ m.input.drop m.cursor = chars ++ k) :
    m.pending = lexFrom (b.start + 1 + chars.length)
      (⟨.operator o, o.spelling, 0, ((b.start + 1 : Nat) : Int)⟩ :: m.tokens.reverse) k := by
  obtain rfl : chars = o.spelling.toList := by
    rw [Operator.ofSpelling?_eq_some_iff.1 spelled, String.toList_ofList]
  rw [holds.pending_eq opened, text, lexFrom_operator, String.length_toList]

theorem keeps_stepOperator (mode : m.mode = .operator b) (holds : m.Holds b)
    (starts : isOperatorStart b.first = true) (single : b.more = []) :
    m.Keeps (m.stepOperator b) := by
  obtain ⟨first, more, start⟩ := b
  dsimp only at starts single
  subst single
  have opened : m.origin = start := by rw [origin, mode]
  have place : m.cursor = start + 1 := holds.cursor
  unfold stepOperator
  split
  · next o pair =>
    obtain ⟨d, here, spelled⟩ := Option.bind_eq_some_iff.1 pair
    have text : first :: m.input.drop m.cursor = [first, d] ++ m.input.drop (m.cursor + 1) := by
      rw [drop_of_peek here]
      rfl
    refine keeps_advance rfl rfl rfl ?_
    rw [holds.pending_of_operator opened spelled text, place, tokens_emit]
    rfl
  · next unpaired =>
    split
    · next o spelled =>
      refine keeps_finish rfl rfl ?_
      rw [holds.pending_of_operator opened spelled rfl, place, tokens_emit]
      rfl
    · next unspelled =>
      refine .error ?_
      have unread : operatorAt? first (m.input.drop m.cursor) = none :=
        operatorAt?_eq_none (by rw [List.head?_drop]; exact unpaired) unspelled
      rw [holds.pending_eq opened, Buffer.chars, List.cons_append, List.nil_append,
        lexFrom_of_isOperatorStart starts, unread]
      rfl

/-- A step changes nothing of what is to be read. -/
theorem keeps_step (sound : m.Sound) : m.Keeps m.step := by
  unfold step
  unfold Sound at sound
  split
  · next mode => exact keeps_stepStart mode
  · next b mode =>
    rw [mode] at sound
    obtain ⟨holds, digits⟩ := sound
    exact keeps_stepInteger mode holds digits
  · next b mode =>
    rw [mode] at sound
    obtain ⟨holds, letter, parts⟩ := sound
    exact keeps_stepWord mode holds letter parts
  · next b mode =>
    rw [mode] at sound
    obtain ⟨holds, starts, single⟩ := sound
    exact keeps_stepOperator mode holds starts single
  · next mode =>
    refine .ok ?_ rfl
    rw [Sound, mode]
    rw [mode] at sound
    exact sound

/-- A run comes to what `lexFrom` reads, by induction on the steps. -/
theorem Sound.run_eq (sound : m.Sound) : m.run = m.pending := by
  induction m using run.induct with
  | case1 m ended =>
    have nothing : m.input.drop m.cursor = [] := by
      simpa only [Sound, ended] using sound
    rw [run_of_done ended, pending, origin, ended]
    dsimp only
    rw [nothing, lexFrom_nil, List.reverse_reverse]
  | case2 m going m' stepped ih =>
    have keeps := keeps_step sound
    rw [stepped] at keeps
    cases keeps with
    | ok sound' same => rw [run_of_ok going stepped, ih sound', same]
  | case3 m going e failed =>
    have keeps := keeps_step sound
    rw [failed] at keeps
    cases keeps with
    | error same => rw [run_of_error going failed, same]

/-- Between tokens, the machine computes `lexFrom` of what is left. -/
theorem run_eq_lexFrom (input : List Char) (cursor : Nat) (tokens : List Token) :
    (Lexer.mk input cursor .start tokens).run =
      lexFrom (cursor + 1) tokens.reverse (input.drop cursor) :=
  Sound.run_eq (m := ⟨input, cursor, .start, tokens⟩) trivial

/-- The machine comes to an end for every source, with the tokens of `lex` or with its error. -/
theorem run_initial (source : List Char) : (initial source).run = lex source :=
  run_eq_lexFrom source 0 []

end Lexer

end Token

end ImpHost
