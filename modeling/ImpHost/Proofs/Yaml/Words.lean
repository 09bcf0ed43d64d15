import ImpHost.Proofs.Manifest.Forms

/-!
A document that is one word is that word as a plain scalar (`Yaml.parse_word`).

Nothing in a word ends a plain scalar, so the scanner finds the scalar and then the end of the
document however often it is asked (`Scanner.ended`), and the tree is built from these tokens.
-/

namespace ImpHost.Yaml

/-- A word of letters, digits, underscores and hyphens that a hyphen alone or a mark of a document
cannot be taken for. -/
structure IsWord (cs : List Char) : Prop where
  inside : ∀ x ∈ cs, isNameChar x = true
  front : ∃ x rest, cs = x :: rest ∧ (x = '-' → ∃ y more, rest = y :: more ∧ y ≠ '-')

theorem ascii_of_isNameChar {x : Char} (name : isNameChar x = true) : x.toNat < 128 := by
  simp only [isNameChar, Bool.or_eq_true, Bool.and_eq_true, decide_eq_true_iff,
    beq_iff_eq] at name
  rcases name with (((⟨_, digit⟩ | ⟨_, small⟩) | ⟨_, capital⟩) | rfl) | rfl
  · exact Nat.lt_of_le_of_lt digit (by decide)
  · exact Nat.lt_of_le_of_lt small (by decide)
  · exact Nat.lt_of_le_of_lt capital (by decide)
  · decide
  · decide

/-- A character of a name is allowed, and it is no white space and no indicator but the hyphen. -/
structure Inert (x : Char) : Prop where
  isAllowed : isAllowed x = true
  isBlank : isBlank x = false
  isBreak : isBreak x = false
  isIndicator : Scanner.isIndicator x = true → x = '-'
  noPoint : x ≠ '.'

instance (x : Char) : Decidable (Inert x) :=
  decidable_of_iff (Yaml.isAllowed x = true ∧ Yaml.isBlank x = false ∧ Yaml.isBreak x = false ∧
    (Scanner.isIndicator x = true → x = '-') ∧ x ≠ '.')
    ⟨fun ⟨a, b, c, d, e⟩ => ⟨a, b, c, d, e⟩, fun ⟨a, b, c, d, e⟩ => ⟨a, b, c, d, e⟩⟩

theorem inert_of_isNameChar {x : Char} (name : isNameChar x = true) : Inert x := by
  have ascii := ascii_of_isNameChar name
  revert name
  refine Text.of_ascii ascii ?_
  decide +kernel

theorem Inert.beq_eq_false {x : Char} (inert : Inert x) (c : Char)
    (isIndicator : (Scanner.isIndicator c && c != '-') = true) : (x == c) = false := by
  obtain ⟨isIndicator, other⟩ := Bool.and_eq_true_iff.1 isIndicator
  refine beq_false_of_ne fun same => ?_
  subst same
  exact (bne_iff_ne.1 other) (inert.isIndicator isIndicator)

variable {cs : List Char}

theorem plainLength_of_inert {flow : Bool} (inside : ∀ x ∈ cs, Inert x) (n : Nat) :
    plainLength flow cs n = n + cs.length := by
  induction cs generalizing n with
  | nil => rfl
  | cons x cs ih =>
    have first := inside x List.mem_cons_self
    rw [plainLength, first.isBlank, first.isBreak, first.beq_eq_false ':' rfl,
      first.beq_eq_false ',' rfl, first.beq_eq_false '?' rfl, first.beq_eq_false '[' rfl,
      first.beq_eq_false ']' rfl, first.beq_eq_false '\x7b' rfl, first.beq_eq_false '\x7d' rfl]
    simp only [Bool.or_false, Bool.false_and, Bool.and_false, Bool.false_eq_true, if_false]
    rw [ih fun x here => inside x (List.mem_cons_of_mem _ here), List.length_cons]
    omega

namespace Cursor

@[simp]
theorem skip_zero (c : Cursor) : c.skip 0 = c := by
  cases c
  simp [skip]

/-- Nothing is taken where the first character is not to be taken. -/
theorem takeWhile_stay {c : Cursor} {p : Char → Bool}
    (stop : ∀ x, c.rest.head? = some x → p x = false) : c.takeWhile p = ([], c) := by
  have none : c.rest.takeWhile p = [] := by
    cases rest : c.rest with
    | nil => rfl
    | cons x xs => exact List.takeWhile_cons_of_neg (by simp [stop x (by rw [rest]; rfl)])
  rw [takeWhile, none]
  exact congrArg _ c.skip_zero

theorem rest_of_marker {c : Cursor} {x : Char} (marked : c.marker x = true) :
    ∃ more, c.rest = x :: x :: x :: more := by
  have line := (Bool.and_eq_true_iff.1 marked).2
  split at line
  · next a b d more rest =>
    simp only [Bool.and_eq_true, beq_iff_eq] at line
    obtain ⟨⟨⟨rfl, rfl⟩, rfl⟩, -⟩ := line
    exact ⟨more, rest⟩
  · cases line

end Cursor

namespace Scanner

theorem toNext_stay {flow keyAllowed : Bool} {fuel : Nat} {c : Cursor}
    (stop : ∀ x, c.rest.head? = some x → Inert x) :
    toNext flow (fuel + 1) keyAllowed c = (keyAllowed, c) := by
  have noBlank : ∀ x, c.rest.head? = some x →
      (x == ' ' || (flow || !keyAllowed) && x == '\t') = false := by
    intro x first
    have noBlank := (stop x first).isBlank
    rw [isBlank, Bool.or_eq_false_iff] at noBlank
    rw [noBlank.1, noBlank.2, Bool.and_false, Bool.or_false]
  have noComment : c.isAt '#' = false := by
    refine beq_false_of_ne fun first => ?_
    cases (stop _ first).isIndicator rfl
  rw [toNext, c.takeWhile_stay noBlank]
  dsimp only
  rw [noComment, if_neg Bool.false_ne_true]
  cases rest : c.rest with
  | nil => rfl
  | cons x xs =>
    have noBreak := (stop x (by rw [rest]; rfl)).isBreak
    dsimp only
    rw [noBreak, if_neg Bool.false_ne_true]

/-- No mark of a document stands in front of a word. -/
theorem marker_word (word : IsWord cs) {x : Char} (mark : x = '-' ∨ x = '.') :
    (Cursor.start cs).marker x = false := by
  obtain ⟨y, rest, rfl, notAlone⟩ := word.front
  refine Bool.eq_false_iff.2 fun marked => ?_
  obtain ⟨more, same⟩ := Cursor.rest_of_marker marked
  cases same
  rcases mark with rfl | rfl
  · obtain ⟨z, more, same, other⟩ := notAlone rfl
    cases same
    exact other rfl
  · exact (inert_of_isNameChar (word.inside '.' List.mem_cons_self)).noPoint rfl

theorem readPlain_word (word : IsWord cs) {flow : Bool} {indent fuel : Nat} :
    readPlain flow indent (fuel + 1) [] (.blanks []) (.start cs) =
      .ok (cs, false, ⟨[], cs.length, 0, cs.length, false⟩) := by
  obtain ⟨x, rest, same, -⟩ := word.front
  have inert : ∀ x ∈ cs, Inert x := fun x here => inert_of_isNameChar (word.inside x here)
  have noComment : (Cursor.start cs).isAt '#' = false := by
    refine beq_false_of_ne fun first => ?_
    cases (inert '#' (List.mem_of_head? first)).isIndicator rfl
  have all : plainLength flow cs 0 = cs.length := by
    rw [plainLength_of_inert inert, Nat.zero_add]
  have nonempty : cs.length ≠ 0 := by rw [same]; exact Nat.succ_ne_zero _
  rw [readPlain, Cursor.documentMarker, marker_word word (.inl rfl), marker_word word (.inr rfl),
    noComment, if_neg (by simp)]
  have start : (Cursor.start cs).rest = cs := rfl
  simp only [start, all, if_neg nonempty]
  simp [Cursor.skip, Cursor.start, Gap.folded, Gap.spansLines]

/-- A word starts a plain scalar. -/
theorem fetchAt_word {s : Scanner} {x : Char} {rest : List Char} (word : IsWord (x :: rest)) :
    s.fetchAt x rest = s.fetchPlain := by
  obtain ⟨y, rest', same, notAlone⟩ := word.front
  cases same
  have inert := inert_of_isNameChar (word.inside x List.mem_cons_self)
  have noEntry : (x == '-' && blankAhead rest) = false := by
    refine Bool.and_eq_false_imp.2 fun hyphen => ?_
    obtain ⟨y, more, rfl, -⟩ := notAlone (eq_of_beq hyphen)
    have inert := inert_of_isNameChar (word.inside y (.tail _ List.mem_cons_self))
    rw [blankAhead, inert.isBlank, inert.isBreak, Bool.or_false]
  have starts (flow : Bool) : startsPlain flow x rest = true := by
    unfold startsPlain
    rw [inert.isBlank, inert.isBreak]
    cases indicator : isIndicator x with
    | false => rfl
    | true =>
      obtain rfl := inert.isIndicator indicator
      obtain ⟨y, more, rfl, -⟩ := notAlone rfl
      have inert := inert_of_isNameChar (word.inside y (.tail _ List.mem_cons_self))
      simp [inert.isBlank]
  unfold fetchAt
  dsimp only
  rw [inert.beq_eq_false '[' rfl, inert.beq_eq_false ']' rfl, inert.beq_eq_false '\x7b' rfl,
    inert.beq_eq_false '\x7d' rfl, inert.beq_eq_false ',' rfl, noEntry,
    inert.beq_eq_false '?' rfl, inert.beq_eq_false ':' rfl, inert.beq_eq_false '*' rfl,
    inert.beq_eq_false '&' rfl, inert.beq_eq_false '!' rfl, inert.beq_eq_false '|' rfl,
    inert.beq_eq_false '>' rfl, inert.beq_eq_false '\'' rfl, inert.beq_eq_false '"' rfl,
    starts]
  simp only [Bool.false_and, Bool.false_eq_true, if_false, if_true]

/-- The scanner in front of the only word of a document. -/
def opened (cs : List Char) : Scanner :=
  ⟨.start cs, cs.length + 10, true, [.streamStart], 0, -1, [], true, noKey, []⟩

/-- The scanner after that word. -/
def read (cs : List Char) : Scanner :=
  ⟨⟨[], cs.length, 0, cs.length, false⟩, cs.length + 10, true,
    [.streamStart, .scalar (String.ofList cs) true], 0, -1, [], false,
    ⟨true, false, 1, 0, 0, 0⟩, []⟩

/-- The scanner after the end of a document of `length` characters that is one plain scalar. -/
def ended (length : Nat) (queue : List Token) (taken : Nat) : Scanner :=
  ⟨⟨[], length, 1, 0, false⟩, length + 10, true, queue, taken, -1, [], false,
    ⟨false, false, 1, 0, 0, 0⟩, []⟩

theorem fetch_start : (start cs).fetch = .ok (opened cs) :=
  rfl

theorem fetchPlain_opened (word : IsWord cs) : (opened cs).fetchPlain = .ok (read cs) := by
  have saved : (opened cs).saveKey =
      .ok { opened cs with keyHere := ⟨true, false, 1, 0, 0, 0⟩ } := rfl
  have scalar : readPlain false 0 (cs.length + 10) [] (.blanks []) (.start cs) = _ :=
    readPlain_word word
  unfold fetchPlain
  rw [saved]
  exact bind_eq_ok.2 ⟨_, rfl, bind_eq_ok.2 ⟨_, scalar, rfl⟩⟩

theorem fetch_opened (word : IsWord cs) : (opened cs).fetch = .ok (read cs) := by
  obtain ⟨x, rest, rfl, -⟩ := word.front
  have inert := inert_of_isNameChar (word.inside x List.mem_cons_self)
  have stay : toNext (!(opened (x :: rest)).inBlock) (opened (x :: rest)).fuel
      (opened (x :: rest)).keyAllowed (opened (x :: rest)).cursor = (true, .start (x :: rest)) := by
    refine toNext_stay fun y first => ?_
    cases first
    exact inert
  have same : (({ opened (x :: rest) with keyAllowed := true }).moveTo
      (.start (x :: rest))).unroll (Cursor.start (x :: rest)).column = opened (x :: rest) := rfl
  unfold fetch
  rw [stay]
  dsimp only
  have front : (Cursor.start (x :: rest)).rest = x :: rest := rfl
  rw [same, marker_word word (.inl rfl), marker_word word (.inr rfl), front]
  dsimp only
  rw [fetchAt_word word, fetchPlain_opened word, inert.beq_eq_false '%' rfl]
  rfl

theorem fetch_read (word : IsWord cs) : (read cs).fetch = .ok (ended cs.length
    [.streamStart, .scalar (String.ofList cs) true, .streamEnd] 0) := by
  have stay : toNext (!(read cs).inBlock) (read cs).fuel (read cs).keyAllowed (read cs).cursor =
      (false, (read cs).cursor) :=
    toNext_stay fun y first => nomatch first
  obtain ⟨x, rest, rfl, -⟩ := word.front
  unfold fetch
  rw [stay]
  rfl

theorem fetch_ended {length taken : Nat} {queue : List Token} :
    (ended length queue taken).fetch = .ok (ended length (queue ++ [.streamEnd]) taken) := by
  have stay : toNext (!(ended length queue taken).inBlock) (ended length queue taken).fuel
      (ended length queue taken).keyAllowed (ended length queue taken).cursor =
      (false, (ended length queue taken).cursor) :=
    toNext_stay fun y first => nomatch first
  have unrolled (column : Int) :
      (ended length queue taken).unroll column = ended length queue taken :=
    congrArg (ended length · taken) (List.append_nil queue)
  unfold fetch
  rw [stay]
  exact (congrArg fetchEnd (unrolled 0)).trans
    (congrArg (fun s : Scanner => s.dropKey.map (·.push .streamEnd)) (unrolled (-1)))

theorem peek_ended {length taken : Nat} {a b c : Token} :
    (ended length [a, b, c] taken).peek = .ok (a, ended length [a, b, c] taken) :=
  rfl

theorem peek_last {length taken : Nat} {a b : Token} :
    (ended length [a, b] taken).peek = .ok (a, ended length [a, b, .streamEnd] taken) := by
  refine bind_eq_ok.2 ⟨ended length [a, b, .streamEnd] taken, ?_, rfl⟩
  exact bind_eq_ok.2 ⟨_, fetch_ended, rfl⟩

theorem peek_start (word : IsWord cs) : (start cs).peek =
    .ok (.streamStart,
      ended cs.length [.streamStart, .scalar (String.ofList cs) true, .streamEnd] 0) := by
  refine bind_eq_ok.2 ⟨ended cs.length
    [.streamStart, .scalar (String.ofList cs) true, .streamEnd] 0, ?_, rfl⟩
  refine bind_eq_ok.2 ⟨_, fetch_start, ?_⟩
  refine bind_eq_ok.2 ⟨_, fetch_opened word, ?_⟩
  exact bind_eq_ok.2 ⟨_, fetch_read word, rfl⟩

end Scanner

/-- A plain scalar without a tag. -/
def Leaf.plain (text : String) : Leaf :=
  ⟨Compose.scalarTag none text true, text⟩

namespace Compose

variable {handles : List (String × String)} {anchors : List (String × Option Leaf)}

/-- What follows a step that has been made. -/
theorem bind_of_ok {α β : Type} {x : Compose α} {f : α → Compose β} {a : α} {c c' : Composer}
    (made : x c = .ok (a, c')) : (x >>= f) c = f a c' := by
  have unfolded : (x >>= f) c = x c >>= fun p => f p.1 p.2 := rfl
  rw [unfolded, made]
  rfl

theorem peek_of_scanner {s s' : Scanner} {t : Token} (found : s.peek = .ok (t, s')) :
    peek ⟨s, handles, anchors⟩ = .ok (t, ⟨s', handles, anchors⟩) :=
  bind_eq_ok.2 ⟨_, found, rfl⟩

theorem modify_eq (change : Composer → Composer) (c : Composer) :
    (modify change : Compose PUnit) c = .ok (⟨⟩, change c) :=
  rfl

theorem skip_ended {length taken : Nat} {t : Token} {queue : List Token} :
    skip ⟨Scanner.ended length (t :: queue) taken, handles, anchors⟩ =
      .ok ((), ⟨Scanner.ended length queue (taken + 1), handles, anchors⟩) :=
  rfl

theorem node_word {text : String} {length taken fuel : Nat} {a b : Token} :
    node (fuel + 1) true false
        ⟨Scanner.ended length [.scalar text true, a, b] taken, handles, anchors⟩ =
      .ok (.scalar (.plain text), ⟨Scanner.ended length [a, b] (taken + 1), handles, anchors⟩) := by
  let c : Composer :=
    ⟨Scanner.ended length [.scalar text true, a, b] taken, handles, anchors⟩
  have ahead : peek c = .ok (.scalar text true, c) := peek_of_scanner Scanner.peek_ended
  have none : properties c = .ok ((none, none, .scalar text true), c) := by
    rw [properties, bind_of_ok ahead]
    rfl
  rw [node, bind_of_ok ahead]
  dsimp only
  rw [bind_of_ok none]
  dsimp only
  rw [bind_of_ok skip_ended]
  rfl

/-- A word is a document of one plain scalar. -/
theorem document_word (word : IsWord cs) (fuel : Nat) :
    document (fuel + 1) ⟨.start cs, [], []⟩ = .ok (some (.scalar (.plain (String.ofList cs))),
      ⟨Scanner.ended cs.length [.streamEnd, .streamEnd, .streamEnd] 2, commonHandles, []⟩) := by
  rw [document, bind_of_ok (peek_of_scanner (Scanner.peek_start word))]
  dsimp only
  rw [if_pos rfl, bind_of_ok skip_ended, bind_of_ok (peek_of_scanner Scanner.peek_last)]
  dsimp only
  rw [if_neg (by simp), if_neg (by simp), bind_of_ok (modify_eq _ _),
    bind_of_ok node_word, bind_of_ok (peek_of_scanner Scanner.peek_last)]
  rfl

end Compose

theorem characters_word {s : String} (word : IsWord s.toList) :
    characters (Text.ofString s) = .ok s.toList := by
  have noMark : '\uFEFF' ∉ (Text.ofString s).chars := by
    rw [Text.chars_ofString]
    intro mark
    exact absurd (word.inside _ mark) (by decide)
  have utf8 : (Text.ofString s).IsUtf8 := s.isValidUTF8
  have read := readCharacters_of_isUtf8 utf8 noMark
  have allowed : s.toList.all isAllowed = true :=
    List.all_eq_true.2 fun x here => (inert_of_isNameChar (word.inside x here)).isAllowed
  rw [characters, read, Text.chars_ofString]
  exact if_pos allowed

/-- A document that is one word is that word as a plain scalar. -/
theorem parse_word {s : String} (word : IsWord s.toList) :
    parse (Text.ofString s) = .ok (some (.scalar (.plain s))) := by
  obtain ⟨x, rest, front, -⟩ := word.front
  have composed := Compose.document_word word (4 * s.toList.length + 19)
  have nonempty : s.toList.isEmpty = false := by rw [front]; rfl
  rw [String.ofList_toList] at composed
  refine bind_eq_ok.2 ⟨_, characters_word word, ?_⟩
  dsimp only
  rw [nonempty, if_neg Bool.false_ne_true]
  exact bind_eq_ok.2 ⟨_, composed, rfl⟩

end ImpHost.Yaml
