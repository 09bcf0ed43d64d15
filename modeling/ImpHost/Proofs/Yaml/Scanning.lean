import Mathlib.Logic.Basic
import ImpHost.Proofs.Yaml.Reading

/-!
What the scanner finds over characters that have nothing to start a mapping.

Characters are `Unmarked` if they have no brace that opens a mapping, no question mark, and no colon
before white space or the end. `Scanner.Passes` says of one search that the scanner moved on and
found no start of a mapping; over unmarked characters every search does so (`passes_fetch`), so
`Scanner.Calm` lasts however many tokens are looked at and taken.
-/

namespace ImpHost.Yaml

/-- The characters have nothing that starts a mapping: no opening brace, no question mark, and no
colon that ends a key. -/
structure Unmarked (cs : List Char) : Prop where
  brace : '{' ∉ cs
  question : '?' ∉ cs
  colon : ∀ rest, ':' :: rest <:+ cs → blankAhead rest = false

theorem Unmarked.of_suffix {cs cs' : List Char} (unmarked : Unmarked cs) (suffix : cs' <:+ cs) :
    Unmarked cs' where
  brace here := unmarked.brace (suffix.mem here)
  question here := unmarked.question (suffix.mem here)
  colon rest here := unmarked.colon rest (here.trans suffix)

theorem unmarked_break : Unmarked ['\n'] where
  brace := by decide
  question := by decide
  colon rest here := absurd (here.mem List.mem_cons_self) (by decide)

/-- Whether the token starts a mapping. -/
def Token.startsMapping : Token → Bool
  | .blockMappingStart | .flowMappingStart => true
  | _ => false

namespace Scanner

/-- From `s` to `s'` the scanner moved on and found no start of a mapping. -/
structure Passes (s s' : Scanner) : Prop where
  ahead : s.cursor.Ahead s'.cursor
  found : ∀ t ∈ s'.queue, t.startsMapping → t ∈ s.queue

variable {s s' s'' : Scanner} {t : Token} {c : Cursor}

theorem Passes.of_eq (rest : s'.cursor.rest = s.cursor.rest) (queue : s'.queue = s.queue) :
    s.Passes s' where
  ahead := ⟨[], rest⟩
  found _ here _ := queue ▸ here

theorem Passes.refl (s : Scanner) : s.Passes s :=
  .of_eq rfl rfl

theorem Passes.trans (first : s.Passes s') (second : s'.Passes s'') : s.Passes s'' where
  ahead := first.ahead.trans second.ahead
  found t here starts := first.found t (second.found t here starts) starts

/-! ## The parts of a search -/

theorem Passes.push (passed : s.Passes s') (plain : t.startsMapping = false) :
    s.Passes (s'.push t) where
  ahead := passed.ahead
  found u here starts := by
    rcases List.mem_append.1 here with old | new
    · exact passed.found u old starts
    · cases List.mem_singleton.1 new
      rw [plain] at starts
      cases starts

theorem Passes.insert (passed : s.Passes s') (number : Nat) (plain : t.startsMapping = false) :
    s.Passes (s'.insert number t) where
  ahead := passed.ahead
  found u here starts := by
    rcases List.mem_append.1 here with front | back
    · exact passed.found u (List.mem_of_mem_take front) starts
    · rcases List.mem_cons.1 back with rfl | back
      · rw [plain] at starts
        cases starts
      · exact passed.found u (List.mem_of_mem_drop back) starts

theorem Passes.moveTo (passed : s.Passes s') (ahead : s'.cursor.Ahead c) :
    s.Passes (s'.moveTo c) where
  ahead := passed.ahead.trans ahead
  found := passed.found

theorem passes_roll {column : Nat} (plain : t.startsMapping = false)
    (rolled : s.roll column none t = .ok s') : s.Passes s' := by
  unfold roll at rolled
  split at rolled
  · split at rolled
    · cases rolled
    · cases rolled
      exact .push (.of_eq rfl rfl) plain
  · cases rolled
    exact .refl s

/-- In a flow collection no block collection is entered. -/
theorem roll_of_flow {column : Nat} {number : Option Nat} (flow : s.inBlock = false) :
    s.roll column number t = .ok s := by
  rw [roll, flow]
  rfl

theorem mem_unrollFrom {column indent : Int} {outer : List Int} {ends : List Token}
    (before : ∀ t ∈ ends, t = .blockEnd) :
    ∀ t ∈ (unrollFrom column indent outer ends).2.2, t = .blockEnd := by
  fun_induction unrollFrom column indent outer ends with
  | case1 => exact before
  | case2 indent ends next outer deeper ih =>
    apply ih
    intro t here
    rcases List.mem_cons.1 here with rfl | here
    · rfl
    · exact before t here
  | case3 => exact before

theorem Passes.unroll (passed : s.Passes s') (column : Int) : s.Passes (s'.unroll column) := by
  unfold Scanner.unroll
  split
  · refine ⟨passed.ahead, fun t here starts => ?_⟩
    rcases List.mem_append.1 here with old | new
    · exact passed.found t old starts
    · cases mem_unrollFrom (by simp) t new
      cases starts
  · exact passed

theorem passes_dropKey (dropped : s.dropKey = .ok s') : s.Passes s' := by
  unfold dropKey at dropped
  split at dropped
  · cases dropped
  · cases dropped
    exact .of_eq rfl rfl

theorem passes_saveKey (saved : s.saveKey = .ok s') : s.Passes s' := by
  unfold saveKey at saved
  split at saved
  · obtain ⟨s₁, dropped, made⟩ := bind_eq_ok.1 saved
    cases made
    exact (passes_dropKey dropped).trans (.of_eq rfl rfl)
  · cases saved
    exact .refl s

/-- How every search ends: the scanner moves on, and a token is appended. -/
theorem Passes.found_at {allowed : Bool} (passed : s.Passes s') (ahead : s'.cursor.Ahead c)
    (plain : t.startsMapping = false) :
    s.Passes (({ s' with keyAllowed := allowed }.moveTo c).push t) :=
  .push ⟨passed.ahead.trans ahead, passed.found⟩ plain

/-! ## The tokens with a text of their own -/

/-- The reader moves on, and what it finds starts no mapping. -/
def ReadsPlain (read : Cursor → Except Fault (Token × Cursor)) : Prop :=
  ∀ c t c', read c = .ok (t, c') → c.Ahead c' ∧ t.startsMapping = false

theorem readsPlain_readNamed {token : String → Token}
    (plain : ∀ name, (token name).startsMapping = false) : ReadsPlain (readNamed token) := by
  intro c t c' found
  obtain ⟨⟨name, c₁⟩, named, made⟩ := bind_eq_ok.1 found
  cases made
  exact ⟨(c.ahead_skip 1).trans (ahead_readAnchor named), plain name⟩

theorem readsPlain_readQuotedToken (fuel : Nat) (single : Bool) :
    ReadsPlain (readQuotedToken fuel single) := by
  intro c t c' found
  obtain ⟨⟨text, c₁⟩, quoted, made⟩ := bind_eq_ok.1 found
  cases made
  exact ⟨(c.ahead_skip 1).trans (ahead_readQuoted quoted), rfl⟩

theorem readsPlain_readTag (fuel : Nat) : ReadsPlain (readTag fuel) := by
  intro c t c' found
  refine ⟨ahead_readTag found, ?_⟩
  grind [readTag, Token.startsMapping]

theorem readsPlain_readDirective (fuel : Nat) : ReadsPlain (readDirective fuel) := by
  intro c t c' found
  refine ⟨ahead_readDirective found, ?_⟩
  grind [readDirective, readVersion, readTagDirective, Token.startsMapping]

/-! ## Searches -/

theorem passes_fetchEnd (fetched : s.fetchEnd = .ok s') : s.Passes s' := by
  obtain ⟨s₁, dropped, made⟩ := bind_eq_ok.1 fetched
  cases made
  have moved : s.Passes (s.moveTo (if s.cursor.column = 0 then s.cursor
      else { s.cursor with column := 0, line := s.cursor.line + 1 })) := by
    split <;> exact .of_eq rfl rfl
  have left := (moved.unroll (-1)).trans (passes_dropKey dropped)
  exact .push (left.trans (.of_eq rfl rfl)) rfl

theorem passes_fetchDirective (fetched : s.fetchDirective = .ok s') : s.Passes s' := by
  obtain ⟨s₁, dropped, rest⟩ := bind_eq_ok.1 fetched
  obtain ⟨⟨t, c⟩, read, made⟩ := bind_eq_ok.1 rest
  cases made
  have ⟨ahead, plain⟩ := readsPlain_readDirective _ _ _ _ read
  exact (((Passes.refl s).unroll (-1)).trans (passes_dropKey dropped)).found_at ahead plain

theorem passes_fetchMarker (plain : t.startsMapping = false) (fetched : s.fetchMarker t = .ok s') :
    s.Passes s' := by
  obtain ⟨s₁, dropped, made⟩ := bind_eq_ok.1 fetched
  cases made
  have left := ((Passes.refl s).unroll (-1)).trans (passes_dropKey dropped)
  exact left.found_at (s₁.cursor.ahead_skip 3) plain

theorem passes_fetchFlowStart (plain : t.startsMapping = false)
    (fetched : s.fetchFlowStart t = .ok s') : s.Passes s' := by
  obtain ⟨s₁, saved, rest⟩ := bind_eq_ok.1 fetched
  dsimp only at rest
  split at rest
  · cases rest
  · cases rest
    have saved := passes_saveKey saved
    exact .push ⟨saved.ahead.trans (s₁.cursor.ahead_skip 1), saved.found⟩ plain

theorem passes_fetchFlowEnd (plain : t.startsMapping = false)
    (fetched : s.fetchFlowEnd t = .ok s') : s.Passes s' := by
  obtain ⟨s₁, dropped, made⟩ := bind_eq_ok.1 fetched
  cases made
  refine Passes.found_at ?_ (Cursor.ahead_skip _ 1) plain
  split
  · exact (passes_dropKey dropped).trans (.of_eq rfl rfl)
  · exact passes_dropKey dropped

theorem passes_fetchFlowEntry (fetched : s.fetchFlowEntry = .ok s') : s.Passes s' := by
  obtain ⟨s₁, dropped, made⟩ := bind_eq_ok.1 fetched
  cases made
  exact (passes_dropKey dropped).found_at (s₁.cursor.ahead_skip 1) rfl

theorem passes_fetchBlockEntry (fetched : s.fetchBlockEntry = .ok s') : s.Passes s' := by
  unfold fetchBlockEntry at fetched
  dsimp only at fetched
  split at fetched
  · split at fetched
    · obtain ⟨s₁, rolled, rest⟩ := bind_eq_ok.1 fetched
      obtain ⟨s₂, dropped, made⟩ := bind_eq_ok.1 rest
      cases made
      have entered := (passes_roll rfl rolled).trans (passes_dropKey dropped)
      exact entered.found_at (s₂.cursor.ahead_skip 1) rfl
    · cases fetched
  · obtain ⟨s₁, same, rest⟩ := bind_eq_ok.1 fetched
    cases same
    obtain ⟨s₂, dropped, made⟩ := bind_eq_ok.1 rest
    cases made
    exact (passes_dropKey dropped).found_at (s₂.cursor.ahead_skip 1) rfl

/-- The value of a flow collection starts no mapping: only in a block does a colon do so. -/
theorem passes_fetchValue (flow : s.inBlock = false) (fetched : s.fetchValue = .ok s') :
    s.Passes s' := by
  unfold fetchValue at fetched
  dsimp only at fetched
  split at fetched
  · cases fetched
  · split at fetched
    · have still : (s.insert s.keyHere.number .key).inBlock = false := flow
      rw [roll_of_flow still] at fetched
      cases fetched
      have keyed : s.Passes (s.insert s.keyHere.number .key) := (Passes.refl s).insert _ rfl
      exact .push ⟨s.cursor.ahead_skip 1, keyed.found⟩ rfl
    · split at fetched
      · next entered => cases flow.symm.trans entered
      · cases fetched
        exact .push ⟨s.cursor.ahead_skip 1, fun _ here _ => here⟩ rfl

theorem passes_fetchKeyed {read : Cursor → Except Fault (Token × Cursor)} (plain : ReadsPlain read)
    (fetched : s.fetchKeyed read = .ok s') : s.Passes s' := by
  obtain ⟨s₁, saved, rest⟩ := bind_eq_ok.1 fetched
  obtain ⟨⟨t, c⟩, found, made⟩ := bind_eq_ok.1 rest
  cases made
  have ⟨ahead, starts⟩ := plain _ _ _ found
  exact (passes_saveKey saved).found_at ahead starts

theorem passes_fetchBlockScalar {literal : Bool} (fetched : s.fetchBlockScalar literal = .ok s') :
    s.Passes s' := by
  obtain ⟨s₁, dropped, rest⟩ := bind_eq_ok.1 fetched
  obtain ⟨⟨text, c⟩, read, made⟩ := bind_eq_ok.1 rest
  cases made
  have ahead := (s₁.cursor.ahead_skip 1).trans (ahead_readBlock read)
  exact (passes_dropKey dropped).found_at ahead rfl

theorem passes_fetchPlain (fetched : s.fetchPlain = .ok s') : s.Passes s' := by
  obtain ⟨s₁, saved, rest⟩ := bind_eq_ok.1 fetched
  obtain ⟨⟨text, atBreak, c⟩, read, made⟩ := bind_eq_ok.1 rest
  cases made
  exact (passes_saveKey saved).found_at (ahead_readPlain read) rfl

/-- Over unmarked characters no token that is found starts a mapping. -/
theorem passes_fetchAt {x : Char} {rest : List Char} (unmarked : Unmarked (x :: rest))
    (fetched : s.fetchAt x rest = .ok s') : s.Passes s' := by
  unfold fetchAt at fetched
  dsimp only at fetched
  rcases ite_eq_iff.1 fetched with ⟨-, fetched⟩ | ⟨-, fetched⟩
  · exact passes_fetchFlowStart rfl fetched
  rcases ite_eq_iff.1 fetched with ⟨brace, -⟩ | ⟨-, fetched⟩
  · cases eq_of_beq brace
    exact absurd List.mem_cons_self unmarked.brace
  rcases ite_eq_iff.1 fetched with ⟨-, fetched⟩ | ⟨-, fetched⟩
  · exact passes_fetchFlowEnd rfl fetched
  rcases ite_eq_iff.1 fetched with ⟨-, fetched⟩ | ⟨-, fetched⟩
  · exact passes_fetchFlowEnd rfl fetched
  rcases ite_eq_iff.1 fetched with ⟨-, fetched⟩ | ⟨-, fetched⟩
  · exact passes_fetchFlowEntry fetched
  rcases ite_eq_iff.1 fetched with ⟨-, fetched⟩ | ⟨-, fetched⟩
  · exact passes_fetchBlockEntry fetched
  rcases ite_eq_iff.1 fetched with ⟨question, -⟩ | ⟨-, fetched⟩
  · cases eq_of_beq (Bool.and_eq_true_iff.1 question).1
    exact absurd List.mem_cons_self unmarked.question
  rcases ite_eq_iff.1 fetched with ⟨colon, valued⟩ | ⟨-, fetched⟩
  · obtain ⟨here, place⟩ := Bool.and_eq_true_iff.1 colon
    cases eq_of_beq here
    rw [unmarked.colon rest List.suffix_rfl, Bool.or_false, Bool.not_eq_true'] at place
    exact passes_fetchValue place valued
  rcases ite_eq_iff.1 fetched with ⟨-, fetched⟩ | ⟨-, fetched⟩
  · exact passes_fetchKeyed (readsPlain_readNamed fun _ => rfl) fetched
  rcases ite_eq_iff.1 fetched with ⟨-, fetched⟩ | ⟨-, fetched⟩
  · exact passes_fetchKeyed (readsPlain_readNamed fun _ => rfl) fetched
  rcases ite_eq_iff.1 fetched with ⟨-, fetched⟩ | ⟨-, fetched⟩
  · exact passes_fetchKeyed (readsPlain_readTag _) fetched
  rcases ite_eq_iff.1 fetched with ⟨-, fetched⟩ | ⟨-, fetched⟩
  · exact passes_fetchBlockScalar fetched
  rcases ite_eq_iff.1 fetched with ⟨-, fetched⟩ | ⟨-, fetched⟩
  · exact passes_fetchBlockScalar fetched
  rcases ite_eq_iff.1 fetched with ⟨-, fetched⟩ | ⟨-, fetched⟩
  · exact passes_fetchKeyed (readsPlain_readQuotedToken _ _) fetched
  rcases ite_eq_iff.1 fetched with ⟨-, fetched⟩ | ⟨-, fetched⟩
  · exact passes_fetchKeyed (readsPlain_readQuotedToken _ _) fetched
  rcases ite_eq_iff.1 fetched with ⟨-, fetched⟩ | ⟨-, fetched⟩
  · exact passes_fetchPlain fetched
  · cases fetched

theorem passes_fetch (unmarked : Unmarked s.cursor.rest) (fetched : s.fetch = .ok s') :
    s.Passes s' := by
  unfold fetch at fetched
  split at fetched
  · cases fetched
    exact .push (.of_eq rfl rfl) rfl
  · have ahead := ahead_toNext (!s.inBlock) s.fuel s.keyAllowed s.cursor
    generalize toNext (!s.inBlock) s.fuel s.keyAllowed s.cursor = next at fetched ahead
    obtain ⟨keyAllowed, c⟩ := next
    dsimp only at fetched ahead
    have moved : s.Passes ({ s with keyAllowed }.moveTo c) := ⟨ahead, fun _ here _ => here⟩
    apply (moved.unroll c.column).trans
    generalize (({ s with keyAllowed }.moveTo c).unroll c.column) = s₁ at fetched
    split at fetched
    · exact passes_fetchEnd fetched
    · next x rest here =>
      split at fetched
      · exact passes_fetchDirective fetched
      split at fetched
      · exact passes_fetchMarker rfl fetched
      split at fetched
      · exact passes_fetchMarker rfl fetched
      obtain ⟨s₂, found, ended⟩ := bind_eq_ok.1 fetched
      have passed := passes_fetchAt (unmarked.of_suffix (here ▸ ahead)) found
      split at ended
      · cases ended
        exact passed
      · cases ended
        exact passed.moveTo (ahead_skipLineComment _)

/-- The scanner is over unmarked characters, and no token that waits starts a mapping. -/
structure Calm (s : Scanner) : Prop where
  unmarked : Unmarked s.cursor.rest
  plain : ∀ t ∈ s.queue, t.startsMapping = false

theorem Calm.of_passes (calm : s.Calm) (passed : s.Passes s') : s'.Calm where
  unmarked := calm.unmarked.of_suffix passed.ahead
  plain t here := by
    cases starts : t.startsMapping with
    | false => rfl
    | true => exact absurd (calm.plain t (passed.found t here starts)) (by simp [starts])

theorem Calm.fill {fuel : Nat} (calm : s.Calm) (filled : fill fuel s = .ok s') : s'.Calm := by
  induction fuel generalizing s with
  | zero =>
    cases filled
    exact calm
  | succ fuel ih =>
    unfold Scanner.fill at filled
    split at filled
    · obtain ⟨s₁, fetched, rest⟩ := bind_eq_ok.1 filled
      exact ih (calm.of_passes (passes_fetch calm.unmarked fetched)) rest
    · obtain ⟨isKey, -, rest⟩ := bind_eq_ok.1 filled
      split at rest
      · obtain ⟨s₁, fetched, rest⟩ := bind_eq_ok.1 rest
        exact ih (calm.of_passes (passes_fetch calm.unmarked fetched)) rest
      · cases rest
        exact calm

theorem Calm.peek (calm : s.Calm) (peeked : s.peek = .ok (t, s')) :
    s'.Calm ∧ t.startsMapping = false := by
  obtain ⟨s₁, filled, made⟩ := bind_eq_ok.1 peeked
  cases made
  have calm := calm.fill filled
  refine ⟨calm, ?_⟩
  cases waiting : s'.queue with
  | nil => rfl
  | cons t queue => exact calm.plain t (by simp [waiting])

theorem Calm.take (calm : s.Calm) : s.take.Calm where
  unmarked := calm.unmarked
  plain t here := calm.plain t (List.mem_of_mem_tail here)

end Scanner

end ImpHost.Yaml
