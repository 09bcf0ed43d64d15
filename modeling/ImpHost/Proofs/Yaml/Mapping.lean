import ImpHost.Proofs.Yaml.Scanning
import ImpHost.Yaml.Node

/-!
A document whose root is a mapping shows it.

Over unmarked characters the token in front of the root is no start of a mapping, so the root is a
scalar, a sequence or an alias (`document_notMapping`). Read the other way round, the characters of
a mapping have an opening brace, a question mark, or a colon before white space or the end
(`not_unmarked_of_parse`). What a tree has inside does not matter: only the first token decides what
its root is.
-/

namespace ImpHost.Yaml

namespace Compose

variable {α β : Type} {before : Composer → Prop} {x : Compose α} {f : α → Compose β}
  {middle : α → Composer → Prop} {after : β → Composer → Prop}

/-- From a state with `before`, what `x` returns and leaves satisfies `after`. -/
def Holds (before : Composer → Prop) (x : Compose α) (after : α → Composer → Prop) : Prop :=
  ∀ c a c', before c → x c = .ok (a, c') → after a c'

theorem Holds.bind (first : Holds before x middle) (second : ∀ a, Holds (middle a) (f a) after) :
    Holds before (x >>= f) after := by
  intro c b c' start run
  obtain ⟨⟨a, c₁⟩, ran, rest⟩ := bind_eq_ok.1 run
  exact second a c₁ b c' (first c a c₁ start ran) rest

theorem Holds.pure {b : β} (now : ∀ c, before c → after b c) :
    Holds before (Pure.pure b) after := by
  intro c b' c' start run
  cases run
  exact now c start

theorem Holds.fail (problem : String) : Holds before (fail problem) after := by
  intro c b c' _ run
  cases run

theorem Holds.ite {p : Prop} [Decidable p] {y z : Compose β} (yes : p → Holds before y after)
    (no : ¬ p → Holds before z after) : Holds before (if p then y else z) after := by
  split
  · exact yes ‹_›
  · exact no ‹_›

theorem Holds.mono {before' : Composer → Prop} {after' : α → Composer → Prop}
    (holds : Holds before x middle) (weaker : ∀ c, before' c → before c)
    (stronger : ∀ a c, middle a c → after' a c) : Holds before' x after' :=
  fun c a c' start run => stronger a c' (holds c a c' (weaker c start) run)

theorem Holds.any (x : Compose α) : Holds before x fun _ _ => True :=
  fun _ _ _ _ _ => trivial

/-- The node is a sequence. -/
def IsSequence (n : Node) (_ : Composer) : Prop :=
  ∃ items, n = .sequence items

theorem blockSequence_isSequence (fuel : Nat) (items : List Node) :
    Holds (fun _ => True) (blockSequence fuel items) IsSequence := by
  induction fuel generalizing items with
  | zero => 
    unfold blockSequence
    exact .fail _
  | succ fuel ih =>
    unfold blockSequence
    refine .bind (.any _) fun t => ?_
    split
    · refine .bind (.any _) fun t => ?_
      refine .ite (fun _ => ih _) fun _ => ?_
      refine .bind (.any _) fun item => ih _
    · exact .bind (.any _) fun _ => .pure fun _ _ => ⟨_, rfl⟩
    · exact .fail _

theorem indentlessSequence_isSequence (fuel : Nat) (items : List Node) :
    Holds (fun _ => True) (indentlessSequence fuel items) IsSequence := by
  induction fuel generalizing items with
  | zero =>
    unfold indentlessSequence
    exact .fail _
  | succ fuel ih =>
    unfold indentlessSequence
    refine .bind (.any _) fun t => ?_
    split
    · refine .bind (.any _) fun t => ?_
      refine .ite (fun _ => ih _) fun _ => ?_
      exact .bind (.any _) fun item => ih _
    · exact .pure fun _ _ => ⟨_, rfl⟩

theorem flowSequence_isSequence (fuel : Nat) (first : Bool) (items : List Node) :
    Holds (fun _ => True) (flowSequence fuel first items) IsSequence := by
  induction fuel generalizing first items with
  | zero =>
    unfold flowSequence
    exact .fail _
  | succ fuel ih =>
    unfold flowSequence
    refine .bind (.any _) fun t => ?_
    refine .ite (fun _ => .bind (.any _) fun _ => .pure fun _ _ => ⟨_, rfl⟩) fun _ => ?_
    extract_lets valued entry
    have goesOn : ∀ key, Holds (fun _ => True) (valued key) IsSequence := fun key =>
      .bind (.any _) fun value => ih _ _
    have entered : ∀ t, Holds (fun _ => True) (entry t) IsSequence := by
      intro t
      dsimp only [entry]
      split
      · refine .bind (.any _) fun t => .ite (fun _ => ?_) fun _ => ?_
        · exact .bind (.any _) fun _ => .bind (.any _) goesOn
        · exact .bind (.any _) goesOn
      · exact .bind (.any _) fun _ => .pure fun _ _ => ⟨_, rfl⟩
      · exact .bind (.any _) fun item => ih _ _
    refine .ite (fun _ => .bind (.any _) entered) fun _ => ?_
    exact .ite (fun _ => .bind (.any _) entered) fun _ => .bind (.any _) entered

/-- The scanner of the state is over unmarked characters and has found no start of a mapping. -/
def Calm (c : Composer) : Prop :=
  c.scanner.Calm

/-- The state is calm, and the token starts no mapping. -/
def CalmBefore (t : Token) (c : Composer) : Prop :=
  Calm c ∧ t.startsMapping = false

theorem Holds.of_calmBefore {t : Token}
    (holds : t.startsMapping = false → Holds Calm x middle) : Holds (CalmBefore t) x middle :=
  fun c a c' calm run => holds calm.2 c a c' calm.1 run

/-- The node is no mapping. -/
def NotMapping (n : Node) (_ : Composer) : Prop :=
  ∀ entries, n ≠ .mapping entries

theorem holds_peek : Holds Calm peek CalmBefore := by
  intro c t c' calm peeked
  obtain ⟨⟨t, s⟩, found, made⟩ := bind_eq_ok.1 peeked
  cases made
  exact Scanner.Calm.peek calm found

theorem holds_skip : Holds Calm skip fun _ => Calm := by
  intro c _ c' calm skipped
  cases skipped
  exact Scanner.Calm.take calm

theorem holds_skipPeek : Holds Calm skipPeek CalmBefore :=
  .bind holds_skip fun _ => holds_peek

theorem holds_get : Holds before get fun _ => before := by
  intro c _ c' start got
  cases got
  exact start

/-- What is known of handles and anchors does not matter to the scanner. -/
theorem holds_modify {change : Composer → Composer} (same : ∀ c, (change c).scanner = c.scanner) :
    Holds Calm (modify change) fun _ => Calm := by
  intro c _ c' calm changed
  cases changed
  rw [Calm, same]
  exact calm

theorem holds_expandTag (handle suffix : String) :
    Holds before (expandTag handle suffix) fun _ => before := by
  unfold expandTag
  refine .ite (fun _ => .pure fun _ start => start) fun _ => ?_
  refine .bind holds_get fun c => ?_
  split
  · exact .pure fun _ start => start
  · exact .fail _

theorem holds_properties : Holds Calm properties fun p => CalmBefore p.2.2 := by
  have next {t : Token} : Holds (CalmBefore t) skipPeek CalmBefore :=
    .of_calmBefore fun _ => holds_skipPeek
  unfold properties
  refine .bind holds_peek fun t => ?_
  split
  · refine .bind next fun t => ?_
    split
    · refine .bind next fun t => ?_
      exact .bind (holds_expandTag _ _) fun tag => .pure fun _ calm => calm
    · exact .pure fun _ calm => calm
  · refine .bind next fun t => ?_
    split
    · refine .bind next fun t => ?_
      exact .bind (holds_expandTag _ _) fun tag => .pure fun _ calm => calm
    · exact .bind (holds_expandTag _ _) fun tag => .pure fun _ calm => calm
  · exact .pure fun _ calm => calm

theorem leaf_notMapping {name tag : Option String} {text : String} {plain : Bool} :
    Holds before (leaf name tag text plain) NotMapping :=
  .bind (.any _) fun _ => .pure fun _ _ _ same => by cases same

theorem sequence_notMapping {x : Compose Node} (sequence : Holds (fun _ => True) x IsSequence) :
    Holds before x NotMapping := by
  refine sequence.mono (fun _ _ => trivial) fun n c isSequence => ?_
  obtain ⟨items, rfl⟩ := isSequence
  intro entries same
  cases same

/-- A tree in front of which no mapping starts is none. -/
theorem node_notMapping (fuel : Nat) (block indentless : Bool) :
    Holds Calm (node fuel block indentless) NotMapping := by
  cases fuel with
  | zero =>
    unfold node
    exact .fail _
  | succ fuel =>
    unfold node
    refine .bind holds_peek fun t => ?_
    split
    · refine .bind (.any _) fun _ => .bind (.any _) fun c => ?_
      split
      · exact .pure fun _ _ _ same => by cases same
      · exact fun _ _ _ _ run => by cases run
    · refine .bind (.of_calmBefore fun _ => holds_properties) fun p => ?_
      obtain ⟨name, tag, t⟩ := p
      refine .of_calmBefore fun plain => ?_
      dsimp only at plain ⊢
      split
      · exact .bind (.any _) fun _ => leaf_notMapping
      · refine .bind (.any _) fun _ => .bind (.any _) fun _ => ?_
        exact sequence_notMapping (flowSequence_isSequence _ _ _)
      · cases plain
      · refine .ite (fun _ => .bind (.any _) fun _ => ?_) fun _ => ?_
        · exact sequence_notMapping (indentlessSequence_isSequence _ _)
        refine .ite (fun _ => .bind (.any _) fun _ => .bind (.any _) fun _ => ?_) fun _ => ?_
        · exact sequence_notMapping (blockSequence_isSequence _ _)
        refine .ite (fun starts => ?_) fun _ => ?_
        · cases of_decide_eq_true (Bool.and_eq_true_iff.1 starts).2
          cases plain
        · exact .ite (fun _ => leaf_notMapping) fun _ => .fail _

theorem holds_directives (fuel : Nat) (versioned : Bool) :
    Holds Calm (directives fuel versioned) fun _ => Calm := by
  induction fuel generalizing versioned with
  | zero =>
    unfold directives
    exact .fail _
  | succ fuel ih =>
    unfold directives
    refine .bind holds_peek fun t => .of_calmBefore fun _ => ?_
    split
    · refine .ite (fun _ => .fail _) fun _ => .ite (fun _ => .fail _) fun _ => ?_
      exact .bind holds_skip fun _ => ih _
    · refine .bind holds_get fun c => .ite (fun _ => .fail _) fun _ => ?_
      refine .bind (holds_modify fun _ => rfl) fun _ => ?_
      exact .bind holds_skip fun _ => ih _
    · exact .pure fun _ calm => calm

/-- The root of a document, if there is one, is no mapping. -/
theorem document_notMapping (fuel : Nat) :
    Holds Calm (document fuel) fun root _ => ∀ entries, root ≠ some (.mapping entries) := by
  have rooted : Holds Calm (do
      let root ← node fuel true false
      let _ ← peek
      return some root) fun root _ => ∀ entries, root ≠ some (.mapping entries) := by
    refine .bind (node_notMapping fuel true false) fun root => ?_
    intro c n c' notMapping run entries
    obtain ⟨⟨t, c₁⟩, -, made⟩ := bind_eq_ok.1 run
    cases made
    exact fun same => notMapping entries (Option.some.inj same)
  unfold document
  refine .bind holds_peek fun t => .of_calmBefore fun _ => ?_
  extract_lets started
  have read : Holds Calm (started ()) fun root _ => ∀ entries, root ≠ some (.mapping entries) := by
    refine .bind holds_peek fun t => .of_calmBefore fun _ => ?_
    refine .ite (fun _ => .pure fun _ _ _ same => by cases same) fun _ => ?_
    refine .ite (fun _ => ?_) fun _ => ?_
    · refine .bind (holds_directives _ _) fun _ => .bind (holds_modify fun _ => rfl) fun _ => ?_
      refine .bind holds_peek fun t => .of_calmBefore fun _ => .ite (fun _ => .fail _) fun _ => ?_
      refine .bind holds_skipPeek fun t => .of_calmBefore fun _ => ?_
      split
      any_goals exact .pure fun _ _ _ same => by cases same
      exact rooted
    · exact .bind (holds_modify fun _ => rfl) fun _ => rooted
  exact .ite (fun _ => .bind holds_skip fun _ => read) fun _ => read

end Compose

/-- A document whose root is a mapping has an opening brace, a question mark, or a colon before
white space or its end. -/
theorem not_unmarked_of_parse {t : Text} {entries : List (Node × Node)} {cs : List Char}
    (read : readCharacters t = some cs) (parsed : parse t = .ok (some (.mapping entries))) :
    ¬ Unmarked cs := by
  intro unmarked
  obtain ⟨cs', allowed, rest⟩ := bind_eq_ok.1 parsed
  obtain ⟨⟨root, c⟩, composed, made⟩ := bind_eq_ok.1 rest
  cases made
  unfold characters at allowed
  rw [read] at allowed
  dsimp only at allowed
  split at allowed
  · cases allowed
    have start : Unmarked (if cs.isEmpty then ['\n'] else cs) := by
      split
      · exact unmarked_break
      · exact unmarked
    have calm : Compose.Calm ⟨.start (if cs.isEmpty then ['\n'] else cs), [], []⟩ :=
      ⟨start, fun _ here => absurd here List.not_mem_nil⟩
    exact Compose.document_notMapping _ _ _ _ calm composed entries rfl
  · cases allowed

end ImpHost.Yaml
