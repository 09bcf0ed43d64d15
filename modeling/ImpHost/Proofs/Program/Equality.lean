import ImpHost.Proofs.Manifest
import ImpHost.Proofs.Program.RoundTrip

/-!
When two trees are the same (`Node.same_decides`).

The comparison goes through both trees at once and gives up where a part is missing, so it accepts a
tree that is `Complete` together with itself, and nothing else. An operator is compared as it is
spelled, whether the language has it or not.

Trees of sources can be compared by what they are printed as: such a tree is its own normal form,
and this is what its text is read as (`Command.eq_of_format_eq`).
-/

namespace ImpHost

/-! ## Operators -/

theorem ArithOp.spelling_ofSpelling (s : String) : (ofSpelling s).spelling = s := by
  unfold ofSpelling
  split <;> rfl

theorem BoolOp.spelling_ofSpelling (s : String) : (ofSpelling s).spelling = s := by
  unfold ofSpelling
  split <;> rfl

theorem CompareOp.spelling_ofSpelling (s : String) : (ofSpelling s).spelling = s := by
  unfold ofSpelling
  split <;> rfl

/-! ## Trees without a hole -/

/-- No part is missing, at any depth. -/
def AExpr.Complete : AExpr → Prop
  | .int _ => True
  | .var _ => True
  | .binary _ a b => a.Complete ∧ b.Complete
  | .hole => False

/-- No part is missing, at any depth. -/
def BExpr.Complete : BExpr → Prop
  | .lit _ => True
  | .not a => a.Complete
  | .binary _ a b => a.Complete ∧ b.Complete
  | .compare _ a b => a.Complete ∧ b.Complete
  | .hole => False

/-- No part is missing, at any depth. -/
def Command.Complete : Command → Prop
  | .skip => True
  | .assign _ e => e.Complete
  | .seq a b => a.Complete ∧ b.Complete
  | .ite e a b => e.Complete ∧ a.Complete ∧ b.Complete
  | .whileDo e a => e.Complete ∧ a.Complete
  | .hole => False

/-- No part is missing, at any depth. -/
def Node.Complete : Node → Prop
  | .arith e => e.Complete
  | .bool e => e.Complete
  | .command c => c.Complete

theorem AExpr.WellFormed.complete {e : AExpr} (wf : e.WellFormed) : e.Complete := by
  induction e with
  | int n | var x => exact trivial
  | binary op a b left right => exact ⟨left wf.2.1, right wf.2.2⟩
  | hole => exact wf.elim

theorem BExpr.WellFormed.complete {e : BExpr} (wf : e.WellFormed) : e.Complete := by
  induction e with
  | lit b => exact trivial
  | not a inner => exact inner wf
  | binary op a b left right => exact ⟨left wf.2.1, right wf.2.2⟩
  | compare op a b => exact ⟨AExpr.WellFormed.complete wf.2.1, AExpr.WellFormed.complete wf.2.2⟩
  | hole => exact wf.elim

theorem Command.WellFormed.complete {c : Command} (wf : c.WellFormed) : c.Complete := by
  induction c with
  | skip => exact trivial
  | assign x e => exact AExpr.WellFormed.complete wf.2
  | seq a b left right => exact ⟨left wf.1, right wf.2⟩
  | ite e a b left right => exact ⟨BExpr.WellFormed.complete wf.1, left wf.2.1, right wf.2.2⟩
  | whileDo e a inner => exact ⟨BExpr.WellFormed.complete wf.1, inner wf.2⟩
  | hole => exact wf.elim

/-! ## The comparison -/

theorem AExpr.same_iff {a b : AExpr} : a.same b = true ↔ a = b ∧ a.Complete := by
  induction a generalizing b with
  | int n => cases b <;> simp [same, Complete]
  | var x => cases b <;> simp [same, Complete]
  | binary op a₁ a₂ left right =>
    cases b with
    | binary op' b₁ b₂ =>
      simp only [same, Bool.and_eq_true, beq_iff_eq, left, right, binary.injEq, Complete]
      grind
    | int | var | hole => simp [same]
  | hole => cases b <;> simp [same, Complete]

theorem BExpr.same_iff {a b : BExpr} : a.same b = true ↔ a = b ∧ a.Complete := by
  induction a generalizing b with
  | lit v => cases b <;> simp [same, Complete]
  | not a inner =>
    cases b with
    | not b => simp only [same, inner, not.injEq, Complete]
    | lit | binary | compare | hole => simp [same]
  | binary op a₁ a₂ left right =>
    cases b with
    | binary op' b₁ b₂ =>
      simp only [same, Bool.and_eq_true, beq_iff_eq, left, right, binary.injEq, Complete]
      grind
    | lit | not | compare | hole => simp [same]
  | compare op a₁ a₂ =>
    cases b with
    | compare op' b₁ b₂ =>
      simp only [same, Bool.and_eq_true, beq_iff_eq, AExpr.same_iff, compare.injEq, Complete]
      grind
    | lit | not | binary | hole => simp [same]
  | hole => cases b <;> simp [same, Complete]

theorem Command.same_iff {a b : Command} : a.same b = true ↔ a = b ∧ a.Complete := by
  induction a generalizing b with
  | skip => cases b <;> simp [same, Complete]
  | assign x e =>
    cases b with
    | assign y f =>
      simp only [same, Bool.and_eq_true, beq_iff_eq, AExpr.same_iff, assign.injEq, Complete]
      grind
    | skip | seq | ite | whileDo | hole => simp [same]
  | seq a₁ a₂ first second =>
    cases b with
    | seq b₁ b₂ =>
      simp only [same, Bool.and_eq_true, first, second, seq.injEq, Complete]
      grind
    | skip | assign | ite | whileDo | hole => simp [same]
  | ite e a₁ a₂ yes no =>
    cases b with
    | ite f b₁ b₂ =>
      simp only [same, Bool.and_eq_true, BExpr.same_iff, yes, no, ite.injEq, Complete]
      grind
    | skip | assign | seq | whileDo | hole => simp [same]
  | whileDo e a body =>
    cases b with
    | whileDo f b =>
      simp only [same, Bool.and_eq_true, BExpr.same_iff, body, whileDo.injEq, Complete]
      grind
    | skip | assign | seq | ite | hole => simp [same]
  | hole => cases b <;> simp [same, Complete]

/-- Two trees are the same if they are one tree of one sort, in which no part is missing. -/
theorem Node.same_iff {a b : Node} : a.same b = true ↔ a = b ∧ a.Complete := by
  cases a with
  | arith e => cases b <;> simp [same, Complete, AExpr.same_iff]
  | bool e => cases b <;> simp [same, Complete, BExpr.same_iff]
  | command c => cases b <;> simp [same, Complete, Command.same_iff]

/-! ## Trees of sources -/

/-- A source is read as one tree at most. -/
theorem Command.ReadFrom.unique {source : List Char} {c d : Command} (left : ReadFrom source c)
    (right : ReadFrom source d) : c = d := by
  obtain ⟨ts, lexed, parsed⟩ := left
  obtain ⟨us, lexed', parsed'⟩ := right
  cases lexed.symm.trans lexed'
  exact Except.ok.inj (parsed.symm.trans parsed')

/-- Of trees that are their own normal form no two are printed alike. -/
theorem Command.eq_of_format_eq {c d : Command} (wfLeft : c.WellFormed) (normalLeft : c.normal = c)
    (wfRight : d.WellFormed) (normalRight : d.normal = d) (printed : c.format = d.format) :
    c = d := by
  have left := readFrom_format wfLeft
  have right := readFrom_format wfRight
  rw [normalLeft, printed] at left
  rw [normalRight] at right
  exact left.unique right

/-- Two trees of whatever sorts are the same if and only if they are one tree in which no part is
missing. So this is an equivalence on the trees in which no part is missing, and trees of different
sorts are never the same. Operators are the same if they are spelled alike, also those that the
language does not have. Trees of sources are the same if and only if they are printed alike. -/
theorem Node.same_decides :
    (∀ a b : Node, a.same b = true ↔ a = b ∧ a.Complete) ∧
    Equivalence (fun a b : { n : Node // n.Complete } => a.val.same b.val = true) ∧
    (∀ (e : AExpr) (f : BExpr) (c : Command),
      [arith e, bool f, command c].Pairwise fun a b => a.same b = false ∧ b.same a = false) ∧
    (∀ s t : String, (ArithOp.ofSpelling s = .ofSpelling t ↔ s = t) ∧
      (BoolOp.ofSpelling s = .ofSpelling t ↔ s = t) ∧
      (CompareOp.ofSpelling s = .ofSpelling t ↔ s = t)) ∧
    ∀ (source source' : Text) (c d : Command),
      Command.parse source = .ok c → Command.parse source' = .ok d →
      ((command c).same (command d) = true ↔ (command c).format = (command d).format) := by
  refine ⟨fun a b => same_iff, ?_, fun e f c => ?_, fun s t => ?_, ?_⟩
  · constructor
    · exact fun a => same_iff.2 ⟨rfl, a.property⟩
    · intro a b same
      have eq : a = b := Subtype.ext (same_iff.1 same).1
      rwa [eq] at same ⊢
    · intro a b c first second
      have eq : a = b := Subtype.ext (same_iff.1 first).1
      rwa [eq]
  · simp [same]
  · have inj {α : Type} {ofSpelling : String → α} {spelling : α → String}
        (back : ∀ s, spelling (ofSpelling s) = s) : ofSpelling s = ofSpelling t ↔ s = t :=
      Function.LeftInverse.injective (g := spelling) back |>.eq_iff
    exact ⟨inj ArithOp.spelling_ofSpelling, inj BoolOp.spelling_ofSpelling,
      inj CompareOp.spelling_ofSpelling⟩
  · intro source source' c d parsed parsed'
    obtain ⟨wfLeft, normalLeft⟩ :=
      Command.wellFormed_and_normal_of_readFrom (Command.readFrom_of_parse parsed)
    obtain ⟨wfRight, normalRight⟩ :=
      Command.wellFormed_and_normal_of_readFrom (Command.readFrom_of_parse parsed')
    rw [same_iff, command.injEq]
    constructor
    · rintro ⟨rfl, -⟩
      rfl
    · intro printed
      exact ⟨Command.eq_of_format_eq wfLeft normalLeft wfRight normalRight printed,
        wfLeft.complete⟩

/-- The assignment of `0 - 2`, read from one line and from the lines of the other printer. The
assignment of the number `-2` is printed like it, but it is no tree of a source and not the same. -/
theorem Node.same_decides_negation :
    let c : Command := .assign "x" (.binary .sub (.int 0) (.int 2))
    let d : Command := .assign "x" (.int (-2))
    Command.parse c.format = .ok c ∧ Command.parse c.formatIndent = .ok c ∧
      (command c).same (command c) = true ∧ (command d).format = (command c).format ∧
      (command d).same (command c) = false := by
  intro c d
  have name : Token.IsName "x" :=
    Token.isName_iff.2 ⟨'x', [], by decide, by decide, by simp, by decide⟩
  have wf : c.WellFormed := ⟨name, trivial, trivial, trivial⟩
  have line : Command.parse c.format = .ok c :=
    Command.parse_of_readFrom (by decide) (Command.readFrom_format wf)
  have lines : Command.parse c.formatIndent = .ok c :=
    Command.parse_of_readFrom (by decide) (Command.readFrom_formatIndent wf)
  obtain ⟨-, -, -, -, printed⟩ := same_decides
  exact ⟨line, lines, (printed _ _ c c line lines).2 rfl, by decide, by decide⟩

end ImpHost
