import ImpHost.Proofs.Program.Grammar
import ImpHost.Proofs.Token.Lexing

/-!
Well-formed trees and their normal form.

A tree built by hand can hold what no program says: a hole, an unknown operator, a name that the
lexer would not read as one, a negative number, a sequence inside the second part of a sequence.
The first three make it ill-formed. The others have no spelling of their own, and `normal` replaces
them by what they are printed as: a negative number by a subtraction from zero, and a sequence
however nested by the one that is nested to the left.

What the grammar derives from the tokens of a source is well-formed and is its own normal form
(`Derives.wellFormed_and_normal`).
-/

namespace ImpHost

/-- An operator of the language. -/
def ArithOp.Known : ArithOp → Prop
  | .other _ => False
  | _ => True

/-- A connective of the language. -/
def BoolOp.Known : BoolOp → Prop
  | .other _ => False
  | _ => True

/-- A comparison of the language. -/
def CompareOp.Known : CompareOp → Prop
  | .other _ => False
  | _ => True

/-- No hole, only operators of the language, and only names that are read as such. -/
def AExpr.WellFormed : AExpr → Prop
  | .int _ => True
  | .var x => Token.IsName x
  | .binary op a b => op.Known ∧ a.WellFormed ∧ b.WellFormed
  | .hole => False

/-- No hole, only operators of the language, and only names that are read as such. -/
def BExpr.WellFormed : BExpr → Prop
  | .lit _ => True
  | .not a => a.WellFormed
  | .binary op a b => op.Known ∧ a.WellFormed ∧ b.WellFormed
  | .compare op a b => op.Known ∧ a.WellFormed ∧ b.WellFormed
  | .hole => False

/-- No hole, only operators of the language, and only names that are read as such. -/
def Command.WellFormed : Command → Prop
  | .skip => True
  | .assign x e => Token.IsName x ∧ e.WellFormed
  | .seq a b => a.WellFormed ∧ b.WellFormed
  | .ite e a b => e.WellFormed ∧ a.WellFormed ∧ b.WellFormed
  | .whileDo e a => e.WellFormed ∧ a.WellFormed
  | .hole => False

/-- An integer without negative numbers: `-k` is `0 - k`, and the least one is one less than the
negative of the greatest. -/
def AExpr.ofInt (n : Int64) : AExpr :=
  if 0 ≤ n then .int n
  else if n = Int64.minValue then
    .binary .sub (.binary .sub (.int 0) (.int Int64.maxValue)) (.int 1)
  else .binary .sub (.int 0) (.int (-n))

/-- An expression without negative numbers. -/
def AExpr.normal : AExpr → AExpr
  | .int n => .ofInt n
  | .var x => .var x
  | .binary op a b => .binary op a.normal b.normal
  | .hole => .hole

/-- An expression without negative numbers. -/
def BExpr.normal : BExpr → BExpr
  | .lit b => .lit b
  | .not a => .not a.normal
  | .binary op a b => .binary op a.normal b.normal
  | .compare op a b => .compare op a.normal b.normal
  | .hole => .hole

/-- The commands of a sequence that is nested to the left, one after the other behind `left`. -/
def Command.join (left : Command) : Command → Command
  | .seq a b => .seq (left.join a) b
  | c => .seq left c

/-- A command whose sequences are nested to the left, at every depth, and that has no negative
numbers. -/
def Command.normal : Command → Command
  | .skip => .skip
  | .assign x e => .assign x e.normal
  | .seq a b => a.normal.join b.normal
  | .ite e a b => .ite e.normal a.normal b.normal
  | .whileDo e a => .whileDo e.normal a.normal
  | .hole => .hole

example : (Command.seq .skip (.seq (.assign "x" (.int (-2))) (.seq .skip .skip))).normal =
    .seq (.seq (.seq .skip (.assign "x" (.binary .sub (.int 0) (.int 2)))) .skip) .skip := by
  decide

/-! ## Trees that are the same as themselves -/

theorem AExpr.same_self {e : AExpr} (wf : e.WellFormed) : e.same e = true := by
  induction e with
  | int n | var x => simp [same]
  | binary op a b left right => simp [same, left wf.2.1, right wf.2.2]
  | hole => exact wf.elim

theorem BExpr.same_self {e : BExpr} (wf : e.WellFormed) : e.same e = true := by
  induction e with
  | lit b => simp [same]
  | not a inner => simp [same, inner wf]
  | binary op a b left right => simp [same, left wf.2.1, right wf.2.2]
  | compare op a b => simp [same, AExpr.same_self wf.2.1, AExpr.same_self wf.2.2]
  | hole => exact wf.elim

/-- A well-formed tree is the same as itself. -/
theorem Command.same_self {c : Command} (wf : c.WellFormed) : c.same c = true := by
  induction c with
  | skip => rfl
  | assign x e => simp [same, AExpr.same_self wf.2]
  | seq a b left right => simp [same, left wf.1, right wf.2]
  | ite e a b left right => simp [same, BExpr.same_self wf.1, left wf.2.1, right wf.2.2]
  | whileDo e a inner => simp [same, BExpr.same_self wf.1, inner wf.2]
  | hole => exact wf.elim

/-! ## Trees of a source -/

namespace Grammar

open Token

theorem ArithSign.known {kind : Token.Kind} {op : ArithOp} (sign : ArithSign kind op) :
    op.Known := by
  cases sign <;> exact trivial

theorem CompareSign.known {kind : Token.Kind} {op : CompareOp} (sign : CompareSign kind op) :
    op.Known := by
  cases sign <;> exact trivial

theorem BoolSign.known {kind : Token.Kind} {op : BoolOp} (sign : BoolSign kind op) :
    op.Known := by
  cases sign <;> exact trivial

/-- The number of a token of a source is not negative. -/
theorem ofInt_value_of_emitted {t : Token} (emitted : Emitted t) :
    AExpr.ofInt t.value = .int t.value := by
  have nonneg : 0 ≤ t.value := by
    cases emitted with
    | int _ small =>
      exact (Int64.ofNat_le_iff_le (by decide) (Nat.lt_succ_of_le small)).2 (Nat.zero_le _)
    | semi | lparen | rparen | word | operator => exact Int64.le_refl 0
  rw [AExpr.ofInt, if_pos nonneg]

theorem Arith.wellFormed_and_normal {ts : List Token} {e : AExpr} (arith : Arith ts e)
    (emitted : ∀ t ∈ ts, Emitted t) : e.WellFormed ∧ e.normal = e := by
  induction arith with
  | int _ => exact ⟨trivial, ofInt_value_of_emitted (emitted _ List.mem_cons_self)⟩
  | var isVar => exact ⟨(emitted _ List.mem_cons_self).isName isVar, rfl⟩
  | binary _ _ sign _ _ left right =>
    obtain ⟨wfLeft, normalLeft⟩ := left fun t member => emitted t (by simp [member])
    obtain ⟨wfRight, normalRight⟩ := right fun t member => emitted t (by simp [member])
    exact ⟨⟨sign.known, wfLeft, wfRight⟩, by rw [AExpr.normal, normalLeft, normalRight]⟩

theorem Boolean.wellFormed_and_normal {ts : List Token} {e : BExpr} (boolean : Boolean ts e)
    (emitted : ∀ t ∈ ts, Emitted t) : e.WellFormed ∧ e.normal = e := by
  induction boolean with
  | true _ | false _ => exact ⟨trivial, rfl⟩
  | not _ _ _ _ inner =>
    obtain ⟨wf, normal⟩ := inner fun t member => emitted t (by simp [member])
    exact ⟨wf, by rw [BExpr.normal, normal]⟩
  | compare _ left sign right _ =>
    obtain ⟨wfLeft, normalLeft⟩ :=
      left.wellFormed_and_normal fun t member => emitted t (by simp [member])
    obtain ⟨wfRight, normalRight⟩ :=
      right.wellFormed_and_normal fun t member => emitted t (by simp [member])
    exact ⟨⟨sign.known, wfLeft, wfRight⟩, by rw [BExpr.normal, normalLeft, normalRight]⟩
  | binary _ _ sign _ _ left right =>
    obtain ⟨wfLeft, normalLeft⟩ := left fun t member => emitted t (by simp [member])
    obtain ⟨wfRight, normalRight⟩ := right fun t member => emitted t (by simp [member])
    exact ⟨⟨sign.known, wfLeft, wfRight⟩, by rw [BExpr.normal, normalLeft, normalRight]⟩

/-- An atomic command is not taken apart. -/
theorem Derives.join_atomic {ts : List Token} {a b : Command} (atomic : Derives .atomic ts b) :
    a.join b = .seq a b := by
  cases atomic <;> rfl

theorem Derives.wellFormed_and_normal {phrase : Phrase} {ts : List Token} {c : Command}
    (derives : Derives phrase ts c) (emitted : ∀ t ∈ ts, Emitted t) :
    c.WellFormed ∧ c.normal = c := by
  induction derives with
  | skip _ => exact ⟨trivial, rfl⟩
  | assign isVar _ arith =>
    obtain ⟨wf, normal⟩ := arith.wellFormed_and_normal fun t member => emitted t (by simp [member])
    exact ⟨⟨(emitted _ List.mem_cons_self).isName isVar, wf⟩, by rw [Command.normal, normal]⟩
  | ite _ boolean _ _ _ _ _ yes no =>
    obtain ⟨wfCond, normalCond⟩ :=
      boolean.wellFormed_and_normal fun t member => emitted t (by simp [member])
    obtain ⟨wfYes, normalYes⟩ := yes fun t member => emitted t (by simp [member])
    obtain ⟨wfNo, normalNo⟩ := no fun t member => emitted t (by simp [member])
    exact ⟨⟨wfCond, wfYes, wfNo⟩, by rw [Command.normal, normalCond, normalYes, normalNo]⟩
  | whileDo _ boolean _ _ _ body =>
    obtain ⟨wfCond, normalCond⟩ :=
      boolean.wellFormed_and_normal fun t member => emitted t (by simp [member])
    obtain ⟨wfBody, normalBody⟩ := body fun t member => emitted t (by simp [member])
    exact ⟨⟨wfCond, wfBody⟩, by rw [Command.normal, normalCond, normalBody]⟩
  | single _ atomic => exact atomic emitted
  | seq _ _ atomic left right =>
    obtain ⟨wfLeft, normalLeft⟩ := left fun t member => emitted t (by simp [member])
    obtain ⟨wfRight, normalRight⟩ := right fun t member => emitted t (by simp [member])
    exact ⟨⟨wfLeft, wfRight⟩, by rw [Command.normal, normalLeft, normalRight, atomic.join_atomic]⟩

/-- Two commands with a semicolon between them derive the normal form of their sequence. -/
theorem Derives.join {semi : Token} {us vs : List Token} {a b : Command}
    (first : Derives .command us a) (isSemi : semi.kind = .semi)
    (second : Derives .command vs b) : Derives .command (us ++ semi :: vs) (a.join b) := by
  generalize eq : Phrase.command = phrase at second
  induction second with
  | single atomic _ =>
    rw [atomic.join_atomic]
    exact .seq first isSemi atomic
  | @seq semi' vs ws b c second isSemi' atomic ih _ =>
    have left := Derives.seq (ih eq) isSemi' atomic
    rwa [List.append_assoc, List.cons_append] at left
  | skip | assign | ite | whileDo => cases eq

end Grammar

end ImpHost
