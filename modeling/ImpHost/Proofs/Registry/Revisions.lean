import ImpHost.Proofs.Program.Parsing
import ImpHost.Proofs.Registry.Operations
import ImpHost.Proofs.Token.Lexing
import ImpHost.Registry.Open

/-!
Revision numbers.

The text of a revision number is read as that number, and different numbers have different texts. So
in a registry that was opened no program has a revision whose number is still to be given out
(`Registry.numbered_of_openFrom`), and a new revision of a program is one that nobody has seen.
-/

namespace ImpHost

/-! ## The texts of numbers -/

namespace Instant

/-- The digits of a number, with zeros in front up to a width. -/
def paddedDigits (width n : Nat) : List Char :=
  List.replicate (width - (Nat.toDigits 10 n).length) '0' ++ Nat.toDigits 10 n

theorem toList_padded (width n : Nat) : (padded width n).toList = paddedDigits width n := by
  have digits : (toString n).toList = Nat.toDigits 10 n := Nat.toList_repr
  rw [padded, String.toList_append, String.toList_ofList, ← String.length_toList, digits,
    paddedDigits]

theorem isAsciiDigit_of_mem_paddedDigits {width n : Nat} {c : Char}
    (member : c ∈ paddedDigits width n) : Text.isAsciiDigit c = true := by
  rcases List.mem_append.1 member with zero | digit
  · rw [List.eq_of_mem_replicate zero]
    rfl
  · exact Nat.isDigit_of_mem_toDigits (by decide) (by decide) digit

theorem digitsValue_paddedDigits (width n : Nat) : Text.digitsValue (paddedDigits width n) = n := by
  have zeros (k : Nat) : Text.digitsValue (List.replicate k '0') = 0 := by
    induction k with
    | zero => rfl
    | succ k ih => exact ih
  have digits : Text.digitsValue (Nat.toDigits 10 n) = n := Nat.ofDigitChars_ten_toDigits
  have parts : Text.digitsValue (paddedDigits width n) =
      (Nat.toDigits 10 n).foldl (fun n c => 10 * n + (c.toNat - '0'.toNat))
        (Text.digitsValue (List.replicate (width - (Nat.toDigits 10 n).length) '0')) :=
    List.foldl_append
  rw [parts, zeros]
  exact digits

theorem paddedDigits_ne_nil (width n : Nat) : paddedDigits width n ≠ [] :=
  fun empty => Nat.toDigits_ne_nil (List.append_eq_nil_iff.1 empty).2

end Instant

namespace Registry

theorem toList_revisionText (n : Nat) :
    (revisionText n).toList = Instant.paddedDigits 6 n ++ ['-', '0', '0', '0'] := by
  rw [revisionText, String.toList_append, Instant.toList_padded]
  rfl

/-- Different numbers have different texts. -/
theorem revisionText_injective {m n : Nat} (same : revisionText m = revisionText n) : m = n := by
  have chars := congrArg String.toList same
  rw [toList_revisionText, toList_revisionText] at chars
  have digits := congrArg Text.digitsValue (List.append_cancel_right chars)
  rwa [Instant.digitsValue_paddedDigits, Instant.digitsValue_paddedDigits] at digits

/-- Digits without a sign are read as the number that they denote, if it has 64 bits. -/
theorem parseInt?_digits {c : Char} {ds : List Char}
    (digits : ∀ d ∈ c :: ds, Text.isAsciiDigit d = true)
    (small : Text.digitsValue (c :: ds) < Value.halfRange) :
    Json.parseInt? (String.ofList (c :: ds)) = some (Text.digitsValue (c :: ds) : Int) := by
  have range := Text.toNat_of_isAsciiDigit (digits c List.mem_cons_self)
  have unsigned : Text.takeSign (c :: ds) = (false, c :: ds) := by
    unfold Text.takeSign
    split
    · next eq =>
      cases eq
      exact absurd range (by decide)
    · next eq =>
      cases eq
      exact absurd range (by decide)
    · rfl
  have all : (c :: ds).all Text.isAsciiDigit = true := List.all_eq_true.2 digits
  have inRange : Value.minInt ≤ (Text.digitsValue (c :: ds) : Int) ∧
      (Text.digitsValue (c :: ds) : Int) ≤ Value.maxInt := by
    simp only [Value.minInt, Value.maxInt, Value.halfRange] at small ⊢
    omega
  rw [Json.parseInt?, String.toList_ofList, unsigned]
  simp only [all, List.isEmpty_cons, Bool.not_true, Bool.or_self, Bool.false_eq_true, if_false,
    inRange, and_self, if_true]

/-- A number of 64 bits is read from its text. -/
theorem revisionNumber?_revisionText {n : Nat} (small : n < Value.halfRange) :
    revisionNumber? (revisionText n) = some (n : Int) := by
  obtain ⟨c, ds, chars⟩ := List.exists_cons_of_ne_nil (Instant.paddedDigits_ne_nil 6 n)
  have digits (d : Char) (member : d ∈ c :: ds) : Text.isAsciiDigit d = true :=
    Instant.isAsciiDigit_of_mem_paddedDigits (by rwa [chars])
  have value := Instant.digitsValue_paddedDigits 6 n
  rw [chars] at value
  have first := digits c List.mem_cons_self
  have noSpace : (Text.isSpace c && c != '\n') = false := by
    rw [Text.isSpace_of_isAsciiDigit first, Bool.false_and]
  have noSign : (c == '+' || c == '-') = false := by
    have range := Text.toNat_of_isAsciiDigit first
    rw [Bool.or_eq_false_iff, beq_eq_false_iff_ne, beq_eq_false_iff_ne]
    constructor <;> rintro rfl <;> exact absurd range (by decide)
  have munched : ((c :: ds) ++ ['-', '0', '0', '0']).takeWhile Text.isAsciiDigit = c :: ds :=
    (Token.munch digits fun d head => by cases head; rfl).1
  have read := parseInt?_digits digits (by rwa [value])
  rw [value] at read
  unfold revisionNumber?
  simp only [toList_revisionText, chars, List.cons_append, List.dropWhile_cons, noSpace, noSign,
    List.takeWhile_cons_of_neg, Bool.false_eq_true, not_false_eq_true, if_false, List.take_nil,
    List.length_nil, List.drop_zero, List.nil_append, Nat.zero_add]
  rw [← List.cons_append, munched, List.drop_left]
  exact read

/-! ## Numbered registries -/

/-- Each program is kept under the name that it carries, and has no revision whose number is still
to be given out. -/
structure Numbered (r : Registry) : Prop where
  named : ∀ name p, r.programs.get? name = some p → p.name = name
  given : ∀ name p n, r.programs.get? name = some p → p.revision = revisionText n →
    n ≤ r.revisions

theorem numbered_empty : empty.Numbered :=
  ⟨fun _ _ bound => (Table.get?_empty_ne bound).elim,
    fun _ _ _ bound => (Table.get?_empty_ne bound).elim⟩

theorem le_lastRevision {ps : List Deployment} {p : Deployment} {n : Nat} (member : p ∈ ps)
    (number : revisionNumber? p.revision = some (n : Int)) : n ≤ lastRevision ps := by
  have grows (ps : List Deployment) (k : Nat) :
      k ≤ ps.foldl (fun n p => max n ((revisionNumber? p.revision).getD 0).toNat) k := by
    induction ps generalizing k with
    | nil => exact Nat.le_refl k
    | cons q ps ih => exact Nat.le_trans (Nat.le_max_left ..) (ih _)
  have reaches (k : Nat) :
      n ≤ ps.foldl (fun n p => max n ((revisionNumber? p.revision).getD 0).toNat) k := by
    induction ps generalizing k with
    | nil => cases member
    | cons q ps ih =>
      rcases List.mem_cons.1 member with rfl | member
      · have own : n ≤ max k ((revisionNumber? p.revision).getD 0).toNat := by
          rw [number]
          exact Nat.le_max_right ..
        exact Nat.le_trans own (grows ps _)
      · exact ih member _
  exact reaches 0

/-- The programs of a registry that was opened are among the records that were read, each under its
own name. -/
theorem of_openFrom {r : Registry} {now : Instant} {db : Database}
    (opened : openFrom now db = .ok r) :
    ∃ ps, decodeAll "program" Deployment.decode? db.programs = .ok ps ∧
      r.programs = Table.ofList (ps.map fun p => (p.name, p)) ∧ r.revisions = lastRevision ps := by
  unfold openFrom at opened
  obtain ⟨ps, programs, opened⟩ := bind_eq_ok.1 opened
  obtain ⟨es, executions, opened⟩ := bind_eq_ok.1 opened
  obtain ⟨db', written, opened⟩ := bind_eq_ok.1 opened
  cases opened
  exact ⟨ps, programs, rfl, rfl⟩

/-- If no number of more than 64 bits was ever given out, a registry goes on numbering after the
records that it was opened with. -/
theorem numbered_of_openFrom {r : Registry} {now : Instant} {db : Database}
    (opened : openFrom now db = .ok r)
    (range : ∀ name p n, r.programs.get? name = some p → p.revision = revisionText n →
      n < Value.halfRange) : r.Numbered := by
  obtain ⟨ps, read, programs, revisions⟩ := of_openFrom opened
  have listed {name : String} {p : Deployment} (bound : r.programs.get? name = some p) :
      p ∈ ps ∧ p.name = name := by
    rw [programs] at bound
    obtain ⟨q, member, same⟩ := List.mem_map.1 (Table.mem_of_get?_ofList bound)
    cases same
    exact ⟨member, rfl⟩
  refine ⟨fun name p bound => (listed bound).2, fun name p n bound numbered => ?_⟩
  rw [revisions]
  refine le_lastRevision (listed bound).1 ?_
  rw [numbered]
  exact revisionNumber?_revisionText (range name p n bound numbered)

/-! ## What an operation does to the programs -/

/-- What one operation can do to the programs: nothing, record one under a new revision, or remove
one. -/
inductive Edits (r r' : Registry) : Prop
  | kept (programs : r'.programs = r.programs) (given : r.revisions ≤ r'.revisions)
  | recorded (p : Deployment) (programs : r'.programs = r.programs.set p.name p)
      (revision : p.revision = revisionText r'.revisions) (given : r'.revisions = r.revisions + 1)
  | removed (name : String) (programs : r'.programs = r.programs.erase name)
      (given : r'.revisions = r.revisions)

theorem Outcome.verdict_fst {α : Type} (out : Outcome α) : out.verdict.1 = out.1 := by
  obtain ⟨r, answer | answer⟩ := out <;> rfl

variable {r : Registry}

theorem Edits.refl (r : Registry) : r.Edits r :=
  .kept rfl (Nat.le_refl _)

theorem edits_recorded {name : String} {p : Deployment} (named : p.name = name)
    (revision : p.revision = revisionText (r.revisions + 1)) :
    r.Edits (r.changed (.program name p)) := by
  cases named
  exact .recorded p rfl revision rfl

theorem edits_run (named : ∀ name p, r.programs.get? name = some p → p.name = name)
    (now : Instant) (op : Operation) : r.Edits (op.run r now).1 := by
  have course := op.run_cases r now
  generalize op.run r now = out at course
  cases course with
  | refused => exact .refl r
  | unwritten => exact .kept rfl (Nat.le_succ _)
  | made due _ =>
    cases due with
    | createProgram => exact edits_recorded rfl rfl
    | @updateProgram name _ _ _ p old =>
      have same : p.name = name := named name p old
      exact edits_recorded same rfl
    | deleteProgram => exact .removed _ rfl rfl
    | createExecution | completeExecution | failExecution | cancelExecution =>
      exact .kept rfl (Nat.le_refl _)

/-- A program that was deployed is the one that is held from then on. -/
theorem of_createProgram {r' : Registry} {now : Instant} {parent id : String}
    {source description : Text} {labels : Option Labels} {p : Deployment}
    (created : r.createProgram now parent id source description labels = (r', .ok p)) :
    r'.programs.get? p.name = some p ∧ p.source = source := by
  unfold createProgram at created
  dsimp only at created
  split at created
  · cases created
  · split at created
    · next put =>
      cases of_putProgram put
      cases created
      exact ⟨Table.get?_set_self .., rfl⟩
    · cases created

theorem of_updateProgram {r' : Registry} {now : Instant} {name : String}
    {source description : Text} {labels : Option Labels} {p : Deployment}
    (named : ∀ name p, r.programs.get? name = some p → p.name = name)
    (given : source.isEmpty = false)
    (updated : r.updateProgram now name source description labels = (r', .ok p)) :
    r'.programs.get? p.name = some p ∧ p.source = source := by
  unfold updateProgram at updated
  split at updated
  · cases updated
  · next old held =>
    dsimp only at updated
    split at updated
    · next put =>
      cases of_putProgram put
      cases updated
      cases named name old held
      refine ⟨Table.get?_set_self .., ?_⟩
      simp only [revised, given, Bool.false_eq_true, if_false]
    · cases updated

/-- An execution that was recorded has the revision that its program had then. -/
theorem of_createExecution {r' : Registry} {now : Instant} {id program : String}
    {argument? : Option Memory} {e : Execution}
    (created : r.createExecution now id program argument? = (r', .ok e)) :
    ∃ p, r.programs.get? program = some p ∧ e.revision = p.revision ∧
      r'.executions.get? e.name = some e := by
  unfold createExecution at created
  split at created
  · cases created
  · next p deployed =>
    dsimp only at created
    split at created
    · next put =>
      obtain ⟨rfl, -⟩ := of_putExecution put
      cases created
      exact ⟨p, deployed, rfl, Table.get?_set_self ..⟩
    · cases created

end Registry
end ImpHost
