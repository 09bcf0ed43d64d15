import ImpHost.Cli.Start
import ImpHost.Proofs.Double
import ImpHost.Proofs.Table
import ImpHost.Proofs.Yaml.Integers

/-!
Decimal integers as values (`Manifest.decimals_are_exact_but_just_below`).

A value that is given alone, on the command line or in the store of a manifest is a plain scalar of
a document. An integer of 64 bits is bound exactly. Beyond 64 bits a plain scalar is a number of
double precision, and that is compared with the limits after it was rounded: the 1024 integers just
below the least value are rounded to it, and each of them is bound as the least value. No other
integer is rounded into the range, and every other one is a type error.
-/

namespace ImpHost

open Json (Numeral)
open Text Value

/-- The problem is that a value is of the wrong type. -/
def Problem.IsTypeError (p : Problem) : Prop :=
  ∃ message, p.diagnostic? = some (.type message)

/-! ## Plain scalars -/

namespace Value

/-- The value of a plain scalar is decided by what the scalar denotes. -/
theorem ofLeaf_plain (text : String) : ofLeaf (.plain text) =
    match Yaml.resolve text with
    | .bool b => .ok (.bool b)
    | .int n =>
      match ofInt? n with
      | some v => .ok v
      | none => .error (.outOfRange text)
    | .float d =>
      match d.toInt?.bind ofInt? with
      | some v => .ok v
      | none => .error (.fraction text)
    | _ => .error (.other text) := by
  by_cases merge : text = "<<"
  · subst merge
    have string : Yaml.resolve "<<" = .string := by decide +kernel
    rw [string]
    rfl
  · have tag : Yaml.Leaf.plain text = ⟨(Yaml.resolve text).tag, text⟩ :=
      congrArg (Yaml.Leaf.mk · text) (if_neg merge)
    rw [tag, ofLeaf]
    dsimp only
    cases Yaml.resolve text with
    | null => rfl
    | string => rfl
    | bool b => rfl
    | int n => rfl
    | float d => rfl

/-- The integer is below the least value, by 1024 at the most. -/
def JustBelow (i : Int) : Prop :=
  minInt - 1024 ≤ i ∧ i < minInt

instance (i : Int) : Decidable (JustBelow i) :=
  inferInstanceAs (Decidable (_ ∧ _))

variable {n : Numeral}

theorem halfRange_eq : halfRange = 2 ^ 63 :=
  rfl

theorem ofLeaf_inRange (integer : n.IsInteger) (low : minInt ≤ n.toInt) (high : n.toInt ≤ maxInt) :
    ofLeaf (.plain (String.ofList n.spelled)) = .ok (.int (Int64.ofInt n.toInt)) := by
  have word : minInt ≤ n.toInt ∧ n.toInt < 2 * halfRange := by
    unfold maxInt at high
    omega
  rw [ofLeaf_plain, Yaml.resolve_integer integer, if_pos word]
  dsimp only
  rw [ofInt?, if_pos ⟨low, high⟩]

/-- A decimal integer of more than a word is rounded, and then it is in range or not. -/
theorem ofLeaf_rounded (integer : n.IsInteger)
    (outside : ¬ (minInt ≤ n.toInt ∧ n.toInt < 2 * halfRange)) :
    (∃ why, ofLeaf (.plain (String.ofList n.spelled)) = .error why ∧ why.problem.IsTypeError) ∧
        1023 ≤ Nat.log2 (digitsValue n.whole) ∨
      ofLeaf (.plain (String.ofList n.spelled)) =
        match ofInt? (if n.negative then -(Double.rounded (digitsValue n.whole) : Int)
          else (Double.rounded (digitsValue n.whole) : Int)) with
        | some v => .ok v
        | none => .error (.fraction (String.ofList n.spelled)) := by
  have large : Double.hiddenBit ≤ digitsValue n.whole := by
    have range : Double.hiddenBit ≤ halfRange := by decide
    unfold Numeral.toInt minInt at outside
    split at outside <;> omega
  rw [ofLeaf_plain, Yaml.resolve_integer integer, if_neg outside]
  rcases Double.toInt?_ofQuotient n.negative large with ⟨infinite, bits⟩ | rounded
  · rw [infinite]
    exact .inl ⟨⟨_, rfl, _, rfl⟩, bits⟩
  · right
    generalize Double.ofQuotient n.negative (digitsValue n.whole) 1 = d at rounded
    cases d with
    | nan => cases rounded
    | infinite => cases rounded
    | finite negative m e =>
      dsimp only
      rw [rounded]
      rfl

/-- The integers just below the least value are rounded to it. -/
theorem ofLeaf_justBelow (integer : n.IsInteger) (below : JustBelow n.toInt) :
    ofLeaf (.plain (String.ofList n.spelled)) = .ok (.int Int64.minValue) := by
  obtain ⟨least, below⟩ := below
  have negative : n.negative = true := by
    by_contra positive
    rw [Numeral.toInt, if_neg positive, minInt] at below
    omega
  rw [Numeral.toInt, if_pos negative, minInt, halfRange_eq] at least below
  have near : digitsValue n.whole ≤ 2 ^ 63 + 1024 := by omega
  have large : 2 ^ 63 ≤ digitsValue n.whole := by omega
  have rounded : Double.rounded (digitsValue n.whole) = 2 ^ 63 :=
    Nat.le_antisymm ((Double.rounded_le_iff large).2 near) (Double.le_rounded (by decide) large)
  have outside : ¬ (minInt ≤ n.toInt ∧ n.toInt < 2 * halfRange) := by
    rw [Numeral.toInt, if_pos negative, minInt, halfRange_eq]
    omega
  rcases ofLeaf_rounded integer outside with ⟨_, bits⟩ | result
  · -- A number of 64 bits is far from being infinite.
    have few : Nat.log2 (digitsValue n.whole) < 64 :=
      (Nat.log2_lt (by omega)).2 (by omega)
    omega
  · rw [result, rounded, if_pos negative]
    rfl

/-- No other integer comes into the range. -/
theorem ofLeaf_beyond (integer : n.IsInteger)
    (beyond : n.toInt < minInt - 1024 ∨ maxInt < n.toInt) :
    ∃ why, ofLeaf (.plain (String.ofList n.spelled)) = .error why ∧ why.problem.IsTypeError := by
  by_cases word : minInt ≤ n.toInt ∧ n.toInt < 2 * halfRange
  · have tooGreat : ¬ (minInt ≤ n.toInt ∧ n.toInt ≤ maxInt) := by omega
    rw [ofLeaf_plain, Yaml.resolve_integer integer, if_pos word]
    dsimp only
    rw [ofInt?, if_neg tooGreat]
    exact ⟨_, rfl, _, rfl⟩
  · rcases ofLeaf_rounded integer word with ⟨refused, -⟩ | result
    · exact refused
    · rw [result, ofInt?, if_neg]
      · exact ⟨_, rfl, _, rfl⟩
      · -- What is rounded stays on its side of the range.
        simp only [Numeral.toInt, minInt, maxInt, halfRange_eq] at beyond word ⊢
        cases sign : n.negative with
        | true =>
          simp only [sign, if_true] at beyond word ⊢
          have large : 2 ^ 63 ≤ digitsValue n.whole := by omega
          have near := Double.rounded_le_iff large
          omega
        | false =>
          simp only [sign, Bool.false_eq_true, if_false] at beyond word ⊢
          have large : 2 ^ 64 ≤ digitsValue n.whole := by omega
          have stays := Double.le_rounded (by decide) large
          omega

end Value

/-! ## The places where values are given -/

namespace Manifest

/-- The entries with a scalar in the store of a document. -/
def scalarEntries (t : Text) : List (String × Yaml.Leaf) :=
  match Yaml.parse t with
  | .ok (some (.mapping fields)) =>
    match storeField fields with
    | some (.mapping entries) => entries.filterMap fun e =>
      match e.2 with
      | .scalar leaf => some (e.1.text, leaf)
      | _ => none
    | _ => []
  | _ => []

/-- Wherever the plain scalar is given for a value, the value is `v`. -/
structure IsBoundTo (s : String) (v : Value) : Prop where
  alone : Value.ofYaml s = .ok v
  /-- On the command line for a variable, which may have white space around it. -/
  given (name : String) (noEquals : '=' ∉ name.toList)
    (isVariable : Cli.isVariable (String.ofList (trimSpace name.toList)) = true) :
    Cli.readBinding (name ++ "=" ++ s) = .ok (String.ofList (trimSpace name.toList), v)
  /-- For a name that is new in a store, after which the other entries are read. -/
  entry (m : Memory) (key : Yaml.Node) (rest : List (Yaml.Node × Yaml.Node))
    (new : m.get? key.text = none) :
    storeOfEntries m ((key, .scalar (.plain s)) :: rest) = storeOfEntries (m.set key.text v) rest
  /-- In the store of any manifest. -/
  manifest (t : Text) (m : Manifest) (x : String) (isEntry : (x, .plain s) ∈ scalarEntries t)
    (read : ofYaml t = .ok m) : m.store.get? x = some v

/-- Wherever the plain scalar is given for a value, it is a type error. -/
structure IsRefused (s : String) : Prop where
  alone : ∃ p, Value.ofYaml s = .error p ∧ p.IsTypeError
  given (name : String) (noEquals : '=' ∉ name.toList)
    (isVariable : Cli.isVariable (String.ofList (trimSpace name.toList)) = true) :
    ∃ p, Cli.readBinding (name ++ "=" ++ s) = .error p ∧ p.IsTypeError
  entry (m : Memory) (key : Yaml.Node) (rest : List (Yaml.Node × Yaml.Node))
    (new : m.get? key.text = none) :
    ∃ e, storeOfEntries m ((key, .scalar (.plain s)) :: rest) = .error e ∧ e.problem.IsTypeError
  /-- Nothing with such an entry is a manifest. -/
  manifest (t : Text) (m : Manifest) (x : String) (isEntry : (x, .plain s) ∈ scalarEntries t) :
    ofYaml t ≠ .ok m

variable {s : String} {t : Text}

theorem ofYaml_plain (word : Yaml.IsWord s.toList) : Value.ofYaml s =
    (Value.ofLeaf (.plain s)).mapError ValueError.problem := by
  rw [Value.ofYaml, Yaml.parse_word word]
  rfl

theorem readBinding_word {name : String} (word : Yaml.IsWord s.toList)
    (noEquals : '=' ∉ name.toList)
    (isVariable : Cli.isVariable (String.ofList (trimSpace name.toList)) = true) :
    Cli.readBinding (name ++ "=" ++ s) =
      (((Value.ofLeaf (.plain s)).mapError ValueError.problem).mapError
        (Problem.whileDoing ("invalid --set " ++ Text.quoteString (name ++ "=" ++ s)))).map
          fun v => (String.ofList (trimSpace name.toList), v) := by
  have chars : (name ++ "=" ++ s).toList = name.toList ++ '=' :: s.toList := by
    simp
  have inside : ∀ c ∈ name.toList, (c != '=') = true := fun c here =>
    bne_iff_ne.2 fun same => noEquals (same ▸ here)
  have split := Token.munch inside (k := '=' :: s.toList) fun c first => by
    cases first
    rfl
  have nonempty : String.ofList (trimSpace name.toList) ≠ "" := by
    intro empty
    rw [empty, Cli.isVariable, Token.lex, String.toList_empty, Token.lexFrom_nil] at isVariable
    cases isVariable
  unfold Cli.readBinding
  dsimp only
  rw [chars, split.1, split.2]
  dsimp only
  rw [if_neg nonempty, isVariable, String.ofList_toList, ofYaml_plain word]
  cases Value.ofLeaf (.plain s) <;> rfl

/-- An entry with a new name binds the name if its scalar is a value. -/
theorem storeOfEntries_scalar {m : Memory} {key : Yaml.Node} {leaf : Yaml.Leaf}
    {rest : List (Yaml.Node × Yaml.Node)} (new : m.get? key.text = none) :
    storeOfEntries m ((key, .scalar leaf) :: rest) =
      match Value.ofLeaf leaf with
      | .error why => .error (.entry key.text why)
      | .ok v => storeOfEntries (m.set key.text v) rest := by
  rw [storeOfEntries, new]
  rfl

/-- What a store has bound stays, since no name may be bound twice. -/
theorem get?_of_storeOfEntries {m m' : Memory} {entries : List (Yaml.Node × Yaml.Node)}
    {x : String} {v : Value} (read : storeOfEntries m entries = .ok m')
    (bound : m.get? x = some v) : m'.get? x = some v := by
  induction entries generalizing m with
  | nil =>
    cases read
    exact bound
  | cons e rest ih =>
    obtain ⟨key, node⟩ := e
    rw [storeOfEntries] at read
    split at read
    · cases read
    · next new =>
      split at read
      · cases read
      · refine ih read ?_
        rw [Table.get?_set_of_ne _ (fun same => ?_) _]
        · exact bound
        · subst same
          rw [bound] at new
          exact new rfl

theorem bound_of_storeOfEntries {m m' : Memory} {entries : List (Yaml.Node × Yaml.Node)}
    (read : storeOfEntries m entries = .ok m') :
    ∀ e ∈ entries, ∃ v, Value.ofNode e.2 = .ok v ∧ m'.get? e.1.text = some v := by
  induction entries generalizing m with
  | nil => exact fun _ member => nomatch member
  | cons e rest ih =>
    obtain ⟨key, node⟩ := e
    rw [storeOfEntries] at read
    split at read
    · cases read
    · split at read
      · cases read
      · next v value =>
        intro e member
        rcases List.mem_cons.1 member with rfl | member
        · exact ⟨v, value, get?_of_storeOfEntries read (Table.get?_set_self _ _ _)⟩
        · exact ih read e member

/-- The scalars in the store of a manifest are values, and the names are bound to them. -/
theorem bound_of_scalarEntries {m : Manifest} {x : String} {leaf : Yaml.Leaf}
    (isEntry : (x, leaf) ∈ scalarEntries t) (read : ofYaml t = .ok m) :
    ∃ v, Value.ofLeaf leaf = .ok v ∧ m.store.get? x = some v := by
  obtain ⟨fields, document, store⟩ := store_of_ofYaml read
  unfold scalarEntries at isEntry
  rw [document] at isEntry
  dsimp only at isEntry
  split at isEntry
  · next entries isStore =>
    rw [isStore] at store
    obtain ⟨e, member, same⟩ := List.mem_filterMap.1 isEntry
    obtain ⟨v, value, bound⟩ := bound_of_storeOfEntries store e member
    split at same
    · next isScalar =>
      cases same
      rw [isScalar] at value
      exact ⟨v, value, bound⟩
    · cases same
  · cases isEntry

theorem isBoundTo_of_ofLeaf {v : Value} (word : Yaml.IsWord s.toList)
    (value : Value.ofLeaf (.plain s) = .ok v) : IsBoundTo s v where
  alone := by
    rw [ofYaml_plain word, value]
    rfl
  given name noEquals isVariable := by
    rw [readBinding_word word noEquals isVariable, value]
    rfl
  entry m key rest new := by
    rw [storeOfEntries_scalar new, value]
  manifest t m x isEntry read := by
    obtain ⟨v', value', bound⟩ := bound_of_scalarEntries isEntry read
    cases value.symm.trans value'
    exact bound

theorem isRefused_of_ofLeaf {why : ValueError} (word : Yaml.IsWord s.toList)
    (refused : Value.ofLeaf (.plain s) = .error why) (typeError : why.problem.IsTypeError) :
    IsRefused s where
  alone := by
    rw [ofYaml_plain word, refused]
    exact ⟨_, rfl, typeError⟩
  given name noEquals isVariable := by
    rw [readBinding_word word noEquals isVariable, refused]
    exact ⟨_, rfl, typeError⟩
  entry m key rest new := by
    rw [storeOfEntries_scalar new, refused]
    exact ⟨_, rfl, typeError⟩
  manifest t m x isEntry read := by
    obtain ⟨v, value, -⟩ := bound_of_scalarEntries isEntry read
    cases refused.symm.trans value

/-- A decimal integer of 64 bits is bound exactly, wherever it is given for a value: alone, on the
command line or in the store of a manifest. The 1024 integers just below the least value are bound
as the least value. Every other integer is a type error. -/
theorem decimals_are_exact_but_just_below (n : Numeral) (integer : n.IsInteger) :
    (minInt ≤ n.toInt → n.toInt ≤ maxInt →
      ∃ v : Int64, v.toInt = n.toInt ∧ IsBoundTo (String.ofList n.spelled) (.int v)) ∧
    (JustBelow n.toInt → IsBoundTo (String.ofList n.spelled) (.int Int64.minValue)) ∧
    (n.toInt < minInt - 1024 ∨ maxInt < n.toInt → IsRefused (String.ofList n.spelled)) := by
  have word : Yaml.IsWord (String.ofList n.spelled).toList := by
    rw [String.toList_ofList]
    exact integer.isWord
  refine ⟨fun low high => ?_, fun below => ?_, fun beyond => ?_⟩
  · refine ⟨Int64.ofInt n.toInt, ?_, isBoundTo_of_ofLeaf word (ofLeaf_inRange integer low high)⟩
    exact Int64.toInt_ofInt_of_le low (Int.lt_of_le_sub_one high)
  · exact isBoundTo_of_ofLeaf word (ofLeaf_justBelow integer below)
  · obtain ⟨why, refused, typeError⟩ := ofLeaf_beyond integer beyond
    exact isRefused_of_ofLeaf word refused typeError

/-- The least value in each of the places, and the integers next to those that are accepted. -/
theorem decimals_are_exact_but_just_below_limits :
    let manifest : Text := "source: skip\nstore:\n  x: -9223372036854775808\n"
    Value.ofYaml "-9223372036854775808" = .ok (.int Int64.minValue) ∧
    Cli.readBinding "x=-9223372036854775808" = .ok ("x", .int Int64.minValue) ∧
    (∃ m, Manifest.ofYaml manifest = .ok m ∧ m.store.get? "x" = some (.int Int64.minValue)) ∧
    IsRefused "9223372036854775808" ∧ IsRefused "-9223372036854776833" := by
  intro manifest
  have least := decimals_are_exact_but_just_below _ (Numeral.isInteger_ofInt minInt)
  have above := decimals_are_exact_but_just_below _ (Numeral.isInteger_ofInt (maxInt + 1))
  have below := decimals_are_exact_but_just_below _ (Numeral.isInteger_ofInt (minInt - 1025))
  rw [Numeral.toInt_ofInt, Numeral.spelled_ofInt] at least above below
  have leastText : toString minInt = "-9223372036854775808" := by decide +kernel
  have aboveText : toString (maxInt + 1) = "9223372036854775808" := by decide +kernel
  have belowText : toString (minInt - 1025) = "-9223372036854776833" := by decide +kernel
  rw [leastText] at least
  rw [aboveText] at above
  rw [belowText] at below
  obtain ⟨v, value, bound⟩ := least.1 (by decide) (by decide)
  have isLeast : v = Int64.minValue := Int64.toInt_inj.1 (value.trans (by decide))
  subst isLeast
  have source : (documentFields manifest).map Fields.source = some "skip" := by decide +kernel
  obtain ⟨⟨_, _, _, _⟩, document, same⟩ := Option.map_eq_some_iff.1 source
  cases same
  have read := ofYaml_of_documentFields (by decide) document
  have parsed : Command.parse "skip" = .ok .skip :=
    Command.parse_of_readFrom (by decide) (Command.readFrom_format (c := .skip) trivial)
  rw [ofFields] at read
  dsimp only at read
  rw [if_neg (by decide), parsed] at read
  refine ⟨bound.alone, bound.given "x" (by decide) (by decide +kernel), ?_,
    above.2.2 (by decide), below.2.2 (by decide)⟩
  exact ⟨_, read, bound.manifest manifest _ "x" (by decide +kernel) read⟩

/-- An integer below the least value is bound as the least value. -/
theorem just_below_is_bound :
    ∃ n : Numeral, n.IsInteger ∧ String.ofList n.spelled = "-9223372036854775809" ∧
      n.toInt = -9223372036854775809 ∧ IsBoundTo "-9223372036854775809" (.int Int64.minValue) ∧
      ¬ IsRefused "-9223372036854775809" := by
  have integer := Numeral.isInteger_ofInt (minInt - 1)
  have spelled : String.ofList (Numeral.ofInt (minInt - 1)).spelled = "-9223372036854775809" := by
    rw [Numeral.spelled_ofInt]
    decide +kernel
  have word := integer.isWord
  have value := ofLeaf_justBelow integer (by rw [Numeral.toInt_ofInt]; decide)
  rw [← String.toList_ofList (l := Numeral.spelled _), spelled] at word
  rw [spelled] at value
  have bound := isBoundTo_of_ofLeaf word value
  refine ⟨_, integer, spelled, Numeral.toInt_ofInt _, bound, fun refused => ?_⟩
  obtain ⟨p, error, -⟩ := refused.alone
  cases bound.alone.symm.trans error

end Manifest

end ImpHost
