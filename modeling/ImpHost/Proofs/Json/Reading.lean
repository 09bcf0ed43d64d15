import ImpHost.Json.Reader

/-!
Values are read as they were written.

A character of a string comes back from the escape that stands for it (`readEscape?_hex`,
`readString_escaped`), a stray byte as the replacement character, and a string of bytes therefore as
its lossy reading. `ReadAs` is what the reader makes of a value in front of whatever follows, and
`ReadInObject` in front of what may follow it in an object, which is enough for the object to be
read field by field (`ReadAs.object`).
-/

namespace ImpHost.Json

/-! ## Escapes -/

theorem hexValue?_hexDigit {n : Nat} (small : n < 16) : hexValue? (Text.hexDigit n) = some n := by
  have each : ∀ n : Fin 16, hexValue? (Text.hexDigit n) = some n.1 := by decide
  exact each ⟨n, small⟩

/-- Four hexadecimal digits are read as their number. -/
theorem hexUnit?_hexDigits {n : Nat} (small : n < 0x10000) :
    ∃ a b c d, Text.hexDigits 4 n = [a, b, c, d] ∧ hexUnit? a b c d = some n := by
  refine ⟨_, _, _, _, rfl, ?_⟩
  have digit (k : Nat) : hexValue? (Text.hexDigit (k % 16)) = some (k % 16) :=
    hexValue?_hexDigit (Nat.mod_lt k (by decide))
  have value : ((n / 16 / 16 / 16 % 16 * 16 + n / 16 / 16 % 16) * 16 + n / 16 % 16) * 16 + n % 16 =
      n := by
    omega
  simp only [hexUnit?, digit, Option.bind_eq_bind, Option.bind_some, Option.pure_def, value]

/-- A character that is no half of a pair is read from its escape. -/
theorem readEscape?_hex {c : Char} (small : c.toNat < 0x10000) (k : List Char) :
    readEscape? ('u' :: (Text.hexDigits 4 c.toNat ++ k)) = some (c, k) := by
  obtain ⟨a, b, d, e, digits, unit⟩ := hexUnit?_hexDigits small
  have whole : isSurrogate c.toNat = false := by
    have valid : c.toNat < 0xD800 ∨ 0xDFFF < c.toNat ∧ c.toNat < 0x110000 := c.valid
    rw [isSurrogate, Bool.and_eq_false_iff, decide_eq_false_iff_not, decide_eq_false_iff_not]
    omega
  have read : readUnit c.toNat k = (c, k) := by
    unfold readUnit
    rw [whole, if_neg Bool.false_ne_true, Char.ofNat_toNat]
  unfold readEscape?
  simp only [if_true, digits, List.cons_append, List.nil_append, unit, Option.map_some, read]

/-- A character stands for itself or for an escape from which it is read. -/
theorem escaped_cases (c : Char) :
    (∃ cs, escaped c = '\\' :: cs ∧ ∀ k, readEscape? (cs ++ k) = some (c, k)) ∨
      escaped c = [c] ∧ c ≠ '"' ∧ c ≠ '\\' ∧ ¬ c.toNat < 0x20 := by
  have control {n : Nat} (code : c.toNat = n) : c = Char.ofNat n := by
    rw [← code, Char.ofNat_toNat]
  unfold escaped
  split
  · next quote => exact .inl ⟨_, rfl, fun k => by rw [eq_of_beq quote]; rfl⟩
  · next noQuote =>
    split
    · next slash => exact .inl ⟨_, rfl, fun k => by rw [eq_of_beq slash]; rfl⟩
    · next noEscape =>
      split
      · next code => exact .inl ⟨_, rfl, fun k => by rw [control code]; rfl⟩
      · next code => exact .inl ⟨_, rfl, fun k => by rw [control code]; rfl⟩
      · next code => exact .inl ⟨_, rfl, fun k => by rw [control code]; rfl⟩
      · next code => exact .inl ⟨_, rfl, fun k => by rw [control code]; rfl⟩
      · next code => exact .inl ⟨_, rfl, fun k => by rw [control code]; rfl⟩
      · split
        · next special =>
          refine .inl ⟨_, rfl, readEscape?_hex ?_⟩
          simp only [Bool.or_eq_true, decide_eq_true_eq, beq_iff_eq] at special
          rcases special with ((((small | rfl) | rfl) | rfl) | code) | code
          · omega
          · decide
          · decide
          · decide
          · omega
          · omega
        · next plain =>
          simp only [Bool.or_eq_true, decide_eq_true_eq, not_or] at plain
          refine .inr ⟨rfl, ?_, ?_, plain.1.1.1.1.1⟩
          · exact fun eq => noQuote (beq_iff_eq.2 eq)
          · exact fun eq => noEscape (beq_iff_eq.2 eq)

section

variable {whole : List Char} {acc k : List Char}

theorem readString_quote (acc : List Char) (short : ('"' :: k).length < whole.length) :
    ∃ shorter, @readString whole acc ('"' :: k) short =
      some ⟨String.ofList acc.reverse, k, shorter⟩ := by
  rw [readString, if_pos rfl]
  exact ⟨_, rfl⟩

theorem readString_escape {c : Char} {cs : List Char} (read : readEscape? cs = some (c, k))
    (short : ('\\' :: cs).length < whole.length) (shorter : k.length < whole.length) :
    @readString whole acc ('\\' :: cs) short = readString (c :: acc) k shorter := by
  rw [readString, if_neg (by decide), if_pos rfl]
  split
  · next none => cases none.symm.trans read
  · next some =>
    cases some.symm.trans read
    rfl

theorem readString_plain {c : Char} (noQuote : c ≠ '"') (noEscape : c ≠ '\\')
    (printed : ¬ c.toNat < 0x20) (short : (c :: k).length < whole.length)
    (shorter : k.length < whole.length) :
    @readString whole acc (c :: k) short = readString (c :: acc) k shorter := by
  rw [readString, if_neg noQuote, if_neg noEscape, if_neg printed]

/-- A character is read from what it is written as. -/
theorem readString_escaped (c : Char) (short : (escaped c ++ k).length < whole.length)
    (shorter : k.length < whole.length) :
    @readString whole acc (escaped c ++ k) short = readString (c :: acc) k shorter := by
  rcases escaped_cases c with ⟨cs, written, read⟩ | ⟨written, noQuote, noEscape, printed⟩
  · simp only [written]
    exact readString_escape (read k) _ shorter
  · simp only [written]
    exact readString_plain noQuote noEscape printed _ shorter

theorem readString_escapedPiece (p : Text.Piece)
    (short : (escapedPiece p ++ k).length < whole.length) (shorter : k.length < whole.length) :
    @readString whole acc (escapedPiece p ++ k) short =
      readString (p.toChar :: acc) k shorter := by
  cases p with
  | char c => exact readString_escaped c short shorter
  | stray b => exact readString_escape (readEscape?_hex (by decide) k) short shorter

/-- Pieces are read up to the quote that ends the string. -/
theorem readString_flatMap {α : Type} {write : α → List Char} {char : α → Char}
    (each : ∀ a acc k (short : (write a ++ k).length < whole.length)
      (shorter : k.length < whole.length),
      @readString whole acc (write a ++ k) short = readString (char a :: acc) k shorter)
    (acc : List Char) (l : List α)
    (short : (l.flatMap write ++ '"' :: k).length < whole.length) :
    ∃ shorter, @readString whole acc (l.flatMap write ++ '"' :: k) short =
      some ⟨String.ofList (acc.reverse ++ l.map char), k, shorter⟩ := by
  -- The characters that were read are in `acc`, in reverse order.
  induction l generalizing acc with
  | nil =>
    obtain ⟨shorter, read⟩ := readString_quote acc short
    refine ⟨shorter, read.trans ?_⟩
    rw [List.map_nil, List.append_nil]
  | cons a l ih =>
    have shorter : (l.flatMap write ++ '"' :: k).length < whole.length := by
      rw [List.flatMap_cons, List.append_assoc, List.length_append] at short
      omega
    obtain ⟨rest, read⟩ := ih (char a :: acc) shorter
    refine ⟨rest, ?_⟩
    simp only [List.flatMap_cons, List.append_assoc] at short ⊢
    rw [each a acc _ short shorter, read, List.reverse_cons, List.append_assoc, List.map_cons]
    rfl

theorem readString_string (s : String)
    (short : (s.toList.flatMap escaped ++ '"' :: k).length < whole.length) :
    ∃ shorter, @readString whole [] (s.toList.flatMap escaped ++ '"' :: k) short =
      some ⟨s, k, shorter⟩ := by
  have each (c : Char) (acc k : List Char) (short : (escaped c ++ k).length < whole.length)
      (shorter : k.length < whole.length) :
      @readString whole acc (escaped c ++ k) short = readString (id c :: acc) k shorter :=
    readString_escaped c short shorter
  obtain ⟨shorter, read⟩ := readString_flatMap each [] s.toList short
  refine ⟨shorter, read.trans ?_⟩
  simp

theorem readString_bytes (t : Text)
    (short : (t.pieces.flatMap escapedPiece ++ '"' :: k).length < whole.length) :
    ∃ shorter, @readString whole [] (t.pieces.flatMap escapedPiece ++ '"' :: k) short =
      some ⟨t.lossy, k, shorter⟩ :=
  readString_flatMap (fun p _ _ short shorter => readString_escapedPiece p short shorter) []
    t.pieces short

end

/-! ## Values -/

/-- Whatever follows, the one value is read from what the other is written as. -/
def ReadAs (depth : Nat) (v v' : Json) : Prop :=
  ∀ k, ∃ shorter, readValue depth (v.write k) = some ⟨v', k, shorter⟩

variable {depth : Nat}

theorem readAs_of_readString {v : Json} {s : String} {cs : List Char → List Char}
    (written : ∀ k, v.write k = '"' :: cs k)
    (read : ∀ k (whole : List Char) (short : (cs k).length < whole.length),
      ∃ shorter, @readString whole [] (cs k) short = some ⟨s, k, shorter⟩) :
    ReadAs depth v (.string s) := by
  intro k
  rw [written]
  obtain ⟨shorter, read⟩ := read k ('"' :: cs k) (Nat.lt_succ_self _)
  refine ⟨shorter, ?_⟩
  unfold readValue
  split
  · next rest e =>
    cases e
    rw [read]
    rfl
  · next e => cases e
  · next e => cases e
  · next e => cases e
  · next e => cases e
  · next e => cases e
  · next isString _ _ _ _ _ => exact (isString _ rfl).elim

theorem readAs_string (s : String) : ReadAs depth (.string s) (.string s) :=
  readAs_of_readString (fun _ => rfl) fun _ _ short => readString_string s short

theorem readAs_bytes (t : Text) : ReadAs depth (.bytes t) (.string t.lossy) :=
  readAs_of_readString (fun _ => rfl) fun _ _ short => readString_bytes t short

theorem readName_writeString (name : String) (k : List Char) :
    ∃ shorter, readName (writeString name (':' :: k)) = some ⟨name, k, shorter⟩ := by
  unfold readName
  split
  · next rest e =>
    cases e
    have short := Nat.lt_succ_self (name.toList.flatMap escaped ++ '"' :: ':' :: k).length
    obtain ⟨shorter, read⟩ := @readString_string ('"' :: (_ ++ '"' :: ':' :: k)) _ name short
    refine ⟨Nat.lt_of_succ_lt shorter, ?_⟩
    rw [read]
    rfl
  · next other => exact (other _ rfl).elim

variable {name : String} {v v' : Json} {k : List Char}

theorem readField_writeString
    (read : ∃ shorter, readValue depth (v.write k) = some ⟨v', k, shorter⟩)
    (name : String) :
    ∃ shorter, readField (readValue depth) (writeString name (':' :: v.write k)) =
      some ⟨(name, v'), k, shorter⟩ := by
  obtain ⟨named, isName⟩ := readName_writeString name (v.write k)
  obtain ⟨shorter, isValue⟩ := read
  refine ⟨Nat.lt_trans shorter named, ?_⟩
  simp only [readField, isName, isValue, Option.bind_eq_bind, Option.bind_some, Option.pure_def]

/-- What may follow a field of an object. -/
def EndsField (k : List Char) : Prop :=
  ∃ rest, k = ',' :: rest ∨ k = '}' :: rest

/-- In front of what may follow it in an object, the one value is read from what the other is
written as. -/
def ReadInObject (depth : Nat) (v v' : Json) : Prop :=
  ∀ k, EndsField k → ∃ shorter, readValue depth (v.write k) = some ⟨v', k, shorter⟩

theorem ReadAs.inObject (read : ReadAs depth v v') : ReadInObject depth v v' :=
  fun k _ => read k

theorem endsField_writeFields (fields : List (String × Json)) (k : List Char) :
    EndsField (writeFields fields ('}' :: k)) := by
  cases fields with
  | nil => exact ⟨k, .inr rfl⟩
  | cons field fields => exact ⟨_, .inl rfl⟩

/-- The further fields of an object are read one after the other. -/
theorem readFields_writeFields {fields : List (String × Json)} {f : Json → Json}
    (each : ∀ field ∈ fields, ReadInObject depth field.2 (f field.2)) {whole : List Char}
    (acc : List (String × Json)) (short : (writeFields fields ('}' :: k)).length < whole.length) :
    ∃ shorter, @readFields whole (readValue depth) acc (writeFields fields ('}' :: k))
      short = some
        ⟨.object (acc.reverse ++ fields.map fun field => (field.1, f field.2)), k, shorter⟩ := by
  induction fields generalizing acc with
  | nil =>
    rw [writeFields] at short
    refine ⟨Nat.lt_of_succ_lt short, ?_⟩
    simp only [writeFields]
    unfold readFields
    split
    · next rest e =>
      cases e
      simp
    · next e => cases e
    · next isEnd _ => exact (isEnd _ rfl).elim
  | cons field fields ih =>
    obtain ⟨name, v⟩ := field
    have value : ReadInObject depth v (f v) := each (name, v) List.mem_cons_self
    obtain ⟨shorter, read⟩ := readField_writeString (value _ (endsField_writeFields fields k)) name
    have others := fun field member => each field (List.mem_cons_of_mem _ member)
    have fits : (writeFields fields ('}' :: k)).length < whole.length := by
      rw [writeFields] at short
      simp only [List.length_cons] at short
      omega
    obtain ⟨rest, readOthers⟩ := ih others ((name, f v) :: acc) fits
    refine ⟨rest, ?_⟩
    simp only [writeFields]
    unfold readFields
    split
    · next e => cases e
    · next after e =>
      cases e
      rw [read]
      refine readOthers.trans ?_
      simp
    · next isMore => exact (isMore _ rfl).elim

/-- An object is read if its fields are. -/
theorem ReadAs.object {fields : List (String × Json)} {f : Json → Json}
    (each : ∀ field ∈ fields, ReadInObject depth field.2 (f field.2)) :
    ReadAs (depth + 1) (.object fields)
      (.object (fields.map fun field => (field.1, f field.2))) := by
  intro k
  cases fields with
  | nil =>
    have written : (Json.object []).write k = '{' :: '}' :: k := rfl
    rw [written]
    refine ⟨Nat.lt_succ_of_lt (Nat.lt_succ_self _), ?_⟩
    unfold readValue
    rfl
  | cons field fields =>
    obtain ⟨name, v⟩ := field
    have value : ReadInObject depth v (f v) := each (name, v) List.mem_cons_self
    have others := fun field member => each field (List.mem_cons_of_mem _ member)
    obtain ⟨first, read⟩ := readField_writeString (value _ (endsField_writeFields fields k)) name
    have written : (Json.object ((name, v) :: fields)).write k =
        '{' :: writeString name (':' :: v.write (writeFields fields ('}' :: k))) := rfl
    rw [written]
    obtain ⟨shorter, readOthers⟩ := readFields_writeFields others [(name, f v)]
      (Nat.lt_trans first (Nat.lt_succ_self (List.length _)) : _ < ('{' :: _ : List Char).length)
    refine ⟨shorter, ?_⟩
    unfold readValue
    split
    · next e => cases e
    · next e => cases e
    · next e => cases e
    · next e => cases e
    · next e => cases e
    · next rest e =>
      cases e
      dsimp only
      split
      · next e => cases e
      · rw [read]
        exact readOthers
    · next isObject => exact (isObject _ rfl).elim

/-- A text is the value that is read from all of it. -/
theorem parse?_of_readAs (read : ReadAs maxDepth v v') : parse? (v.write []) = some v' := by
  obtain ⟨shorter, first⟩ := read []
  unfold parse?
  rw [first]
  rfl

end ImpHost.Json
