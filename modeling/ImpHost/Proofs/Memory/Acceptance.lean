import ImpHost.Proofs.Memory

/-!
Which texts are stores (`Memory.accepted_whatever_follows`).

A store is what the JSON value at the front of a trimmed text stands for (`Memory.Stands`): `null`
for the empty store, and an object for the store that binds what the last field of each name denotes
(`Memory.Binds`). The fields are sorted by name first, which keeps those of one name in their order,
so that the last of them is still the one that counts.
-/

namespace ImpHost

open Json Text

namespace Memory

/-- The value of the language that a JSON value denotes: a boolean, or an integer that is spelled
without fraction and exponent. -/
inductive Denotes : Json → Value → Prop
  | bool (b : Bool) : Denotes (.bool b) (.bool b)
  | int {n : Numeral} {i : Int64} : n.fraction = [] → n.exponent = none → n.toInt = i.toInt →
    Denotes (.number (String.ofList n.spelled)) (.int i)

theorem toValue_of_denotes {v : Json} {w : Value} (denotes : Denotes v w) :
    (Scalar.ofJson v).toValue = .ok w := by
  cases denotes with
  | bool b => rfl
  | @int n i noFraction noExponent same =>
    have spelled : n.SpellsInt64 := ⟨noFraction, noExponent, same ▸ Value.fits_toInt i⟩
    rw [Scalar.ofJson, Scalar.toValue_numeral, if_pos spelled, same, Int64.ofInt_toInt]

theorem Denotes.unique {v : Json} {w w' : Value} (left : Denotes v w) (right : Denotes v w') :
    w = w' :=
  Except.ok.inj ((toValue_of_denotes left).symm.trans (toValue_of_denotes right))

theorem denotes_of_toValue {depth : Nat} {us : List Char} {v : Json} {w : Value}
    (spells : Spells depth us v) (value : (Scalar.ofJson v).toValue = .ok w) : Denotes v w := by
  cases v with
  | bool b =>
    cases value
    exact .bool b
  | number s =>
    obtain ⟨n, rfl⟩ := spells.numeral
    rw [Scalar.ofJson, Scalar.toValue_numeral] at value
    split at value
    · next int =>
      cases value
      obtain ⟨noFraction, noExponent, low, high⟩ := int
      refine .int noFraction noExponent (Int64.toInt_ofInt_of_le low ?_).symm
      exact Int.lt_of_le_sub_one high
    · cases value
  | null => cases value
  | string s => cases value
  | bytes t => cases value
  | array vs => cases value
  | object fs => cases value

/-! ## Fields -/

section

variable {fields : List (String × Json)}

/-- The value of the last field with a name. -/
def lastValue? (fields : List (String × Json)) (x : String) : Option Json :=
  fields.reverse.lookup x

theorem lastValue?_cons (f : String × Json) (fields : List (String × Json)) (x : String) :
    lastValue? (f :: fields) x = (lastValue? fields x).or (if x = f.1 then some f.2 else none) := by
  rw [lastValue?, List.reverse_cons, List.lookup_append, Table.lookup_cons]
  rfl

theorem isSome_lastValue?_iff (x : String) :
    (lastValue? fields x).isSome ↔ x ∈ fields.map Prod.fst := by
  rw [lastValue?, Table.isSome_lookup_iff, List.map_reverse, List.mem_reverse]

/-- Of fields in order the last of each name are kept. -/
theorem lookup_lastOfEach (inOrder : fields.Pairwise fun f g => f.1 ≤ g.1) (x : String) :
    (lastOfEach fields).lookup x = lastValue? fields x := by
  fun_induction lastOfEach fields with
  | case1 => rfl
  | case2 f => rfl
  | case3 f g rest same ih =>
    rw [ih (List.pairwise_cons.1 inOrder).2, lastValue?_cons f]
    split
    · next here =>
      have later : (lastValue? (g :: rest) x).isSome := by
        rw [isSome_lastValue?_iff, here, same]
        exact List.mem_cons_self
      obtain ⟨v, found⟩ := Option.isSome_iff_exists.1 later
      rw [found]
      rfl
    · rw [Option.or_none]
  | case4 f g rest other ih =>
    obtain ⟨first, inOrder⟩ := List.pairwise_cons.1 inOrder
    rw [Table.lookup_cons, ih inOrder, lastValue?_cons f]
    split
    · next here =>
      have later : lastValue? (g :: rest) x = none := by
        rw [← Option.not_isSome_iff_eq_none, isSome_lastValue?_iff]
        intro member
        obtain ⟨h, among, same⟩ := List.mem_map.1 member
        have least : g.1 ≤ h.1 := by
          rcases List.mem_cons.1 among with rfl | later
          · exact String.le_refl _
          · exact (List.pairwise_cons.1 inOrder).1 h later
        rw [same, here] at least
        exact other (String.le_antisymm (first g List.mem_cons_self) least)
      rw [later]
      rfl
    · rw [Option.or_none]

theorem lastValue?_filter (fields : List (String × Json)) (x : String) :
    lastValue? (fields.filter fun f => f.1 = x) x = lastValue? fields x := by
  induction fields with
  | nil => rfl
  | cons f fields ih =>
    by_cases here : f.1 = x
    · rw [List.filter_cons_of_pos (by simpa using here), lastValue?_cons, lastValue?_cons, ih]
    · rw [List.filter_cons_of_neg (by simpa using here), lastValue?_cons, ih,
        if_neg (Ne.symm here), Option.or_none]

theorem lookup_sortedFields (fields : List (String × Json)) (x : String) :
    (sortedFields fields).lookup x = lastValue? fields x := by
  rw [sortedFields, lookup_lastOfEach (Table.pairwise_mergeSort fields), ← lastValue?_filter,
    Table.filter_mergeSort, lastValue?_filter]

theorem toValue_of_entryOf {f : String × Json} {entry : String × Value}
    (read : entryOf f = .ok entry) :
    entry.1 = f.1 ∧ (Scalar.ofJson f.2).toValue = .ok entry.2 := by
  unfold entryOf at read
  split at read
  · next v value =>
    cases read
    exact ⟨rfl, value⟩
  · cases read

/-- Each name is bound to the value that its field denotes. -/
theorem lookup_of_mapM {entries : List (String × Value)} (read : fields.mapM entryOf = .ok entries)
    (x : String) :
    Option.Rel (fun v w => (Scalar.ofJson v).toValue = .ok w) (fields.lookup x)
      (entries.lookup x) := by
  induction fields generalizing entries with
  | nil =>
    cases read
    exact .none
  | cons f fields ih =>
    rw [List.mapM_cons] at read
    obtain ⟨entry, first, rest⟩ := bind_eq_ok.1 read
    obtain ⟨others, found, made⟩ := bind_eq_ok.1 rest
    cases made
    obtain ⟨name, value⟩ := toValue_of_entryOf first
    rw [Table.lookup_cons, Table.lookup_cons, name]
    split
    · exact .some value
    · exact ih found

theorem exists_mapM (each : ∀ f ∈ fields, ∃ w, (Scalar.ofJson f.2).toValue = .ok w) :
    ∃ entries, fields.mapM entryOf = .ok entries := by
  induction fields with
  | nil => exact ⟨[], rfl⟩
  | cons f fields ih =>
    obtain ⟨w, value⟩ := each f List.mem_cons_self
    obtain ⟨entries, found⟩ := ih fun g member => each g (List.mem_cons_of_mem _ member)
    refine ⟨(f.1, w) :: entries, ?_⟩
    rw [List.mapM_cons, found, entryOf, value]
    rfl

/-- The store binds what the last field of each name denotes, with the names in order. -/
structure Binds (fields : List (String × Json)) (m : Memory) : Prop where
  inOrder : m.keys.Pairwise (· < ·)
  answers : ∀ x, Option.Rel Denotes (lastValue? fields x) (m.get? x)

/-- The values of the fields are spelled by texts. -/
def Spelled (fields : List (String × Json)) : Prop :=
  ∀ f ∈ fields, ∃ depth us, Spells depth us f.2

theorem mem_of_lastValue? {x : String} {v : Json} (last : lastValue? fields x = some v) :
    (x, v) ∈ fields := by
  obtain ⟨before, after, split, -⟩ := List.lookup_eq_some_iff.1 last
  rw [← List.mem_reverse, split]
  simp

theorem rel_mono {α β : Type} {r r' : α → β → Prop} {a : Option α} {b : Option β}
    (rel : Option.Rel r a b) (each : ∀ {v w}, a = some v → r v w → r' v w) :
    Option.Rel r' a b := by
  cases rel with
  | none => exact .none
  | some related => exact .some (each rfl related)

theorem rel_unique {α β : Type} {r : α → β → Prop} {a : Option α} {b b' : Option β}
    (left : Option.Rel r a b) (right : Option.Rel r a b')
    (unique : ∀ {v w w'}, r v w → r v w' → w = w') : b = b' := by
  cases left with
  | none =>
    cases right
    rfl
  | some left =>
    cases right with
    | some right => rw [unique left right]

theorem binds_of_ofFields {m : Memory} (spelled : Spelled fields)
    (read : ofFields fields = .ok m) : Binds fields m := by
  refine ⟨pairwise_keys_of_ofFields read, fun x => ?_⟩
  have values := lookup_of_mapM (mapM_of_ofFields read) x
  rw [lookup_sortedFields] at values
  refine rel_mono values fun last value => ?_
  obtain ⟨depth, us, spells⟩ := spelled _ (mem_of_lastValue? last)
  exact denotes_of_toValue spells value

theorem eq_of_binds {m m' : Memory} (binds : Binds fields m) (binds' : Binds fields m') :
    m = m' := by
  have same (x : String) : m.get? x = m'.get? x :=
    rel_unique (binds.answers x) (binds'.answers x) Denotes.unique
  have sorted (m : Memory) (binds : Binds fields m) : m.sorted = m.entries :=
    Table.sorted_of_inKeyOrder ((List.pairwise_map.1 binds.inOrder).imp Std.le_of_lt)
  apply Table.ext
  rw [← sorted m binds, ← sorted m' binds', Table.sorted_congr same]

/-- The fields of an object denote the store that binds them, and no other. -/
theorem ofFields_eq_ok_iff (spelled : Spelled fields) {m : Memory} :
    ofFields fields = .ok m ↔ Binds fields m := by
  refine ⟨binds_of_ofFields spelled, fun binds => ?_⟩
  obtain ⟨entries, found⟩ : ∃ entries, (sortedFields fields).mapM entryOf = .ok entries := by
    refine exists_mapM fun f member => ?_
    have last : lastValue? fields f.1 = some f.2 := by
      rw [← lookup_sortedFields, Table.lookup_eq_some_iff_mem (nodup_sortedFields fields)]
      exact member
    have answer := binds.answers f.1
    rw [last] at answer
    generalize m.get? f.1 = bound at answer
    cases answer with
    | some denotes => exact ⟨_, toValue_of_denotes denotes⟩
  have read : ofFields fields = .ok (Table.ofList entries) := by
    rw [ofFields_eq, found]
    rfl
  rw [read, eq_of_binds (binds_of_ofFields spelled read) binds]

end

/-! ## Texts -/

/-- The store that a JSON value stands for. -/
inductive Stands : Json → Memory → Prop
  | null : Stands .null ∅
  | object {fields : List (String × Json)} {m : Memory} : Binds fields m → Stands (.object fields) m

theorem spelled_of_listed {value : List Char → Json → Prop} {ts : List Char}
    {fields : List (String × Json)} (listed : Listed (Padded (FieldText value)) ts fields) :
    ∀ f ∈ fields, ∃ us, value us f.2 := by
  have each {us : List Char} {f : String × Json} (padded : Padded (FieldText value) us f) :
      ∃ us, value us f.2 := by
    obtain ⟨-, field, -⟩ := padded
    obtain ⟨-, -, -, spells⟩ := field
    exact ⟨_, spells⟩
  induction listed with
  | single padded =>
    intro f member
    cases List.mem_singleton.1 member
    exact each padded
  | cons padded _ ih =>
    intro f member
    rcases List.mem_cons.1 member with rfl | later
    · exact each padded
    · exact ih f later

theorem spelled_of_object {depth : Nat} {us : List Char} {fields : List (String × Json)}
    (spells : Spells depth us (.object fields)) : Spelled fields := by
  cases depth with
  | zero => nomatch spells
  | succ depth =>
    rcases spells with plain | compound
    · nomatch plain
    · cases compound with
      | object entries =>
        cases entries with
        | none => exact fun f member => nomatch member
        | some listed =>
          intro f member
          obtain ⟨us, spells⟩ := spelled_of_listed listed f member
          exact ⟨depth, us, spells⟩

/-- What a text spells is the store that it stands for. -/
theorem ofValue_eq_ok_iff {depth : Nat} {us : List Char} {v : Json} (spells : Spells depth us v)
    {m : Memory} : ofValue v = .ok m ↔ Stands v m := by
  cases v with
  | null =>
    refine ⟨fun read => ?_, fun stands => ?_⟩
    · cases read
      exact .null
    · cases stands
      rfl
  | object fields =>
    refine (ofFields_eq_ok_iff (spelled_of_object spells)).trans ⟨.object, fun stands => ?_⟩
    cases stands with
    | object binds => exact binds
  | bool b => exact ⟨nofun, nofun⟩
  | number s => exact ⟨nofun, nofun⟩
  | string s => exact ⟨nofun, nofun⟩
  | bytes t => exact ⟨nofun, nofun⟩
  | array vs => exact ⟨nofun, nofun⟩

/-- A trimmed text does not start with a blank. -/
theorem isBlank_of_trimSpace {cs rest : List Char} {c : Char}
    (trimmed : trimSpace cs = c :: rest) : isBlank c = false := by
  have front : trimSpace cs <+: cs.dropWhile isSpace := by
    rw [trimSpace, ← List.reverse_suffix, List.reverse_reverse]
    exact List.dropWhile_suffix isSpace
  obtain ⟨more, split⟩ := front
  have stands := List.head?_dropWhile_not isSpace cs
  rw [← split, trimmed] at stands
  cases blank : isBlank c with
  | false => rfl
  | true =>
    simp only [isBlank, Bool.or_eq_true, beq_iff_eq] at blank
    rcases blank with ((rfl | rfl) | rfl) | rfl <;> cases stands

theorem skipBlanks_trimSpace (cs : List Char) : skipBlanks (trimSpace cs) = trimSpace cs := by
  cases trimmed : trimSpace cs with
  | nil => rfl
  | cons c rest =>
    rw [skipBlanks, List.dropWhile_cons_of_neg (by simp [isBlank_of_trimSpace trimmed])]

/-- A value at the front of a text is read as what it stands for, whatever follows it. -/
theorem ofJson_of_front {text : Text} {us rest : List Char} {v : Json}
    (split : trimSpace text.chars = us ++ rest) (spells : Spells maxDepth us v)
    (ends : ∀ s, v = .number s → Ends rest) : ofJson text = ofValue v := by
  have front : skipBlanks (trimSpace text.chars) = us ++ rest := by
    rw [skipBlanks_trimSpace, split]
  have nonempty : (trimSpace text.chars).isEmpty = false := by
    obtain ⟨c, cs, rfl, -⟩ := spells.starts
    rw [split]
    rfl
  have first : first? (trimSpace text.chars) = some v := by
    obtain ⟨shorter, read⟩ := spells.readValue ends front
    rw [first?, read]
    rfl
  rw [ofJson, nonempty, first]
  rfl

/-- A store is the value at the front of its text. -/
theorem front_of_ofJson {text : Text} {m : Memory} (read : ofJson text = .ok m)
    (nonempty : trimSpace text.chars ≠ []) :
    ∃ us rest v, trimSpace text.chars = us ++ rest ∧ Spells maxDepth us v ∧ ofValue v = .ok m := by
  unfold ofJson at read
  dsimp only at read
  rw [List.isEmpty_eq_false_iff.2 nonempty, if_neg Bool.false_ne_true] at read
  split at read
  · next v first =>
    obtain ⟨p, found, rfl⟩ := Option.map_eq_some_iff.1 first
    obtain ⟨xs, us, blanks, spells, split⟩ := sound_readValue maxDepth _ p found
    have front : us ++ p.rest = trimSpace text.chars := by
      have skipped := spells.starts.skipBlanks_append blanks p.rest
      rw [← skipped, ← split, skipBlanks_trimSpace]
    exact ⟨us, p.rest, p.tree, front.symm, spells, read⟩
  · cases read

/-- A text is a store if it is blank, or if a store stands at its front: whatever follows is
ignored. Of a text that is one value and nothing else, the store is the one that the value stands
for. -/
theorem accepted_whatever_follows (text : Text) (m : Memory) :
    (ofJson text = .ok m ↔
      trimSpace text.chars = [] ∧ m = ∅ ∨
        ∃ us rest v, trimSpace text.chars = us ++ rest ∧ Spells maxDepth us v ∧ Stands v m) ∧
      ∀ v, Spells maxDepth (trimSpace text.chars) v → (ofJson text = .ok m ↔ Stands v m) := by
  refine ⟨⟨fun read => ?_, ?_⟩, fun v spells => ?_⟩
  · by_cases blank : trimSpace text.chars = []
    · rw [ofJson, blank] at read
      cases read
      exact .inl ⟨blank, rfl⟩
    · obtain ⟨us, rest, v, split, spells, value⟩ := front_of_ofJson read blank
      exact .inr ⟨us, rest, v, split, spells, (ofValue_eq_ok_iff spells).1 value⟩
  · rintro (⟨blank, rfl⟩ | ⟨us, rest, v, split, spells, stands⟩)
    · rw [ofJson, blank]
      rfl
    · rw [ofJson_of_front split spells fun s number => by cases number; cases stands]
      exact (ofValue_eq_ok_iff spells).2 stands
  · rw [ofJson_of_front (List.append_nil _).symm spells fun _ _ => Ends.nil]
    exact ofValue_eq_ok_iff spells

/-- Two objects are taken for the first one. -/
theorem accepted_with_second_object :
    ofJson (Text.ofString "\x7b\"a\":1\x7d\x7b\"b\":2\x7d") = .ok (Table.set ∅ "a" (.int 1)) ∧
      ¬ ∃ v, Spells maxDepth
        (trimSpace (Text.ofString "\x7b\"a\":1\x7d\x7b\"b\":2\x7d").chars) v := by
  let m : Memory := Table.set ∅ "a" (.int 1)
  let k := "\x7b\"b\":2\x7d".toList
  have text : "\x7b\"a\":1\x7d\x7b\"b\":2\x7d" = String.ofList (m.toJson.write k) := by
    decide +kernel
  have trimmed : trimSpace (m.toJson.write k) = m.toJson.write k := by decide +kernel
  have sorted : m.inOrder = m := by decide +kernel
  rw [text]
  refine ⟨(ofJson_write m trimmed).trans (by rw [sorted]), ?_⟩
  rw [Text.chars_ofString, String.toList_ofList, trimmed]
  rintro ⟨v, spells⟩
  -- The value would be read from the whole text, but it is read from the first object.
  have front : skipBlanks (m.toJson.write k) = m.toJson.write k ++ [] := by decide +kernel
  obtain ⟨_, whole⟩ := spells.readValue (fun _ _ => Ends.nil) front
  obtain ⟨_, first⟩ := m.readAs_toJson k
  have nothing : k = [] := congrArg Parsed.rest (Option.some.inj (first.symm.trans whole))
  exact absurd nothing (by decide)

end Memory

end ImpHost
