import ImpHost.Proofs.Json.Scanning

/-!
The reader accepts exactly the grammar.

Arrays and objects are read entry by entry (`Further`, `Within`), and what holds of the reader of
one entry holds of the list: if the reader accepts only entries, the list is one of entries, and if
it accepts all of them, so does the list (`Sound`, `Complete`). A step of the reader is one of the
forms of the grammar (`readValue_cases`), and by induction on the depth every value that is read is
spelled by what was read (`sound_readValue`), and every value is read from what spells it
(`Spells.readValue`).
-/

namespace ImpHost.Json

open Text

/-! ## Lists -/

/-- What closes a list or goes on with it. -/
def Closes (c : Char) : Prop :=
  c = ',' ∨ c = ']' ∨ c = '}'

theorem Closes.ends {c : Char} (closes : Closes c) {bs : List Char} (blanks : Blanks bs)
    (k : List Char) : Ends (bs ++ c :: k) := by
  intro d head
  cases bs with
  | nil =>
    cases head
    exact .inr closes
  | cons b bs =>
    cases head
    exact .inl (blanks d List.mem_cons_self)

theorem Closes.skipBlanks_append {c : Char} (closes : Closes c) {bs : List Char}
    (blanks : Blanks bs) (k : List Char) : skipBlanks (bs ++ c :: k) = c :: k :=
  Json.skipBlanks_append blanks (by rcases closes with rfl | rfl | rfl <;> rfl)

/-- The first character is no blank, and neither closes a list nor goes on with it. -/
def Starts (us : List Char) : Prop :=
  ∃ c cs, us = c :: cs ∧ isBlank c = false ∧ ¬ Closes c

theorem Starts.skipBlanks_append {us xs : List Char} (starts : Starts us) (blanks : Blanks xs)
    (k : List Char) : skipBlanks (xs ++ (us ++ k)) = us ++ k := by
  obtain ⟨c, cs, rfl, stands, -⟩ := starts
  exact Json.skipBlanks_append blanks stands

section

variable {α : Type} {reader : (cs : List Char) → Option (Parsed α cs)}
  {entry : List Char → α → Prop}

/-- What the reader reads is an entry, after blanks. -/
def Sound (reader : (cs : List Char) → Option (Parsed α cs))
    (entry : List Char → α → Prop) : Prop :=
  ∀ cs p, reader cs = some p →
    ∃ xs us, Blanks xs ∧ entry us p.tree ∧ cs = xs ++ (us ++ p.rest)

/-- The reader reads each entry, after blanks and in front of what may follow it. -/
def Complete (reader : (cs : List Char) → Option (Parsed α cs))
    (entry : List Char → α → Prop) : Prop :=
  ∀ xs us a k, Blanks xs → entry us a → Ends k →
    ∃ shorter, reader (xs ++ (us ++ k)) = some ⟨a, k, shorter⟩

/-- The further entries of a list, up to the character that closes it. -/
inductive Further (reader : (cs : List Char) → Option (Parsed α cs)) (close : Char) :
    List Char → List α → List Char → Prop
  | close {cs rest : List Char} : skipBlanks cs = close :: rest → Further reader close cs [] rest
  | more {cs next rest : List Char} {p : Parsed α next} {as : List α} :
    skipBlanks cs = ',' :: next → reader next = some p → Further reader close p.rest as rest →
    Further reader close cs (p.tree :: as) rest

/-- All entries of a list, after the character that opens it. -/
inductive Within (reader : (cs : List Char) → Option (Parsed α cs)) (close : Char) :
    List Char → List α → List Char → Prop
  | none {cs rest : List Char} : skipBlanks cs = close :: rest → Within reader close cs [] rest
  | some {cs rest : List Char} {p : Parsed α cs} {as : List α} :
    (∀ after, skipBlanks cs ≠ close :: after) → reader cs = some p →
    Further reader close p.rest as rest → Within reader close cs (p.tree :: as) rest

/-- An entry and the further ones are a list. -/
theorem Further.listed (sound : Sound reader entry) {close : Char} {cs rest : List Char}
    {as : List α} (further : Further reader close cs as rest) {xs us : List Char} {a : α}
    (blanks : Blanks xs) (first : entry us a) :
    ∃ ts, Listed (Padded entry) ts (a :: as) ∧ xs ++ (us ++ cs) = ts ++ close :: rest := by
  induction further generalizing xs us a with
  | @close cs rest closed =>
    obtain ⟨bs, isBlanks, split⟩ := exists_blanks cs
    refine ⟨xs ++ (us ++ bs), .single (.intro blanks first isBlanks), ?_⟩
    rw [split, closed]
    simp only [List.append_assoc]
  | @more cs next rest p as comma read _ ih =>
    obtain ⟨bs, isBlanks, split⟩ := exists_blanks cs
    obtain ⟨ys, vs, nextBlanks, second, nextSplit⟩ := sound next p read
    obtain ⟨ts, listed, others⟩ := ih nextBlanks second
    refine ⟨xs ++ (us ++ bs) ++ ',' :: ts, .cons (.intro blanks first isBlanks) listed, ?_⟩
    rw [split, comma, nextSplit, others]
    simp only [List.append_assoc, List.cons_append]

theorem Within.entries (sound : Sound reader entry) {close : Char} {cs rest : List Char}
    {as : List α} (within : Within reader close cs as rest) :
    ∃ ts, Entries entry ts as ∧ cs = ts ++ close :: rest := by
  cases within with
  | none closed =>
    obtain ⟨bs, blanks, split⟩ := exists_blanks cs
    exact ⟨bs, .none blanks, closed ▸ split⟩
  | some _ read further =>
    obtain ⟨xs, us, blanks, first, split⟩ := sound _ _ read
    obtain ⟨ts, listed, whole⟩ := further.listed sound blanks first
    exact ⟨ts, .some listed, split.trans whole⟩

/-- A list is read as its first entry and the further ones. -/
theorem Listed.further (complete : Complete reader entry) {close : Char} (closes : Closes close)
    {ts : List Char} {as : List α} (listed : Listed (Padded entry) ts as) (rest : List Char) :
    ∃ p others, as = p.tree :: others ∧ reader (ts ++ close :: rest) = some p ∧
      Further reader close p.rest others rest := by
  induction listed with
  | @single ts a padded =>
    obtain @⟨xs, us, bs, _, blanks, first, isBlanks⟩ := padded
    obtain ⟨shorter, read⟩ := complete xs us a (bs ++ close :: rest) blanks first
      (closes.ends isBlanks rest)
    have whole : xs ++ (us ++ bs) ++ close :: rest = xs ++ (us ++ (bs ++ close :: rest)) := by
      simp only [List.append_assoc]
    rw [whole]
    exact ⟨_, [], rfl, read, .close (closes.skipBlanks_append isBlanks rest)⟩
  | @cons ts vs a l padded _ ih =>
    obtain @⟨xs, us, bs, _, blanks, first, isBlanks⟩ := padded
    obtain ⟨p, as, rfl, second, further⟩ := ih
    have comma : Closes ',' := .inl rfl
    obtain ⟨shorter, read⟩ := complete xs us a (bs ++ ',' :: (vs ++ close :: rest)) blanks first
      (comma.ends isBlanks _)
    have whole : xs ++ (us ++ bs) ++ ',' :: vs ++ close :: rest =
        xs ++ (us ++ (bs ++ ',' :: (vs ++ close :: rest))) := by
      simp only [List.append_assoc, List.cons_append]
    rw [whole]
    exact ⟨_, _, rfl, read, .more (comma.skipBlanks_append isBlanks _) second further⟩

theorem Listed.front (starts : ∀ {us a}, entry us a → Starts us) {ts : List Char} {as : List α}
    (listed : Listed (Padded entry) ts as) (k : List Char) :
    ∃ us rest, Starts us ∧ skipBlanks (ts ++ k) = us ++ rest := by
  have padded {ts : List Char} {a : α} (padded : Padded entry ts a) (k : List Char) :
      ∃ us rest, Starts us ∧ skipBlanks (ts ++ k) = us ++ rest := by
    obtain @⟨xs, us, bs, _, blanks, first, -⟩ := padded
    refine ⟨us, bs ++ k, starts first, ?_⟩
    simpa using (starts first).skipBlanks_append blanks (bs ++ k)
  cases listed with
  | single first => exact padded first k
  | cons first others =>
    rw [List.append_assoc]
    exact padded first _

theorem Entries.within (complete : Complete reader entry)
    (starts : ∀ {us a}, entry us a → Starts us) {close : Char} (closes : Closes close)
    {ts : List Char} {as : List α} (entries : Entries entry ts as) (rest : List Char) :
    Within reader close (ts ++ close :: rest) as rest := by
  cases entries with
  | none blanks => exact .none (closes.skipBlanks_append blanks rest)
  | some listed =>
    obtain ⟨p, others, rfl, read, further⟩ := listed.further complete closes rest
    refine .some (fun after closed => ?_) read further
    obtain ⟨us, rest, ⟨c, cs, rfl, -, noClose⟩, front⟩ := listed.front starts (close :: rest)
    cases front.symm.trans closed
    exact noClose closes

end

section

variable {item : (cs : List Char) → Option (Parsed Json cs)} {whole : List Char}

theorem further_of_readItems {acc : List Json} {cs : List Char} {short : cs.length < whole.length}
    {p : Parsed Json whole} (read : @readItems whole item acc cs short = some p) :
    ∃ vs, p.tree = .array (acc.reverse ++ vs) ∧ Further item ']' cs vs p.rest := by
  fun_induction readItems item acc cs short with
  | case1 acc cs short rest closed =>
    cases read
    exact ⟨[], by rw [List.append_nil], .close closed⟩
  | case2 => cases read
  | case3 acc cs short rest comma v found ih =>
    obtain ⟨vs, tree, further⟩ := ih read
    exact ⟨v.tree :: vs, by simpa using tree, .more comma found further⟩
  | case4 => cases read

theorem further_of_readFields {acc : List (String × Json)} {cs : List Char}
    {short : cs.length < whole.length} {p : Parsed Json whole}
    (read : @readFields whole item acc cs short = some p) :
    ∃ fs, p.tree = .object (acc.reverse ++ fs) ∧ Further (readField item) '}' cs fs p.rest := by
  fun_induction readFields item acc cs short with
  | case1 acc cs short rest closed =>
    cases read
    exact ⟨[], by rw [List.append_nil], .close closed⟩
  | case2 => cases read
  | case3 acc cs short rest comma f found ih =>
    obtain ⟨fs, tree, further⟩ := ih read
    exact ⟨f.tree :: fs, by simpa using tree, .more comma found further⟩
  | case4 => cases read

theorem Further.readItems {cs rest : List Char} {vs : List Json}
    (further : Further item ']' cs vs rest) (acc : List Json) (short : cs.length < whole.length) :
    ∃ shorter, @readItems whole item acc cs short =
      some ⟨.array (acc.reverse ++ vs), rest, shorter⟩ := by
  induction further generalizing acc with
  | @close cs rest closed =>
    unfold Json.readItems
    split
    · next here =>
      cases closed.symm.trans here
      rw [List.append_nil]
      exact ⟨Nat.lt_trans (length_of_skipBlanks closed) short, rfl⟩
    · next here => cases closed.symm.trans here
    · next noClose _ => exact (noClose _ closed).elim
  | @more cs next rest p vs comma read _ ih =>
    unfold Json.readItems
    split
    · next here => cases comma.symm.trans here
    · next here =>
      cases comma.symm.trans here
      rw [read]
      obtain ⟨shorter, others⟩ := ih (p.tree :: acc) _
      exact ⟨shorter, by simpa using others⟩
    · next noComma => exact (noComma _ comma).elim

theorem Further.readFields {cs rest : List Char} {fs : List (String × Json)}
    (further : Further (readField item) '}' cs fs rest) (acc : List (String × Json))
    (short : cs.length < whole.length) :
    ∃ shorter, @readFields whole item acc cs short =
      some ⟨.object (acc.reverse ++ fs), rest, shorter⟩ := by
  induction further generalizing acc with
  | @close cs rest closed =>
    unfold Json.readFields
    split
    · next here =>
      cases closed.symm.trans here
      rw [List.append_nil]
      exact ⟨Nat.lt_trans (length_of_skipBlanks closed) short, rfl⟩
    · next here => cases closed.symm.trans here
    · next noClose _ => exact (noClose _ closed).elim
  | @more cs next rest p vs comma read _ ih =>
    unfold Json.readFields
    split
    · next here => cases comma.symm.trans here
    · next here =>
      cases comma.symm.trans here
      rw [read]
      obtain ⟨shorter, others⟩ := ih (p.tree :: acc) _
      exact ⟨shorter, by simpa using others⟩
    · next noComma => exact (noComma _ comma).elim

/-- The name of a field and the colon after it. -/
theorem stringText_of_readName {cs : List Char} {p : Parsed String cs}
    (read : readName cs = some p) :
    ∃ xs us bs, Blanks xs ∧ StringText us p.tree ∧ Blanks bs ∧
      cs = xs ++ (us ++ (bs ++ ':' :: p.rest)) := by
  obtain ⟨xs, blanks, split⟩ := exists_blanks cs
  unfold readName at read
  split at read
  · next rest quote =>
    obtain ⟨name, string, read⟩ := Option.bind_eq_some_iff.1 read
    obtain ⟨bs, isBlanks, after⟩ := exists_blanks name.rest
    split at read
    · next rest colon =>
      cases read
      obtain ⟨body, chars, spells, front, tree⟩ := stringBody_of_readString string
      refine ⟨xs, '"' :: (body ++ ['"']), bs, blanks, ⟨body, rfl, ?_⟩, isBlanks, ?_⟩
      · rw [tree]
        simpa using spells
      · refine split.trans ?_
        dsimp only
        rw [quote, front, after, colon]
        simp
    · cases read
  · cases read

theorem StringText.readName {xs us bs : List Char} {name : String} (blanks : Blanks xs)
    (text : StringText us name) (isBlanks : Blanks bs) (k : List Char) :
    ∃ shorter, readName (xs ++ (us ++ (bs ++ ':' :: k))) = some ⟨name, k, shorter⟩ := by
  obtain ⟨body, rfl, spells⟩ := text
  have front : skipBlanks (xs ++ ('"' :: (body ++ ['"']) ++ (bs ++ ':' :: k))) =
      '"' :: (body ++ '"' :: (bs ++ ':' :: k)) := by
    simpa using @skipBlanks_append xs (body ++ '"' :: (bs ++ ':' :: k)) '"' blanks rfl
  have colon : skipBlanks (bs ++ ':' :: k) = ':' :: k := skipBlanks_append isBlanks rfl
  refine ⟨by simp only [List.length_append, List.length_cons]; omega, ?_⟩
  unfold Json.readName
  split
  · next rest quote =>
    cases front.symm.trans quote
    obtain ⟨shorter, read⟩ := spells.read ('"' :: (body ++ '"' :: (bs ++ ':' :: k))) []
      (bs ++ ':' :: k) (Nat.lt_succ_self _)
    rw [read, Option.bind_eq_bind, Option.bind_some]
    split
    · next after here =>
      cases colon.symm.trans here
      simp
    · next noColon => exact (noColon _ colon).elim
  · next noQuote => exact (noQuote _ front).elim

theorem sound_readField {value : List Char → Json → Prop} (sound : Sound item value) :
    Sound (readField item) (FieldText value) := by
  intro cs p read
  obtain ⟨name, isName, read⟩ := Option.bind_eq_some_iff.1 read
  obtain ⟨v, isValue, read⟩ := Option.bind_eq_some_iff.1 read
  cases read
  obtain ⟨xs, us, bs, blanks, text, isBlanks, split⟩ := stringText_of_readName isName
  obtain ⟨ys, vs, moreBlanks, spells, rest⟩ := sound _ v isValue
  refine ⟨xs, us ++ (bs ++ ':' :: (ys ++ vs)), blanks,
    .intro text isBlanks moreBlanks spells, ?_⟩
  refine (split.trans (congrArg (fun cs => xs ++ (us ++ (bs ++ ':' :: cs))) rest)).trans ?_
  simp only [List.append_assoc, List.cons_append]

theorem complete_readField {value : List Char → Json → Prop} (complete : Complete item value) :
    Complete (readField item) (FieldText value) := by
  intro xs us f k blanks field ends
  obtain @⟨ns, bs, ys, vs, name, v, text, isBlanks, moreBlanks, spells⟩ := field
  obtain ⟨named, isName⟩ := text.readName blanks isBlanks (ys ++ (vs ++ k))
  obtain ⟨shorter, isValue⟩ := complete ys vs v k moreBlanks spells ends
  have whole : xs ++ (ns ++ (bs ++ ':' :: (ys ++ vs)) ++ k) =
      xs ++ (ns ++ (bs ++ ':' :: (ys ++ (vs ++ k)))) := by
    simp only [List.append_assoc, List.cons_append]
  rw [whole]
  refine ⟨Nat.lt_trans shorter named, ?_⟩
  simp only [readField, isName, isValue, Option.bind_eq_bind, Option.bind_some, Option.pure_def]

end

/-! ## Values -/

theorem append_of_readWord {word cs : List Char} {v : Json} {p : Parsed Json cs}
    (read : readWord word v cs = some p) : cs = word ++ p.rest ∧ p.tree = v := by
  unfold readWord at read
  split at read
  · next front =>
    cases read
    exact ⟨(List.prefix_iff_eq_append.1 (List.isPrefixOf_iff_prefix.1 front.1)).symm, rfl⟩
  · cases read

theorem numeral_of_readNumber {cs : List Char} {p : Parsed Json cs}
    (read : readNumber cs = some p) :
    ∃ n : Numeral, cs = n.spelled ++ p.rest ∧ p.tree = .number (String.ofList n.spelled) := by
  obtain ⟨length, found, read⟩ := Option.bind_eq_some_iff.1 read
  obtain ⟨n, spelled⟩ := numeral_of_length found
  split at read
  · cases read
    exact ⟨n, by rw [← spelled, List.take_append_drop], by rw [← spelled]⟩
  · cases read

/-- What reading a value comes to. -/
theorem readValue_cases {depth : Nat} {cs : List Char} {p : Parsed Json cs}
    (read : readValue depth cs = some p) :
    (∃ us, Plain us p.tree ∧ skipBlanks cs = us ++ p.rest) ∨
      ∃ inner rest, depth = inner + 1 ∧
        ((∃ vs, p.tree = .array vs ∧ skipBlanks cs = '[' :: rest ∧
            Within (readValue inner) ']' rest vs p.rest) ∨
          ∃ fs, p.tree = .object fs ∧ skipBlanks cs = '{' :: rest ∧
            Within (readField (readValue inner)) '}' rest fs p.rest) := by
  unfold readValue at read
  split at read
  · next rest front =>
    obtain ⟨name, string, rfl⟩ := Option.map_eq_some_iff.1 read
    obtain ⟨body, chars, spells, text, tree⟩ := stringBody_of_readString string
    refine .inl ⟨'"' :: (body ++ ['"']), .string ⟨body, rfl, ?_⟩, ?_⟩
    · rw [tree]
      simpa using spells
    · rw [front, text]
      simp [Parsed.map]
  · obtain ⟨word, found, rfl⟩ := Option.map_eq_some_iff.1 read
    obtain ⟨split, tree⟩ := append_of_readWord found
    exact .inl ⟨_, by rw [Parsed.widen, tree]; exact .true, split⟩
  · obtain ⟨word, found, rfl⟩ := Option.map_eq_some_iff.1 read
    obtain ⟨split, tree⟩ := append_of_readWord found
    exact .inl ⟨_, by rw [Parsed.widen, tree]; exact .false, split⟩
  · obtain ⟨word, found, rfl⟩ := Option.map_eq_some_iff.1 read
    obtain ⟨split, tree⟩ := append_of_readWord found
    exact .inl ⟨_, by rw [Parsed.widen, tree]; exact .null, split⟩
  · next rest front =>
    dsimp only at read
    split at read
    · cases read
    · next inner =>
      refine .inr ⟨inner, rest, rfl, .inl ?_⟩
      split at read
      · next after closed =>
        cases read
        exact ⟨[], rfl, front, .none closed⟩
      · next noClose =>
        split at read
        · cases read
        · next v first =>
          obtain ⟨vs, tree, further⟩ := further_of_readItems read
          exact ⟨v.tree :: vs, tree, front, .some noClose first further⟩
  · next rest front =>
    dsimp only at read
    split at read
    · cases read
    · next inner =>
      refine .inr ⟨inner, rest, rfl, .inr ?_⟩
      split at read
      · next after closed =>
        cases read
        exact ⟨[], rfl, front, .none closed⟩
      · next noClose =>
        split at read
        · cases read
        · next f first =>
          obtain ⟨fs, tree, further⟩ := further_of_readFields read
          exact ⟨f.tree :: fs, tree, front, .some noClose first further⟩
  · obtain ⟨number, found, rfl⟩ := Option.map_eq_some_iff.1 read
    obtain ⟨n, split, tree⟩ := numeral_of_readNumber found
    exact .inl ⟨_, by rw [Parsed.widen, tree]; exact .number n, split⟩

/-- What is read as a value spells it, after blanks. -/
theorem sound_readValue (depth : Nat) : Sound (readValue depth) (Spells depth) := by
  induction depth with
  | zero =>
    intro cs p read
    obtain ⟨xs, blanks, split⟩ := exists_blanks cs
    rcases readValue_cases read with ⟨us, plain, front⟩ | ⟨inner, rest, deep, -⟩
    · exact ⟨xs, us, blanks, plain, front ▸ split⟩
    · cases deep
  | succ depth ih =>
    intro cs p read
    obtain ⟨xs, blanks, split⟩ := exists_blanks cs
    rcases readValue_cases read with ⟨us, plain, front⟩ |
      ⟨inner, rest, deep, ⟨vs, tree, front, within⟩ | ⟨fs, tree, front, within⟩⟩
    · exact ⟨xs, us, blanks, .inl plain, front ▸ split⟩
    · cases deep
      obtain ⟨ts, entries, whole⟩ := within.entries ih
      refine ⟨xs, '[' :: (ts ++ [']']), blanks, .inr (tree ▸ .array entries), ?_⟩
      rw [front, whole] at split
      simpa using split
    · cases deep
      obtain ⟨ts, entries, whole⟩ := within.entries (sound_readField ih)
      refine ⟨xs, '{' :: (ts ++ ['}']), blanks, .inr (tree ▸ .object entries), ?_⟩
      rw [front, whole] at split
      simpa using split

theorem readWord_of_front {word cs k : List Char} (nonempty : word ≠ []) (v : Json)
    (front : cs = word ++ k) : ∃ shorter, readWord word v cs = some ⟨v, k, shorter⟩ := by
  subst front
  have starts : word.isPrefixOf (word ++ k) ∧ 0 < word.length :=
    ⟨List.isPrefixOf_iff_prefix.2 (List.prefix_append word k), List.length_pos_iff.2 nonempty⟩
  refine ⟨by rw [List.length_append]; omega, ?_⟩
  unfold readWord
  rw [dif_pos starts]
  simp only [List.drop_left]

theorem readNumber_of_length {cs : List Char} {n : Nat} (length : numberLength? cs = some n)
    (nonempty : 0 < n ∧ 0 < cs.length) :
    ∃ shorter, readNumber cs =
      some ⟨.number (String.ofList (cs.take n)), cs.drop n, shorter⟩ := by
  unfold readNumber
  rw [length]
  exact ⟨_, dif_pos nonempty⟩

theorem readNumber_of_front {cs k : List Char} (n : Numeral) (ends : Ends k)
    (front : cs = n.spelled ++ k) :
    ∃ shorter, readNumber cs = some ⟨.number (String.ofList n.spelled), k, shorter⟩ := by
  subst front
  obtain ⟨c, cs, spelled, -⟩ := n.exists_spelled
  have nonempty : 0 < n.spelled.length := by
    rw [spelled]
    exact Nat.succ_pos _
  have whole : 0 < (n.spelled ++ k).length := by
    rw [List.length_append]
    omega
  obtain ⟨shorter, read⟩ := readNumber_of_length (n.numberLength?_append ends) ⟨nonempty, whole⟩
  simp only [List.take_left, List.drop_left] at read
  exact ⟨by rw [List.length_append]; omega, read⟩

section

variable {depth : Nat} {cs k : List Char}

theorem readValue_null (front : skipBlanks cs = "null".toList ++ k) :
    ∃ shorter, readValue depth cs = some ⟨.null, k, shorter⟩ := by
  obtain ⟨shorter, read⟩ := readWord_of_front (by decide) .null front
  refine ⟨Nat.lt_of_lt_of_le shorter (length_skipBlanks cs), ?_⟩
  unfold readValue
  split
  case h_4 rest here =>
    rw [read]
    rfl
  all_goals simp_all

theorem readValue_true (front : skipBlanks cs = "true".toList ++ k) :
    ∃ shorter, readValue depth cs = some ⟨.bool true, k, shorter⟩ := by
  obtain ⟨shorter, read⟩ := readWord_of_front (by decide) (.bool true) front
  refine ⟨Nat.lt_of_lt_of_le shorter (length_skipBlanks cs), ?_⟩
  unfold readValue
  split
  case h_2 rest here =>
    rw [read]
    rfl
  all_goals simp_all

theorem readValue_false (front : skipBlanks cs = "false".toList ++ k) :
    ∃ shorter, readValue depth cs = some ⟨.bool false, k, shorter⟩ := by
  obtain ⟨shorter, read⟩ := readWord_of_front (by decide) (.bool false) front
  refine ⟨Nat.lt_of_lt_of_le shorter (length_skipBlanks cs), ?_⟩
  unfold readValue
  split
  case h_3 rest here =>
    rw [read]
    rfl
  all_goals simp_all

theorem readValue_string {us : List Char} {s : String} (text : StringText us s)
    (front : skipBlanks cs = us ++ k) :
    ∃ shorter, readValue depth cs = some ⟨.string s, k, shorter⟩ := by
  obtain ⟨body, rfl, spells⟩ := text
  rw [List.cons_append, List.append_assoc, List.singleton_append] at front
  have short := length_of_skipBlanks front
  refine ⟨(spells.read cs [] k short).1, ?_⟩
  unfold readValue
  split
  case h_1 rest here =>
    cases front.symm.trans here
    rw [(spells.read cs [] k short).2]
    simp [Parsed.map]
  all_goals simp_all

theorem readValue_number (n : Numeral) (ends : Ends k) (front : skipBlanks cs = n.spelled ++ k) :
    ∃ shorter, readValue depth cs =
      some ⟨.number (String.ofList n.spelled), k, shorter⟩ := by
  obtain ⟨shorter, read⟩ := readNumber_of_front n ends front
  refine ⟨Nat.lt_of_lt_of_le shorter (length_skipBlanks cs), ?_⟩
  obtain ⟨c, us, spelled, sort⟩ := n.exists_spelled
  have other {x : Char} {rest : List Char} (here : skipBlanks cs = x :: rest) :
      x = '-' ∨ isAsciiDigit x = true := by
    rw [front, spelled] at here
    cases here
    exact sort
  unfold readValue
  split
  case h_7 =>
    rw [read]
    rfl
  all_goals
    next here => exact absurd (other here) (by decide)

theorem readValue_array {rest : List Char} {vs : List Json} (front : skipBlanks cs = '[' :: rest)
    (within : Within (readValue depth) ']' rest vs k) :
    ∃ shorter, readValue (depth + 1) cs = some ⟨.array vs, k, shorter⟩ := by
  have short := length_of_skipBlanks front
  cases within with
  | none closed =>
    refine ⟨Nat.lt_trans (length_of_skipBlanks closed) short, ?_⟩
    unfold readValue
    split
    case h_5 after here =>
      cases front.symm.trans here
      dsimp only
      split
      · next here =>
        cases closed.symm.trans here
        rfl
      · next more => exact (more _ closed).elim
    all_goals simp_all
  | @some _ v vs noClose first further =>
    obtain ⟨shorter, read⟩ := further.readItems [v.tree] (Nat.lt_trans v.shorter short)
    refine ⟨shorter, ?_⟩
    unfold readValue
    split
    case h_5 after here =>
      cases front.symm.trans here
      dsimp only
      split
      · next closed => exact (noClose _ closed).elim
      · rw [first]
        exact read
    all_goals simp_all

theorem readValue_object {rest : List Char} {fs : List (String × Json)}
    (front : skipBlanks cs = '{' :: rest)
    (within : Within (readField (readValue depth)) '}' rest fs k) :
    ∃ shorter, readValue (depth + 1) cs = some ⟨.object fs, k, shorter⟩ := by
  have short := length_of_skipBlanks front
  cases within with
  | none closed =>
    refine ⟨Nat.lt_trans (length_of_skipBlanks closed) short, ?_⟩
    unfold readValue
    split
    case h_6 after here =>
      cases front.symm.trans here
      dsimp only
      split
      · next here =>
        cases closed.symm.trans here
        rfl
      · next more => exact (more _ closed).elim
    all_goals simp_all
  | @some _ f fs noClose first further =>
    obtain ⟨shorter, read⟩ := further.readFields [f.tree] (Nat.lt_trans f.shorter short)
    refine ⟨shorter, ?_⟩
    unfold readValue
    split
    case h_6 after here =>
      cases front.symm.trans here
      dsimp only
      split
      · next closed => exact (noClose _ closed).elim
      · rw [first]
        exact read
    all_goals simp_all

end

theorem StringText.starts {us : List Char} {s : String} (text : StringText us s) : Starts us := by
  obtain ⟨body, rfl, -⟩ := text
  exact ⟨_, _, rfl, rfl, by simp [Closes]⟩

theorem FieldText.starts {value : List Char → Json → Prop} {us : List Char} {f : String × Json}
    (field : FieldText value us f) : Starts us := by
  obtain ⟨text, -, -, -⟩ := field
  obtain ⟨c, cs, rfl, stands⟩ := text.starts
  exact ⟨c, _, rfl, stands⟩

theorem Numeral.starts (n : Numeral) : Starts n.spelled := by
  obtain ⟨c, cs, spelled, sort⟩ := n.exists_spelled
  refine ⟨c, cs, spelled, ?_, ?_⟩
  · cases blank : isBlank c with
    | false => rfl
    | true =>
      simp only [isBlank, Bool.or_eq_true, beq_iff_eq] at blank
      rcases blank with ((rfl | rfl) | rfl) | rfl <;> exact absurd sort (by decide)
  · rintro (rfl | rfl | rfl) <;> exact absurd sort (by decide)

theorem Plain.starts {us : List Char} {v : Json} (plain : Plain us v) : Starts us := by
  cases plain with
  | null => exact ⟨'n', _, rfl, rfl, by simp [Closes]⟩
  | true => exact ⟨'t', _, rfl, rfl, by simp [Closes]⟩
  | false => exact ⟨'f', _, rfl, rfl, by simp [Closes]⟩
  | number n => exact n.starts
  | string text => exact text.starts

theorem Spells.starts {depth : Nat} {us : List Char} {v : Json} (spells : Spells depth us v) :
    Starts us := by
  cases depth with
  | zero => exact Plain.starts spells
  | succ depth =>
    rcases spells with plain | compound
    · exact plain.starts
    · cases compound with
      | array entries => exact ⟨_, _, rfl, rfl, by simp [Closes]⟩
      | object entries => exact ⟨_, _, rfl, rfl, by simp [Closes]⟩

theorem Plain.readValue {depth : Nat} {cs us k : List Char} {v : Json} (plain : Plain us v)
    (ends : ∀ s, v = .number s → Ends k) (front : skipBlanks cs = us ++ k) :
    ∃ shorter, readValue depth cs = some ⟨v, k, shorter⟩ := by
  cases plain with
  | null => exact readValue_null front
  | true => exact readValue_true front
  | false => exact readValue_false front
  | number n => exact readValue_number n (ends _ rfl) front
  | string text => exact readValue_string text front

/-- A value is read from what spells it, after blanks. Only the end of a number depends on what
follows. -/
theorem Spells.readValue {depth : Nat} {cs us k : List Char} {v : Json}
    (spells : Spells depth us v) (ends : ∀ s, v = .number s → Ends k)
    (front : skipBlanks cs = us ++ k) :
    ∃ shorter, readValue depth cs = some ⟨v, k, shorter⟩ := by
  induction depth generalizing cs us k v with
  | zero => exact Plain.readValue spells ends front
  | succ depth ih =>
    have complete : Complete (Json.readValue depth) (Spells depth) :=
      fun xs us a k blanks inner ends =>
        ih inner (fun _ _ => ends) (inner.starts.skipBlanks_append blanks k)
    rcases spells with plain | compound
    · exact plain.readValue ends front
    · cases compound with
      | @array ts vs entries =>
        rw [List.cons_append, List.append_assoc] at front
        exact readValue_array front (entries.within complete Spells.starts (.inr (.inl rfl)) k)
      | @object ts fs entries =>
        rw [List.cons_append, List.append_assoc] at front
        exact readValue_object front
          (entries.within (complete_readField complete) FieldText.starts (.inr (.inr rfl)) k)

end ImpHost.Json
