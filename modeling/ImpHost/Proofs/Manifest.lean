import ImpHost.Manifest.Basic
import ImpHost.Proofs.Program.RoundTrip
import ImpHost.Proofs.Text

/-!
The program that a text spells does not depend on the name under which the text is read.

`Manifest.IsFormOf` relates a text to what it spells, up to that name.
-/

namespace ImpHost

/-- A text of characters that is read as a program is the source of that program. -/
theorem Command.parse_of_readFrom {source : String} {c : Command}
    (small : source.utf8ByteSize ≤ maxSourceSize) (read : ReadFrom source.toList c) :
    parse source = .ok c := by
  obtain ⟨ts, lexed, parsed⟩ := read
  have size : (Text.ofString source).size = source.utf8ByteSize := rfl
  have fits : ¬ maxSourceSize < (Text.ofString source).size := by
    rw [size]
    omega
  rw [parse, if_neg fits, Text.chars_ofString, lexed]
  dsimp only
  rw [parsed]
  rfl

theorem Command.readFrom_of_parse {source : Text} {c : Command} (parsed : parse source = .ok c) :
    ReadFrom source.chars c := by
  unfold parse at parsed
  split at parsed
  · cases parsed
  · split at parsed
    · cases parsed
    · next ts lexed =>
      refine ⟨ts, lexed, ?_⟩
      cases found : ofTokens ts with
      | error e =>
        rw [found] at parsed
        cases parsed
      | ok d =>
        rw [found] at parsed
        cases parsed
        rfl

namespace Manifest

/-- The manifests are the same, but that they may have different names. -/
def Alike (m m' : Manifest) : Prop :=
  { m with name := m'.name } = m'

/-- The text spells the manifest, whatever the name under which it is read. -/
def IsFormOf (source : Text) (m : Manifest) : Prop :=
  ∀ name, ∃ m', ofText name source = .ok m' ∧ m'.Alike m

variable {m m' : Manifest} {name source : Text}

theorem Alike.program_eq (alike : m.Alike m') : m.program = m'.program := by
  rw [← alike]

theorem Alike.store_eq (alike : m.Alike m') : m.store = m'.store := by
  rw [← alike]

theorem named_alike (name name' : Text) (m : Manifest) : (m.named name').Alike (m.named name) := by
  unfold named
  split <;> rfl

/-- Bare source is read as its program, with an empty store. -/
theorem ofSource_of_parse {program : Command} (name : Text)
    (parsed : Command.parse source = .ok program) :
    ofSource name source = .ok ⟨name, ∅, ∅, source, program⟩ := by
  rw [ofSource, parsed]
  rfl

theorem ofText_of_parse {program : Command} (name : Text) (bare : isManifest source = false)
    (parsed : Command.parse source = .ok program) :
    ofText name source = .ok ⟨name, ∅, ∅, source, program⟩ := by
  rw [ofText, if_neg (Bool.eq_false_iff.1 bare), ofSource_of_parse name parsed]
  rfl

/-- A text that spells a manifest under one name spells it under every name. -/
theorem isFormOf_of_ofText (read : ofText name source = .ok m) : IsFormOf source m := by
  intro name'
  unfold ofText at read ⊢
  split at read
  · next isManifest =>
    rw [if_pos isManifest]
    cases document : ofYaml source with
    | error why =>
      rw [document] at read
      cases read
    | ok m₀ =>
      rw [document] at read
      cases read
      exact ⟨_, rfl, named_alike name name' m₀⟩
  · next isSource =>
    rw [if_neg isSource]
    unfold ofSource at read ⊢
    cases parsed : Command.parse source with
    | error why =>
      rw [parsed] at read
      cases read
    | ok program =>
      rw [parsed] at read
      cases read
      exact ⟨_, rfl, rfl⟩

/-- A field that is read is one of the four that a manifest has. -/
theorem Fields.apply_cases {f f' : Fields} {key : String} {v : Yaml.Node}
    (applied : f.apply key v = .ok f') :
    (∃ text, key = "name" ∧ f' = { f with name := text }) ∨
      (∃ text, key = "description" ∧ f' = { f with description := text }) ∨
      (∃ text, key = "source" ∧ f' = { f with source := text }) ∨
      ∃ store, key = "store" ∧ storeOfNode v = .ok store ∧ f' = { f with store } := by
  unfold apply at applied
  split at applied
  · obtain ⟨text, -, made⟩ := bind_eq_ok.1 applied
    cases made
    exact .inl ⟨text, rfl, rfl⟩
  · obtain ⟨text, -, made⟩ := bind_eq_ok.1 applied
    cases made
    exact .inr (.inl ⟨text, rfl, rfl⟩)
  · obtain ⟨text, -, made⟩ := bind_eq_ok.1 applied
    cases made
    exact .inr (.inr (.inl ⟨text, rfl, rfl⟩))
  · obtain ⟨store, read, made⟩ := bind_eq_ok.1 applied
    cases made
    exact .inr (.inr (.inr ⟨store, rfl, read, rfl⟩))
  · cases applied

/-- A document that is a manifest is a mapping, and its fields are read one after the other. -/
theorem of_ofYaml {text : Text} (read : ofYaml text = .ok m) :
    ∃ entries fields, Yaml.parse text = .ok (some (.mapping entries)) ∧
      entries.foldlM (fun f e => f.apply e.1.text e.2) (⟨"", "", "", ∅⟩ : Fields) = .ok fields ∧
      ofFields fields = .ok m := by
  unfold ofYaml at read
  split at read
  · cases read
  · split at read
    · cases read
    · cases read
    · next entries document =>
      obtain ⟨fields, folded, made⟩ := bind_eq_ok.1 read
      exact ⟨entries, fields, document, folded, made⟩
    · cases read

/-- The field `store` that counts, which is the last one. -/
def storeField (entries : List (Yaml.Node × Yaml.Node)) : Option Yaml.Node :=
  (entries.filter fun e => e.1.text = "store").getLast?.map Prod.snd

theorem Fields.store_eq_of_apply {f f' : Fields} {key : String} {v : Yaml.Node}
    (applied : f.apply key v = .ok f') :
    if key = "store" then storeOfNode v = .ok f'.store else f'.store = f.store := by
  rcases apply_cases applied with
    ⟨_, rfl, rfl⟩ | ⟨_, rfl, rfl⟩ | ⟨_, rfl, rfl⟩ | ⟨_, rfl, read, rfl⟩
  · rfl
  · rfl
  · rfl
  · exact read

/-- The fields are read one after the other, so the last field `store` counts. -/
theorem Fields.store_of_foldlM {entries : List (Yaml.Node × Yaml.Node)} {f g : Fields}
    (read : entries.foldlM (fun f e => f.apply e.1.text e.2) f = .ok g) :
    (storeField entries).elim (g.store = f.store) fun v => storeOfNode v = .ok g.store := by
  induction entries generalizing f with
  | nil =>
    cases read
    rfl
  | cons e rest ih =>
    rw [List.foldlM_cons] at read
    obtain ⟨f', applied, read⟩ := bind_eq_ok.1 read
    have first := store_eq_of_apply applied
    have later := ih read
    unfold storeField at later ⊢
    by_cases isStore : e.1.text = "store"
    · rw [List.filter_cons_of_pos (by simpa using isStore), List.getLast?_cons]
      rw [if_pos isStore] at first
      cases last : (rest.filter fun e => e.1.text = "store").getLast? with
      | none =>
        rw [last] at later
        exact first.trans (congrArg Except.ok later.symm)
      | some field =>
        rw [last] at later
        exact later
    · rw [List.filter_cons_of_neg (by simpa using isStore)]
      rw [if_neg isStore] at first
      rwa [first] at later

/-- The initial store of a manifest is that of the field `store`, and empty without such a field. -/
theorem store_of_ofYaml {text : Text} (read : ofYaml text = .ok m) :
    ∃ entries, Yaml.parse text = .ok (some (.mapping entries)) ∧
      (storeField entries).elim (m.store = ∅) fun v => storeOfNode v = .ok m.store := by
  obtain ⟨entries, fields, document, folded, made⟩ := of_ofYaml read
  refine ⟨entries, document, ?_⟩
  unfold ofFields at made
  split at made
  · cases made
  · split at made
    · cases made
    · cases made
      exact Fields.store_of_foldlM folded

/-- A text spells one manifest, up to its name. -/
theorem IsFormOf.alike (form : IsFormOf source m) (other : IsFormOf source m') : m.Alike m' := by
  obtain ⟨m₁, read, alike⟩ := form ∅
  obtain ⟨m₂, read', alike'⟩ := other ∅
  cases read.symm.trans read'
  rw [← alike, ← alike']
  rfl

theorem IsFormOf.program_eq (form : IsFormOf source m) (other : IsFormOf source m') :
    m.program = m'.program :=
  (form.alike other).program_eq

end Manifest

theorem Manifest.ofText_skip (name : Text) :
    ofText name "skip" = .ok ⟨name, ∅, ∅, "skip", .skip⟩ := by
  have read := Command.readFrom_format (c := .skip) trivial
  exact ofText_of_parse name (by decide +kernel) (Command.parse_of_readFrom (by decide) read)

end ImpHost
