import ImpHost.Manifest.File
import ImpHost.Proofs.Encoding
import ImpHost.Proofs.Manifest
import ImpHost.Proofs.Yaml.Mapping

/-!
The two forms of programs are never taken for each other (`Manifest.forms_are_apart`).

In a source that the lexer takes, a colon stands only before an equals sign, and there is no brace
and no question mark, so its characters are `Yaml.Unmarked`, and it is no mapping as a document.
Source is UTF-8 and has no byte order mark, so these are the characters that a document would be
read from. The other way round a document that is a manifest has a field `source`, or its program
would be blank.
-/

namespace ImpHost

open Text

/-! ## Bare source is no mapping -/

/-- The only token with a colon is the sign of an assignment. -/
theorem Token.Emitted.text_of_colon {t : Token} (emitted : Emitted t)
    (colon : ':' ∈ t.text.toList) : t.text = ":=" := by
  have noWordPart : isWordPart ':' = false := by decide +kernel
  cases emitted with
  | semi | lparen | rparen =>
    revert colon
    dsimp only
    decide
  | int digits _ =>
    rw [String.toList_ofList] at colon
    exact absurd (digits _ colon) (by decide)
  | @word c ds _ letter parts =>
    rw [String.toList_ofList] at colon
    rcases List.mem_cons.1 colon with rfl | colon
    · exact absurd letter (by decide +kernel)
    · cases noWordPart.symm.trans (parts _ colon)
  | @operator o =>
    revert colon
    dsimp only
    cases o <;> decide

/-- In a source a colon stands only before an equals sign. -/
theorem Token.equals_of_lexFrom {pos : Nat} {acc ts : List Token} {cs : List Char}
    (lexed : lexFrom pos acc cs = .ok ts) :
    ∀ rest, ':' :: rest <:+ cs → ∃ k, rest = '=' :: k := by
  refine lexed_induction (motive := fun cs => ∀ rest, ':' :: rest <:+ cs → ∃ k, rest = '=' :: k)
    ?_ ?_ ?_ lexed
  · intro rest colon
    cases List.suffix_nil.1 colon
  · intro c cs space ih rest colon
    rcases List.suffix_cons_iff.1 colon with same | later
    · cases same
      exact absurd space (by decide)
    · exact ih rest later
  · intro t k emitted ih rest colon
    -- The colon stands after the token, or in it.
    rcases List.suffix_or_suffix_of_suffix colon (List.suffix_append t.text.toList k) with
      later | ⟨here, split⟩
    · exact ih rest later
    · cases here with
      | nil => exact ih rest (split ▸ List.suffix_rfl)
      | cons c here =>
        cases split
        have inside : ':' :: here <:+ t.text.toList := by
          obtain ⟨before, whole⟩ := colon
          exact ⟨before, List.append_cancel_right (by simpa using whole)⟩
        rw [emitted.text_of_colon (inside.mem List.mem_cons_self)] at inside
        rcases List.suffix_cons_iff.1 inside with same | later
        · cases same
          exact ⟨k, rfl⟩
        · exact absurd (later.mem List.mem_cons_self) (by decide)

/-- The first byte of a text that is UTF-8 starts the first character. -/
theorem Text.isUTF8FirstByte {s : String} {b : UInt8} {rest : List UInt8}
    (bytes : s.toByteArray.data.toList = b :: rest) :
    b.IsUTF8FirstByte ∧ ∃ c, s.toByteArray.utf8DecodeChar? 0 = some c ∧ c ∈ s.toList := by
  have encoded : s.toList.utf8Encode = s.toByteArray := String.utf8Encode_toList
  cases listed : s.toList with
  | nil =>
    rw [listed] at encoded
    rw [← encoded] at bytes
    cases bytes
  | cons c cs =>
    have decoded : s.toByteArray.utf8DecodeChar? 0 = some c := by
      rw [← encoded, listed]
      exact List.utf8DecodeChar?_utf8Encode_cons
    have isSome : (s.toByteArray.utf8DecodeChar? 0).isSome = true := by
      rw [decoded]
      rfl
    have starts := ByteArray.isUTF8FirstByte_of_isSome_utf8DecodeChar? isSome
    simp only [ByteArray.getElem_eq_getElem_data, ← Array.getElem_toList, bytes] at starts
    exact ⟨starts, c, decoded, List.mem_cons_self⟩

/-- Without a byte order mark the characters of a document are those of the text. -/
theorem Yaml.readCharacters_of_isUtf8 {t : Text} (utf8 : t.IsUtf8) (noMark : '\uFEFF' ∉ t.chars) :
    readCharacters t = some t.chars := by
  obtain ⟨s, rfl⟩ : ∃ s, t = ofString s := ⟨t.lossy, utf8.ofString_lossy.symm⟩
  rw [chars_ofString] at noMark ⊢
  unfold readCharacters
  split
  · next rest bytes => exact absurd (isUTF8FirstByte bytes).1 (by decide)
  · next rest bytes => exact absurd (isUTF8FirstByte bytes).1 (by decide)
  · next rest bytes =>
    obtain ⟨-, c, decoded, member⟩ := isUTF8FirstByte bytes
    have mark : ([0xEF, 0xBB, 0xBF] : List UInt8).toByteArray.utf8DecodeChar? 0 =
        some '\uFEFF' := by
      decide +kernel
    have first := ByteArray.utf8DecodeChar?_append_eq_some mark ⟨rest.toArray⟩
    rw [← eq_append_of_mark bytes] at first
    cases decoded.symm.trans first
    exact absurd member noMark
  · have isString : toString? (ofString s) = some s := by
      rw [toString?, String.fromUTF8?]
      exact dif_pos utf8
    rw [readUtf8]
    exact congrArg (Option.map String.toList) isString

theorem Command.lexed_of_parse {source : Text} {c : Command} (parsed : parse source = .ok c) :
    ∃ ts, Token.lex source.chars = .ok ts := by
  obtain ⟨ts, lexed, _⟩ := readFrom_of_parse parsed
  exact ⟨ts, lexed⟩

theorem Token.unmarked_of_lexFrom {pos : Nat} {acc ts : List Token} {cs : List Char}
    (lexed : lexFrom pos acc cs = .ok ts) : Yaml.Unmarked cs where
  brace := not_mem_of_lexFrom (by decide +kernel) lexed
  question := not_mem_of_lexFrom (by decide +kernel) lexed
  colon rest here := by
    obtain ⟨k, rfl⟩ := equals_of_lexFrom lexed rest here
    rfl

namespace Manifest

/-- Bare source is no manifest. -/
theorem isManifest_of_parse {source : Text} {program : Command}
    (parsed : Command.parse source = .ok program) : isManifest source = false := by
  obtain ⟨ts, lexed⟩ := Command.lexed_of_parse parsed
  have noMark : '\uFEFF' ∉ source.chars := Token.not_mem_of_lexFrom (by decide +kernel) lexed
  have read := Yaml.readCharacters_of_isUtf8 (Command.isUtf8_of_parse parsed) noMark
  unfold isManifest
  split
  · next entries document =>
    exact absurd (Token.unmarked_of_lexFrom lexed) (Yaml.not_unmarked_of_parse read document)
  · rfl

/-! ## A manifest has a source -/

theorem Fields.source_of_apply {f f' : Fields} {key : String} {v : Yaml.Node}
    (applied : f.apply key v = .ok f') (other : key ≠ "source") : f'.source = f.source := by
  rcases apply_cases applied with
    ⟨_, _, rfl⟩ | ⟨_, _, rfl⟩ | ⟨_, isSource, _⟩ | ⟨_, _, _, rfl⟩
  · rfl
  · rfl
  · exact (other isSource).elim
  · rfl

theorem Fields.source_of_foldlM {f f' : Fields} {entries : List (Yaml.Node × Yaml.Node)}
    (others : ∀ e ∈ entries, e.1.text ≠ "source")
    (folded : entries.foldlM (fun f e => f.apply e.1.text e.2) f = .ok f') :
    f'.source = f.source := by
  induction entries generalizing f with
  | nil =>
    cases folded
    rfl
  | cons e entries ih =>
    rw [List.foldlM_cons] at folded
    obtain ⟨f₁, applied, rest⟩ := bind_eq_ok.1 folded
    have later := ih (fun e here => others e (List.mem_cons_of_mem _ here)) rest
    exact later.trans (source_of_apply applied (others e List.mem_cons_self))

/-- A manifest is taken for one. -/
theorem isManifest_of_ofYaml {text : Text} {m : Manifest} (read : ofYaml text = .ok m) :
    isManifest text = true := by
  obtain ⟨entries, fields, document, folded, made⟩ := of_ofYaml read
  rw [isManifest, document]
  dsimp only
  cases named : entries.any fun e => e.1.text == "source" with
  | true => rfl
  | false =>
    have others : ∀ e ∈ entries, e.1.text ≠ "source" := by
      simpa using named
    have blank : fields.source = "" := Fields.source_of_foldlM others folded
    rw [ofFields, blank] at made
    cases made

/-! ## Both forms -/

theorem ofText_of_ofYaml {text : Text} {m : Manifest} (name : Text) (read : ofYaml text = .ok m) :
    ofText name text = .ok (m.named name) := by
  rw [ofText, if_pos (isManifest_of_ofYaml read), read]
  rfl

/-- What is loaded from a file is what its contents spell, whatever they are named. -/
theorem isFormOf_of_load {files : Files} {path : String} {m : Manifest}
    (loaded : load files path = .ok m) :
    ∃ contents, files.read path = .ok contents ∧ IsFormOf contents m := by
  unfold load at loaded
  split at loaded
  · cases loaded
  · split at loaded
    · cases loaded
    · next contents isFile =>
      refine ⟨contents, isFile, ?_⟩
      dsimp only at loaded
      generalize Text.ofString (Path.stem path) = stem at loaded
      split at loaded
      · cases parsed : Command.parse contents with
        | error why =>
          rw [ofSource, parsed] at loaded
          cases loaded
        | ok program =>
          rw [ofSource_of_parse _ parsed] at loaded
          cases loaded
          intro name
          refine ⟨_, ofText_of_parse name (isManifest_of_parse parsed) parsed, ?_⟩
          unfold named
          split <;> rfl
      · cases read : ofYaml contents with
        | error why =>
          rw [read] at loaded
          cases loaded
        | ok m₀ =>
          rw [read] at loaded
          cases loaded
          intro name
          exact ⟨_, ofText_of_ofYaml name read, named_alike _ _ m₀⟩

/-- No text is a program in both forms, and the form that a text has is the one it is read in. Bare
source is no manifest, and is read as the program it spells with an empty store. A manifest is
known as one, and is read as it stands, under the given name if it has none. So a file that is
loaded by its extension is read from its contents alone as the same program with the same store,
source and description. -/
theorem forms_are_apart (t : Text) :
    (∀ program, Command.parse t = .ok program →
      isManifest t = false ∧ ∀ name,
        ofSource name t = .ok ⟨name, ∅, ∅, t, program⟩ ∧
        ofText name t = .ok ⟨name, ∅, ∅, t, program⟩) ∧
    (∀ m, ofYaml t = .ok m →
      isManifest t = true ∧ ∀ name,
        ofText name t = .ok { m with name := if m.name.isEmpty then name else m.name }) ∧
    ∀ files path m, load files path = .ok m →
      ∃ contents, files.read path = .ok contents ∧ ∀ name,
        ∃ m', ofText name contents = .ok m' ∧ m'.program = m.program ∧ m'.store = m.store ∧
          m'.source = m.source ∧ m'.description = m.description := by
  refine ⟨fun program parsed => ?_, fun m read => ?_, fun files path m loaded => ?_⟩
  · have bare := isManifest_of_parse parsed
    exact ⟨bare, fun name => ⟨ofSource_of_parse name parsed, ofText_of_parse name bare parsed⟩⟩
  · refine ⟨isManifest_of_ofYaml read, fun name => ?_⟩
    rw [ofText_of_ofYaml name read, named]
    split <;> rfl
  · obtain ⟨contents, isFile, form⟩ := isFormOf_of_load loaded
    refine ⟨contents, isFile, fun name => ?_⟩
    obtain ⟨m', read, alike⟩ := form name
    rw [← alike]
    exact ⟨m', read, rfl, rfl, rfl, rfl⟩

/-- The fields of a document that is a mapping. -/
def documentFields (text : Text) : Option Fields :=
  match Yaml.parse text with
  | .ok (some (.mapping entries)) =>
    let fields : Except ManifestError Fields :=
      entries.foldlM (fun f e => f.apply e.1.text e.2) ⟨"", "", "", ∅⟩
    fields.toOption
  | _ => none

theorem ofYaml_of_documentFields {text : Text} {f : Fields} (small : text.size ≤ maxSourceSize)
    (read : documentFields text = some f) : ofYaml text = ofFields f := by
  unfold documentFields at read
  split at read
  · next entries document =>
    rw [ofYaml, if_neg (by omega), document]
    dsimp only
    cases folded : entries.foldlM (fun f e => f.apply e.1.text e.2) (⟨"", "", "", ∅⟩ : Fields) with
    | error why =>
      rw [folded] at read
      cases read
    | ok f' =>
      rw [folded] at read
      cases read
      rfl
  · cases read

/-- The assignment `x := y` as bare source, as a manifest, and in a file. -/
theorem forms_are_apart_assignment :
    let source : Text := "x := y"
    let manifest : Text := "store: \x7by: 7\x7d\nsource: x := y"
    let program : Command := .assign "x" (.var "y")
    let files : Files := .ofEntries [("p.YML", .file manifest)]
    isManifest source = false ∧ ofText "p" source = .ok ⟨"p", ∅, ∅, source, program⟩ ∧
    isManifest manifest = true ∧
      ofText "p" manifest = .ok ⟨"p", ∅, Table.ofList [("y", .int 7)], source, program⟩ ∧
    ∃ m m', load files "p.YML" = .ok m ∧ ofText "q" manifest = .ok m' ∧ m'.store = m.store := by
  intro source manifest program files
  have isX : Token.IsName "x" :=
    Token.isName_iff.2 ⟨'x', [], by decide, by decide, by simp, by decide⟩
  have isY : Token.IsName "y" :=
    Token.isName_iff.2 ⟨'y', [], by decide, by decide, by simp, by decide⟩
  have parsed : Command.parse source = .ok program :=
    Command.parse_of_readFrom (by decide) (Command.readFrom_format (c := program) ⟨isX, isY⟩)
  let all (f : Fields) := (f.name, f.description, f.source, f.store)
  have fields : (documentFields manifest).map all =
      some ("", "", "x := y", Table.ofList [("y", .int 7)]) := by
    decide +kernel
  obtain ⟨⟨_, _, _, _⟩, document, same⟩ := Option.map_eq_some_iff.1 fields
  cases same
  have read := ofYaml_of_documentFields (by decide) document
  rw [ofFields, if_neg (by decide)] at read
  dsimp only at read
  rw [parsed] at read
  have parts : Path.parts "p.YML" = ["p.YML"] := by
    rw [Path.parts, String.splitOn, if_neg (by decide)]
    iterate 5 rw [String.splitOnAux, if_neg (by decide +kernel), if_neg (by decide +kernel)]
    rw [String.splitOnAux, if_pos (by decide +kernel)]
    decide +kernel
  have isProgramFile : isProgramFile "p.YML" = true := by
    rw [Manifest.isProgramFile, Path.extension, parts]
    decide +kernel
  have isSourceFile : isSourceFile "p.YML" = false := by
    rw [Manifest.isSourceFile, Path.extension, parts]
    decide +kernel
  have isFile : files.read "p.YML" = .ok manifest := by
    rw [Files.read]
    rfl
  have loaded : ∃ m, load files "p.YML" = .ok m := by
    rw [load, isProgramFile, isFile, isSourceFile]
    dsimp only
    rw [read]
    exact ⟨_, rfl⟩
  obtain ⟨m, loaded⟩ := loaded
  obtain ⟨isSource, named⟩ := (forms_are_apart source).1 program parsed
  obtain ⟨isManifest, kept⟩ := (forms_are_apart manifest).2.1 _ read
  obtain ⟨contents, sameFile, same⟩ := (forms_are_apart manifest).2.2 files "p.YML" m loaded
  cases isFile.symm.trans sameFile
  obtain ⟨m', other, -, store, -⟩ := same "q"
  exact ⟨isSource, (named "p").2, isManifest, kept "p", m, m', loaded, other, store⟩

end Manifest

end ImpHost
