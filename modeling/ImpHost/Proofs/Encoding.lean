import ImpHost.Manifest.Basic
import ImpHost.Proofs.Program.Parsing
import ImpHost.Proofs.Text
import ImpHost.Proofs.Token.Lexing

/-!
Programs are UTF-8.

The lexer takes no replacement character, so a text that has a stray byte is no bare source
(`Command.isUtf8_of_parse`). A YAML document may be UTF-16 behind a byte order mark, and is UTF-8 if
it has no such mark (`Yaml.strict_of_unmarked`); a manifest that is read from it is then UTF-8 as
well (`Manifest.isUtf8_of_ofText`).
-/

namespace ImpHost

open Text

/-! ## Bare source -/

/-- The characters of the tokens that are neither words nor integers. -/
def Token.marks : List Char :=
  ";()+-*:=<".toList

/-- The character is no white space, and no token has it. -/
def Token.isForeign (x : Char) : Bool :=
  !isSpace x && !isWordPart x && decide (x ∉ marks)

theorem Token.Emitted.not_mem {t : Token} {x : Char} (foreign : isForeign x = true)
    (emitted : Emitted t) : x ∉ t.text.toList := by
  obtain ⟨others, noMark⟩ := Bool.and_eq_true_iff.1 foreign
  have noMark : x ∉ marks := of_decide_eq_true noMark
  have noWordPart : isWordPart x = false := by simpa using (Bool.and_eq_true_iff.1 others).2
  have not_mem {s : String} (made : s.toList.all (· ∈ marks) = true) : x ∉ s.toList :=
    fun member => noMark (of_decide_eq_true (List.all_eq_true.1 made x member))
  cases emitted with
  | semi | lparen | rparen =>
    apply not_mem
    dsimp only
    decide
  | int digits _ =>
    rw [String.toList_ofList]
    intro member
    cases noWordPart.symm.trans (isWordPart_of_isAsciiDigit (digits x member))
  | @word c ds _ letter parts =>
    rw [String.toList_ofList]
    intro member
    rcases List.mem_cons.1 member with rfl | member
    · simp [isWordPart, letter] at noWordPart
    · cases noWordPart.symm.trans (parts x member)
  | @operator o =>
    apply not_mem
    dsimp only
    cases o <;> decide

theorem Token.not_mem_of_lexFrom {x : Char} {pos : Nat} {acc ts : List Token} {cs : List Char}
    (foreign : isForeign x = true) (lexed : lexFrom pos acc cs = .ok ts) : x ∉ cs := by
  refine lexed_induction (motive := (x ∉ ·)) List.not_mem_nil ?_ ?_ lexed
  · intro c cs space ih member
    rcases List.mem_cons.1 member with rfl | member
    · simp [isForeign, space] at foreign
    · exact ih member
  · intro t k emitted ih member
    rcases List.mem_append.1 member with member | member
    · exact emitted.not_mem foreign member
    · exact ih member

/-- A text that is a program has no stray byte. -/
theorem Command.isUtf8_of_parse {source : Text} {c : Command} (parsed : parse source = .ok c) :
    source.IsUtf8 := by
  unfold parse at parsed
  split at parsed
  · cases parsed
  · split at parsed
    · cases parsed
    · next lexed => exact isUtf8_of_not_mem (Token.not_mem_of_lexFrom (by decide +kernel) lexed)

/-! ## Documents -/

namespace Yaml

/-- A document can be read from the text only if the text is UTF-8. -/
def Strict (t : Text) : Prop :=
  ∀ document, parse t = .ok document → t.IsUtf8

/-- The text begins with the mark of UTF-16, in either order of its bytes. -/
def Marked (t : Text) : Prop :=
  ∃ rest, t.bytes.data.toList = 0xFF :: 0xFE :: rest ∨ t.bytes.data.toList = 0xFE :: 0xFF :: rest

theorem isUtf8_of_readUtf8 {bytes : ByteArray} {cs : List Char}
    (read : readUtf8 bytes = some cs) : bytes.IsValidUTF8 := by
  obtain ⟨s, isString, -⟩ := Option.map_eq_some_iff.1 read
  unfold toString? String.fromUTF8? at isString
  split at isString
  · next valid => exact valid
  · cases isString

/-- The bytes of the mark of UTF-8, and those after it. -/
theorem eq_append_of_mark {bytes : ByteArray} {rest : List UInt8}
    (listed : bytes.data.toList = 0xEF :: 0xBB :: 0xBF :: rest) :
    bytes = ([0xEF, 0xBB, 0xBF] : List UInt8).toByteArray ++ ⟨rest.toArray⟩ := by
  refine ByteArray.ext (Array.toList_inj.1 ?_)
  rw [listed]
  simp

/-- A text without the mark of UTF-16 is read as UTF-8. -/
theorem strict_of_unmarked {t : Text} (unmarked : ¬ Marked t) : Strict t := by
  intro document parsed
  obtain ⟨cs, read, -⟩ := bind_eq_ok.1 parsed
  unfold characters at read
  split at read
  · cases read
  · next cs' isRead =>
    unfold readCharacters at isRead
    split at isRead
    · next rest bytes => exact (unmarked ⟨rest, .inl bytes⟩).elim
    · next rest bytes => exact (unmarked ⟨rest, .inr bytes⟩).elim
    · next rest bytes =>
      have mark : ([0xEF, 0xBB, 0xBF] : List UInt8).toByteArray.IsValidUTF8 :=
        Char.isValidUTF8_toByteArray_utf8EncodeChar (c := '\uFEFF')
      rw [IsUtf8, eq_append_of_mark bytes]
      exact mark.append (isUtf8_of_readUtf8 isRead)
    · exact isUtf8_of_readUtf8 isRead

-- Behind its mark a document of UTF-16 is read, and its bytes are no UTF-8.
example : ¬ Strict ⟨[0xFF, 0xFE, 0x61, 0x00].toByteArray⟩ := by
  intro strict
  have read : (parse ⟨[0xFF, 0xFE, 0x61, 0x00].toByteArray⟩).isOk = true := by decide +kernel
  have noUtf8 : ¬ [0xFF, 0xFE, 0x61, 0x00].toByteArray.IsValidUTF8 := by decide +kernel
  cases parsed : parse ⟨[0xFF, 0xFE, 0x61, 0x00].toByteArray⟩ with
  | error why =>
    rw [parsed] at read
    cases read
  | ok document => exact noUtf8 (strict document parsed)

end Yaml

/-- A text that is a program in either form is UTF-8. -/
theorem Manifest.isUtf8_of_ofText {name source : Text} {m : Manifest} (strict : Yaml.Strict source)
    (read : ofText name source = .ok m) : source.IsUtf8 := by
  unfold ofText at read
  split at read
  · cases document : ofYaml source with
    | error why =>
      rw [document] at read
      cases read
    | ok m₀ =>
      unfold ofYaml at document
      split at document
      · cases document
      · split at document
        · cases document
        · cases document
        · next parsed => exact strict _ parsed
        · cases document
  · cases parsed : Command.parse source with
    | error why =>
      rw [ofSource, parsed] at read
      cases read
    | ok program => exact Command.isUtf8_of_parse parsed

end ImpHost
