import ImpHost.Text.Basic

/-!
Texts that are made of characters are read as these characters (`Text.chars_ofString`), and a text
without a replacement character is made of characters (`Text.isUtf8_of_not_mem`).
-/

namespace ImpHost.Text

/-- Reading on from a place between two characters. -/
theorem piecesFrom_utf8Encode (before l : List Char) (acc : Array Piece) :
    piecesFrom (before ++ l).utf8Encode before.utf8Encode.size acc =
      acc ++ (l.map Piece.char).toArray := by
  induction l generalizing before acc with
  | nil =>
    rw [piecesFrom, dif_neg (by rw [List.append_nil]; exact Nat.lt_irrefl _)]
    simp
  | cons c rest ih =>
    have size : [c].utf8Encode.size = c.utf8Size := by
      rw [List.utf8Encode_singleton, List.size_toByteArray, String.length_utf8EncodeChar]
    have split : (before ++ c :: rest).utf8Encode =
        before.utf8Encode ++ (c :: rest).utf8Encode := List.utf8Encode_append
    have next : (before ++ [c]).utf8Encode.size = before.utf8Encode.size + c.utf8Size := by
      rw [List.utf8Encode_append, ByteArray.size_append, size]
    have more : before.utf8Encode.size < (before ++ c :: rest).utf8Encode.size := by
      have := c.utf8Size_pos
      rw [split, List.utf8Encode_cons, ByteArray.size_append, ByteArray.size_append, size]
      omega
    have here :
        (before ++ c :: rest).utf8Encode.utf8DecodeChar? before.utf8Encode.size = some c := by
      rw [ByteArray.utf8DecodeChar?_eq_utf8DecodeChar?_extract, split,
        ByteArray.extract_append_eq_right rfl ByteArray.size_append]
      exact List.utf8DecodeChar?_utf8Encode_cons
    have others := ih (before ++ [c]) (acc.push (.char c))
    rw [List.append_assoc, next] at others
    rw [piecesFrom, dif_pos more, here]
    refine others.trans ?_
    simp

/-- The characters of a text that was made of characters. -/
theorem chars_ofString (s : String) : (ofString s).chars = s.toList := by
  have pieces : piecesFrom s.toByteArray 0 #[] = (s.toList.map Piece.char).toArray := by
    simpa using piecesFrom_utf8Encode [] s.toList #[]
  rw [chars, Text.pieces, ofString, pieces, List.map_map]
  exact List.map_id _

theorem chars_of_isEmpty {t : Text} (empty : t.isEmpty = true) : t.chars = [] := by
  have none : t.bytes.size = 0 := eq_of_beq empty
  rw [chars, pieces, piecesFrom, dif_neg (by omega)]
  rfl

theorem lossy_ofString (s : String) : (ofString s).lossy = s := by
  rw [lossy, chars_ofString, String.ofList_toList]

/-! ## Texts that are UTF-8 -/

/-- The text is UTF-8 throughout. -/
def IsUtf8 (t : Text) : Prop :=
  t.bytes.IsValidUTF8

theorem IsUtf8.ofString_lossy {t : Text} (utf8 : t.IsUtf8) : ofString t.lossy = t := by
  have same : ofString (String.ofByteArray t.bytes utf8) = t := rfl
  rw [← same, lossy_ofString]

theorem mem_piecesFrom (bytes : ByteArray) (i : Nat) {acc : Array Piece} {p : Piece}
    (member : p ∈ acc) : p ∈ piecesFrom bytes i acc := by
  fun_induction piecesFrom bytes i acc with
  | case1 i acc more c here ih => exact ih (Array.mem_push_of_mem _ member)
  | case2 i acc more here ih => exact ih (Array.mem_push_of_mem _ member)
  | case3 => exact member

theorem isValidUTF8_of_piecesFrom (bytes : ByteArray) (i : Nat) (acc : Array Piece)
    (noStray : ∀ b, .stray b ∉ piecesFrom bytes i acc) :
    (bytes.extract i bytes.size).IsValidUTF8 := by
  fun_induction piecesFrom bytes i acc with
  | case1 i acc more c here ih =>
    rw [ByteArray.utf8DecodeChar?_eq_utf8DecodeChar?_extract] at here
    have split := ByteArray.eq_of_utf8DecodeChar?_eq_some here
    have after : (bytes.extract i bytes.size).extract c.utf8Size (bytes.extract i bytes.size).size =
        bytes.extract (i + c.utf8Size) bytes.size := by
      rw [ByteArray.extract_extract, ByteArray.size_extract]
      congr 1
      omega
    rw [split, after]
    exact ByteArray.IsValidUTF8.append Char.isValidUTF8_toByteArray_utf8EncodeChar (ih noStray)
  | case2 i acc more here ih =>
    exact (noStray _ (mem_piecesFrom bytes _ (Array.mem_push_self))).elim
  | case3 i acc done =>
    have none : bytes.extract i bytes.size = ByteArray.empty := by
      rw [ByteArray.extract_eq_empty_iff]
      omega
    rw [none]
    exact ByteArray.isValidUTF8_empty

/-- A text is UTF-8 if no character of it is the replacement character. -/
theorem isUtf8_of_not_mem {t : Text} (whole : replacement ∉ t.chars) : t.IsUtf8 := by
  have noStray (b : UInt8) : .stray b ∉ piecesFrom t.bytes 0 #[] := by
    intro member
    refine whole (List.mem_map.2 ⟨.stray b, ?_, rfl⟩)
    exact Array.mem_toList_iff.2 member
  have valid := isValidUTF8_of_piecesFrom t.bytes 0 #[] noStray
  rwa [ByteArray.extract_zero_size] at valid

/-! ## Characters of ASCII -/

/-- What holds of all codes of ASCII holds of its characters. -/
@[elab_as_elim]
theorem of_ascii {motive : Char → Prop} {c : Char} (ascii : c.toNat < 128)
    (each : ∀ n < 128, motive (Char.ofNat n)) : motive c := by
  have here := each c.toNat ascii
  rwa [Char.ofNat_toNat] at here

end ImpHost.Text
