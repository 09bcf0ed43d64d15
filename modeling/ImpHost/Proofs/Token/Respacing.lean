import ImpHost.Proofs.Token.Tokenization

/-!
Tokens with other white space between them.

White space continues no token (`endsBefore_of_spaces`), so the texts of tokens of the language,
with white space between any two of them, are laid out whatever they are (`laid_placed`). The lexer
finds the same tokens there, each where its text has come to stand (`lex_respaced`).
-/

namespace ImpHost

namespace Text

/-- No white space is a decimal digit. -/
theorem isDecimalDigit_of_isSpace {c : Char} (space : isSpace c = true) :
    isDecimalDigit c = false := by
  unfold isDecimalDigit
  split
  · cases digit : isAsciiDigit c with
    | false => rfl
    | true => exact space.symm.trans (isSpace_of_isAsciiDigit digit)
  · exact inRanges_of_apart (by decide +kernel) (inRanges_of_isSpace space)

end Text

namespace Token

open Text

variable {pos : Nat} {front gap k : List Char} {t : Token} {pieces : List (Token × List Char)}

/-- No white space continues a word. -/
theorem isWordPart_of_isSpace {c : Char} (space : isSpace c = true) : isWordPart c = false := by
  have notLine : (c == '_') = false := by
    cases line : c == '_' with
    | false => rfl
    | true =>
      rw [beq_iff_eq.1 line] at space
      cases space
  rw [isWordPart, isLetter_of_isSpace space, isDecimalDigit_of_isSpace space, notLine]
  rfl

/-- White space continues no token, and neither does the end of the source. -/
theorem endsBefore_of_spaces (spaces : ∀ c, k.head? = some c → isSpace c = true) :
    t.EndsBefore k := by
  have boundary : Boundary k := fun c head => isWordPart_of_isSpace (spaces c head)
  exact ⟨fun _ => boundary.head_not_digit, fun _ => boundary⟩

/-- The token wherever it stands: what is left of it without its position. -/
def unplaced (t : Token) : Token :=
  { t with pos := 0 }

/-- The lists `front` and `gaps` can stand in front of some tokens and behind each of them: they are
white space, and only the last token may be without any behind it. -/
structure Spacing (ts : List Token) (front : List Char) (gaps : List (List Char)) : Prop where
  length_eq : gaps.length = ts.length
  spaces : ∀ gap ∈ front :: gaps, ∀ c ∈ gap, isSpace c = true
  apart : ∀ gap ∈ gaps.dropLast, gap ≠ []

/-- The texts of tokens, with `front` in front and one of the `gaps` behind each. -/
def respaced (ts : List Token) (front : List Char) (gaps : List (List Char)) : String :=
  String.ofList (front ++ spelled (ts.zip gaps))

/-- Tokens with a gap behind each, moved to where they stand if the gap in front of them has the
position `pos`. -/
def placed (pos : Nat) (front : List Char) : List (Token × List Char) → List (Token × List Char)
  | [] => []
  | (t, gap) :: pieces =>
    ({ t with pos := (pos + front.length : Nat) }, gap) ::
      placed (pos + front.length + t.text.toList.length) gap pieces

theorem spelled_placed (pos : Nat) (front : List Char) (pieces : List (Token × List Char)) :
    spelled (placed pos front pieces) = spelled pieces := by
  induction pieces generalizing pos front with
  | nil => rfl
  | cons p pieces ih =>
    obtain ⟨t, gap⟩ := p
    rw [placed, spelled_cons, spelled_cons, ih]

theorem unplaced_placed (pos : Nat) (front : List Char) (pieces : List (Token × List Char)) :
    (placed pos front pieces).map (fun p => p.1.unplaced) =
      pieces.map fun p => p.1.unplaced := by
  induction pieces generalizing pos front with
  | nil => rfl
  | cons p pieces ih =>
    obtain ⟨t, gap⟩ := p
    rw [placed, List.map_cons, List.map_cons, ih]
    rfl

/-- A token stands behind all that is in front of it. -/
theorem getElem?_placed {before after : List (Token × List Char)} {p : Token × List Char} :
    ((placed pos front (before ++ p :: after))[before.length]?).map (fun p => p.1.pos) =
      some ((pos + (front ++ spelled before).length : Nat) : Int) := by
  induction before generalizing pos front with
  | nil => simp [placed, spelled]
  | cons q before ih =>
    obtain ⟨t, gap⟩ := q
    rw [List.cons_append, placed, List.length_cons, List.getElem?_cons_succ, ih, spelled_cons]
    simp only [List.length_append, Nat.add_assoc]

/-- Tokens of the language are laid out wherever white space keeps them apart. -/
theorem laid_placed (front_spaces : ∀ c ∈ front, isSpace c = true)
    (lexemes : ∀ p ∈ pieces, p.1.IsLexeme) (spaces : ∀ p ∈ pieces, ∀ c ∈ p.2, isSpace c = true)
    (apart : ∀ p ∈ pieces.dropLast, p.2 ≠ []) :
    Laid pos front (placed pos front pieces) [] := by
  induction pieces generalizing pos front with
  | nil => exact laid_nil_iff.2 front_spaces
  | cons p pieces ih =>
    obtain ⟨t, gap⟩ := p
    obtain ⟨lexeme, lexemes⟩ := List.forall_mem_cons.1 lexemes
    obtain ⟨gap_spaces, spaces⟩ := List.forall_mem_cons.1 spaces
    have ends : t.EndsBefore (gap ++ spelled pieces) := by
      refine endsBefore_of_spaces fun c head => ?_
      cases gap with
      | cons =>
        cases head
        exact gap_spaces c List.mem_cons_self
      | nil =>
        -- Without a gap behind it, the token is the last one.
        cases pieces with
        | nil => cases head
        | cons q pieces => exact (apart (t, []) (by simp) rfl).elim
    have apart' : ∀ q ∈ pieces.dropLast, q.2 ≠ [] := by
      intro q member
      cases pieces with
      | nil => cases member
      | cons r pieces => exact apart q (List.mem_cons_of_mem _ member)
    refine laid_cons_iff.2 ⟨front_spaces, lexeme, rfl, ?_, ih gap_spaces lexemes spaces apart'⟩
    rw [List.append_nil, spelled_placed]
    exact ⟨ends.int, ends.word⟩

/-- The texts of the tokens of a source, with white space between any two of them, are read as the
same tokens, each at the place where its text stands. -/
theorem lex_respaced {source : List Char} {ts : List Token} {gaps : List (List Char)}
    (lexed : lex source = .ok ts) (spacing : Spacing ts front gaps) :
    ∃ us, lex (respaced ts front gaps).toList = .ok us ∧
      us.map unplaced = ts.map unplaced ∧
      ∀ before p after, ts.zip gaps = before ++ p :: after →
        (us[before.length]?).map Token.pos =
          some ((1 + (front ++ spelled before).length : Nat) : Int) := by
  have spaces := List.forall_mem_cons.1 spacing.spaces
  have laid : Laid 1 front (placed 1 front (ts.zip gaps)) [] := by
    refine laid_placed spaces.1 (fun p member => ?_) (fun p member => ?_) fun p member => ?_
    · exact (emitted_of_lex lexed _ (List.of_mem_zip member).1).isLexeme
    · exact spaces.2 _ (List.of_mem_zip member).2
    · have gap : p.2 ∈ (ts.zip gaps).dropLast.map Prod.snd := List.mem_map_of_mem member
      rw [List.map_dropLast, List.map_snd_zip (Nat.le_of_eq spacing.length_eq)] at gap
      exact spacing.apart _ gap
  refine ⟨_, lex_eq_ok_iff.2 ⟨front, _, ⟨?_, laid⟩, rfl⟩, ?_, fun before p after split => ?_⟩
  · rw [respaced, String.toList_ofList, spelled_placed]
  · have tokens : (ts.zip gaps).map Prod.fst = ts :=
      List.map_fst_zip (Nat.le_of_eq spacing.length_eq.symm)
    rw [List.map_map]
    refine (unplaced_placed 1 front (ts.zip gaps)).trans ?_
    conv_rhs => rw [← tokens, List.map_map]
    rfl
  · rw [List.getElem?_map, Option.map_map, split]
    exact getElem?_placed

end Token

end ImpHost
