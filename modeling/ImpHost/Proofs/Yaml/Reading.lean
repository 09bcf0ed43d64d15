import ImpHost.Proofs.Program.Parsing
import ImpHost.Yaml.Scanner

/-!
No reader of a document goes back.

Whatever a reader takes, what is left is the end of what there was. `Cursor.Ahead` says so of two
places, and there is one lemma for each reader of scalars, tags and directives, and of what stands
between tokens. A reader moves only by the steps of a cursor and by other readers, so each lemma is
a chain of those before it; they are tagged for that.
-/

namespace ImpHost.Yaml

/-- The place `c'` is at `c` or after it. -/
def Cursor.Ahead (c c' : Cursor) : Prop :=
  c'.rest <:+ c.rest

namespace Cursor

variable {c c' c'' : Cursor}

@[grind .]
theorem Ahead.refl (c : Cursor) : c.Ahead c :=
  List.suffix_rfl

@[grind →]
theorem Ahead.trans (first : c.Ahead c') (second : c'.Ahead c'') : c.Ahead c'' :=
  List.IsSuffix.trans second first

@[grind! .]
theorem ahead_skip (c : Cursor) (n : Nat) : c.Ahead (c.skip n) :=
  List.drop_suffix n c.rest

@[grind! .]
theorem ahead_takeWhile (c : Cursor) (p : Char → Bool) : c.Ahead (c.takeWhile p).2 :=
  c.ahead_skip _

@[grind! .]
theorem ahead_skipBlanks (c : Cursor) : c.Ahead c.skipBlanks :=
  c.ahead_takeWhile isBlank

@[grind! .]
theorem ahead_takeBreak (c : Cursor) : c.Ahead c.takeBreak.2 := by
  unfold takeBreak
  split
  · exact List.drop_suffix 2 c.rest
  · split
    · exact List.drop_suffix 1 c.rest
    · split
      · exact List.drop_suffix 1 c.rest
      · exact .refl c
  · exact .refl c

@[grind! .]
theorem ahead_skipBreak (c : Cursor) : c.Ahead c.skipBreak :=
  c.ahead_takeBreak

end Cursor

variable {c c' : Cursor} {fuel : Nat}

/-- What comes first in a computation that succeeds, and what follows it. -/
@[grind →]
theorem eq_ok_of_bind {α β : Type} {x : Except Fault α} {f : α → Except Fault β} {b : β}
    (ok : (x >>= f) = .ok b) : ∃ a, x = .ok a ∧ f a = .ok b :=
  bind_eq_ok.1 ok

@[grind →]
theorem eq_of_pure_eq_ok {α : Type} {a b : α} (ok : (pure a : Except Fault α) = .ok b) : a = b :=
  Except.ok.inj ok

/-! ## Scalars -/

@[grind →]
theorem ahead_readGap {indent : Option Nat} {gap gap' : Gap}
    (read : readGap indent fuel gap c = .ok (gap', c')) : c.Ahead c' := by
  fun_induction readGap indent fuel gap c <;> grind

@[grind →]
theorem ahead_readPlain {flow atBreak : Bool} {indent : Nat} {acc text : List Char} {gap : Gap}
    (read : readPlain flow indent fuel acc gap c = .ok (text, atBreak, c')) : c.Ahead c' := by
  fun_induction readPlain flow indent fuel acc gap c <;> grind

@[grind →]
theorem ahead_readQuotedRun {single escaped : Bool} {acc text : List Char}
    (read : readQuotedRun single fuel acc c = .ok (text, escaped, c')) : c.Ahead c' := by
  induction fuel generalizing acc c with
  | zero => grind [readQuotedRun]
  | succ fuel ih =>
    rw [readQuotedRun] at read
    split at read
    · grind
    · split at read
      · grind
      · split at read
        · grind
        · split at read
          · grind
          · split at read <;> grind

@[grind →]
theorem ahead_readQuoted {single : Bool} {acc text : List Char}
    (read : readQuoted single fuel acc c = .ok (text, c')) : c.Ahead c' := by
  fun_induction readQuoted single fuel acc c <;> grind

@[grind →]
theorem ahead_readBlockHeader {how : Chomp} {n : Nat}
    (read : readBlockHeader c = .ok (how, n, c')) : c.Ahead c' := by
  grind [readBlockHeader]

@[grind →]
theorem ahead_readBlockBreaks {indent widest widest' : Nat} {breaks breaks' : List Char}
    (read : readBlockBreaks indent fuel breaks widest c = .ok (breaks', widest', c')) :
    c.Ahead c' := by
  fun_induction readBlockBreaks indent fuel breaks widest c <;> grind

@[grind →]
theorem ahead_readBlockLines {literal blank : Bool} {indent : Nat}
    {acc first more acc' first' more' : List Char}
    (read : readBlockLines literal indent fuel acc first more blank c =
      .ok (acc', first', more', c')) : c.Ahead c' := by
  fun_induction readBlockLines literal indent fuel acc first more blank c <;> grind

@[grind →]
theorem ahead_readBlock {literal : Bool} {outer : Int} {text : List Char}
    (read : readBlock fuel literal outer c = .ok (text, c')) : c.Ahead c' := by
  grind [readBlock]

/-! ## Anchors, tags and directives -/

@[grind →]
theorem ahead_readAnchor {name : String} (read : readAnchor c = .ok (name, c')) : c.Ahead c' := by
  grind [readAnchor]

@[grind →]
theorem ahead_readMoreBytes {n : Nat} {acc bytes : ByteArray}
    (read : readMoreBytes n acc c = .ok (bytes, c')) : c.Ahead c' := by
  fun_induction readMoreBytes n acc c <;> grind

@[grind →]
theorem ahead_readEscape {acc bytes : ByteArray} (read : readEscape acc c = .ok (bytes, c')) :
    c.Ahead c' := by
  unfold readEscape at read
  split at read
  · split at read
    · cases read
    · split at read
      · cases read
      · exact (c.ahead_skip 3).trans (ahead_readMoreBytes read)
  · cases read

@[grind →]
theorem ahead_readUriChars {acc bytes : ByteArray}
    (read : readUriChars fuel acc c = .ok (bytes, c')) : c.Ahead c' := by
  fun_induction readUriChars fuel acc c <;> grind

@[grind →]
theorem ahead_readUri {start : List Char} {uri : String}
    (read : readUri fuel start c = .ok (uri, c')) : c.Ahead c' := by
  grind [readUri]

@[grind →]
theorem ahead_readHandle {directive : Bool} {handle : List Char}
    (read : readHandle directive c = .ok (handle, c')) : c.Ahead c' := by
  grind [readHandle]

@[grind →]
theorem ahead_readTag {t : Token} (read : readTag fuel c = .ok (t, c')) : c.Ahead c' := by
  grind [readTag]

@[grind →]
theorem ahead_readVersionNumber {n : Nat} (read : readVersionNumber c = .ok (n, c')) :
    c.Ahead c' := by
  grind [readVersionNumber]

@[grind →]
theorem ahead_readVersion {t : Token} (read : readVersion c = .ok (t, c')) : c.Ahead c' := by
  grind [readVersion]

@[grind →]
theorem ahead_readTagDirective {t : Token} (read : readTagDirective fuel c = .ok (t, c')) :
    c.Ahead c' := by
  grind [readTagDirective]

@[grind →]
theorem ahead_readDirective {t : Token} (read : readDirective fuel c = .ok (t, c')) :
    c.Ahead c' := by
  grind [readDirective]

/-! ## Between tokens -/

namespace Scanner

@[grind! .]
theorem ahead_skipSpace (fuel : Nat) (c : Cursor) : c.Ahead (skipSpace fuel c) := by
  fun_induction skipSpace fuel c <;> grind

@[grind! .]
theorem ahead_skipComments (fuel : Nat) (c : Cursor) : c.Ahead (skipComments fuel c) := by
  fun_induction skipComments fuel c <;> grind

@[grind! .]
theorem ahead_toNext (flow : Bool) (fuel : Nat) (keyAllowed : Bool) (c : Cursor) :
    c.Ahead (toNext flow fuel keyAllowed c).2 := by
  fun_induction toNext flow fuel keyAllowed c <;> grind

@[grind! .]
theorem ahead_skipLineComment (c : Cursor) : c.Ahead (skipLineComment c) := by
  grind [skipLineComment]

end Scanner

end ImpHost.Yaml
