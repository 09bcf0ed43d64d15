import Mathlib.Algebra.GroupWithZero.Nat
import ImpHost.Proofs.Text

/-!
Strings are in the order of their bytes (`Text.lt_ofString`).

The first byte of a character is greater the more bytes follow it, and the bytes that follow are the
digits of its code in base 64, the greatest first, so the characters are in the order of their
encodings, whatever follows.
-/

namespace ImpHost.Text

/-- The last `k` digits of a code in base 64, each marked as a byte that follows another. -/
def following : (k : Nat) → (code : Nat) → List UInt8
  | 0, _ => []
  | k + 1, code => UInt8.ofNat (code / 64 ^ k % 64 + 0x80) :: following k code

/-- How many bytes follow the first one of the character with a code. -/
def followers (code : Nat) : Nat :=
  if code ≤ 0x7F then 0 else if code ≤ 0x7FF then 1 else if code ≤ 0xFFFF then 2 else 3

/-- The first byte of the character with a code. -/
def leader (code : Nat) : Nat :=
  if code ≤ 0x7F then code
  else if code ≤ 0x7FF then code / 64 + 0xC0
  else if code ≤ 0xFFFF then code / 4096 + 0xE0
  else code / 262144 + 0xF0

theorem code_lt (c : Char) : c.toNat < 0x110000 := by
  have valid : c.toNat < 0xD800 ∨ 0xDFFF < c.toNat ∧ c.toNat < 0x110000 := c.valid
  omega

theorem utf8EncodeChar_eq (c : Char) : String.utf8EncodeChar c =
    UInt8.ofNat (leader c.toNat) :: following (followers c.toNat) c.toNat := by
  have valid := code_lt c
  have code : c.val.toNat = c.toNat := rfl
  unfold String.utf8EncodeChar leader followers
  dsimp only
  rw [code]
  split
  · rfl
  · split
    · have front : c.toNat / 64 % 32 = c.toNat / 64 := by omega
      rw [front]
      simp only [following, Nat.pow_zero, Nat.div_one]
    · split
      · have front : c.toNat / 4096 % 16 = c.toNat / 4096 := by omega
        rw [front]
        simp only [following, Nat.pow_zero, Nat.div_one, Nat.pow_one]
      · have front : c.toNat / 262144 % 8 = c.toNat / 262144 := by omega
        rw [front]
        simp only [following, Nat.pow_zero, Nat.div_one, Nat.pow_one, Nat.reducePow]

/-- Of two codes the lesser has the lesser first byte, or the same one and the lesser rest. -/
theorem leader_lt {a b : Nat} (less : a < b) (valid : b < 0x110000) :
    leader a < leader b ∨ leader a = leader b ∧ followers a = followers b ∧
      a % 64 ^ followers b < b % 64 ^ followers b := by
  unfold leader followers
  -- One case for each pair of numbers of bytes.
  repeat' split
  all_goals omega

theorem leader_byte {code : Nat} (valid : code < 0x110000) : leader code < 0x100 := by
  unfold leader
  split
  · omega
  · split
    · omega
    · split <;> omega

theorem ofNat_lt {a b : Nat} (less : a < b) (byte : b < 0x100) : UInt8.ofNat a < UInt8.ofNat b := by
  rw [UInt8.lt_iff_toNat_lt, UInt8.toNat_ofNat', UInt8.toNat_ofNat']
  omega

theorem following_lt {k a b : Nat} (less : a % 64 ^ k < b % 64 ^ k) (xs ys : List UInt8) :
    following k a ++ xs < following k b ++ ys := by
  induction k with
  | zero =>
    rw [Nat.pow_zero, Nat.mod_one, Nat.mod_one] at less
    exact absurd less (Nat.lt_irrefl 0)
  | succ k ih =>
    rw [Nat.mod_pow_succ, Nat.mod_pow_succ] at less
    rw [following, following, List.cons_append, List.cons_append, List.cons_lt_cons_iff]
    rcases Nat.lt_trichotomy (a / 64 ^ k % 64) (b / 64 ^ k % 64) with digit | digit | digit
    · exact .inl (ofNat_lt (by omega) (by omega))
    · rw [digit] at less ⊢
      exact .inr ⟨rfl, ih (Nat.lt_of_add_lt_add_right less)⟩
    · -- The greater digit would outweigh all that follow it.
      have outweighs := Nat.mul_le_mul_left (64 ^ k) digit
      have rest := Nat.mod_lt b (Nat.pow_pos (by decide) : 0 < 64 ^ k)
      rw [Nat.mul_succ] at outweighs
      omega

theorem utf8EncodeChar_lt {c d : Char} (less : c < d) (xs ys : List UInt8) :
    String.utf8EncodeChar c ++ xs < String.utf8EncodeChar d ++ ys := by
  have codes : c.toNat < d.toNat := Char.lt_def.1 less
  rw [utf8EncodeChar_eq, utf8EncodeChar_eq, List.cons_append, List.cons_append,
    List.cons_lt_cons_iff]
  rcases leader_lt codes (code_lt d) with first | ⟨first, same, rest⟩
  · exact .inl (ofNat_lt first (leader_byte (code_lt d)))
  · rw [first, same]
    exact .inr ⟨rfl, following_lt rest xs ys⟩

theorem flatMap_utf8EncodeChar_lt {cs ds : List Char} (less : cs < ds) :
    cs.flatMap String.utf8EncodeChar < ds.flatMap String.utf8EncodeChar := by
  induction less with
  | @nil d ds =>
    rw [List.flatMap_nil, List.flatMap_cons, utf8EncodeChar_eq]
    exact List.nil_lt_cons _ _
  | @rel c cs d ds less =>
    rw [List.flatMap_cons, List.flatMap_cons]
    exact utf8EncodeChar_lt less _ _
  | @cons c cs ds _ ih =>
    rw [List.flatMap_cons, List.flatMap_cons]
    exact List.append_left_lt ih

/-- Strings are in the order of their bytes. -/
theorem lt_ofString {s t : String} (less : s < t) : lt (ofString s) (ofString t) = true := by
  have bytes (s : String) : (ofString s).bytes.data.toList =
      s.toList.flatMap String.utf8EncodeChar := by
    rw [ofString, ← String.utf8Encode_toList, List.utf8Encode, List.data_toByteArray]
  rw [lt, decide_eq_true_eq, bytes, bytes]
  exact flatMap_utf8EncodeChar_lt less

end ImpHost.Text
