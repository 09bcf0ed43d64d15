/-!
What a reader returns: what it read from the front of a list, and what follows, with a proof that
something was read.
-/

namespace ImpHost

/-- A result read from the front of `whole`, and what is left of it. -/
structure Parsed {τ : Type} (α : Type) (whole : List τ) where
  tree : α
  rest : List τ
  shorter : rest.length < whole.length

namespace Parsed

/-- Another result from the same part. -/
def map {τ α β : Type} {whole : List τ} (f : α → β) (p : Parsed α whole) : Parsed β whole :=
  ⟨f p.tree, p.rest, p.shorter⟩

/-- A result read from a part of `whole` is one read from `whole`. -/
def widen {τ α : Type} {part whole : List τ} (p : Parsed α part)
    (h : part.length ≤ whole.length) : Parsed α whole :=
  ⟨p.tree, p.rest, Nat.lt_of_lt_of_le p.shorter h⟩

/-- What is left is shorter than all that `whole` is shorter than. -/
theorem below {τ α : Type} {whole : List τ} (p : Parsed α whole) {n : Nat}
    (h : whole.length < n) : p.rest.length < n :=
  Nat.lt_trans p.shorter h

end Parsed

end ImpHost
