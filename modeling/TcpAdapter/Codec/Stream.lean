import Mathlib.Data.List.Forall2

/-! # Readers of a stream -/

namespace TcpAdapter.Codec

variable {σ ε α : Type}

/-- A reader takes a value off the front of a stream or fails. It answers with what it
leaves unread in either case. -/
abbrev Reader (σ ε α : Type) := List σ → Except ε α × List σ

/-- Read `n` values in a row; the first error ends it. -/
def readMany (r : Reader σ ε α) : ℕ → Reader σ ε (List α)
  | 0, stream => (.ok [], stream)
  | n + 1, stream =>
      match r stream with
      | (.error err, rest) => (.error err, rest)
      | (.ok x, rest) =>
          match readMany r n rest with
          | (.error err, rest) => (.error err, rest)
          | (.ok xs, rest) => (.ok (x :: xs), rest)

/-- The reader takes exactly `piece` off a stream and answers `x`, whatever follows. -/
def Reads (r : Reader σ ε α) (piece : List σ) (x : α) : Prop :=
  ∀ rest, r (piece ++ rest) = (.ok x, rest)

theorem readMany_flatten {r : Reader σ ε α} {pieces : List (List σ)} {xs : List α}
    (h : List.Forall₂ (Reads r) pieces xs) (rest : List σ) :
    readMany r xs.length (pieces.flatten ++ rest) = (.ok xs, rest) := by
  induction h with
  | nil => rfl
  | cons hx _ ih =>
      rw [List.flatten_cons, List.append_assoc, List.length_cons]
      simp only [readMany, hx _, ih]

end TcpAdapter.Codec
