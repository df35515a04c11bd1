/-!
# Pieces of a text

A text is cut into pieces at a separator and nowhere else: `n` separators
make `n + 1` pieces, any of which may be empty. Lines are the pieces
between line feeds.
-/

namespace Brainfuck.Text

/-- The pieces of a text, without the separators. -/
def split (separator : Char) : List Char → List (List Char)
  | [] => [[]]
  | c :: rest =>
    if c = separator then [] :: split separator rest
    else
      match split separator rest with
      | [] => [[c]]
      | piece :: pieces => (c :: piece) :: pieces

theorem split_ne_nil (separator : Char) (s : List Char) : split separator s ≠ [] := by
  cases s with
  | nil => simp [split]
  | cons c rest =>
    simp only [split]
    split
    · simp
    · split <;> simp

/-- The lines of a text, without their line feeds. -/
def lines (s : List Char) : List (List Char) := split '\n' s

end Brainfuck.Text
