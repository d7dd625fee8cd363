/-! The lines of a text, and its pieces between separators. -/

namespace Synod.Text

/-- The pieces between separators; a text without one is a single piece. -/
def splitAt (sep : Char) : List Char → List (List Char)
  | [] => [[]]
  | c :: cs =>
    if c = sep then [] :: splitAt sep cs
    else match splitAt sep cs with
      | [] => [[c]]
      | piece :: pieces => (c :: piece) :: pieces

/-- The pieces of a text between separators, empty ones kept. -/
def pieces (sep : Char) (text : String) : List String :=
  (splitAt sep text.toList).map String.ofList

/-- A piece before a line feed as a line: a carriage return at its end belongs to the line break. -/
def asLine (piece : List Char) : List Char :=
  if piece.getLast? = some '\r' then piece.dropLast else piece

/-- The last piece is a line only where something stands on it. -/
def asLines : List (List Char) → List (List Char)
  | [] => []
  | [last] => if last.isEmpty then [] else [last]
  | piece :: pieces => asLine piece :: asLines pieces

/-- The lines of a text, without their line breaks. -/
def lines (text : String) : List String :=
  (asLines (splitAt '\n' text.toList)).map String.ofList

def firstLine (text : String) : String := (lines text).headD ""

theorem splitAt_ne_nil (sep : Char) (cs : List Char) : splitAt sep cs ≠ [] := by
  cases cs with
  | nil => simp [splitAt]
  | cons c cs =>
    simp only [splitAt]
    split
    · simp
    · split <;> simp

theorem not_mem_of_mem_splitAt {sep : Char} {cs piece : List Char} (h : piece ∈ splitAt sep cs) :
    sep ∉ piece := by
  induction cs generalizing piece with
  | nil => simp_all [splitAt]
  | cons c cs ih =>
    simp only [splitAt] at h
    split at h
    · rcases List.mem_cons.1 h with rfl | h
      · simp
      · exact ih h
    · next hc =>
      split at h
      · next hnil => exact absurd hnil (splitAt_ne_nil sep cs)
      · next first rest hsplit =>
        rcases List.mem_cons.1 h with rfl | h
        · have hfirst := ih (hsplit ▸ List.mem_cons_self)
          simp [hfirst, Ne.symm hc]
        · exact ih (hsplit ▸ List.mem_cons_of_mem _ h)

/-- The separators between the pieces are all that is left out. -/
theorem intercalate_splitAt (sep : Char) (cs : List Char) :
    [sep].intercalate (splitAt sep cs) = cs := by
  induction cs with
  | nil => simp [splitAt]
  | cons c cs ih =>
    simp only [splitAt]
    split
    · next hc =>
      cases hsplit : splitAt sep cs with
      | nil => exact absurd hsplit (splitAt_ne_nil sep cs)
      | cons first rest =>
        rw [hsplit] at ih
        simp [List.intercalate_cons_cons, ih, hc]
    · split
      · next hnil => exact absurd hnil (splitAt_ne_nil sep cs)
      · next first rest hsplit =>
        rw [hsplit] at ih
        cases rest with
        | nil => simp_all
        | cons second rest => simp_all [List.intercalate_cons_cons]

end Synod.Text
