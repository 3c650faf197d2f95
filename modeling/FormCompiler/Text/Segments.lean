namespace FormCompiler

namespace Text

def splitMarks (mark : Char) : List Char → List (List Char)
  | [] => [[]]
  | c :: rest =>
    if c = mark then [] :: splitMarks mark rest
    else match splitMarks mark rest with
      | [] => [[c]]
      | part :: parts => (c :: part) :: parts

def segments (path : String) : List String := (splitMarks '.' path.toList).map String.ofList

theorem splitMarks_ne_nil (mark : Char) (cs : List Char) : splitMarks mark cs ≠ [] := by
  induction cs with
  | nil => simp [splitMarks]
  | cons c rest ih =>
    unfold splitMarks
    split
    · simp
    · split <;> simp

theorem splitMarks_append (mark : Char) (p q : List Char) :
    splitMarks mark (p ++ mark :: q) = splitMarks mark p ++ splitMarks mark q := by
  induction p with
  | nil => simp [splitMarks]
  | cons c rest ih =>
    by_cases hc : c = mark
    · simp [splitMarks, hc, ih]
    · simp only [List.cons_append, splitMarks, hc, if_false, ih]
      cases h : splitMarks mark rest with
      | nil => exact absurd h (splitMarks_ne_nil mark rest)
      | cons part parts => simp

end Text

end FormCompiler
