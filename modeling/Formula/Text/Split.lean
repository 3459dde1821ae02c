/-!
# Cutting at a character

`splitAtChar` cuts a text at every occurrence of a character, which belongs to
none of the parts.  There is always one part more than there are occurrences.
-/

namespace Formula

def splitChars (separator : Char) : List Char → List (List Char)
  | [] => [[]]
  | c :: rest =>
    if c = separator then [] :: splitChars separator rest
    else
      match splitChars separator rest with
      | [] => [[c]]
      | first :: others => (c :: first) :: others

theorem length_splitChars (separator : Char) (text : List Char) :
    (splitChars separator text).length = text.count separator + 1 := by
  induction text with
  | nil => rfl
  | cons c rest ih =>
    by_cases same : c = separator
    · simp [splitChars, same, ih]
    · simp only [splitChars, if_neg same, List.count_cons_of_ne same]
      split <;> simp_all

def splitAtChar (separator : Char) (text : String) : List String :=
  (splitChars separator text.toList).map String.ofList

end Formula
