/-!
# Splitting

The pieces of a text between the places where a separator stands. There is one piece more than
there are separators, so the text without any character has one piece without any character.
-/

namespace ItemClient.Text

/-- The pieces between separators. -/
def split (separator : Char) : List Char → List (List Char)
  | [] => [[]]
  | c :: rest =>
      match split separator rest with
      | [] => [[c]]
      | piece :: others =>
          if c = separator then [] :: piece :: others else (c :: piece) :: others

/-- What stands before the first separator, and what stands after it if there is one. -/
def cut (separator : Char) : List Char → List Char × Option (List Char)
  | [] => ([], none)
  | c :: rest =>
      if c = separator then ([], some rest)
      else
        let (before, after) := cut separator rest
        (c :: before, after)

end ItemClient.Text
