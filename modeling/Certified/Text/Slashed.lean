/-!
Texts that slashes cut into pieces.
-/

namespace Certified.Text.Slashed

/-- The pieces of a text between slashes; there is always one more than there are slashes. -/
def segments : List Char → List (List Char)
  | [] => [[]]
  | c :: rest =>
    if c = '/' then [] :: segments rest
    else
      match segments rest with
      | [] => [[c]]
      | first :: more => (c :: first) :: more

end Certified.Text.Slashed
