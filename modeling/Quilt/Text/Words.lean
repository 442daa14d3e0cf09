namespace Quilt.Text

variable (isBlank : Char → Bool)

def words (cs : List Char) : List (List Char) :=
  let (first, others) := cs.foldr (fun c (word, others) =>
    if !isBlank c then (c :: word, others)
    else ([], if word.isEmpty then others else word :: others)) ([], [])
  if first.isEmpty then others else first :: others

def trim (cs : List Char) : List Char :=
  ((cs.dropWhile isBlank).reverse.dropWhile isBlank).reverse

end Quilt.Text
