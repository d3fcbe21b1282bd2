/-!
# Text/Similarity — how alike two words are

Two characters of two words match if they are equal and stand at nearly the same place; each
character matches at most one other. The similarity is the mean of three shares: of the characters
of each word that match, and of the matches that come in the same order in both words. Words without
a match have no similarity.
-/

namespace SegmentRouter.Text

/-- The characters from place `i` on that match one of those in `free`, which are listed with their
places, and the places of their partners. The first partner that is at most `range` away is taken. -/
def partners (range : Nat) : (i : Nat) → List Char → (free : List (Char × Nat)) → List (Char × Nat)
  | _, [], _ => []
  | i, c :: cs, free =>
    match free.find? fun (d, j) => d == c && i ≤ j + range && j ≤ i + range with
    | some partner => partner :: partners range (i + 1) cs (free.erase partner)
    | none => partners range (i + 1) cs free

/-- The similarity of two words as a fraction. -/
def similarity (a b : List Char) : Nat × Nat :=
  let range := max a.length b.length / 2 - 1
  let found := partners range 0 a b.zipIdx
  let inOrder := b.zipIdx.filter found.contains
  let misplaced := ((found.zip inOrder).countP fun (p, q) => p.1 != q.1) / 2
  let m := found.length
  if m = 0 then (0, 1)
  else (m * b.length * m + a.length * m * m + a.length * b.length * (m - misplaced),
    3 * (a.length * b.length * m))

/-- Whether one similarity is at most another. -/
def similarityLe (x y : Nat × Nat) : Bool :=
  x.1 * y.2 ≤ y.1 * x.2

/-- The word of a list that is most like another word, with a similarity of at least seven tenths;
of several the last one. -/
def nearest? (word : String) (words : List String) : Option String :=
  let scored := words.map fun w => (w, similarity word.toList w.toList)
  let best := scored.foldl (fun best candidate =>
    if similarityLe (best.elim (7, 10) (·.2)) candidate.2 then some candidate else best) none
  best.map (·.1)

end SegmentRouter.Text
