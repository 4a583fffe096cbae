/-! How much two words look alike: the similarity of Jaro. -/
namespace IndirectBranch.CommandLine

/-- Pairs each character with the first equal one of `b` that is not farther away than `range` and
not paired yet. Gives the paired characters, and their places in `b`. -/
def pairUp (range : Nat) (b : List Char) :
    (index : Nat) → (taken : List Nat) → List Char → List Char × List Nat
  | _, taken, [] => ([], taken)
  | index, taken, c :: cs =>
    let free (j : Nat) : Bool :=
      index ≤ j + range && j ≤ index + range && b[j]? == some c && !taken.contains j
    match (List.range b.length).find? free with
    | none => pairUp range b (index + 1) taken cs
    | some j =>
      let (paired, taken) := pairUp range b (index + 1) (j :: taken) cs
      (c :: paired, taken)

/-- From 0 for words without a common character to 1 for equal words. -/
def similarity (a b : List Char) : Float :=
  let (paired, taken) := pairUp (max a.length b.length / 2 - 1) b 0 [] a
  let paired' := (b.zipIdx.filter fun (_, j) => taken.contains j).map (·.1)
  let swapped := ((paired.zip paired').countP fun (x, y) => x != y) / 2
  let m := paired.length
  let share (n d : Nat) : Float := Float.ofNat n / Float.ofNat d
  if m = 0 then 0 else (share m a.length + share m b.length + share (m - swapped) m) / 3

/-- The most similar word, if it is similar enough; of equally similar ones the last. -/
def mostSimilar? (word : String) (known : List String) : Option String :=
  let scored := known.map fun k => (similarity word.toList k.toList, k)
  let better (best : Option (Float × String)) (s : Float × String) : Option (Float × String) :=
    match best with
    | none => if s.1 > 0.7 then some s else none
    | some b => if s.1 ≥ b.1 then some s else some b
  (scored.foldl better none).map (·.2)

end IndirectBranch.CommandLine
