/-!
# Nearest words

A word that is not known may be a known one misspelt.  The distance between two words is the number of bytes
that have to be replaced, inserted or left out to get from one to the other.  Neither case nor underscores
count.  A word is suggested if it is less than half as far away as the unknown one is long.
-/

set_option autoImplicit false
namespace TapeMachine.Text

/-- A word without underscores and without regard to case, as bytes. -/
def wordBytes (s : String) : List UInt8 :=
  (String.ofList ((s.toList.filter (· ≠ '_')).map Char.toLower)).toUTF8.data.toList

/-- The distances from a word with one more byte to the prefixes of another word, given the distance to the
empty one (`left`), and the distances from the word without that byte. -/
def nextDistances (byte : UInt8) (left : Nat) : List UInt8 → List Nat → List Nat
  | b :: bs, diagonal :: above :: row =>
    let here := min (min (left + 1) (above + 1)) (if b = byte then diagonal else diagonal + 1)
    here :: nextDistances byte here bs (above :: row)
  | _, _ => []

/-- The distances from a word to all prefixes of another one, given those from the bytes before. -/
def distancesFrom (target : List UInt8) : List UInt8 → List Nat → List Nat
  | [], row => row
  | byte :: more, row =>
    let first := row.headD 0 + 1
    distancesFrom target more (first :: nextDistances byte first target row)

/-- How many bytes two words differ by. -/
def distance (x y : List UInt8) : Nat :=
  (distancesFrom y x (List.range (y.length + 1))).getLastD 0

/-- The first of the nearest candidates, among those that are nearer than a bound. -/
def nearestWithin (word : List UInt8) : (bound : Nat) → (best : Option String) → List String → Option String
  | _, best, [] => best
  | bound, best, c :: cs =>
    let d := distance word (wordBytes c)
    if d < bound then nearestWithin word d (some c) cs else nearestWithin word bound best cs

/-- The word that an unknown word was probably meant to be. -/
def nearest? (word : String) (candidates : List String) : Option String :=
  let bytes := wordBytes word
  nearestWithin bytes ((bytes.length + 1) / 2) none candidates

end TapeMachine.Text
