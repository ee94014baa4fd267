import StakeSnapshot.Text.Blank
import StakeSnapshot.Text.Lowercase
import StakeSnapshot.Text.Quoted

/-!
# Code points

A text from outside may hold half of a surrogate pair by itself, which is no character and which no
file takes. Such a text is a list of code points. It is shown with its surrogates by number, and
trimmed and lowered as other texts are; a surrogate is neither white space nor has it a case.
-/

namespace StakeSnapshot

/-- A character, or half of a surrogate pair by itself. -/
inductive CodePoint where
  | char (c : Char)
  | surrogate (offset : Fin 0x800)
  deriving DecidableEq

namespace CodePoint

/-- The number of the first surrogate. -/
def firstSurrogate : Nat := 0xd800

/-- The code point with a number. -/
def ofNat (n : Nat) : CodePoint :=
  if h : n - firstSurrogate < 0x800 ∧ firstSurrogate ≤ n then .surrogate ⟨n - firstSurrogate, h.1⟩
  else .char (Char.ofNat n)

/-- The character that a code point is. -/
def char? : CodePoint → Option Char
  | char c => some c
  | surrogate _ => none

/-- The code points of a text. -/
def ofString (s : String) : List CodePoint := s.toList.map char

/-- The text of code points among which there is no surrogate. -/
def plain? (points : List CodePoint) : Option String := (points.mapM char?).map String.ofList

/-- A surrogate by its number. -/
def escape (offset : Fin 0x800) : List Char :=
  '\\' :: 'u' :: Text.hexPadded 4 (firstSurrogate + offset)

/-- Code points as an error stream shows them: surrogates by number. -/
def shown (points : List CodePoint) : List Char :=
  points.flatMap fun
    | char c => [c]
    | surrogate offset => escape offset

/-- Code points between quotation marks. -/
def quoted (points : List CodePoint) : List Char :=
  let mark := Text.quoteMark (points.filterMap char?)
  mark :: (points.flatMap fun
    | char c => Text.quotedChar mark c
    | surrogate offset => escape offset) ++ [mark]

/-- Whether a code point is white space. -/
def isBlank : CodePoint → Bool
  | char c => Text.isBlank c
  | surrogate _ => false

/-- Code points without the white space around them. -/
def strip (points : List CodePoint) : List CodePoint :=
  ((points.dropWhile isBlank).reverse.dropWhile isBlank).reverse

/-- The lower-case form of code points behind the characters `run` (last first). A surrogate ends the
search for a neighbour that has a case. -/
def lowerBehind (run : List Char) : List CodePoint → List CodePoint
  | [] => (Text.lower run.reverse).map char
  | char c :: rest => lowerBehind (c :: run) rest
  | surrogate offset :: rest =>
    (Text.lower run.reverse).map char ++ surrogate offset :: lowerBehind [] rest

/-- The lower-case form of code points. -/
def lower (points : List CodePoint) : List CodePoint := lowerBehind [] points

/-- Whether code points start with the given characters. -/
def startsWith (start : List Char) (points : List CodePoint) : Bool :=
  (start.map char).isPrefixOf points

@[simp] theorem plain?_ofString (s : String) : plain? (ofString s) = some s := by
  have hall : ∀ cs : List Char, (cs.map char).mapM char? = some cs := by
    intro cs
    induction cs with
    | nil => rfl
    | cons c cs ih => rw [List.map_cons, List.mapM_cons, ih]; rfl
  rw [plain?, ofString, hall, Option.map_some, String.ofList_toList]

theorem ofString_injective : Function.Injective ofString := by
  intro s t h
  have hsome := plain?_ofString s
  rw [h, plain?_ofString] at hsome
  exact (Option.some.inj hsome).symm

theorem eq_ofString_of_plain? {points : List CodePoint} {s : String} (h : plain? points = some s) :
    points = ofString s := by
  have hall : ∀ {points : List CodePoint} {cs : List Char}, points.mapM char? = some cs →
      points = cs.map char := by
    intro points
    induction points with
    | nil =>
      rintro cs ⟨⟩
      rfl
    | cons p points ih =>
      intro cs hcs
      rw [List.mapM_cons] at hcs
      obtain ⟨c, hc, hcs⟩ := Option.bind_eq_some_iff.1 hcs
      obtain ⟨ds, hds, hcs⟩ := Option.bind_eq_some_iff.1 hcs
      cases hcs
      cases p with
      | char d =>
        cases hc
        rw [List.map_cons, ← ih hds]
      | surrogate offset => cases hc
  obtain ⟨cs, hcs, rfl⟩ := Option.map_eq_some_iff.1 h
  rw [ofString, String.toList_ofList]
  exact hall hcs

end CodePoint

end StakeSnapshot
