/-!
# File patterns

A pattern is a path whose names may hold wildcards: a question mark stands for any character, a star
for any characters, and brackets for one character out of some or out of all others. Two stars by
themselves stand for any directories, or none.

- `Wildcard.fits_iff`: which texts fit the parts of a name pattern.
-/

namespace QueryPaging

/-- Characters that brackets list. -/
inductive CharacterSet where
  | one (c : Char)
  | range (first last : Char)
deriving DecidableEq

namespace CharacterSet

def contains (c : Char) : CharacterSet → Bool
  | .one listed => c == listed
  | .range first last => first ≤ c && c ≤ last

/-- The sets listed between brackets. A dash between two characters makes a range. -/
def ofList : List Char → List CharacterSet
  | first :: '-' :: last :: rest => .range first last :: ofList rest
  | c :: rest => .one c :: ofList rest
  | [] => []

end CharacterSet

/-- A part of a name pattern. -/
inductive Wildcard where
  | character (c : Char)
  | anyCharacter
  | anyText
  | among (sets : List CharacterSet)
  | notAmong (sets : List CharacterSet)
deriving DecidableEq

namespace Wildcard

/-- Whether a part stands for a single character. -/
def accepts (c : Char) : Wildcard → Bool
  | .character wanted => c == wanted
  | .anyCharacter => true
  | .anyText => false
  | .among sets => sets.any (·.contains c)
  | .notAmong sets => !sets.any (·.contains c)

/-- What follows the closing bracket. -/
def afterBracket (text : List Char) : List Char :=
  text.dropWhile (· != ']')

theorem length_afterBracket_le (text : List Char) :
    (afterBracket text).length ≤ text.length :=
  (List.dropWhile_suffix _).length_le

/-- The parts of a name pattern. Stars may not stand together, and brackets have to be closed; the
first character between brackets does not close them. -/
def ofText? (text : List Char) : Option (List Wildcard) :=
  match text with
  | [] => some []
  | '*' :: '*' :: _ => none
  | '*' :: rest => (ofText? rest).map (.anyText :: ·)
  | '?' :: rest => (ofText? rest).map (.anyCharacter :: ·)
  | '[' :: '!' :: first :: rest =>
      match _closing : afterBracket rest with
      | [] => none
      | _ :: after =>
          let sets := CharacterSet.ofList (first :: rest.takeWhile (· != ']'))
          (ofText? after).map (.notAmong sets :: ·)
  | '[' :: first :: rest =>
      if first = '!' then
        none
      else
        match _closing : afterBracket rest with
        | [] => none
        | _ :: after =>
            let sets := CharacterSet.ofList (first :: rest.takeWhile (· != ']'))
            (ofText? after).map (.among sets :: ·)
  | '[' :: [] => none
  | c :: rest => (ofText? rest).map (.character c :: ·)
termination_by text.length
decreasing_by
  all_goals simp only [List.length_cons]
  all_goals first
    | omega
    | have bound := length_afterBracket_le rest
      simp only [_closing, List.length_cons] at bound
      omega

/-- For every place in a list, whether some entry from there on is true. -/
def anyFrom : List Bool → List Bool
  | [] => []
  | first :: rest =>
      let later := anyFrom rest
      (first || later.headD false) :: later

/-- For every place in a text, whether what follows the place fits the parts of a name pattern.
The last place is the end of the text. -/
def fitsFrom : List Wildcard → List Char → List Bool
  | [], text => text.map (fun _ => false) ++ [true]
  | .anyText :: parts, text => anyFrom (fitsFrom parts text)
  | part :: parts, text =>
      text.zipWith (fun c later => part.accepts c && later) (fitsFrom parts text).tail ++ [false]

/-- Whether a text fits the parts of a name pattern. -/
def fits (parts : List Wildcard) (text : List Char) : Bool :=
  (fitsFrom parts text).headD false

@[simp]
theorem length_anyFrom (truths : List Bool) :
    (anyFrom truths).length = truths.length := by
  induction truths with
  | nil => rfl
  | cons first rest ih => simp [anyFrom, ih]

theorem length_fitsFrom (parts : List Wildcard) (text : List Char) :
    (fitsFrom parts text).length = text.length + 1 := by
  induction parts with
  | nil => simp [fitsFrom]
  | cons part parts ih => cases part <;> simp [fitsFrom, ih]

theorem fitsFrom_eq_cons (parts : List Wildcard) (text : List Char) :
    fitsFrom parts text = fits parts text :: (fitsFrom parts text).tail := by
  have length := length_fitsFrom parts text
  unfold fits
  cases found : fitsFrom parts text with
  | nil => simp [found] at length
  | cons first rest => rfl

/-- What holds of the places in a text holds of them where the text goes on behind a character. -/
theorem tail_fitsFrom_cons (parts : List Wildcard) (c : Char) (rest : List Char) :
    (fitsFrom parts (c :: rest)).tail = fitsFrom parts rest := by
  induction parts with
  | nil => rfl
  | cons part parts ih =>
      rw [fitsFrom_eq_cons parts rest] at ih
      cases part
      case anyText =>
        rw [fitsFrom, fitsFrom, fitsFrom_eq_cons parts (c :: rest), ih,
          fitsFrom_eq_cons parts rest]
        rfl
      all_goals
        simp only [fitsFrom, ih]
        rfl

/-- That a text fits the parts of a name pattern, part by part. -/
inductive Fits : List Wildcard → List Char → Prop where
  | done : Fits [] []
  | single {part : Wildcard} {parts : List Wildcard} {c : Char} {rest : List Char}
      (accepted : part.accepts c = true)
      (behind : Fits parts rest) :
      Fits (part :: parts) (c :: rest)
  /-- A star stands for nothing. -/
  | skipped {parts : List Wildcard} {text : List Char}
      (behind : Fits parts text) :
      Fits (.anyText :: parts) text
  /-- A star stands for a character and what it stands for behind it. -/
  | repeated {parts : List Wildcard} {c : Char} {rest : List Char}
      (behind : Fits (.anyText :: parts) rest) :
      Fits (.anyText :: parts) (c :: rest)

theorem fits_anyText_cons (parts : List Wildcard) (c : Char) (rest : List Char) :
    fits (.anyText :: parts) (c :: rest) =
      (fits parts (c :: rest) || fits (.anyText :: parts) rest) := by
  have tail := tail_fitsFrom_cons parts c rest
  simp only [fits, fitsFrom]
  rw [fitsFrom_eq_cons parts (c :: rest), tail]
  rfl

theorem fits_anyText_nil (parts : List Wildcard) :
    fits (.anyText :: parts) [] = fits parts [] := by
  have last : (fitsFrom parts []).tail = [] :=
    List.eq_nil_of_length_eq_zero (by simp [length_fitsFrom])
  simp only [fits, fitsFrom]
  rw [fitsFrom_eq_cons, last]
  simp [anyFrom]

theorem fits_cons {part : Wildcard} (parts : List Wildcard) (c : Char) (rest : List Char)
    (single : part ≠ .anyText) :
    fits (part :: parts) (c :: rest) = (part.accepts c && fits parts rest) := by
  have tail := tail_fitsFrom_cons parts c rest
  rw [fitsFrom_eq_cons parts rest] at tail
  cases part
  case anyText => exact absurd rfl single
  all_goals simp [fits, fitsFrom, tail]

theorem fits_single_nil {part : Wildcard} (parts : List Wildcard)
    (single : part ≠ .anyText) :
    fits (part :: parts) [] = false := by
  cases part
  case anyText => exact absurd rfl single
  all_goals rfl

theorem Fits.fits_eq_true {parts : List Wildcard} {text : List Char}
    (isFit : Fits parts text) :
    fits parts text = true := by
  induction isFit with
  | done => rfl
  | @single part parts c rest accepted _ inductionHypothesis =>
      have single : part ≠ .anyText := by
        rintro rfl
        cases accepted
      rw [fits_cons parts c rest single, accepted, inductionHypothesis]
      rfl
  | @skipped parts text _ inductionHypothesis =>
      cases text with
      | nil => rw [fits_anyText_nil, inductionHypothesis]
      | cons c rest => rw [fits_anyText_cons, inductionHypothesis, Bool.true_or]
  | repeated _ inductionHypothesis => rw [fits_anyText_cons, inductionHypothesis, Bool.or_true]

/-- A text is found to fit just if it does. The induction is on the parts, and within a star on the
text that it stands for. -/
theorem fits_iff {parts : List Wildcard} {text : List Char} :
    fits parts text = true ↔ Fits parts text := by
  refine ⟨fun found => ?_, Fits.fits_eq_true⟩
  induction parts generalizing text with
  | nil =>
      cases text with
      | nil => exact .done
      | cons c rest => cases found
  | cons part parts ofParts =>
      by_cases isStar : part = .anyText
      · subst isStar
        induction text with
        | nil =>
            rw [fits_anyText_nil] at found
            exact .skipped (ofParts found)
        | cons c rest ofRest =>
            rw [fits_anyText_cons, Bool.or_eq_true] at found
            rcases found with skips | repeats
            · exact .skipped (ofParts skips)
            · exact .repeated (ofRest repeats)
      · cases text with
        | nil =>
            rw [fits_single_nil parts isStar] at found
            cases found
        | cons c rest =>
            rw [fits_cons parts c rest isStar, Bool.and_eq_true] at found
            exact .single found.1 (ofParts found.2)

/-- The character a part spells, if it is no wildcard. -/
def spelledCharacter? : Wildcard → Option Char
  | .character c => some c
  | _ => none

/-- The text a name pattern spells when it holds no wildcard. -/
def spelled? (parts : List Wildcard) : Option String :=
  (parts.mapM spelledCharacter?).map String.ofList

end Wildcard

inductive PatternStep where
  /-- Any directories, or none. -/
  | deep
  /-- A name without wildcards, which may be empty or dots. -/
  | literal (name : String)
  | wild (parts : List Wildcard)
deriving DecidableEq

namespace PatternStep

def ofPiece? (piece : List Char) : Option PatternStep :=
  if piece = ['*', '*'] then
    some .deep
  else
    (Wildcard.ofText? piece).map fun parts =>
      match Wildcard.spelled? parts with
      | some name => .literal name
      | none => .wild parts

def accepts (name : String) : PatternStep → Bool
  | .deep => false
  | .literal wanted => name == wanted
  | .wild parts => Wildcard.fits parts name.toList

end PatternStep

end QueryPaging
