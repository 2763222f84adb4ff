import Letterform.Outline.Text
import Letterform.Proofs.Number.DecimalText

/-!
Reading compact texts back. A number ends where a character stands that no number has inside: a
space, a minus sign, a letter or nothing. So no two outlines with different numbers have the same
text, although a space is left out before each minus sign.
-/

namespace Letterform

/-! Characters inside of numbers. -/

/-- A minus sign only stands in front of a number. -/
def isInside (char : Char) : Bool := char.isDigit || char == '.'

theorem IsUnsigned.isInside {chars : List Char} (unsigned : IsUnsigned chars) :
    ∀ char ∈ chars, isInside char = true := by
  intro char mem
  cases unsigned with
  | whole digits => rw [Letterform.isInside, digits.2 char mem, Bool.true_or]
  | fraction digits further =>
      rcases List.mem_append.mp mem with inDigits | inRest
      · rw [Letterform.isInside, digits.2 char inDigits, Bool.true_or]
      · cases inRest with
        | head => rfl
        | tail _ inFurther => rw [Letterform.isInside, further.2 char inFurther, Bool.true_or]

theorem IsUnsigned.ne_nil {chars : List Char} (unsigned : IsUnsigned chars) : chars ≠ [] := by
  cases unsigned with
  | whole digits => exact digits.1
  | fraction digits further => exact List.append_ne_nil_of_left_ne_nil digits.1 _

theorem IsNumeral.ne_nil {chars : List Char} (numeral : IsNumeral chars) : chars ≠ [] := by
  cases numeral with
  | unsigned unsigned => exact unsigned.ne_nil
  | negative unsigned => exact List.cons_ne_nil _ _

def IsOutside (rest : List Char) : Prop := ∀ char ∈ rest.head?, isInside char = false

def BeginsStep (rest : List Char) : Prop := ∀ char ∈ rest.head?, char ∈ ['m', 'l', 'q', 'c']

theorem BeginsStep.isOutside {rest : List Char} (begins : BeginsStep rest) : IsOutside rest := by
  intro char first
  have letter := begins char first
  simp only [List.mem_cons, List.not_mem_nil, or_false] at letter
  rcases letter with rfl | rfl | rfl | rfl <;> rfl

variable {first second rest others : List Char}

theorem takeWhile_isInside (inside : ∀ char ∈ first, isInside char = true)
    (outside : IsOutside rest) : (first ++ rest).takeWhile isInside = first := by
  rw [List.takeWhile_append_of_pos inside]
  cases rest with
  | nil => exact List.append_nil first
  | cons char rest =>
      rw [List.takeWhile_cons_of_neg (by rw [outside char rfl]; decide), List.append_nil]

/-! Single numbers. -/

theorem IsUnsigned.unique (firstUnsigned : IsUnsigned first) (secondUnsigned : IsUnsigned second)
    (outside : IsOutside rest) (otherOutside : IsOutside others)
    (same : first ++ rest = second ++ others) : first = second ∧ rest = others := by
  have equal : first = second := by
    rw [← takeWhile_isInside firstUnsigned.isInside outside, same,
      takeWhile_isInside secondUnsigned.isInside otherOutside]
  subst equal
  exact ⟨rfl, List.append_cancel_left same⟩

theorem IsUnsigned.head_isInside (unsigned : IsUnsigned first) {char : Char}
    (same : first ++ rest = char :: others) : Letterform.isInside char = true := by
  cases whole : first with
  | nil => exact absurd whole unsigned.ne_nil
  | cons head tail =>
      rw [whole] at same
      rw [← (List.cons.inj same).1]
      exact unsigned.isInside head (whole ▸ List.mem_cons_self)

/-! Numbers after other ones. -/

theorem nextNumber_unsigned (unsigned : IsUnsigned first) : nextNumber first = ' ' :: first := by
  rw [nextNumber, if_neg]
  intro minus
  rcases List.head?_eq_some_iff.mp minus with ⟨tail, rfl⟩
  exact absurd (unsigned.isInside '-' List.mem_cons_self) (by decide)

theorem nextNumber_negative : nextNumber ('-' :: first) = '-' :: first := rfl

theorem nextNumber_append (nonempty : first ≠ []) :
    nextNumber (first ++ rest) = nextNumber first ++ rest := by
  cases first with
  | nil => exact absurd rfl nonempty
  | cons char first =>
      rw [nextNumber, nextNumber, List.cons_append, List.head?_cons, List.head?_cons]
      split
      · rfl
      · rfl

/-- The space or the minus sign tells whether a number is negative. -/
theorem nextNumber_unique (firstNumeral : IsNumeral first) (secondNumeral : IsNumeral second)
    (outside : IsOutside rest) (otherOutside : IsOutside others)
    (same : nextNumber first ++ rest = nextNumber second ++ others) :
    first = second ∧ rest = others := by
  cases firstNumeral with
  | unsigned firstUnsigned =>
      rw [nextNumber_unsigned firstUnsigned] at same
      cases secondNumeral with
      | unsigned secondUnsigned =>
          rw [nextNumber_unsigned secondUnsigned] at same
          exact firstUnsigned.unique secondUnsigned outside otherOutside (List.cons.inj same).2
      | negative secondUnsigned => exact absurd (List.cons.inj same).1 (by decide)
  | negative firstUnsigned =>
      cases secondNumeral with
      | unsigned secondUnsigned =>
          rw [nextNumber_unsigned secondUnsigned] at same
          exact absurd (List.cons.inj same).1 (by decide)
      | negative secondUnsigned =>
          rcases firstUnsigned.unique secondUnsigned outside otherOutside
            (List.cons.inj same).2 with ⟨rfl, rfl⟩
          exact ⟨rfl, rfl⟩

theorem exists_nextNumber (numeral : IsNumeral first) :
    ∃ separator chars, nextNumber first = separator :: chars ∧
      (separator = ' ' ∨ separator = '-') := by
  cases numeral with
  | unsigned unsigned => exact ⟨' ', first, nextNumber_unsigned unsigned, .inl rfl⟩
  | negative unsigned => exact ⟨'-', _, nextNumber_negative, .inr rfl⟩

variable {numbers otherNumbers : List (List Char)}

theorem isOutside_flatMap (numerals : ∀ number ∈ numbers, IsNumeral number)
    (begins : BeginsStep rest) : IsOutside (numbers.flatMap nextNumber ++ rest) := by
  cases numbers with
  | nil => exact begins.isOutside
  | cons number numbers =>
      rcases exists_nextNumber (numerals number List.mem_cons_self) with
        ⟨separator, chars, equal, isSeparator⟩
      intro char head
      rw [List.flatMap_cons, equal] at head
      cases head
      rcases isSeparator with rfl | rfl
      · rfl
      · rfl

theorem not_beginsStep_nextNumber (numeral : IsNumeral first) :
    ¬BeginsStep (nextNumber first ++ others) := by
  intro begins
  rcases exists_nextNumber numeral with ⟨separator, chars, equal, isSeparator⟩
  have letter := begins separator (by rw [equal]; rfl)
  rcases isSeparator with rfl | rfl
  · exact absurd letter (by decide)
  · exact absurd letter (by decide)

theorem flatMap_nextNumber_unique (numerals : ∀ number ∈ numbers, IsNumeral number)
    (otherNumerals : ∀ number ∈ otherNumbers, IsNumeral number)
    (begins : BeginsStep rest) (otherBegins : BeginsStep others)
    (same : numbers.flatMap nextNumber ++ rest = otherNumbers.flatMap nextNumber ++ others) :
    numbers = otherNumbers ∧ rest = others := by
  induction numbers generalizing otherNumbers with
  | nil =>
      cases otherNumbers with
      | nil => exact ⟨rfl, same⟩
      | cons other otherNumbers =>
          -- No step begins with what separates numbers.
          rw [List.flatMap_nil, List.nil_append, List.flatMap_cons, List.append_assoc] at same
          exact absurd (same ▸ begins)
            (not_beginsStep_nextNumber (otherNumerals other List.mem_cons_self))
  | cons number numbers induction =>
      cases otherNumbers with
      | nil =>
          rw [List.flatMap_nil, List.nil_append, List.flatMap_cons, List.append_assoc] at same
          exact absurd (same ▸ otherBegins)
            (not_beginsStep_nextNumber (numerals number List.mem_cons_self))
      | cons other otherNumbers =>
          have numerals := List.forall_mem_cons.mp numerals
          have otherNumerals := List.forall_mem_cons.mp otherNumerals
          rw [List.flatMap_cons, List.flatMap_cons, List.append_assoc, List.append_assoc] at same
          rcases nextNumber_unique numerals.1 otherNumerals.1
            (isOutside_flatMap numerals.2 begins)
            (isOutside_flatMap otherNumerals.2 otherBegins) same with ⟨rfl, remaining⟩
          rcases induction numerals.2 otherNumerals.2 remaining with ⟨rfl, rfl⟩
          exact ⟨rfl, rfl⟩

/-! Steps. -/

theorem nextNumber_joinNumbers (numerals : ∀ number ∈ numbers, IsNumeral number)
    (nonempty : numbers ≠ []) :
    nextNumber (joinNumbers numbers ++ rest) = numbers.flatMap nextNumber ++ rest := by
  cases numbers with
  | nil => exact absurd rfl nonempty
  | cons number numbers =>
      have isNumeral := numerals number List.mem_cons_self
      rw [joinNumbers, List.append_assoc, nextNumber_append isNumeral.ne_nil, List.flatMap_cons,
        List.append_assoc]

theorem joinNumbers_unique (numerals : ∀ number ∈ numbers, IsNumeral number)
    (otherNumerals : ∀ number ∈ otherNumbers, IsNumeral number)
    (nonempty : numbers ≠ []) (otherNonempty : otherNumbers ≠ [])
    (begins : BeginsStep rest) (otherBegins : BeginsStep others)
    (same : joinNumbers numbers ++ rest = joinNumbers otherNumbers ++ others) :
    numbers = otherNumbers ∧ rest = others := by
  apply flatMap_nextNumber_unique numerals otherNumerals begins otherBegins
  rw [← nextNumber_joinNumbers numerals nonempty, same,
    nextNumber_joinNumbers otherNumerals otherNonempty]

theorem isNumeral_coordinateText {value : Float} (finite : value.isFinite = true) :
    IsNumeral (coordinateText value).toList := by
  rw [coordinateText]
  split
  · exact .unsigned (.whole areDigits_zero)
  · exact NumberStyle.isNumeral_plain_text finite

def Step.IsFinite (step : Step Float) : Prop :=
  ∀ value ∈ step.points.flatMap Point.coordinates, value.isFinite = true

instance (step : Step Float) : Decidable step.IsFinite := List.decidableBAll _ _

theorem Step.isNumeral_numerals {step : Step Float} (finite : step.IsFinite) :
    ∀ number ∈ step.numerals.map String.toList, IsNumeral number := by
  intro number mem
  rcases List.mem_map.mp mem with ⟨text, inNumerals, rfl⟩
  rcases List.mem_map.mp inNumerals with ⟨value, written, rfl⟩
  exact isNumeral_coordinateText (finite value written)

theorem Step.numerals_ne_nil (step : Step Float) : step.numerals.map String.toList ≠ [] := by
  cases step <;> exact List.cons_ne_nil _ _

theorem Step.letter_mem (step : Step Float) : step.letter ∈ ['m', 'l', 'q', 'c'] := by
  cases step <;> simp [letter]

namespace Outline

def IsFinite (outline : Outline Float) : Prop := ∀ step ∈ outline, step.IsFinite

instance (outline : Outline Float) : Decidable outline.IsFinite := List.decidableBAll _ _

theorem beginsStep_flatMap (outline : Outline Float) :
    BeginsStep (outline.flatMap Step.compactChars) := by
  intro char head
  cases outline with
  | nil => cases head
  | cons step outline =>
      cases head
      exact step.letter_mem

/-- The letters and numbers can be read off a compact text. -/
theorem flatMap_compactChars_unique {first second : Outline Float} (finite : first.IsFinite)
    (otherFinite : second.IsFinite)
    (same : first.flatMap Step.compactChars = second.flatMap Step.compactChars) :
    first.map Step.letter = second.map Step.letter ∧
      first.map Step.numerals = second.map Step.numerals := by
  induction first generalizing second with
  | nil =>
      cases second with
      | nil => exact ⟨rfl, rfl⟩
      | cons other second => cases same
  | cons step first induction =>
      cases second with
      | nil => cases same
      | cons other second =>
          have finite := List.forall_mem_cons.mp finite
          have otherFinite := List.forall_mem_cons.mp otherFinite
          rcases List.cons.inj same with ⟨letters, remaining⟩
          rcases joinNumbers_unique (Step.isNumeral_numerals finite.1)
            (Step.isNumeral_numerals otherFinite.1) step.numerals_ne_nil other.numerals_ne_nil
            (beginsStep_flatMap first) (beginsStep_flatMap second) remaining with
            ⟨numbers, behind⟩
          rcases induction finite.2 otherFinite.2 behind with ⟨sameLetters, sameNumbers⟩
          have numerals : step.numerals = other.numerals :=
            (List.map_inj_right fun _ _ => String.toList_inj.mp).mp numbers
          exact ⟨by rw [List.map_cons, List.map_cons, letters, sameLetters],
            by rw [List.map_cons, List.map_cons, numerals, sameNumbers]⟩

end Outline

/-! Spaces before minus signs. -/

def spaceNumbers : List (List Char) → List Char
  | [] => []
  | number :: numbers => number ++ numbers.flatMap (' ' :: ·)

def Step.spacedChars (step : Step Float) : List Char :=
  step.letter :: spaceNumbers (step.numerals.map String.toList)

/-- Without the spaces that stand right before a minus sign. -/
def closeUp : List Char → List Char
  | [] => []
  | char :: rest =>
      if char = ' ' ∧ rest.head? = some '-' then closeUp rest else char :: closeUp rest

theorem closeUp_append (noSpace : ' ' ∉ first) :
    closeUp (first ++ rest) = first ++ closeUp rest := by
  induction first with
  | nil => rfl
  | cons char first induction =>
      have kept : ¬(char = ' ' ∧ (first ++ rest).head? = some '-') :=
        fun isSpace => List.ne_of_not_mem_cons noSpace isSpace.1.symm
      rw [List.cons_append, closeUp, if_neg kept,
        induction (List.not_mem_of_not_mem_cons noSpace), List.cons_append]

theorem IsNumeral.noSpace (numeral : IsNumeral first) : ' ' ∉ first := by
  intro mem
  cases numeral with
  | unsigned unsigned => exact absurd (unsigned.isInside ' ' mem) (by decide)
  | negative unsigned =>
      cases mem with
      | tail _ mem => exact absurd (unsigned.isInside ' ' mem) (by decide)

theorem closeUp_next (numeral : IsNumeral first) :
    closeUp (' ' :: (first ++ rest)) = nextNumber first ++ closeUp rest := by
  rw [closeUp, closeUp_append numeral.noSpace]
  cases numeral with
  | unsigned unsigned =>
      rw [nextNumber_unsigned unsigned, if_neg]
      · rfl
      · rintro ⟨-, minus⟩
        rcases List.head?_eq_some_iff.mp minus with ⟨tail, same⟩
        exact absurd (unsigned.head_isInside same) (by decide)
  | negative unsigned => rfl

theorem closeUp_flatMap (numerals : ∀ number ∈ numbers, IsNumeral number) :
    closeUp (numbers.flatMap (' ' :: ·) ++ rest) = numbers.flatMap nextNumber ++ closeUp rest := by
  induction numbers with
  | nil => rfl
  | cons number numbers induction =>
      have numerals := List.forall_mem_cons.mp numerals
      rw [List.flatMap_cons, List.append_assoc, List.cons_append, closeUp_next numerals.1,
        induction numerals.2, List.flatMap_cons, List.append_assoc]

theorem Step.letter_ne_space (step : Step Float) : ' ' ≠ step.letter := by
  cases step <;> simp [letter]

theorem Step.closeUp_spacedChars {step : Step Float} (finite : step.IsFinite) :
    closeUp (step.spacedChars ++ rest) = step.compactChars ++ closeUp rest := by
  have numerals := step.isNumeral_numerals finite
  rw [spacedChars, compactChars]
  cases written : step.numerals.map String.toList with
  | nil =>
      exact closeUp_append
        (List.not_mem_cons_of_ne_of_not_mem step.letter_ne_space List.not_mem_nil)
  | cons number numbers =>
      have numerals := List.forall_mem_cons.mp (written ▸ numerals)
      have noSpace : ' ' ∉ step.letter :: number :=
        List.not_mem_cons_of_ne_of_not_mem step.letter_ne_space numerals.1.noSpace
      rw [spaceNumbers, joinNumbers, ← List.cons_append, List.append_assoc,
        closeUp_append noSpace, closeUp_flatMap numerals.2, ← List.append_assoc, List.cons_append]

theorem Outline.closeUp_spacedChars {outline : Outline Float} (finite : outline.IsFinite) :
    closeUp (outline.flatMap Step.spacedChars) = outline.compactText.toList := by
  rw [compactText, String.toList_ofList]
  induction outline with
  | nil => rfl
  | cons step outline induction =>
      have finite := List.forall_mem_cons.mp finite
      rw [List.flatMap_cons, Step.closeUp_spacedChars finite.1, induction finite.2,
        List.flatMap_cons]

/-- A compact text is the one with spaces between the numbers of each step, less the spaces before
minus signs. What is written can still be read off it: outlines with the same compact text have as
many steps, the same letters and the same numbers. -/
theorem Outline.written_of_compactText {first second : Outline Float} (finite : first.IsFinite)
    (otherFinite : second.IsFinite) (same : first.compactText = second.compactText) :
    closeUp (first.flatMap Step.spacedChars) = first.compactText.toList ∧
      first.length = second.length ∧ first.map Step.letter = second.map Step.letter ∧
      first.map Step.numerals = second.map Step.numerals := by
  have sameChars : first.flatMap Step.compactChars = second.flatMap Step.compactChars := by
    have whole := congrArg String.toList same
    rwa [compactText, compactText, String.toList_ofList, String.toList_ofList] at whole
  rcases flatMap_compactChars_unique finite otherFinite sameChars with ⟨letters, numerals⟩
  have lengths := congrArg List.length letters
  rw [List.length_map, List.length_map] at lengths
  exact ⟨closeUp_spacedChars finite, lengths, letters, numerals⟩

/-- The outlines differ in the sign of a zero, which is not written. -/
theorem Outline.written_of_compactText_zero :
    let first : Outline Float := [.move ⟨0.5, -2.25⟩, .quadratic ⟨-10, 0.0⟩ ⟨30, -7⟩]
    let second : Outline Float := [.move ⟨0.5, -2.25⟩, .quadratic ⟨-10, -0.0⟩ ⟨30, -7⟩]
    first.IsFinite ∧ second.IsFinite ∧ first.compactText = second.compactText ∧
      first.map Step.numerals = second.map Step.numerals := by
  intro first second
  have finite : first.IsFinite := by decide +kernel
  have otherFinite : second.IsFinite := by decide +kernel
  have same : first.compactText = second.compactText := by decide +kernel
  exact ⟨finite, otherFinite, same, (written_of_compactText finite otherFinite same).2.2.2⟩

example : Outline.compactText [.move ⟨0.5, -2.25⟩, .quadratic ⟨-10, 0⟩ ⟨30, -7⟩] =
    "m0.5-2.25q-10 0 20-7" := by
  decide +kernel

end Letterform
