import Letterform.Cff.Dict.PrivateDict
import Letterform.Cff.Dict.TopDict
import Letterform.Proofs.Cff.DictEntries
import Letterform.Proofs.Cff.Index
import Mathlib.Data.List.Induction
import Mathlib.Logic.Function.Basic

/-!
The order of entries in a DICT. What is read from a DICT are the last values of its operators,
each in its own field, and the fields of the other operators are as they are in an empty DICT.
So only entries with the same operator have to keep their order.
-/

namespace Letterform.Cff

namespace Dict

/-! Values by operator. -/

abbrev Values := (operator : Operator) → Option operator.shape.Value

def Entry.valueFor? (operator : Operator) (entry : Entry) : Option operator.shape.Value :=
  if same : entry.operator = operator then some (same ▸ entry.value) else none

namespace Values

def set (values : Values) (entry : Entry) : Values :=
  Function.update values entry.operator (some entry.value)

def last (entries : List Entry) : Values :=
  fun operator => (entries.filterMap (Entry.valueFor? operator)).getLast?

theorem last_append_singleton (entries : List Entry) (entry : Entry) :
    last (entries ++ [entry]) = (last entries).set entry := by
  rcases entry with ⟨operator, value⟩
  funext other
  rw [last, List.filterMap_append]
  by_cases same : operator = other
  · subst same
    simp [set, Entry.valueFor?]
  · have different : other ≠ operator := fun equal => same equal.symm
    simp [set, Entry.valueFor?, same, different, last]

theorem last_apply (entries : List Entry) (operator : Operator) :
    last entries operator = ((entries.filter fun entry => entry.operator = operator).filterMap
      (Entry.valueFor? operator)).getLast? := by
  have counts : (fun entry : Entry => if decide (entry.operator = operator) = true then
      entry.valueFor? operator else none) = Entry.valueFor? operator := by
    funext entry
    by_cases same : entry.operator = operator <;> simp [same, Entry.valueFor?]
  rw [List.filterMap_filter, counts, last]

/-- Entries that are taken in one by one leave the last values. -/
theorem foldl_eq_last {α : Type} {update : α → Entry → α} {withValues : Values → α}
    (update_withValues : ∀ values entry,
      update (withValues values) entry = withValues (values.set entry))
    (entries : List Entry) :
    entries.foldl update (withValues (last [])) = withValues (last entries) := by
  -- The last entry is the one that counts, so the list is taken apart from behind.
  induction entries using List.reverseRecOn with
  | nil => rfl
  | append_singleton entries entry induction =>
      rw [List.foldl_append, induction, List.foldl_cons, List.foldl_nil, update_withValues,
        last_append_singleton]

end Values

end Dict

open Dict (Entry Values WrittenEntry)

/-! Fields of values. -/

namespace TopDict

def withValues (dict : TopDict) (values : Values) : TopDict where
  version := (values .version).or dict.version
  notice := (values .notice).or dict.notice
  copyright := (values .copyright).or dict.copyright
  fullName := (values .fullName).or dict.fullName
  familyName := (values .familyName).or dict.familyName
  weight := (values .weight).or dict.weight
  isFixedPitch := (values .isFixedPitch).getD dict.isFixedPitch
  italicAngle := (values .italicAngle).getD dict.italicAngle
  underlinePosition := (values .underlinePosition).getD dict.underlinePosition
  underlineThickness := (values .underlineThickness).getD dict.underlineThickness
  paintType := (values .paintType).getD dict.paintType
  charstringType := (values .charstringType).getD dict.charstringType
  fontMatrix := (values .fontMatrix).getD dict.fontMatrix
  uniqueId := (values .uniqueId).or dict.uniqueId
  fontBox := (values .fontBox).getD dict.fontBox
  strokeWidth := (values .strokeWidth).getD dict.strokeWidth
  charset := (values .charset).getD dict.charset
  encoding := (values .encoding).getD dict.encoding
  charstringsOffset := (values .charstringsOffset).or dict.charstringsOffset
  privateRange := (values .privateRange).or dict.privateRange
  syntheticBase := (values .syntheticBase).or dict.syntheticBase
  postScript := (values .postScript).or dict.postScript
  baseFontName := (values .baseFontName).or dict.baseFontName
  collection := (values .registryOrderingSupplement).or dict.collection
  cidFontVersion := (values .cidFontVersion).getD dict.cidFontVersion
  cidFontRevision := (values .cidFontRevision).getD dict.cidFontRevision
  cidFontType := (values .cidFontType).getD dict.cidFontType
  cidCount := (values .cidCount).getD dict.cidCount
  uidBase := (values .uidBase).or dict.uidBase
  fontArrayOffset := (values .fontArrayOffset).or dict.fontArrayOffset
  fontSelectOffset := (values .fontSelectOffset).or dict.fontSelectOffset
  fontName := (values .fontName).or dict.fontName

theorem update_withValues (dict : TopDict) (values : Values) (entry : Entry) :
    (dict.withValues values).update entry = dict.withValues (values.set entry) := by
  rcases entry with ⟨operator, value⟩
  cases operator <;> rfl

end TopDict

namespace FontDict

def Gathered.withValues (dict : Gathered) (values : Values) : Gathered where
  fontName := (values .fontName).or dict.fontName
  fontMatrix := (values .fontMatrix).or dict.fontMatrix
  privateRange := (values .privateRange).or dict.privateRange

theorem Gathered.update_withValues (dict : Gathered) (values : Values) (entry : Entry) :
    (dict.withValues values).update entry = dict.withValues (values.set entry) := by
  rcases entry with ⟨operator, value⟩
  cases operator <;> rfl

def ofValues (values : Values) : Except Fault FontDict :=
  match values .privateRange with
  | some range => .ok ⟨values .fontName, values .fontMatrix, range⟩
  | none => .error .missingPrivateDict

theorem ofBytes_of_gathered {bytes : Bytes} {values : Values}
    (gathered : Dict.collect Gathered.update {} bytes = .ok (Gathered.withValues {} values)) :
    ofBytes bytes = ofValues values := by
  rw [ofBytes, gathered, ofValues, Gathered.withValues]
  simp only [Option.or_none]
  generalize values .privateRange = range
  cases range with
  | none => rfl
  | some range => rfl

end FontDict

namespace PrivateDict

/-- Every field comes from an operator of its own, if that has a value. Where the DICT starts
matters for the subroutines only. -/
def withValues (dict : PrivateDict) (start : Nat) (values : Values) : PrivateDict where
  blueValues := (values .blueValues).getD dict.blueValues
  otherBlues := (values .otherBlues).getD dict.otherBlues
  familyBlues := (values .familyBlues).getD dict.familyBlues
  familyOtherBlues := (values .familyOtherBlues).getD dict.familyOtherBlues
  blueScale := (values .blueScale).getD dict.blueScale
  blueShift := (values .blueShift).getD dict.blueShift
  blueFuzz := (values .blueFuzz).getD dict.blueFuzz
  standardHorizontalWidth :=
    (values .standardHorizontalWidth).or dict.standardHorizontalWidth
  standardVerticalWidth := (values .standardVerticalWidth).or dict.standardVerticalWidth
  stemSnapHorizontal := (values .stemSnapHorizontal).getD dict.stemSnapHorizontal
  stemSnapVertical := (values .stemSnapVertical).getD dict.stemSnapVertical
  forceBold := (values .forceBold).getD dict.forceBold
  languageGroup := (values .languageGroup).getD dict.languageGroup
  expansionFactor := (values .expansionFactor).getD dict.expansionFactor
  initialRandomSeed := (values .initialRandomSeed).getD dict.initialRandomSeed
  subroutinesOffset :=
    ((values .subroutinesOffset).map fun offset => start + offset).or dict.subroutinesOffset
  defaultWidth := (values .defaultWidth).getD dict.defaultWidth
  nominalWidth := (values .nominalWidth).getD dict.nominalWidth

theorem update_withValues (dict : PrivateDict) (start : Nat) (values : Values) (entry : Entry) :
    (dict.withValues start values).update start entry =
      dict.withValues start (values.set entry) := by
  rcases entry with ⟨operator, value⟩
  cases operator <;> rfl

end PrivateDict

/-! Reading entries in any order. -/

namespace Dict

/-- What the bytes say, as a DICT of each kind. A Private DICT lies between other bytes. -/
structure Says (bytes : Bytes) (values : Values) : Prop where
  topDict : TopDict.ofBytes bytes = .ok (TopDict.withValues {} values)
  fontDict : FontDict.ofBytes bytes = FontDict.ofValues values
  privateDict (front behind : Bytes) :
    PrivateDict.ofTable (front ++ (bytes ++ behind))
        ⟨front.length, front.length + bytes.length⟩ =
      .ok (PrivateDict.withValues {} front.length values)

/-- The same entries, and those with the same operator in the same order. -/
structure IsReordering (written reordered : List WrittenEntry) : Prop where
  permuted : written.Perm reordered
  ordered : ∀ operator, (written.filter fun one => one.entry.operator = operator) =
    reordered.filter fun one => one.entry.operator = operator

namespace WrittenEntry

def lastValues (written : List WrittenEntry) : Values := .last (written.map WrittenEntry.entry)

theorem collect_eq_lastValues {α : Type} {update : α → Entry → α} {withValues : Values → α}
    (update_withValues : ∀ values entry,
      update (withValues values) entry = withValues (values.set entry))
    (written : List WrittenEntry) :
    collect update (withValues (.last [])) (allBytes written) =
      .ok (withValues (lastValues written)) := by
  rw [collect_allBytes, Values.foldl_eq_last update_withValues]
  rfl

theorem allBytes_says_lastValues (written : List WrittenEntry) :
    Says (allBytes written) (lastValues written) := by
  constructor
  case topDict => exact collect_eq_lastValues (TopDict.update_withValues {}) written
  case fontDict =>
    apply FontDict.ofBytes_of_gathered
    exact collect_eq_lastValues (FontDict.Gathered.update_withValues {}) written
  case privateDict =>
    intro front behind
    rw [PrivateDict.ofTable, Bytes.slice?_append]
    exact collect_eq_lastValues (PrivateDict.update_withValues {} front.length) written

theorem lastValues_of_reordering {written reordered : List WrittenEntry}
    (reorders : IsReordering written reordered) : lastValues reordered = lastValues written := by
  funext operator
  have same : (reordered.map WrittenEntry.entry).filter (fun entry => entry.operator = operator) =
      (written.map WrittenEntry.entry).filter fun entry => entry.operator = operator := by
    rw [List.filter_map, List.filter_map]
    exact congrArg (List.map WrittenEntry.entry) (reorders.ordered operator).symm
  rw [lastValues, lastValues, Values.last_apply, Values.last_apply, same]

/-- In whatever order the entries of different operators stand, the DICT says the last values. -/
theorem reordering_says_lastValues (written : List WrittenEntry) :
    Says (allBytes written) (lastValues written) ∧
      ∀ reordered, IsReordering written reordered →
        Says (allBytes reordered) (lastValues written) := by
  refine ⟨allBytes_says_lastValues written, ?reordered⟩
  case reordered =>
    intro reordered reorders
    rw [← lastValues_of_reordering reorders]
    exact allBytes_says_lastValues reordered

/-- The second version is the one that counts, with the range in front of it or behind. -/
theorem reordering_says_lastValues_version :
    ∃ first second range : WrittenEntry,
      first.bytes = encode [.integer 5, .operator 0] ∧
      second.bytes = encode [.integer 6, .operator 0] ∧
      range.bytes = encode [.integer 3, .integer 40, .operator 18] ∧
      lastValues [first, second, range] .version = some ⟨6⟩ ∧
      IsReordering [first, second, range] [first, range, second] ∧
      Says (allBytes [first, range, second]) (lastValues [first, second, range]) := by
  let first := ofItems [.integer 5, .operator 0] [.integer 5] ⟨.version, ⟨5⟩⟩ (by decide)
    (.cons (.integer 5) (.cons (.operator rfl) .nil)) rfl
  let second := ofItems [.integer 6, .operator 0] [.integer 6] ⟨.version, ⟨6⟩⟩ (by decide)
    (.cons (.integer 6) (.cons (.operator rfl) .nil)) rfl
  let range := ofItems [.integer 3, .integer 40, .operator 18] [.integer 3, .integer 40]
    ⟨.privateRange, ⟨40, 43⟩⟩ (by decide)
    (.cons (.integer 3) (.cons (.integer 40) (.cons (.operator rfl) .nil))) rfl
  have reorders : IsReordering [first, second, range] [first, range, second] := by
    refine ⟨(List.Perm.swap range second []).cons first, ?_⟩
    intro operator
    cases operator <;> rfl
  refine ⟨first, second, range, rfl, rfl, rfl, rfl, reorders, ?_⟩
  exact (reordering_says_lastValues [first, second, range]).2 _ reorders

end WrittenEntry

end Dict

end Letterform.Cff
