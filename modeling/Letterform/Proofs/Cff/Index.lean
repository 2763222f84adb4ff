import Letterform.Cff.Font
import Letterform.Proofs.Cff.Number

/-!
Written INDEXes. The offsets are the running sums of the lengths of the objects, so an object
lies between two of them, and the last one tells where the INDEX ends. All of it is read back
whatever bytes follow, and reading goes on behind it.
-/

namespace Letterform

attribute [local instance] naturalPower

/-! Parts of byte strings. -/

namespace Bytes

theorem slice?_append (front part behind : Bytes) :
    (front ++ (part ++ behind)).slice? front.length (front.length + part.length) = some part := by
  have inside : front.length ≤ front.length + part.length ∧
      front.length + part.length ≤ (front ++ (part ++ behind)).length := by
    simp only [List.length_append]
    omega
  rw [slice?, if_pos inside, List.drop_left, Nat.add_sub_cancel_left, List.take_left]

theorem readFrom_append (front behind : Bytes) :
    (front ++ behind).readFrom front.length = .ok behind := by
  have inside : front.length ≤ (front ++ behind).length := by
    rw [List.length_append]
    exact Nat.le_add_right _ _
  rw [readFrom, from?, if_pos inside, List.drop_left]

theorem length_flatMap_ofNumber (width : Nat) (numbers : List Nat) :
    (numbers.flatMap (ofNumber width)).length = numbers.length * width := by
  induction numbers with
  | nil => exact (Nat.zero_mul width).symm
  | cons number numbers induction =>
      rw [List.flatMap_cons, List.length_append, length_ofNumber, induction, List.length_cons,
        Nat.succ_mul, Nat.add_comm]

theorem splitAt?_flatMap_ofNumber (width : Nat) {position number : Nat} {numbers : List Nat}
    (found : numbers[position]? = some number) :
    ∃ behind, splitAt? width ((numbers.flatMap (ofNumber width)).drop (position * width)) =
      some (ofNumber width number, behind) := by
  induction numbers generalizing position with
  | nil => cases found
  | cons first numbers induction =>
      rw [List.flatMap_cons]
      cases position with
      | zero =>
          cases found
          have split := splitAt?_append (ofNumber width number) (numbers.flatMap (ofNumber width))
          rw [length_ofNumber] at split
          rw [Nat.zero_mul, List.drop_zero]
          exact ⟨_, split⟩
      | succ position =>
          rw [Nat.succ_mul, Nat.add_comm, ← List.drop_drop, List.drop_left' (length_ofNumber _ _)]
          exact induction found

end Bytes

theorem Decoder.readList_run_bytes (bytes rest : Bytes) (position : Nat)
    (bound : position + bytes.length ≤ lastOffset) :
    (Decoder.readList UInt8 bytes.length).run { rest := bytes ++ rest, position } =
      (.ok bytes, { rest, position := position + bytes.length }) := by
  have width : bytes.length * Packed.width UInt8 = bytes.length := Nat.mul_one _
  rw [← width] at bound
  have run := Decoder.readList_run bytes rest bound
  rwa [Packed.encodeList_bytes, width] at run

namespace Cff.Index

/-! Where the objects lie. -/

@[simp] theorem length_boundaries (start : Nat) (objects : List Bytes) :
    (boundaries start objects).length = objects.length + 1 := by
  induction objects generalizing start with
  | nil => rfl
  | cons object objects induction => exact congrArg (· + 1) (induction _)

theorem getElem?_boundaries (start : Nat) {position : Nat} {objects : List Bytes}
    (within : position ≤ objects.length) :
    (boundaries start objects)[position]? =
      some (start + (objects.take position).flatten.length) := by
  induction objects generalizing start position with
  | nil =>
      cases Nat.le_zero.mp within
      rfl
  | cons object objects induction =>
      cases position with
      | zero => rfl
      | succ position =>
          rw [boundaries, List.getElem?_cons_succ, induction _ (Nat.le_of_succ_le_succ within),
            List.take_succ_cons, List.flatten_cons, List.length_append, Nat.add_assoc]

theorem flatten_take_append_drop (position : Nat) (objects : List Bytes) :
    (objects.take position).flatten ++ (objects.drop position).flatten = objects.flatten := by
  rw [← List.flatten_append, List.take_append_drop]

theorem length_flatten_take_succ {objects : List Bytes} {object : Bytes} {position : Nat}
    (found : objects[position]? = some object) :
    (objects.take (position + 1)).flatten.length =
      (objects.take position).flatten.length + object.length := by
  rcases List.getElem?_eq_some_iff.mp found with ⟨within, rfl⟩
  rw [List.take_succ_eq_append_getElem within, List.flatten_append, List.length_append,
    List.flatten_singleton]

theorem slice?_flatten {objects : List Bytes} {object : Bytes} {position : Nat}
    (found : objects[position]? = some object) (behind : Bytes) :
    Bytes.slice? (objects.flatten ++ behind) (objects.take position).flatten.length
      (objects.take (position + 1)).flatten.length = some object := by
  have stop := length_flatten_take_succ found
  rcases List.getElem?_eq_some_iff.mp found with ⟨within, rfl⟩
  rw [stop, ← flatten_take_append_drop position, List.drop_eq_getElem_cons within,
    List.flatten_cons, List.append_assoc, List.append_assoc]
  exact Bytes.slice?_append _ _ _

/-! What is asked of an INDEX. -/

structure Holds (index : Index) (objects : List Bytes) : Prop where
  size_eq : index.size = objects.length
  get_eq : ∀ position, (index.get position).toOption = objects[position]?

theorem Holds.get_eq_ok {index : Index} {objects : List Bytes} {position : Nat} {object : Bytes}
    (holds : index.Holds objects) (found : objects[position]? = some object) :
    index.get position = .ok object := by
  have same := holds.get_eq position
  rw [found] at same
  cases result : index.get position with
  | error fault =>
      rw [result] at same
      cases same
  | ok value =>
      rw [result] at same
      exact congrArg Except.ok (Option.some.inj same)

theorem offset_of_size_lt {index : Index} {position : Nat} (beyond : index.size < position) :
    index.offset position = .error (.outOfBounds (position * index.offsetSize.toNat)) :=
  if_pos beyond

theorem get_of_size_le {index : Index} {position : Nat} (beyond : index.size ≤ position) :
    ∃ fault, index.get position = .error fault := by
  have missing := offset_of_size_lt (Nat.lt_succ_of_le beyond)
  rw [get]
  cases index.offset position with
  | error fault => exact ⟨fault, rfl⟩
  | ok start => exact ⟨_, by rw [missing]; rfl⟩

theorem holds_of_get {index : Index} {objects : List Bytes} (size : index.size = objects.length)
    (get : ∀ position object, objects[position]? = some object →
      index.get position = .ok object) : index.Holds objects := by
  refine ⟨size, fun position => ?_⟩
  cases found : objects[position]? with
  | some object => rw [get position object found]; rfl
  | none =>
      rcases get_of_size_le (size ▸ List.getElem?_eq_none_iff.mp found) with ⟨fault, missing⟩
      rw [missing]
      rfl

theorem empty_holds : empty.Holds [] := holds_of_get rfl fun _ _ found => by cases found

/-! Reading back what is written. -/

/-- Offsets of this size reach behind the last object, and the objects can be counted. -/
structure Fits (offsetSize : Nat) (objects : List Bytes) : Prop where
  positive : 1 ≤ offsetSize
  short : offsetSize ≤ 4
  count : objects.length < 0x10000
  last : 1 + objects.flatten.length < 256 ^ offsetSize

def stored (offsetSize : Nat) (objects : List Bytes) (behind : Bytes) : Index where
  count := UInt16.ofNat objects.length
  offsetSize := UInt8.ofNat offsetSize
  offsets := (boundaries 1 objects).flatMap (Bytes.ofNumber offsetSize)
  objects := objects.flatten ++ behind

theorem encodeWith_of_ne_nil (offsetSize : Nat) {objects : List Bytes} (nonempty : objects ≠ []) :
    encodeWith offsetSize objects = Bytes.ofNumber 2 objects.length ++ UInt8.ofNat offsetSize ::
      ((boundaries 1 objects).flatMap (Bytes.ofNumber offsetSize) ++ objects.flatten) :=
  if_neg (by simpa using nonempty)

section Stored

variable {offsetSize : Nat} {objects : List Bytes} (fits : Fits offsetSize objects)
  (behind : Bytes)

include fits

theorem Fits.toNat_offsetSize : (UInt8.ofNat offsetSize).toNat = offsetSize :=
  UInt8.toNat_ofNat_of_lt' (Nat.lt_of_le_of_lt fits.short (by decide))

theorem Fits.offsetSize_isKnown :
    ¬(UInt8.ofNat offsetSize < 1 || 4 < UInt8.ofNat offsetSize) = true := by
  rw [Bool.or_eq_true, decide_eq_true_eq, decide_eq_true_eq, UInt8.lt_iff_toNat_lt,
    UInt8.lt_iff_toNat_lt, fits.toNat_offsetSize]
  exact not_or.mpr ⟨Nat.not_lt.mpr fits.positive, Nat.not_lt.mpr fits.short⟩

theorem Fits.toNat_count : (UInt16.ofNat objects.length).toNat = objects.length :=
  UInt16.toNat_ofNat_of_lt' fits.count

theorem stored_size : (stored offsetSize objects behind).size = objects.length := fits.toNat_count

theorem stored_offset {position : Nat} (within : position ≤ objects.length) :
    (stored offsetSize objects behind).offset position =
      .ok (objects.take position).flatten.length := by
  have notBeyond : ¬(stored offsetSize objects behind).size < position := by
    rw [stored_size fits]
    exact Nat.not_lt.mpr within
  have inside : (objects.take position).flatten.length ≤ objects.flatten.length := by
    rw [← flatten_take_append_drop position objects, List.length_append]
    exact Nat.le_add_right _ _
  have bound := Nat.lt_of_le_of_lt (Nat.add_le_add_left inside 1) fits.last
  have start := getElem?_boundaries 1 within
  rcases Bytes.splitAt?_flatMap_ofNumber offsetSize start with ⟨others, found⟩
  rw [offset, if_neg notBeyond, stored, fits.toNat_offsetSize]
  simp only [if_neg fits.offsetSize_isKnown, found, Bytes.number_ofNumber, Nat.mod_eq_of_lt bound]
  rw [if_neg (by omega), Nat.add_sub_cancel_left]

theorem stored_holds : (stored offsetSize objects behind).Holds objects := by
  refine holds_of_get (stored_size fits behind) fun position object found => ?_
  have within : position < objects.length := (List.getElem?_eq_some_iff.mp found).1
  rw [get, stored_offset fits behind (Nat.le_of_lt within), stored_offset fits behind within]
  have cut := slice?_flatten found behind
  simp only [bind, Except.bind]
  rw [stored, cut]
  rfl

omit fits in
theorem length_stored_offsets : (stored offsetSize objects behind).offsets.length =
    (objects.length + 1) * offsetSize := by
  rw [stored, Bytes.length_flatMap_ofNumber, length_boundaries]

theorem stored_offsets_run {position : Nat} (early : position ≤ 3) (rest : Bytes) :
    (liftM (Decoder.readList UInt8 ((objects.length + 1) * offsetSize)) : Decoder Fault Bytes).run
        { rest := (stored offsetSize objects behind).offsets ++ rest, position } =
      (.ok (stored offsetSize objects behind).offsets,
        { rest, position := position + (objects.length + 1) * offsetSize }) := by
  have few : (objects.length + 1) * offsetSize ≤ 0x10000 * 4 :=
    Nat.mul_le_mul fits.count fits.short
  have large : 3 + 0x10000 * 4 ≤ lastOffset := by decide
  rw [← length_stored_offsets behind] at few ⊢
  have run := Decoder.readList_run_bytes (stored offsetSize objects behind).offsets rest position
    (by omega)
  simp only [liftM, monadLift, MonadLift.monadLift, Decoder.mapFault, run]

theorem ofBytes_stored (nonempty : objects ≠ []) :
    ofBytes (encodeWith offsetSize objects ++ behind) = .ok (stored offsetSize objects behind) := by
  have count : Packed.encode (UInt16.ofNat objects.length) = Bytes.ofNumber 2 objects.length :=
    congrArg (Bytes.ofNumber 2) fits.toNat_count
  have countReads : (monadLift (Decoder.read UInt16) : Decoder Fault UInt16).Reads
      (Bytes.ofNumber 2 objects.length) (UInt16.ofNat objects.length) :=
    count ▸ (Decoder.Reads.read _).mapFault Fault.read
  have notEmpty : UInt16.ofNat objects.length ≠ 0 := by
    intro none
    have length := fits.toNat_count
    rw [none] at length
    exact nonempty (List.length_eq_zero_iff.mp length.symm)
  have encoded : encodeWith offsetSize objects ++ behind = Bytes.ofNumber 2 objects.length ++
      ([UInt8.ofNat offsetSize] ++ ((stored offsetSize objects behind).offsets ++
        (objects.flatten ++ behind))) := by
    rw [encodeWith_of_ne_nil offsetSize nonempty, List.append_assoc, List.cons_append,
      List.append_assoc]
    rfl
  rw [ofBytes, encoded, Decoder.decode, decoder, Cursor.ofBytes, countReads.run_bind,
    if_neg notEmpty, (Number.byte_reads _).run_bind, if_neg fits.offsetSize_isKnown,
    Decoder.run_bind, fits.toNat_count, fits.toNat_offsetSize, stored_offsets_run fits behind]
  · rfl
  · rw [Bytes.length_ofNumber]
    exact Nat.le_refl _

theorem byteLength_stored (nonempty : objects ≠ []) :
    (stored offsetSize objects behind).byteLength = .ok (encodeWith offsetSize objects).length := by
  have notEmpty : ¬objects.length = 0 := fun none => nonempty (List.length_eq_zero_iff.mp none)
  rw [byteLength, stored_size fits, if_neg notEmpty, length_stored_offsets,
    stored_offset fits behind (Nat.le_refl _), List.take_length,
    encodeWith_of_ne_nil offsetSize nonempty, List.length_append, List.length_cons,
    List.length_append, Bytes.length_ofNumber, Bytes.length_flatMap_ofNumber, length_boundaries]
  refine congrArg Except.ok ?_
  omega

end Stored

/-- A written INDEX is read back with its objects, and its length is known from it. -/
theorem exists_ofBytes_encodeWith {offsetSize : Nat} {objects : List Bytes}
    (fits : Fits offsetSize objects) (behind : Bytes) :
    ∃ index, ofBytes (encodeWith offsetSize objects ++ behind) = .ok index ∧
      index.Holds objects ∧ index.byteLength = .ok (encodeWith offsetSize objects).length := by
  by_cases none : objects = []
  · subst none
    exact ⟨empty, rfl, empty_holds, rfl⟩
  · exact ⟨stored offsetSize objects behind, ofBytes_stored fits behind none,
      stored_holds fits behind, byteLength_stored fits behind none⟩

/-- Reading goes on where the length of an INDEX says that it ends. -/
theorem split_of_byteLength {encoded behind : Bytes} {index : Index}
    (read : ofBytes (encoded ++ behind) = .ok index)
    (length : index.byteLength = .ok encoded.length) :
    split (encoded ++ behind) = .ok (index, behind) := by
  simp only [split, read, length, Bytes.readFrom_append, bind, Except.bind]
  rfl

theorem exists_split_encodeWith {offsetSize : Nat} {objects : List Bytes}
    (fits : Fits offsetSize objects) (behind : Bytes) :
    ∃ index, split (encodeWith offsetSize objects ++ behind) = .ok (index, behind) ∧
      index.Holds objects := by
  rcases exists_ofBytes_encodeWith fits behind with ⟨index, read, holds, length⟩
  exact ⟨index, split_of_byteLength read length, holds⟩

/-! The smallest offsets. -/

theorem offsetSizeFor_pos (last : Nat) : 1 ≤ offsetSizeFor last := by
  simp only [offsetSizeFor]
  repeat' split
  all_goals decide

theorem offsetSizeFor_le_four (last : Nat) : offsetSizeFor last ≤ 4 := by
  simp only [offsetSizeFor]
  repeat' split
  all_goals decide

theorem offsetSizeFor_le_iff {last offsetSize : Nat} (small : last < 256 ^ (4 : Nat))
    (positive : 1 ≤ offsetSize) : offsetSizeFor last ≤ offsetSize ↔ last < 256 ^ offsetSize := by
  by_cases four : 4 ≤ offsetSize
  · have wide : 256 ^ (4 : Nat) ≤ 256 ^ offsetSize := Nat.pow_le_pow_right (by decide) four
    exact iff_of_true (Nat.le_trans (offsetSizeFor_le_four last) four)
      (Nat.lt_of_lt_of_le small wide)
  · have few : offsetSize = 1 ∨ offsetSize = 2 ∨ offsetSize = 3 := by omega
    simp only [offsetSizeFor]
    rcases few with one | two | three
    all_goals
      subst offsetSize
      repeat' split
      all_goals omega

theorem fits_offsetSizeFor {objects : List Bytes} (count : objects.length ≤ 0xFFFF)
    (small : 1 + objects.flatten.length < 256 ^ (4 : Nat)) :
    Fits (offsetSizeFor (1 + objects.flatten.length)) objects where
  positive := offsetSizeFor_pos _
  short := offsetSizeFor_le_four _
  count := Nat.lt_succ_of_le count
  last := (offsetSizeFor_le_iff small (offsetSizeFor_pos _)).mp (Nat.le_refl _)

/-- An INDEX that is read from its bytes with others behind them: the objects, the fault at
every other position, and the place where reading goes on. -/
structure ComesBack (encoded : Bytes) (objects : List Bytes) (behind : Bytes) (index : Index) :
    Prop where
  read : ofBytes (encoded ++ behind) = .ok index
  count : index.size = objects.length
  object : ∀ position (within : position < objects.length),
    index.get position = .ok objects[position]
  beyond : ∀ position, objects.length ≤ position → ∃ fault, index.get position = .error fault
  length : index.byteLength = .ok encoded.length
  next : split (encoded ++ behind) = .ok (index, behind)

theorem exists_comesBack {offsetSize : Nat} {objects : List Bytes} (fits : Fits offsetSize objects)
    (behind : Bytes) : ∃ index, ComesBack (encodeWith offsetSize objects) objects behind index := by
  rcases exists_ofBytes_encodeWith fits behind with ⟨index, read, holds, length⟩
  refine ⟨index, read, holds.size_eq, ?object, ?beyond, length, split_of_byteLength read length⟩
  case object =>
    intro position within
    exact holds.get_eq_ok (List.getElem?_eq_getElem within)
  case beyond =>
    intro position outside
    apply get_of_size_le
    rwa [holds.size_eq]

end Cff.Index

end Letterform
