import Letterform.Cff.Dict.Entry

/-!
The Private DICT: hinting values, the local subroutines and the two widths that
charstrings refer to.
-/

namespace Letterform.Cff

structure PrivateDict where
  blueValues : List Float := []
  otherBlues : List Float := []
  familyBlues : List Float := []
  familyOtherBlues : List Float := []
  blueScale : Float := 0.039625
  blueShift : Float := 7
  blueFuzz : Float := 1
  standardHorizontalWidth : Option Float := none
  standardVerticalWidth : Option Float := none
  stemSnapHorizontal : List Float := []
  stemSnapVertical : List Float := []
  forceBold : Bool := false
  languageGroup : Int32 := 0
  expansionFactor : Float := 0.06
  initialRandomSeed : Int32 := 0
  subroutinesOffset : Option Nat := none
  defaultWidth : Float := 0
  nominalWidth : Float := 0

namespace PrivateDict

def update (start : Nat) (dict : PrivateDict) : Dict.Entry → PrivateDict
  | ⟨.blueValues, values⟩ => { dict with blueValues := values }
  | ⟨.otherBlues, values⟩ => { dict with otherBlues := values }
  | ⟨.familyBlues, values⟩ => { dict with familyBlues := values }
  | ⟨.familyOtherBlues, values⟩ => { dict with familyOtherBlues := values }
  | ⟨.blueScale, value⟩ => { dict with blueScale := value }
  | ⟨.blueShift, value⟩ => { dict with blueShift := value }
  | ⟨.blueFuzz, value⟩ => { dict with blueFuzz := value }
  | ⟨.standardHorizontalWidth, value⟩ => { dict with standardHorizontalWidth := some value }
  | ⟨.standardVerticalWidth, value⟩ => { dict with standardVerticalWidth := some value }
  | ⟨.stemSnapHorizontal, values⟩ => { dict with stemSnapHorizontal := values }
  | ⟨.stemSnapVertical, values⟩ => { dict with stemSnapVertical := values }
  | ⟨.forceBold, value⟩ => { dict with forceBold := value }
  | ⟨.languageGroup, value⟩ => { dict with languageGroup := value }
  | ⟨.expansionFactor, value⟩ => { dict with expansionFactor := value }
  | ⟨.initialRandomSeed, value⟩ => { dict with initialRandomSeed := value }
  | ⟨.subroutinesOffset, offset⟩ => { dict with subroutinesOffset := some (start + offset) }
  | ⟨.defaultWidth, value⟩ => { dict with defaultWidth := value }
  | ⟨.nominalWidth, value⟩ => { dict with nominalWidth := value }
  | _ => dict

def ofTable (table : Bytes) (range : Dict.Range) : Except Fault PrivateDict :=
  match table.slice? range.start range.stop with
  | some bytes => Dict.collect (update range.start) {} bytes
  | none => .error (.outOfBounds range.start)

end PrivateDict

end Letterform.Cff
