import Letterform.Cff.Dict.Entry

/-!
The Top DICT, which describes a whole font, and the Font DICT, which describes one
part of a CID-keyed font. An operator that occurs again replaces what it said
before; operators that do not belong there are passed over.
-/

namespace Letterform.Cff

structure TopDict where
  version : Option StringId := none
  notice : Option StringId := none
  copyright : Option StringId := none
  fullName : Option StringId := none
  familyName : Option StringId := none
  weight : Option StringId := none
  isFixedPitch : Bool := false
  italicAngle : Float := 0
  underlinePosition : Float := -100
  underlineThickness : Float := 50
  paintType : Int32 := 0
  charstringType : Int32 := 2
  fontMatrix : Vector Float 6 := #v[0.001, 0, 0, 0.001, 0, 0]
  uniqueId : Option Int32 := none
  fontBox : Vector Float 4 := #v[0, 0, 0, 0]
  strokeWidth : Float := 0
  charset : Nat := 0
  encoding : Nat := 0
  charstringsOffset : Option Nat := none
  privateRange : Option Dict.Range := none
  syntheticBase : Option Int32 := none
  postScript : Option StringId := none
  baseFontName : Option StringId := none
  collection : Option Dict.Collection := none
  cidFontVersion : Float := 0
  cidFontRevision : Float := 0
  cidFontType : Int32 := 0
  cidCount : UInt32 := 8720
  uidBase : Option Int32 := none
  fontArrayOffset : Option Nat := none
  fontSelectOffset : Option Nat := none
  fontName : Option StringId := none

namespace TopDict

def update (dict : TopDict) : Dict.Entry → TopDict
  | ⟨.version, value⟩ => { dict with version := some value }
  | ⟨.notice, value⟩ => { dict with notice := some value }
  | ⟨.copyright, value⟩ => { dict with copyright := some value }
  | ⟨.fullName, value⟩ => { dict with fullName := some value }
  | ⟨.familyName, value⟩ => { dict with familyName := some value }
  | ⟨.weight, value⟩ => { dict with weight := some value }
  | ⟨.isFixedPitch, value⟩ => { dict with isFixedPitch := value }
  | ⟨.italicAngle, value⟩ => { dict with italicAngle := value }
  | ⟨.underlinePosition, value⟩ => { dict with underlinePosition := value }
  | ⟨.underlineThickness, value⟩ => { dict with underlineThickness := value }
  | ⟨.paintType, value⟩ => { dict with paintType := value }
  | ⟨.charstringType, value⟩ => { dict with charstringType := value }
  | ⟨.fontMatrix, value⟩ => { dict with fontMatrix := value }
  | ⟨.uniqueId, value⟩ => { dict with uniqueId := some value }
  | ⟨.fontBox, value⟩ => { dict with fontBox := value }
  | ⟨.strokeWidth, value⟩ => { dict with strokeWidth := value }
  | ⟨.charset, value⟩ => { dict with charset := value }
  | ⟨.encoding, value⟩ => { dict with encoding := value }
  | ⟨.charstringsOffset, value⟩ => { dict with charstringsOffset := some value }
  | ⟨.privateRange, value⟩ => { dict with privateRange := some value }
  | ⟨.syntheticBase, value⟩ => { dict with syntheticBase := some value }
  | ⟨.postScript, value⟩ => { dict with postScript := some value }
  | ⟨.baseFontName, value⟩ => { dict with baseFontName := some value }
  | ⟨.registryOrderingSupplement, value⟩ => { dict with collection := some value }
  | ⟨.cidFontVersion, value⟩ => { dict with cidFontVersion := value }
  | ⟨.cidFontRevision, value⟩ => { dict with cidFontRevision := value }
  | ⟨.cidFontType, value⟩ => { dict with cidFontType := value }
  | ⟨.cidCount, value⟩ => { dict with cidCount := value }
  | ⟨.uidBase, value⟩ => { dict with uidBase := some value }
  | ⟨.fontArrayOffset, value⟩ => { dict with fontArrayOffset := some value }
  | ⟨.fontSelectOffset, value⟩ => { dict with fontSelectOffset := some value }
  | ⟨.fontName, value⟩ => { dict with fontName := some value }
  | _ => dict

def ofBytes (bytes : Bytes) : Except Fault TopDict := Dict.collect update {} bytes

def isCid (dict : TopDict) : Bool := dict.collection.isSome

end TopDict

structure FontDict where
  fontName : Option StringId
  fontMatrix : Option (Vector Float 6)
  privateRange : Dict.Range

namespace FontDict

structure Gathered where
  fontName : Option StringId := none
  fontMatrix : Option (Vector Float 6) := none
  privateRange : Option Dict.Range := none

def Gathered.update (dict : Gathered) : Dict.Entry → Gathered
  | ⟨.fontName, value⟩ => { dict with fontName := some value }
  | ⟨.fontMatrix, value⟩ => { dict with fontMatrix := some value }
  | ⟨.privateRange, value⟩ => { dict with privateRange := some value }
  | _ => dict

def ofBytes (bytes : Bytes) : Except Fault FontDict := do
  let dict ← Dict.collect Gathered.update {} bytes
  match dict.privateRange with
  | some range => return ⟨dict.fontName, dict.fontMatrix, range⟩
  | none => throw .missingPrivateDict

end FontDict

end Letterform.Cff
