import Letterform.Bytes.Decoder

/-!
Why the structures of a CFF table cannot be read, or a charstring not be drawn.
-/

namespace Letterform.Cff

def nestingLimit : Nat := 10

inductive Fault
  | offsetSize (size : UInt8)
  | zeroOffset
  | invalidNumber
  | dictOperator (opcode : UInt8)
  | charstringOperator (opcode : UInt8)
  | fontSelectFormat (format : UInt8)
  | stackUnderflow
  | stackAccess (index : Nat)
  | transientIndex (index : Int32)
  | subroutineIndex (index : Int32)
  | missingSubroutines
  | missingPrivateDict
  | missingCharstrings
  | nestingTooDeep
  | read (error : ReadError)
  deriving DecidableEq, Repr

namespace Fault

def message : Fault → String
  | .offsetSize size => s!"invalid offset size of {size} for INDEX (expected 1-4)"
  | .zeroOffset => "invalid offset of 0 in INDEX (must be >= 1)"
  | .invalidNumber => "number is in an invalid format"
  | .dictOperator opcode => s!"dict operator {opcode} is invalid"
  | .charstringOperator opcode => s!"charstring operator {opcode} is invalid"
  | .fontSelectFormat format => s!"FDSelect format {format} is not supported"
  | .stackUnderflow => "an operator expected more values than were on the stack"
  | .stackAccess index => s!"stack access at index {index} is invalid"
  | .transientIndex index => s!"transient array access at index {index.toInt} is invalid"
  | .subroutineIndex index => s!"biased subroutine index {index.toInt} is out of range"
  | .missingSubroutines => "encountered a callsubr operator but no subroutine index was provided"
  | .missingPrivateDict => "the font is missing a Private DICT"
  | .missingCharstrings => "the font is missing a CharStrings INDEX"
  | .nestingTooDeep =>
      s!"exceeded subroutine nesting depth limit {nestingLimit} while evaluating a charstring"
  | .read error => error.message

def outOfBounds (offset : Nat) : Fault := .read (.outOfBounds offset)

end Fault

instance : MonadLift (Decoder ReadError) (Decoder Fault) where
  monadLift := Decoder.mapFault Fault.read

def liftRead {α : Type} : Except ReadError α → Except Fault α
  | .ok value => .ok value
  | .error error => .error (.read error)

end Letterform.Cff
