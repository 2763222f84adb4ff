import Letterform.Number.Hexadecimal
import Letterform.Session.Settings

/-!
What the command line asks for: a font file and a text, with options before, between
or after them. An option that takes a value has it in the same argument after an equals
sign, or in the next one, which then may not begin with a hyphen. No option may be given
twice. After `--` nothing is an option.
-/

namespace Letterform.Dump

inductive Format
  | json
  | compact
  | svg
  | summary
  deriving DecidableEq, Repr

def Format.ofName? : String → Option Format
  | "json" => some .json
  | "compact" => some .compact
  | "svg" => some .svg
  | "summary" => some .summary
  | _ => none

def hashOfText? (text : String) : Option UInt64 := do
  let digits := match text.toList with
    | '0' :: 'x' :: rest => rest
    | '0' :: 'X' :: rest => rest
    | digits => digits
  let value ← hexNumber? (match digits with
    | '+' :: rest => rest
    | digits => digits)
  if value < UInt64.size then some (UInt64.ofNat value) else none

structure Options where
  positional : List String := []
  format : Option Format := none
  fillerHash : Option UInt64 := none
  keepsTinyGlyphs : Bool := false
  deriving DecidableEq, Repr

namespace Options

def addPositional (options : Options) (argument : String) : Option Options :=
  if options.positional.length < 2 then
    some { options with positional := options.positional ++ [argument] }
  else none

def setValue (options : Options) (name value : String) : Option Options :=
  match name with
  | "--format" =>
      if options.format.isSome then none
      else (Format.ofName? value).map fun format => { options with format := some format }
  | "--filler-hash" =>
      if options.fillerHash.isSome then none
      else (hashOfText? value).map fun hash => { options with fillerHash := some hash }
  | _ => none

def setFlag (options : Options) (name : String) : Option Options :=
  if name = "--no-tiny-glyph-filter" ∧ !options.keepsTinyGlyphs then
    some { options with keepsTinyGlyphs := true }
  else none

def isPositional (argument : String) : Bool := argument = "-" || !argument.startsWith "-"

def takesValue (name : String) : Bool := name = "--format" || name = "--filler-hash"

def splitValue? (argument : String) : Option (String × String) :=
  let characters := argument.toList
  let name := characters.takeWhile (· != '=')
  match characters.drop name.length with
  | _ :: value => some (String.ofList name, String.ofList value)
  | [] => none

def read : Options → List String → Option Options
  | options, [] => some options
  | options, "--" :: arguments => arguments.foldlM addPositional options
  | options, argument :: arguments =>
      if isPositional argument then do read (← options.addPositional argument) arguments
      else match splitValue? argument with
        | some (name, value) => do read (← options.setValue name value) arguments
        | none =>
            if takesValue argument then
              match arguments with
              | value :: arguments => do
                  if isPositional value then read (← options.setValue argument value) arguments
                  else none
              | [] => none
            else do read (← options.setFlag argument) arguments

end Options

structure Request where
  file : String
  text : String
  format : Format
  settings : Settings
  deriving DecidableEq, Repr

namespace Request

def ofArguments? (arguments : List String) : Option Request := do
  let options ← Options.read {} arguments
  match options.positional with
  | [file, text] =>
      if file.isEmpty then none
      else some {
        file, text
        format := options.format.getD .summary
        settings := {
          fillerHash := options.fillerHash
          tinyThreshold :=
            if options.keepsTinyGlyphs then none else some defaultTinyThreshold } }
  | _ => none

/-! Names of files. -/

def fileName (path : String) : List Char :=
  (path.toList.reverse.takeWhile (· != '/')).reverse

/-- A name without its last dot and what follows it, unless nothing else would be left. -/
def fileStem (name : List Char) : List Char :=
  let stem := (name.reverse.dropWhile (· != '.')).tail.reverse
  if stem.isEmpty || name = ['.', '.'] then name else stem

def fontName (request : Request) : String := String.ofList (fileStem (fileName request.file))

end Request

end Letterform.Dump
