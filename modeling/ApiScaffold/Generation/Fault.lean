import ApiScaffold.Json
import ApiScaffold.Shape.Problem
import ApiScaffold.Sql.Table

/-!
Why an artifact cannot be generated.
-/

namespace ApiScaffold

/-- What is wrong with a record of seed data. -/
inductive RecordFault where
  | notIterable (kind : String)
  | noLookup (kind : String)
  | unhashableKey (kind : String)
  | keyNotText
  | keyNotColumn (shown : String)
  | json (fault : JsonFault)
  | numberTooLong
  deriving DecidableEq, Repr

/-- Why a number cannot be padded to a width. -/
inductive WidthFault where
  | negative (width : Int)
  | tooLarge
  | outOfMemory
  deriving DecidableEq, Repr

/-- Why an artifact cannot be generated. -/
inductive GenerationFault where
  | mapping (fault : Schema.MappingFault)
  | literal (fault : LiteralFault)
  | sql (fault : Sql.Fault)
  | shape (problem : Shape.Problem)
  | missingIndexes (resource : String)
  | emptySeed (resource : String)
  | unknownColumns (resource : String) (columns : List String)
  | record (fault : RecordFault)
  | width (fault : WidthFault)
  deriving DecidableEq, Repr

def RecordFault.message : RecordFault → String
  | notIterable kind => s!"'{kind}' object is not iterable"
  | noLookup kind => s!"'{kind}' object has no attribute 'get'"
  | unhashableKey kind => s!"unhashable type: '{kind}'"
  | keyNotText => "__contains__ requires a string argument"
  | keyNotColumn shown => s!"SET/VALUES column expression or string key expected, got {shown}."
  | json fault => fault.message
  | numberTooLong => Number.tooLongMessage

def WidthFault.message : WidthFault → String
  | negative width => s!"Invalid format specifier '0{width}d' for object of type 'int'"
  | tooLarge => "Too many decimal digits in format string"
  | outOfMemory => ""

namespace GenerationFault

def emptySeedMessage (resource : String) : String :=
  s!"Seed data is required: no records given for resource '{resource}'."

def missingIndexesMessage (resource : String) : String :=
  s!"No indexes defined for resource '{resource}'."

def unknownColumnsMessage (resource : String) (columns : List String) : String :=
  s!"Seed records for resource '{resource}' reference unknown column(s): "
    ++ String.intercalate ", " columns ++ "."

def message : GenerationFault → String
  | mapping fault => fault.message
  | literal fault => fault.message
  | sql fault => fault.message
  | shape problem => problem.message
  | missingIndexes resource => missingIndexesMessage resource
  | emptySeed resource => emptySeedMessage resource
  | unknownColumns resource columns => unknownColumnsMessage resource columns
  | record fault => fault.message
  | width fault => fault.message

end GenerationFault

end ApiScaffold
