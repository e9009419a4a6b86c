import TrialLedger.Text.Quoted

/-! What is wrong with a record, and where. A location leads from the outermost
record to the faulty member by member names, list positions and keys. -/

namespace TrialLedger

inductive Problem where
  | missing
  | extraForbidden
  | notText
  | notList
  | notMap
  | notRecord (model : String)
  | notObject
  | unclearFlag
  | notFlag
  | noTag (member : String)
  | unknownTag (member tag : String) (known : List String)
  | belowZero
  | notBytes
  /-- Bytes where a text should be, which are none. -/
  | brokenText
  | notInteger
  /-- A text that is no whole number. -/
  | noNumeral
  | longNumeral
  | fractional
  | notFinite
  | notInstance (model : String)
  | rejected (reason : String)
  deriving DecidableEq, Repr

namespace Problem

def label : Problem → String
  | missing => "missing"
  | extraForbidden => "extra_forbidden"
  | notText => "string_type"
  | notList => "list_type"
  | notMap => "dict_type"
  | notRecord _ => "model_type"
  | notObject => "model_attributes_type"
  | unclearFlag => "bool_parsing"
  | notFlag => "bool_type"
  | noTag _ => "union_tag_not_found"
  | unknownTag .. => "union_tag_invalid"
  | belowZero => "greater_than_equal"
  | notBytes => "bytes_type"
  | brokenText => "string_unicode"
  | notInteger => "int_type"
  | noNumeral => "int_parsing"
  | longNumeral => "int_parsing_size"
  | fractional => "int_from_float"
  | notFinite => "finite_number"
  | notInstance _ => "is_instance_of"
  | rejected _ => "value_error"

def message : Problem → String
  | missing => "Field required"
  | extraForbidden => "Extra inputs are not permitted"
  | notText => "Input should be a valid string"
  | notList => "Input should be a valid list"
  | notMap => "Input should be a valid dictionary"
  | notRecord model => "Input should be a valid dictionary or instance of " ++ model
  | notObject => "Input should be a valid dictionary or object to extract fields from"
  | unclearFlag => "Input should be a valid boolean, unable to interpret input"
  | notFlag => "Input should be a valid boolean"
  | noTag member => "Unable to extract tag using discriminator '" ++ member ++ "'"
  | unknownTag member tag known =>
    "Input tag '" ++ tag ++ "' found using '" ++ member ++ "' does not match any of the expected tags: " ++
      ", ".intercalate (known.map fun k => "'" ++ k ++ "'")
  | belowZero => "Input should be greater than or equal to 0"
  | notBytes => "Input should be a valid bytes"
  | brokenText => "Input should be a valid string, unable to parse raw data as a unicode string"
  | notInteger => "Input should be a valid integer"
  | noNumeral => "Input should be a valid integer, unable to parse string as an integer"
  | longNumeral => "Unable to parse input string as an integer, exceeded maximum size"
  | fractional => "Input should be a valid integer, got a number with a fractional part"
  | notFinite => "Input should be a finite number"
  | notInstance model => "Input should be an instance of " ++ model
  | rejected reason => "Value error, " ++ reason

end Problem

structure Issue where
  location : List String
  problem : Problem
  deriving DecidableEq, Repr

namespace Issue

def under (step : String) (i : Issue) : Issue := { i with location := step :: i.location }

def message (i : Issue) : String := i.problem.message

/-- The message of the first of several issues. -/
def firstMessage (issues : List Issue) : String := (issues.head?.map message).getD ""

/-- The first line of a report on a record of the given model. -/
def headline (model : String) (issues : List Issue) : String :=
  toString issues.length ++ (if issues.length = 1 then " validation error for " else " validation errors for ") ++
    model

end Issue

end TrialLedger
