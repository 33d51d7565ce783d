import PoolFeed.Base58
import PoolFeed.Document.Text

/-!
# What is wrong with a setting

| here | there |
| --- | --- |
| `Issue`, `Problem` | one error of the `ValidationError` that `ConfigLoader.load_app_config` catches |
| `report` | the text of that error, which becomes the message of the `ConfigurationError` |

An issue names the setting, what is wrong with it and the value that was found. A report lists all
issues of a document; a long value is shown by its two ends.
-/

namespace PoolFeed.Config

inductive Problem where
  /-- A section is no mapping; its settings have a name together. -/
  | notMapping (settings : String)
  | notOneOf (choices : List String)
  | notInteger
  | unreadableInteger
  | tooManyDigits
  | fractional
  | notFinite
  | notAbove (bound : Int)
  | below (least : Int)
  | above (most : Int)
  | notBoolean
  | unreadableBoolean
  | notText
  | notUnicode
  | notPath
  | badKey (text : String) (error : Base58.KeyError)
  deriving DecidableEq

namespace Problem

/-- The short name of a problem. -/
def code : Problem → String
  | .notMapping _ => "model_type"
  | .notOneOf _ => "enum"
  | .notInteger => "int_type"
  | .unreadableInteger => "int_parsing"
  | .tooManyDigits => "int_parsing_size"
  | .fractional => "int_from_float"
  | .notFinite => "finite_number"
  | .notAbove _ => "greater_than"
  | .below _ => "greater_than_equal"
  | .above _ => "less_than_equal"
  | .notBoolean => "bool_type"
  | .unreadableBoolean => "bool_parsing"
  | .notText => "string_type"
  | .notUnicode => "string_unicode"
  | .notPath => "path_type"
  | .badKey _ _ => "value_error"

/-- Quoted choices, the last one behind an "or". -/
def orList (choices : List String) : String :=
  let quoted := choices.map Text.quoted
  match quoted.getLast? with
  | none => ""
  | some last => if quoted.length = 1 then last else ", ".intercalate quoted.dropLast ++ " or " ++ last

def message : Problem → String
  | .notMapping settings => s!"Input should be a valid dictionary or instance of {settings}"
  | .notOneOf choices => "Input should be " ++ orList choices
  | .notInteger => "Input should be a valid integer"
  | .unreadableInteger => "Input should be a valid integer, unable to parse string as an integer"
  | .tooManyDigits => "Unable to parse input string as an integer, exceeded maximum size"
  | .fractional => "Input should be a valid integer, got a number with a fractional part"
  | .notFinite => "Input should be a finite number"
  | .notAbove bound => s!"Input should be greater than {bound}"
  | .below least => s!"Input should be greater than or equal to {least}"
  | .above most => s!"Input should be less than or equal to {most}"
  | .notBoolean => "Input should be a valid boolean"
  | .unreadableBoolean => "Input should be a valid boolean, unable to interpret input"
  | .notText => "Input should be a valid string"
  | .notUnicode => "Input should be a valid string, unable to parse raw data as a unicode string"
  | .notPath => "Input is not a valid path for <class 'pathlib.Path'>"
  | .badKey text error => s!"Value error, invalid public key {Text.quoted text}: {error.message}"

/-- Whether the report points to more about the problem. -/
def hasHelp : Problem → Bool
  | .notPath => false
  | _ => true

end Problem

structure Issue where
  place : List String
  problem : Problem
  input : Document

/-! ## Reports -/

/-- The longest start of a text within a number of bytes. -/
def startWithin : List Char → Nat → List Char
  | [], _ => []
  | c :: rest, room => if c.utf8Size ≤ room then c :: startWithin rest (room - c.utf8Size) else []

/-- A text of more than fifty bytes, shortened to its two ends. -/
def abbreviated (s : String) : String :=
  if s.utf8ByteSize ≤ 50 then s
  else
    String.ofList (startWithin s.toList 25) ++ "..."
      ++ String.ofList ((startWithin s.toList.reverse 24).reverse)

/-- Where a report points for more. -/
def helpLead : String := "https:" ++ "//errors.pydantic.dev/2.14/v/"

def Issue.text (i : Issue) : String :=
  let found := s!"[type={i.problem.code}, input_value={abbreviated i.input.shown}, input_type={i.input.typeName}]"
  let help := if i.problem.hasHelp then "\n    For further information visit " ++ helpLead ++ i.problem.code else ""
  ".".intercalate i.place ++ "\n  " ++ i.problem.message ++ " " ++ found ++ help

/-- The report of a document's issues. -/
def report (issues : List Issue) : String :=
  let count := issues.length
  let noun := if count = 1 then "validation error" else "validation errors"
  "\n".intercalate (s!"{count} {noun} for AppConfig" :: issues.map Issue.text)

end PoolFeed.Config
