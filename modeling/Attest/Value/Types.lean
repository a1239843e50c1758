import Attest.Value.Basic

/-!
# Names of types

The name of a value's type, the longer name that some messages use, and the short name of its kind
in messages about mismatches.
-/

namespace Attest

/-- The class name of a validator. -/
def Kind.className : Kind → String
  | .any => "Validator"
  | .string => "StringValidator"
  | .number => "NumberValidator"
  | .integer => "IntegerValidator"
  | .boolean => "BooleanValidator"
  | .date => "DateValidator"
  | .array => "ArrayValidator"
  | .object => "ObjectValidator"

/-- How a validator is shown. -/
def Kind.shown (k : Kind) : String := "<" ++ k.className ++ ">"

/-- The name of a data type, with the place where it is defined. -/
def DataType.name : DataType → String
  | .text => "str"
  | .boolean => "bool"
  | .integer => "int"
  | .float => "float"
  | .moment => "datetime.datetime"
  | .date => "datetime.date"
  | .list => "list"
  | .map => "dict"
  | .tuple => "tuple"
  | .validator kind => kind.className

/-- How a data type is shown. -/
def DataType.shown : DataType → String
  | .text => "<class 'str'>"
  | .boolean => "<class 'bool'>"
  | .integer => "<class 'int'>"
  | .float => "<class 'float'>"
  | .moment => "<class 'datetime.datetime'>"
  | .date => "<class 'datetime.date'>"
  | .list => "<class 'list'>"
  | .map => "<class 'dict'>"
  | .tuple => "<class 'tuple'>"
  | .validator .any => "<class 'dataknobs_guard.validator.Validator'>"
  | .validator kind => "<class 'dataknobs_guard.guards." ++ kind.className ++ "'>"

/-- The name of an object's type. -/
def Nature.typeName : Nature → String
  | .bare => "object"
  | .real type _ _ | .trouble type _ => type.name

namespace Value

/-- The name of a value's type. -/
def typeName : Value → String
  | .missing => "_MissingType"
  | .null => "NoneType"
  | .bool _ => "bool"
  | .int _ => "int"
  | .float _ | .nan _ => "float"
  | .text _ => "str"
  | .bytes _ => "bytes"
  | .list _ => "list"
  | .tuple _ => "tuple"
  | .set _ => "set"
  | .map _ => "dict"
  | .moment _ => "datetime"
  | .date _ => "date"
  | .time _ => "time"
  | .pattern _ => "Pattern"
  | .mode _ => "CompletionMode"
  | .type _ => "type"
  | .object o => o.nature.typeName
  | .function _ => "function"
  | .validator kind _ _ => kind.className
  | .up _ => "list"

/-- The name of a value's type with the place where it is defined. -/
def qualifiedTypeName : Value → String
  | .moment _ => "datetime.datetime"
  | .date _ => "datetime.date"
  | .time _ => "datetime.time"
  | .pattern _ => "re.Pattern"
  | v => v.typeName

/-- A value as the owner of features, in the words of messages. -/
def owner : Value → String
  | .type t => "type object '" ++ t.name ++ "'"
  | v => "'" ++ v.qualifiedTypeName ++ "' object"

/-- The kind of a value, as messages about a wrong kind call it. -/
def describe : Value → String
  | .missing => "undefined"
  | .null => "null"
  | .bool _ => "boolean"
  | .int _ => "integer"
  | .float _ | .nan _ => "number"
  | .text _ | .mode _ => "string"
  | .moment _ | .date _ => "date"
  | .list _ | .tuple _ => "array"
  | .map _ => "object"
  | .type _ | .function _ | .validator _ _ _ => "function"
  | v => v.typeName

end Value

end Attest
