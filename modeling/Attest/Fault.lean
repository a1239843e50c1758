/-!
# Faults

What goes wrong outside the rules of validation: an operation that its operands do not support, a
number beyond a limit, a malformed source, or whatever a user function raises. A fault is a cause;
its name and its wording are functions of the cause.
-/

namespace Attest

/-- The four order relations that a check may ask for. -/
inductive Relation where
  | less
  | atMost
  | greater
  | atLeast
  deriving DecidableEq, Repr

def Relation.symbol : Relation → String
  | .less => "<"
  | .atMost => "<="
  | .greater => ">"
  | .atLeast => ">="

/-- Whether the relation holds between values in the given order. -/
def Relation.holds : Relation → Ordering → Bool
  | .less, o => o == .lt
  | .atMost, o => o != .gt
  | .greater, o => o == .gt
  | .atLeast, o => o != .lt

/-- What can go wrong when the places of a text, or of bytes, are filled. -/
inductive PlaceFault where
  | unfinished
  | unfinishedName
  /-- A name where nothing can be looked up by name. -/
  | noNames
  | tooFewValues
  | valuesLeft (inBytes : Bool)
  /-- A width or a precision that is no integer. -/
  | wantsInteger
  | widthTooBig
  | precisionTooBig (inBytes : Bool)
  | precisionTooLarge
  /-- A letter that is no form, by its number, and its position. -/
  | unknownForm (inBytes : Bool) (code position : Nat)
  /-- A byte above 127 for a form of bytes, where it counts as negative: not right behind a
  number. -/
  | formOutOfRange
  /-- No number for a form, or no integer where the form is exact. -/
  | notANumber (form : Char) (exact : Bool) (type : String)
  | noFloat (type : String)
  | notACharacter (inBytes : Bool)
  | characterOutOfRange (inBytes : Bool)
  | notBytes (type : String)
  deriving DecidableEq, Repr

def PlaceFault.name (f : PlaceFault) : String :=
  match f with
  | .unfinished | .unfinishedName | .widthTooBig | .precisionTooBig _ | .unknownForm _ _ _ =>
    "ValueError"
  | .precisionTooLarge | .characterOutOfRange _ | .formOutOfRange => "OverflowError"
  | _ => "TypeError"

/-- A number in base sixteen. -/
def hexShown (n : Nat) : String := "0x" ++ String.ofList (Nat.toDigits 16 n)

def PlaceFault.text (f : PlaceFault) : String :=
  match f with
  | .unfinished => "incomplete format"
  | .unfinishedName => "incomplete format key"
  | .noNames => "format requires a mapping"
  | .tooFewValues => "not enough arguments for format string"
  | .valuesLeft inBytes =>
    "not all arguments converted during " ++ (if inBytes then "bytes" else "string") ++ " formatting"
  | .wantsInteger => "* wants int"
  | .widthTooBig => "width too big"
  | .precisionTooBig inBytes => if inBytes then "prec too big" else "precision too big"
  | .precisionTooLarge => "precision too large"
  | .unknownForm inBytes code position =>
    let shown := if inBytes || (31 ≤ code && code ≤ 126) then Char.ofNat code else '?'
    "unsupported format character '" ++ String.ofList [shown] ++ "' (" ++ hexShown code ++
      ") at index " ++ toString position
  | .formOutOfRange => "character argument not in range(0x110000)"
  | .notANumber form exact type =>
    "%" ++ String.ofList [form] ++ " format: " ++
      (if exact then "an integer" else "a real number") ++ " is required, not " ++ type
  | .noFloat type => "float argument required, not " ++ type
  | .notACharacter inBytes =>
    if inBytes then "%c requires an integer in range(256) or a single byte"
    else "%c requires int or char"
  | .characterOutOfRange inBytes =>
    "%c arg not in range(" ++ (if inBytes then "256" else "0x110000") ++ ")"
  | .notBytes type =>
    "%b requires a bytes-like object, or an object that implements __bytes__, not '" ++ type ++ "'"

/-- A cause of trouble. Names of types are given as the messages show them. -/
inductive Fault where
  /-- Two values that have no order. -/
  | unordered (relation : Relation) (left right : String)
  /-- Two moments of which only one has an offset. -/
  | mixedMoments
  /-- Two times of day of which only one has an offset. -/
  | mixedTimes
  /-- A moment against a day. -/
  | momentAgainstDate
  | noLength (type : String)
  | notIterable (type : String)
  /-- Membership in something that has no members. -/
  | noMembers (type : String)
  | notCallable (type : String)
  | unhashable (type : String)
  /-- An owner, in the words of messages, without the named feature. -/
  | noAttribute (owner name : String)
  | unsupportedOperands (operator left right : String)
  /-- A text operation applied to something else. -/
  | notTextOperation (operation type : String)
  /-- A pattern searched in something that is no text. -/
  | notSearchable (type : String)
  /-- A pattern for texts searched in bytes. -/
  | patternOnBytes
  /-- A pattern for bytes searched in a text. -/
  | bytesPatternOnText
  /-- An item that is bytes, by its place, among texts that are to be joined. -/
  | notTextItem (index : Nat)
  /-- A start or an end that is not of the wanted type. -/
  | notAffix (operation wanted type : String)
  /-- A part of a text that is no text. -/
  | notPart (type : String)
  /-- A part of bytes that is not bytes. -/
  | notBytes (type : String)
  /-- A part of bytes that is a number, but not one of a byte. -/
  | notByte
  | divisionByZero
  | floatDivisionByZero
  /-- An integer beyond the largest float. -/
  | integerTooLarge
  /-- A power beyond the largest float. -/
  | powerTooLarge
  /-- An integer of too many digits to be written. -/
  | tooManyDigits
  /-- An integer of too many digits to be read. -/
  | tooManyDigitsRead (digits : Nat)
  /-- A text that is no integer; the text is given in quotes. -/
  | notInteger (quoted : String)
  /-- A text that is no number; the text is given in quotes. -/
  | notFloat (quoted : String)
  /-- A value that has no integer. -/
  | noInteger (type : String)
  /-- A value that has no float. -/
  | noFloat (type : String)
  /-- A value that is no real number. -/
  | notReal (type : String)
  | undefinedToInteger
  | infinityToInteger
  /-- A text whose places cannot be filled. -/
  | place (f : PlaceFault)
  | missingArgument (name : String) (position : Nat)
  /-- An argument that is no whole number. -/
  | notWhole (type : String)
  /-- A number beyond those of a type of fixed width. -/
  | integerTooWide (type : String)
  /-- A number beyond the numbers of thirty-two bits. -/
  | beyondWord (isNegative : Bool)
  | outOfMemory
  /-- A text that should be packed bytes, with a character that is no byte. -/
  | badPacked (type : String)
  /-- A call that its function does not accept. -/
  | badCall (text : String)
  /-- A pair that is none: its place and its length, if it has one. -/
  | badPair (index : Nat) (length : Option Nat)
  | badPattern
  /-- A pattern that asks for more repetitions than there can be. -/
  | repetitionTooLarge
  /-- A pattern over the characters of one script and of all. -/
  | clashingOptions
  | badDocument
  /-- An escape in a document for a number that no character has. -/
  | noCharacter (code : Nat)
  /-- A text without any character where a number was wanted. -/
  | emptyNumeral
  /-- A walk that does not end, as through a cyclic schema. -/
  | endless
  /-- A comparison of two values that hold themselves. -/
  | endlessComparison
  /-- What a user function raises. -/
  | raised (name text : String)
  deriving DecidableEq, Repr

/-- The name of the kind of trouble. -/
def Fault.name : Fault → String
  | .divisionByZero | .floatDivisionByZero => "ZeroDivisionError"
  | .integerTooLarge | .powerTooLarge | .infinityToInteger | .repetitionTooLarge
  | .integerTooWide _ | .beyondWord _ => "OverflowError"
  | .tooManyDigits | .tooManyDigitsRead _ | .notInteger _ | .notFloat _ | .undefinedToInteger
  | .notByte | .clashingOptions | .badPacked _ => "ValueError"
  | .badPair _ (some _) => "ValueError"
  | .noAttribute _ _ => "AttributeError"
  | .badPattern => "re.error"
  | .badDocument => "YAMLError"
  | .noCharacter code => if code < 0x80000000 then "ValueError" else "OverflowError"
  | .emptyNumeral => "IndexError"
  | .outOfMemory => "MemoryError"
  | .place f => f.name
  | .endless | .endlessComparison => "RecursionError"
  | .raised name _ => name
  | _ => "TypeError"

/-- The wording of a fault. -/
def Fault.text : Fault → String
  | .unordered relation left right =>
    s!"'{relation.symbol}' not supported between instances of '{left}' and '{right}'"
  | .mixedMoments => "can't compare offset-naive and offset-aware datetimes"
  | .mixedTimes => "can't compare offset-naive and offset-aware times"
  | .momentAgainstDate => "can't compare datetime.datetime to datetime.date"
  | .noLength type => s!"object of type '{type}' has no len()"
  | .notIterable type => s!"'{type}' object is not iterable"
  | .noMembers type => s!"argument of type '{type}' is not iterable"
  | .notCallable type => s!"'{type}' object is not callable"
  | .unhashable type => s!"unhashable type: '{type}'"
  | .noAttribute owner name => s!"{owner} has no attribute '{name}'"
  | .unsupportedOperands operator left right =>
    s!"unsupported operand type(s) for {operator}: '{left}' and '{right}'"
  | .notTextOperation operation type =>
    s!"descriptor '{operation}' for 'str' objects doesn't apply to a '{type}' object"
  | .notSearchable type => s!"expected string or bytes-like object, got '{type}'"
  | .patternOnBytes => "cannot use a string pattern on a bytes-like object"
  | .bytesPatternOnText => "cannot use a bytes pattern on a string-like object"
  | .notTextItem index => s!"sequence item {index}: expected str instance, bytes found"
  | .notAffix operation wanted type =>
    s!"{operation} first arg must be {wanted} or a tuple of {wanted}, not {type}"
  | .notPart type => s!"'in <string>' requires string as left operand, not {type}"
  | .notBytes type => s!"a bytes-like object is required, not '{type}'"
  | .notByte => "byte must be in range(0, 256)"
  | .divisionByZero => "division by zero"
  | .floatDivisionByZero => "float division by zero"
  | .integerTooLarge => "int too large to convert to float"
  | .powerTooLarge => "(34, 'Numerical result out of range')"
  | .tooManyDigits =>
    "Exceeds the limit (4300 digits) for integer string conversion; " ++
      "use sys.set_int_max_str_digits() to increase the limit"
  | .tooManyDigitsRead digits =>
    s!"Exceeds the limit (4300 digits) for integer string conversion: value has {digits} digits; " ++
      "use sys.set_int_max_str_digits() to increase the limit"
  | .notInteger quoted => s!"invalid literal for int() with base 10: {quoted}"
  | .notFloat quoted => s!"could not convert string to float: {quoted}"
  | .noInteger type =>
    s!"int() argument must be a string, a bytes-like object or a real number, not '{type}'"
  | .noFloat type => s!"float() argument must be a string or a real number, not '{type}'"
  | .notReal type => s!"must be real number, not {type}"
  | .undefinedToInteger => "cannot convert float NaN to integer"
  | .infinityToInteger => "cannot convert float infinity to integer"
  | .place f => f.text
  | .missingArgument name position =>
    s!"function missing required argument '{name}' (pos {position})"
  | .notWhole type => s!"'{type}' object cannot be interpreted as an integer"
  | .integerTooWide type => s!"Python int too large to convert to C {type}"
  | .beyondWord isNegative =>
    if isNegative then "signed integer is less than minimum"
    else "signed integer is greater than maximum"
  | .badPacked type =>
    s!"Failed to encode latin1 string when unpickling a {type} object. " ++
      "pickle.load(data, encoding='latin1') is assumed."
  | .badCall text => text
  | .outOfMemory => ""
  | .badPair index none =>
    s!"cannot convert dictionary update sequence element #{index} to a sequence"
  | .badPair index (some length) =>
    s!"dictionary update sequence element #{index} has length {length}; 2 is required"
  | .badPattern => "malformed pattern"
  | .repetitionTooLarge => "the repetition number is too large"
  | .clashingOptions => "ASCII and UNICODE flags are incompatible"
  | .badDocument => "malformed document"
  | .noCharacter code =>
    if code < 0x80000000 then "chr() arg not in range(0x110000)"
    else "signed integer is greater than maximum"
  | .emptyNumeral => "string index out of range"
  | .endless => "maximum recursion depth exceeded"
  | .endlessComparison => "maximum recursion depth exceeded in comparison"
  | .raised _ text => text

/-- The wording where a message needs one: the name when there is no text. -/
def Fault.reason (f : Fault) : String := if f.text.isEmpty then f.name else f.text

end Attest
