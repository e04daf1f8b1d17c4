import Provenance.Data.Display
import Provenance.Text.Digits

/-!
Contract: the faults that come from outside the program's own rules.

Owns:
- `FileFault`, what the file system refuses;
- `Fault`, every cause besides: values of the wrong kind, texts that denote
  nothing, unreadable data;
- the class and the message of each.

Does **not** own: when a fault arises.
-/

set_option autoImplicit false

namespace Provenance.Failure

open Data (Kind)

/-- What the file system refuses. -/
inductive FileFault where
  | missing
  | denied
  | occupied
  | notADirectory
  | isADirectory
  | nameTooLong
  | tooManyLinks
  deriving DecidableEq, Repr

namespace FileFault

def number : FileFault → Nat
  | .missing => 2
  | .denied => 13
  | .occupied => 17
  | .notADirectory => 20
  | .isADirectory => 21
  | .nameTooLong => 36
  | .tooManyLinks => 40

def words : FileFault → String
  | .missing => "No such file or directory"
  | .denied => "Permission denied"
  | .occupied => "File exists"
  | .notADirectory => "Not a directory"
  | .isADirectory => "Is a directory"
  | .nameTooLong => "File name too long"
  | .tooManyLinks => "Too many levels of symbolic links"

def className : FileFault → String
  | .missing => "FileNotFoundError"
  | .denied => "PermissionError"
  | .occupied => "FileExistsError"
  | .notADirectory => "NotADirectoryError"
  | .isADirectory => "IsADirectoryError"
  | .nameTooLong => "OSError"
  | .tooManyLinks => "OSError"

end FileFault

/-- A cause that is not one of the program's own problems. -/
inductive Fault where
  | file (fault : FileFault) (path : String)
  | linkLoop (path : String)
  | noHome
  | nullCharacter
  | noOperation (kind : Kind) (operation : String)
  | incomparable (relation : String) (left right : Kind)
  | notCombinable (operation : String) (left right : Kind)
  | notWritable (kind : Kind)
  | unwritableKey (name : String)
  /-- A collection that stands inside itself has no written form. -/
  | circular
  /-- A whole number has too many digits to be written. -/
  | tooLongToWrite
  | notACount (kind : Kind)
  | notAName (kind : Kind)
  /-- A value among others that are joined is no text. -/
  | notJoinable (index : Nat) (kind : Kind)
  /-- An entry of a list is sought by a text. -/
  | listIndexedByText
  /-- A character of a text is sought by a text. -/
  | textIndexedByText
  /-- A value is used as a collection of keys. -/
  | notIterable (kind : Kind)
  /-- A value is used as a collection that can be searched. -/
  | notSearchable (kind : Kind)
  | notMatchable (kind : Kind)
  /-- Octets are used as the subject of a pattern of texts. -/
  | octetsMatched
  | octetsCutAtText
  | noPresentation (kind : Kind)
  | noNumberPresentation (kind : Kind)
  | notALevel (inspected : String)
  | unknownLevel (inspected : String)
  /-- A record format names no field, or one of another style. -/
  | badRecordFormat (format : String)
  /-- A reference of an unknown variant cannot be pinned. -/
  | unsupportedVariant (name : String)
  | unknownVariant (shown : String)
  | notAReference (text : String)
  | unknownFormat (shown : String)
  | notAnInteger (inspected : String)
  /-- A whole number has too many digits to be read. -/
  | tooManyDigits (digits : Nat)
  /-- A number is too large for its new kind. -/
  | overflow (message : String)
  | notANumber
  | notJson (message : String)
  | notText (message : String)
  | notToml (message : String)
  | notYaml (className message : String)
  | badValue (message : String)
  /-- A name is looked up that is not there. -/
  | notFound (inspected : String)
  | outOfRange (message : String)
  | notAKey (kind : Kind)
  /-- A value is of a kind that an operation does not take. -/
  | wrongKind (message : String)
  | notMarkup (message : String)
  | tooDeep (message : String)
  | unfinished
  | interrupted
  deriving DecidableEq, Repr

namespace Fault

/-- How much is shown of a text that is no whole number. -/
def shownLength : Nat := 200

private def ofKind (kind : Kind) : String := "'" ++ kind.qualifiedName ++ "'"

def className : Fault → String
  | .file fault _ => fault.className
  | .linkLoop _ => "RuntimeError"
  | .noHome => "RuntimeError"
  | .nullCharacter => "ValueError"
  | .noOperation .. => "AttributeError"
  | .incomparable .. => "TypeError"
  | .notCombinable .. => "TypeError"
  | .notWritable _ => "TypeError"
  | .unwritableKey _ => "TypeError"
  | .circular => "ValueError"
  | .tooLongToWrite => "ValueError"
  | .notACount _ => "TypeError"
  | .notAName _ => "TypeError"
  | .notJoinable .. => "TypeError"
  | .listIndexedByText => "TypeError"
  | .textIndexedByText => "TypeError"
  | .notIterable _ => "TypeError"
  | .notSearchable _ => "TypeError"
  | .notMatchable _ => "TypeError"
  | .octetsMatched => "TypeError"
  | .octetsCutAtText => "TypeError"
  | .noPresentation _ => "TypeError"
  | .noNumberPresentation _ => "ValueError"
  | .notALevel _ => "TypeError"
  | .unknownLevel _ => "ValueError"
  | .badRecordFormat _ => "ValueError"
  | .unsupportedVariant _ => "TypeError"
  | .unknownVariant _ => "ValueError"
  | .notAReference _ => "ValueError"
  | .unknownFormat _ => "ValueError"
  | .notAnInteger _ => "ValueError"
  | .tooManyDigits _ => "ValueError"
  | .overflow _ => "OverflowError"
  | .notANumber => "ValueError"
  | .notJson _ => "JSONDecodeError"
  | .notText _ => "UnicodeDecodeError"
  | .notToml _ => "TOMLDecodeError"
  | .notYaml className _ => className
  | .badValue _ => "ValueError"
  | .notFound _ => "KeyError"
  | .outOfRange _ => "IndexError"
  | .notAKey _ => "TypeError"
  | .wrongKind _ => "TypeError"
  | .notMarkup _ => "MarkupError"
  | .tooDeep _ => "RecursionError"
  | .unfinished => "TimeoutError"
  | .interrupted => "KeyboardInterrupt"

def message [Text.DigitLimit] : Fault → String
  | .file fault path =>
    "[Errno " ++ toString fault.number ++ "] " ++ fault.words ++ ": " ++ Text.quoted path
  | .linkLoop path => "Symlink loop from " ++ Text.quoted path
  | .noHome => "Could not determine home directory."
  | .nullCharacter => "embedded null byte"
  | .noOperation kind operation =>
    ofKind kind ++ " object has no attribute '" ++ operation ++ "'"
  | .incomparable relation left right =>
    "'" ++ relation ++ "' not supported between instances of " ++ ofKind left ++ " and " ++
      ofKind right
  | .notCombinable operation left right =>
    "unsupported operand type(s) for " ++ operation ++ ": '" ++ left.qualifiedName ++ "' and '" ++
      right.qualifiedName ++ "'"
  | .notWritable kind => "Object of type " ++ kind.name ++ " is not JSON serializable"
  | .unwritableKey name => "keys must be str, int, float, bool or None, not " ++ name
  | .circular => "Circular reference detected"
  | .tooLongToWrite =>
    "Exceeds the limit (" ++ Text.limitText ++
      " digits) for integer string conversion; use sys.set_int_max_str_digits() to increase the limit"
  | .notACount kind =>
    "int() argument must be a string, a bytes-like object or a real number, not '" ++
      kind.qualifiedName ++ "'"
  | .notAName kind =>
    "expected str, bytes or os.PathLike object, not " ++ kind.name
  | .notJoinable index kind =>
    "sequence item " ++ toString index ++ ": expected str instance, " ++ kind.qualifiedName ++
      " found"
  | .listIndexedByText => "list indices must be integers or slices, not str"
  | .textIndexedByText => "string indices must be integers, not 'str'"
  | .notIterable kind => ofKind kind ++ " object is not iterable"
  | .notSearchable kind => "argument of type " ++ ofKind kind ++ " is not iterable"
  | .notMatchable kind => "expected string or bytes-like object, got " ++ ofKind kind
  | .octetsMatched => "cannot use a string pattern on a bytes-like object"
  | .octetsCutAtText => "a bytes-like object is required, not 'str'"
  | .noPresentation kind => "unsupported format string passed to " ++ kind.name ++ ".__format__"
  | .noNumberPresentation kind =>
    "Unknown format code 'g' for object of type " ++ ofKind kind
  | .notALevel inspected => "Level not an integer or a valid string: " ++ inspected
  | .unknownLevel inspected => "Unknown level: " ++ inspected
  | .badRecordFormat format => "Invalid format '" ++ format ++ "' for '%' style"
  | .unsupportedVariant name => "not supported for this type: " ++ name
  | .unknownVariant shown => "Unknown reference kind: " ++ shown
  | .notAReference text =>
    "Invalid reference " ++ Text.quoted text ++ ": expected <location>+<name>"
  | .unknownFormat shown => "Unknown format: " ++ shown
  | .notAnInteger inspected =>
    "invalid literal for int() with base 10: " ++ String.ofList (inspected.toList.take shownLength)
  | .tooManyDigits digits =>
    "Exceeds the limit (" ++ Text.limitText ++
      " digits) for integer string conversion: value has " ++ toString digits ++
      " digits; use sys.set_int_max_str_digits() to increase the limit"
  | .overflow message => message
  | .notANumber => "cannot convert float NaN to integer"
  | .notJson message => message
  | .notText message => message
  | .notToml message => message
  | .notYaml _ message => message
  | .badValue message => message
  | .notFound inspected => inspected
  | .outOfRange message => message
  | .notAKey kind => "unhashable type: " ++ ofKind kind
  | .wrongKind message => message
  | .notMarkup message => message
  | .tooDeep message => message
  | .unfinished => ""
  | .interrupted => ""

def isRefusal : Fault → Bool
  | .file .. => true
  | _ => false

def isBadData : Fault → Bool
  | .notJson _ => true
  | .notText _ => true
  | .notToml _ => true
  | other => other.className == "ValueError"

def isWrongKind (fault : Fault) : Bool :=
  fault.className == "TypeError"

end Fault
end Provenance.Failure
