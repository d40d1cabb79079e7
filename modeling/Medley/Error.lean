import Medley.Position

/-!
# Errors

An error is a cause, a place in the text it concerns and the stored collection it is about.  The
kind and the message of an error are functions of its cause, so a message cannot disagree with what
went wrong.
-/

namespace Medley

/-- What sort of thing went wrong, for callers that do not need the details. -/
inductive ErrorKind where
  | invalidKind
  | duplicateOperand
  | indexOutOfRange
  | parse
  | malformedRecord
  | danglingReference
  | selfReference
  | cyclicReference
  | operandArity
  | missingAttribute
  | badAttributeValue
  | unknownNamespace
  | notAPlaylist
  | collectionNotFound
  | collectionExists
  | persistenceDisabled
  | read
  | write
  | notSupported
  | execution
  | configuration
  | unexpected
  deriving DecidableEq, Repr

/-- The name of a kind of error, for programs that pass errors on. -/
def ErrorKind.name : ErrorKind → String
  | .invalidKind => "InvalidKind"
  | .duplicateOperand => "DuplicateOperand"
  | .indexOutOfRange => "IndexOutOfRange"
  | .parse => "ParseError"
  | .malformedRecord => "MalformedRecord"
  | .danglingReference => "DanglingReference"
  | .selfReference => "SelfReference"
  | .cyclicReference => "CyclicReference"
  | .operandArity => "OperandArityError"
  | .missingAttribute => "MissingAttribute"
  | .badAttributeValue => "BadAttributeValue"
  | .unknownNamespace => "UnknownNamespace"
  | .notAPlaylist => "NotAPlaylist"
  | .collectionNotFound => "CollectionNotFound"
  | .collectionExists => "CollectionExists"
  | .persistenceDisabled => "PersistenceDisabled"
  | .read => "ReadError"
  | .write => "WriteError"
  | .notSupported => "NotSupported"
  | .execution => "ExecutionError"
  | .configuration => "ConfigError"
  | .unexpected => "UnexpectedError"

/-- Why a text is not a collection pattern. -/
inductive PatternFault where
  /-- The last character is a backslash that escapes nothing. -/
  | trailingBackslash
  /-- No token starts at a character. -/
  | unexpectedCharacter
  /-- No operation starts at the first token. -/
  | notAPattern
  /-- An operation ends before the last token. -/
  | unparsedRest
  | because (reason : String)
  deriving DecidableEq, Repr

namespace PatternFault

/-- The fault in words. -/
def text : PatternFault → String
  | trailingBackslash => "trailing backslash"
  | unexpectedCharacter => "unexpected character"
  | notAPattern => "not a valid collection pattern"
  | unparsedRest => "Can't parse pattern completely"
  | because reason => reason

end PatternFault

/-- Why a text is not a collection record. -/
inductive RecordFault where
  /-- The text does not follow the grammar of records. -/
  | grammar
  /-- The text goes on behind a record. -/
  | unparsedRest
  | because (reason : String)
  deriving DecidableEq, Repr

namespace RecordFault

/-- The fault in words. -/
def text : RecordFault → String
  | grammar => "Parsing Error"
  | unparsedRest => "Can't parse record completely"
  | because reason => reason

end RecordFault

/-- The formats that a configuration can be written in. -/
inductive ConfigFormat where
  | json
  | yaml
  deriving DecidableEq, Repr

/-- The name of a format. -/
def ConfigFormat.name : ConfigFormat → String
  | .json => "JSON"
  | .yaml => "YAML"

/-- What went wrong, with everything that the message mentions. -/
inductive Cause where
  | invalidKind (kind : String)
  /-- An operand with the same identity is already there. -/
  | duplicateOperand
  | indexOutOfRange (index size : Nat)
  | malformedPattern (pattern : String) (fault : PatternFault)
  | malformedRecord (what : String) (fault : RecordFault)
  | unreadableConfiguration (format : ConfigFormat)
  | danglingReference (name space : String)
  | selfReference (name space : String)
  | cyclicReference (name space : String)
  | operandArity (kind expected : String) (found : Nat)
  | missingAttribute (kind key : String)
  | badAttributeValue (kind key value : String)
  | unknownNamespace (space : String)
  | notAPlaylist (name kind : String)
  | collectionNotFound (name space : String)
  | collectionExists (name space : String)
  | persistenceDisabled
  | unreadable (what store reason : String)
  | unwritable (what store reason : String)
  | notSupported (reason : String)
  | executionFailed (reason : String)
  | badConfiguration (setting reason : String)
  | unexpected (reason : String)
  /-- Another failure, known only by its kind and its words. -/
  | reported (kind : ErrorKind) (text : String)
  deriving DecidableEq, Repr

/-- The stored collection that an error is about. -/
structure Subject where
  name : String
  space : String
  deriving DecidableEq, Repr

namespace Cause

/-- The kind of a cause. -/
def kind : Cause → ErrorKind
  | invalidKind _ => .invalidKind
  | duplicateOperand => .duplicateOperand
  | indexOutOfRange _ _ => .indexOutOfRange
  | malformedPattern _ _ => .parse
  | malformedRecord _ _ => .malformedRecord
  | unreadableConfiguration _ => .parse
  | danglingReference _ _ => .danglingReference
  | selfReference _ _ => .selfReference
  | cyclicReference _ _ => .cyclicReference
  | operandArity _ _ _ => .operandArity
  | missingAttribute _ _ => .missingAttribute
  | badAttributeValue _ _ _ => .badAttributeValue
  | unknownNamespace _ => .unknownNamespace
  | notAPlaylist _ _ => .notAPlaylist
  | collectionNotFound _ _ => .collectionNotFound
  | collectionExists _ _ => .collectionExists
  | persistenceDisabled => .persistenceDisabled
  | unreadable _ _ _ => .read
  | unwritable _ _ _ => .write
  | notSupported _ => .notSupported
  | executionFailed _ => .execution
  | badConfiguration _ _ => .configuration
  | unexpected _ => .unexpected
  | reported kind _ => kind

/-- The message of a cause. -/
def message : Cause → String
  | invalidKind kind => "Invalid collection kind '" ++ kind ++ "'"
  | duplicateOperand => "Operand already present"
  | indexOutOfRange index size =>
      "Index " ++ Text.writeNat index ++ " out of range (size " ++ Text.writeNat size ++ ")"
  | malformedPattern pattern fault => "Can't parse pattern '" ++ pattern ++ "': " ++ fault.text
  | malformedRecord what fault => "Malformed collection record " ++ what ++ ": " ++ fault.text
  | unreadableConfiguration format => "Failed to parse " ++ format.name ++ " configuration"
  | danglingReference name space =>
      "Referenced collection '" ++ space ++ "/" ++ name ++ "' does not exist"
  | selfReference name space => "Collection '" ++ space ++ "/" ++ name ++ "' references itself"
  | cyclicReference name space =>
      "Saving '" ++ space ++ "/" ++ name ++ "' would create a reference cycle"
  | operandArity kind expected found =>
      "Collection kind " ++ kind ++ " expects " ++ expected ++ " operand(s), found " ++
        Text.writeNat found
  | missingAttribute kind key =>
      "Collection kind " ++ kind ++ " requires attribute '" ++ key ++ "'"
  | badAttributeValue kind key value =>
      "Invalid value '" ++ value ++ "' of attribute '" ++ key ++ "' in collection kind " ++
        kind
  | unknownNamespace space => "Unknown collection namespace '" ++ space ++ "'"
  | notAPlaylist name kind =>
      "Only idlist, queue or party shuffle can be saved as playlist '" ++ name ++ "' (got " ++
        kind ++ ")"
  | collectionNotFound name space => "No such collection '" ++ space ++ "/" ++ name ++ "'"
  | collectionExists name space => "Collection '" ++ space ++ "/" ++ name ++ "' already exists"
  | persistenceDisabled => "Collection persistence is disabled after a failed restore"
  | unreadable what store reason => "'" ++ what ++ "' read error by " ++ store ++ ": " ++ reason
  | unwritable what store reason => "'" ++ what ++ "' write error by " ++ store ++ ": " ++ reason
  | notSupported reason => reason
  | executionFailed reason => reason
  | badConfiguration setting reason =>
      "Invalid configuration of " ++ setting ++ ": " ++ reason
  | unexpected reason => reason
  | reported _ text => text

/-- The collection that a cause names as the one it is about. -/
def subject? : Cause → Option Subject
  | danglingReference name space => some ⟨name, space⟩
  | selfReference name space => some ⟨name, space⟩
  | cyclicReference name space => some ⟨name, space⟩
  | notAPlaylist name _ => some ⟨name, "Playlists"⟩
  | collectionNotFound name space => some ⟨name, space⟩
  | collectionExists name space => some ⟨name, space⟩
  | _ => none

end Cause

/-- A failure: its cause, where in a text it was found, and the collection it is about. -/
structure Error where
  cause : Cause
  position : Position := .unknown
  subject : Option Subject := cause.subject?
  deriving DecidableEq, Repr

namespace Error

/-- The kind of an error. -/
def kind (error : Error) : ErrorKind := error.cause.kind

/-- The message of an error, without its position. -/
def message (error : Error) : String := error.cause.message

/-- The error as a line of text: the message, and the position if it is known. -/
def render (error : Error) : String :=
  if error.position.isUnknown then error.message
  else error.message ++ " at " ++ error.position.render

/-- The same error found at a given place. -/
def withPosition (error : Error) (position : Position) : Error := { error with position }

/-- The same error about a given stored collection. -/
def about (error : Error) (name space : String) : Error :=
  { error with subject := some ⟨name, space⟩ }

/-- An error that passes on what another failure says. -/
def report (kind : ErrorKind) (text : String) : Error := { cause := .reported kind text }

@[simp] theorem kind_report (kind : ErrorKind) (text : String) : (report kind text).kind = kind :=
  rfl

@[simp] theorem message_report (kind : ErrorKind) (text : String) :
    (report kind text).message = text := rfl

end Error

/-- Fail with a cause: at an unknown position, about the collection that the cause names. -/
def fail {α : Type} (cause : Cause) : Except Error α := .error { cause }

end Medley
