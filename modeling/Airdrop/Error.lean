import Airdrop.Refusal
import Airdrop.Text.Quoted
import Airdrop.Value.Display

/-!
# Errors

Each family of errors lists its causes and writes one message per cause: `EncodingFault`, `ProofFault`, `ValueFault`,
`CanonicalFault`. `Error` joins them with refused documents, file errors and the kinds that carry no message.

* `Error.kind` : the name of an error's kind.
* `Error.message?` : its message, if its kind has one. An integer that is too long to be written leaves none.
* `Error.raised` : the error that is met when one is raised: its message is written first, and where that fails, the
  error is about the integer instead.
* `Error.text`, `Error.headline` : what a person is told about it, and its first line.
* `Error.isValueError`, `Error.isFileError`, `Error.isDistributionError` : the families that callers recover from.
-/

namespace Airdrop

open Radix (text integerText?)

/-- Why a claim link cannot be read. -/
inductive LinkFault where
  | missing (name : String)
  | badInteger (text : String)
  | tooLong (digits : Nat)
  | refused (refusal : Refusal)

/-- The message about a text that is no integer; a long quotation is cut. -/
def badIntegerMessage (text : String) : String :=
  "invalid literal for int() with base 10: " ++ String.ofList ((Text.quoted text.toList).take 200)

/-- How the messages about integers with too many digits begin and end. -/
def tooLongMessage (what : String) : String :=
  "Exceeds the limit (" ++ text Radix.maxDigits ++ " digits) for integer string conversion" ++ what ++
    "; use sys.set_int_max_str_digits() to increase the limit"

def tooLongTextMessage (digits : Nat) : String := tooLongMessage (": value has " ++ text digits ++ " digits")

/-- What follows the colon in the message about a link. A refusal has no short form. -/
def LinkFault.message : LinkFault → String
  | missing name => String.ofList (Text.quoted name.toList)
  | badInteger text => badIntegerMessage text
  | tooLong digits => tooLongTextMessage digits
  | refused _ => ""

/-- Why a claim record, a key or a list of records cannot be encoded. -/
inductive EncodingFault where
  | required (field : String)
  | notInteger (field : String)
  | doesNotFit (field : String) (bits : Nat) (n : Int)
  | notKeyBytes (field : String)
  | unknownVariant (typeName : String)
  | notBase58 (field : String)
  | notKeyText (field : String)
  | keyLength (field : String) (length : Nat)
  | tooManySeeds (number : Nat)
  | seedTooLong
  | noBump
  | pinRange (pin : Value)
  | leafLength (position length : Nat)
  | mixedKinds (position : Nat) (kind expected : String)
  | misplaced (position : Nat) (index : Int)
  | unknownIntegration (name : Value)
  | editionRequired (index : Value)
  | rowCount
  | noTarget
  | badLink (fault : LinkFault)
  | flagCount
  | rootNotBase58

/-- The message of an encoding error, unless an integer in it is too long. -/
def EncodingFault.message? : EncodingFault → Option String
  | required field => some (field ++ " is required")
  | notInteger field => some (field ++ " must be an integer")
  | doesNotFit field bits n =>
    (integerText? n).map fun n => field ++ " does not fit in " ++ text bits ++ " bits: " ++ n
  | notKeyBytes field => some (field ++ " must be 32 bytes")
  | unknownVariant typeName => some ("unknown leaf variant: " ++ typeName)
  | notBase58 field => some (field ++ " is not valid base58")
  | notKeyText field => some (field ++ " must be bytes or base58 text")
  | keyLength field length => some (field ++ " must be 32 bytes, got " ++ text length)
  | tooManySeeds number => some ("too many seeds: " ++ text number ++ " > 16")
  | seedTooLong => some "seed longer than 32 bytes"
  | noBump => some "unable to find a viable program address bump"
  | pinRange pin => pin.displayText?.map fun pin => "pin out of u32 range: " ++ pin
  | leafLength position length =>
    some ("leaf " ++ text position ++ " is " ++ text length ++ " bytes, expected 32")
  | mixedKinds position kind expected =>
    some ("record " ++ text position ++ " is a " ++ kind ++ " claim in a " ++ expected ++ " distribution")
  | misplaced position index =>
    (integerText? index).map fun index => "record at position " ++ text position ++ " carries index " ++ index
  | unknownIntegration name => name.displayText?.map fun name => "unknown claim integration: " ++ name
  | editionRequired index => index.displayText?.map fun index => "claim " ++ index ++ ": edition is required"
  | rowCount => some "claimant rows do not match the distribution size"
  | noTarget => some "claim url names no mint, config or master"
  | badLink (.refused _) => some "malformed claim url"
  | badLink fault => some ("malformed claim url: " ++ fault.message)
  | flagCount => some "one limited-edition flag is required per mint"
  | rootNotBase58 => some "root is not valid base58"

/-- Why a proof cannot describe a path. -/
inductive ProofFault where
  | leafWidth
  | rootWidth
  | entryWidth (position : Nat)
  | unreachable (length : Nat) (index : Int)
  | outside (index size : Int)
  | depthMismatch (length : Nat) (size : Int)
  | notBase58

/-- The message about an unusable proof, unless an integer in it is too long. -/
def ProofFault.message? : ProofFault → Option String
  | leafWidth => some "leaf hash must be 32 bytes"
  | rootWidth => some "root must be 32 bytes"
  | entryWidth position => some ("proof entry " ++ text position ++ " must be 32 bytes")
  | unreachable length index =>
    (integerText? index).map fun index => "proof of length " ++ text length ++ " cannot address index " ++ index
  | outside index size => do
    return "index " ++ (← integerText? index) ++ " outside tree of size " ++ (← integerText? size)
  | depthMismatch length size =>
    (integerText? size).map fun size => "proof length " ++ text length ++ " does not match tree of size " ++ size
  | notBase58 => some "proof entry is not valid base58"

inductive AuthorityFault where
  | unbalancedBrackets
  | badFutureForm
  | notNumeric (host : String)
  | bracketedIPv4
  | foldsToDelimiter (authority : String)

def AuthorityFault.message : AuthorityFault → String
  | unbalancedBrackets => "Invalid IPv6 URL"
  | badFutureForm => "IPvFuture address is invalid"
  | notNumeric host =>
    String.ofList (Text.quoted host.toList) ++ " does not appear to be an IPv4 or IPv6 address"
  | bracketedIPv4 => "An IPv4 address cannot be in brackets"
  | foldsToDelimiter authority =>
    "netloc '" ++ authority ++ "' contains invalid characters under NFKC normalization"

/-- Why a value is unusable where it stands. -/
inductive ValueFault where
  | unsupportedAlgorithm (name : Value)
  | badHex (position : Nat)
  | badBase64
  | badBase58
  | badInteger (text : String)
  | tooLongToRead (digits : Nat)
  | tooLongToWrite
  | notJson
  | keyWidth
  | seedWidth
  | unknownLevel (name : String)
  | badAuthority (fault : AuthorityFault)
  | nulInPath

/-- The message about an unusable value, unless an integer in it is too long. -/
def ValueFault.message? : ValueFault → Option String
  | unsupportedAlgorithm name => name.displayText?.map fun name => "unsupported hash algorithm: " ++ name
  | badHex position => some ("non-hexadecimal number found in fromhex() arg at position " ++ text position)
  | badBase64 => some "invalid base64"
  | badBase58 => some "invalid base58"
  | badInteger text => some (badIntegerMessage text)
  | tooLongToRead digits => some (tooLongTextMessage digits)
  | tooLongToWrite => some (tooLongMessage "")
  | notJson => some "Out of range float values are not JSON compliant"
  | keyWidth => some "The key must be exactly 32 bytes long"
  | seedWidth => some "The seed must be exactly 32 bytes long"
  | unknownLevel name => some ("Unknown level: " ++ String.ofList (Text.quoted ("Level " ++ name).toList))
  | badAuthority fault => some fault.message
  | nulInPath => some "embedded null byte"

/-- Why a value has no canonical text. -/
inductive CanonicalFault where
  | integer (n : Int)
  | float (x : Binary64)
  | bytes
  | torn

/-- The message about a value without canonical text, unless it is an integer that is too long. -/
def CanonicalFault.message? : CanonicalFault → Option String
  | integer n => (integerText? n).map fun n => n ++ " exceeds safe integer domain for JSON floats"
  | float x => some (String.ofList (Layout.general.text x) ++ " is not representable in JCS")
  | bytes => some "unsupported type: <class 'bytes'>"
  | torn => some "input contains non-UTF-8 codepoints"

inductive FileFault where
  | notFound
  | alreadyExists
  | notDirectory
  | isDirectory
  | nameTooLong
  deriving DecidableEq

/-- The kinds of errors that carry no message of their own. -/
inductive Plain where
  | typeMismatch
  | noAttribute
  | noKey
  | noItem
  | undecodable
  | unencodable
  | malformedText
  | tooDeep

/-- Everything that can go wrong. -/
inductive Error where
  | encoding (fault : EncodingFault)
  | duplicate (position earlier : Nat)
  | noLeaves
  | noRecords
  | indexRange (index : Int) (size : Nat)
  | proof (fault : ProofFault)
  | value (fault : ValueFault)
  | canonical (fault : CanonicalFault)
  | refused (refusal : Refusal)
  | file (fault : FileFault) (path : String)
  | unencodable (t : TornText)
  | plain (kind : Plain)

namespace FileFault

def number : FileFault → Nat
  | notFound => 2
  | alreadyExists => 17
  | notDirectory => 20
  | isDirectory => 21
  | nameTooLong => 36

def description : FileFault → String
  | notFound => "No such file or directory"
  | alreadyExists => "File exists"
  | notDirectory => "Not a directory"
  | isDirectory => "Is a directory"
  | nameTooLong => "File name too long"

def kind : FileFault → String
  | notFound => "FileNotFoundError"
  | alreadyExists => "FileExistsError"
  | notDirectory => "NotADirectoryError"
  | isDirectory => "IsADirectoryError"
  | nameTooLong => "OSError"

def message (fault : FileFault) (path : String) : String :=
  "[Errno " ++ text fault.number ++ "] " ++ fault.description ++ ": " ++ String.ofList (Text.quoted path.toList)

end FileFault

def Plain.kind : Plain → String
  | typeMismatch => "TypeError"
  | noAttribute => "AttributeError"
  | noKey => "KeyError"
  | noItem => "IndexError"
  | undecodable => "UnicodeDecodeError"
  | unencodable => "UnicodeEncodeError"
  | malformedText => "JSONDecodeError"
  | tooDeep => "RecursionError"

/-- What is told about a torn text that has to be encoded: where the first halves in it stand. -/
def TornText.refusal (t : TornText) : String :=
  let start := t.codes.findIdx CodePoint.isHalf
  let what := match (t.codes.drop start).takeWhile CodePoint.isHalf with
    | [c] => "character '" ++ String.ofList c.display ++ "' in position " ++ text start
    | run => "characters in position " ++ text start ++ "-" ++ text (start + run.length - 1)
  "'utf-8' codec can't encode " ++ what ++ ": surrogates not allowed"

namespace Error

def kind : Error → String
  | encoding _ => "EncodingError"
  | duplicate _ _ => "DuplicateClaimError"
  | noLeaves | noRecords => "EmptyTreeError"
  | indexRange _ _ => "IndexOutOfRangeError"
  | proof _ => "MalformedProofError"
  | value _ => "ValueError"
  | canonical (.integer _) => "IntegerDomainError"
  | canonical (.float _) => "FloatDomainError"
  | canonical .bytes | canonical .torn => "CanonicalizationError"
  | refused _ => "ValidationError"
  | file fault _ => fault.kind
  | unencodable _ => Plain.unencodable.kind
  | plain k => k.kind

/-- The message of an error, if its kind has one and no integer in it is too long. -/
def message? : Error → Option String
  | encoding fault => fault.message?
  | duplicate position earlier =>
    some ("record " ++ text position ++ " duplicates record " ++ text earlier)
  | noLeaves => some "no leaves"
  | noRecords => some "no claim records"
  | indexRange index size =>
    (integerText? index).map fun index => "index " ++ index ++ " out of range for tree of size " ++ text size
  | proof fault => fault.message?
  | value fault => fault.message?
  | canonical fault => fault.message?
  | refused _ | file _ _ | unencodable _ | plain _ => none

def hasMessage : Error → Bool
  | refused _ | file _ _ | unencodable _ | plain _ => false
  | _ => true

def raised (e : Error) : Error := if e.hasMessage && e.message?.isNone then value .tooLongToWrite else e

def text : Error → String
  | refused refusal => refusal.text
  | file fault path => fault.message path
  | e => e.message?.getD e.kind

def detail : Error → String
  | unencodable t => t.refusal
  | e => e.message?.getD ""

/-- The message of the error shows a torn text as it stands. -/
def showsTorn : Error → Bool
  | encoding (.unknownIntegration (.torn _)) | encoding (.editionRequired (.torn _)) => true
  | value (.unsupportedAlgorithm (.torn _)) => true
  | _ => false

/-- The first line of what a log tells about an error. -/
def headline : Error → String
  | refused refusal => refusal.headline
  | e => e.text

def isFileError : Error → Bool
  | file _ _ => true
  | _ => false

/-- The error says that a value is unusable; commands and the service report these instead of failing. -/
def isValueError : Error → Bool
  | file _ _ => false
  | plain k =>
    match k with
    | .undecodable | .unencodable | .malformedText => true
    | _ => false
  | _ => true

def isDistributionError : Error → Bool
  | encoding _ | duplicate _ _ | noLeaves | noRecords | indexRange _ _ | proof _ => true
  | _ => false

end Error

end Airdrop
