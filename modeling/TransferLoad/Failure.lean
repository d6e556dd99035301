import TransferLoad.Text.Timespan
import TransferLoad.Text.Quoted

/-!
# What can go wrong

Every operation that can fail names its cause as a value of one of these types, and each type has one
function that words it.
-/

namespace TransferLoad

inductive IoError where
  | notFound
  | alreadyExists
  | notADirectory
  | isADirectory
  | noSpace
  | nameTooLong
  | zeroInName
  | notText
  | refused (text : String)
  deriving Repr, DecidableEq

def IoError.message : IoError → String
  | notFound => "No such file or directory (os error 2)"
  | alreadyExists => "File exists (os error 17)"
  | notADirectory => "Not a directory (os error 20)"
  | isADirectory => "Is a directory (os error 21)"
  | noSpace => "No space left on device (os error 28)"
  | nameTooLong => "File name too long (os error 36)"
  | zeroInName => "file name contained an unexpected NUL byte"
  | notText => "stream did not contain valid UTF-8"
  | refused text => text

/-- A configuration that could not be loaded. -/
inductive ConfigError where
  /-- A value of one kind where another was needed, with the setting and the source it came from. -/
  | mismatch (found expected : String) (key origin : Option String)
  | other (text : String)
  | source (text : String)
  | missing (key : String)
  | frozen
  | unreadableFile
  | unreadablePath
  deriving Repr, DecidableEq

def ConfigError.message : ConfigError → String
  | mismatch found expected key origin =>
    "invalid type: " ++ found ++ ", expected " ++ expected ++
      (match key with | some key => " for key `" ++ key ++ "`" | none => "") ++
      (match origin with | some origin => " in " ++ origin | none => "")
  | other text | source text => text
  | missing key => "configuration property " ++ Text.Quoted.text key ++ " not found"
  | frozen => "configuration is frozen"
  | unreadableFile => "configuration file could not be read"
  | unreadablePath => "configuration key could not be read"

inductive Failure where
  | invalidConfig (detail : String)
  | config (cause : ConfigError)
  | output (path : String) (cause : IoError)
  | io (cause : IoError)
  | invalidKey (detail : String)
  | invalidAddress (detail : String)
  | signing (detail : String)
  | http (detail : String)
  | rpc (status : Nat) (code message : String)
  | decode (detail : String)
  | funding (detail : String)
  | fundingTimeout (funded total waited : Nat)
  deriving Repr, DecidableEq

def Failure.message : Failure → String
  | invalidConfig detail => "Invalid configuration: " ++ detail
  | config cause => "Configuration error: " ++ cause.message
  | output path cause => "Cannot open output " ++ path ++ ": " ++ cause.message
  | io cause => "IO error: " ++ cause.message
  | invalidKey detail => "Invalid signing key: " ++ detail
  | invalidAddress detail => "Invalid address: " ++ detail
  | signing detail => "Signing failed: " ++ detail
  | http detail => "HTTP error: " ++ detail
  | rpc status code message =>
    "RPC error (status " ++ toString status ++ ", code " ++ code ++ "): " ++ message
  | decode detail => "Decode error: " ++ detail
  | funding detail => "Funding failed: " ++ detail
  | fundingTimeout funded total waited =>
    "Timed out waiting for funding (" ++ toString funded ++ "/" ++ toString total ++
      " funded after " ++ Text.Timespan.render waited ++ ")"

/-- The cause behind a failure, where it has one of its own. -/
def Failure.source? : Failure → Option String
  | config cause => some cause.message
  | output _ cause => some cause.message
  | io cause => some cause.message
  | _ => none

end TransferLoad
