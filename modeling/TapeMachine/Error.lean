import TapeMachine.Operator
import TapeMachine.Text.Grouped
import TapeMachine.Text.Number
import TapeMachine.Text.Quoted

/-!
# Errors

An error is either a plain *condition*, or a report from outside (a stream, a file, a number that
cannot be read, a library), or it tells where another error, its cause, came up.  `Error.message` is the
one place where errors are put into words.

Two questions are asked of errors: whether a machine fault lies somewhere below (`isFault`), and
whether a text could not be read as what it should be (`isMalformed`).
-/

set_option autoImplicit false
namespace TapeMachine

/-- The conditions that are told by a fixed text. -/
inductive Condition where
  | noData
  | channelInvalid
  | bracketUnmatched
  | tickLimit
  | extendInvalid
  | inputClosed
  | inputFailed
  | outputFailed
  | programMissing
  | programType
  | repeatLimit
  | dataLengthNotPositive
  | extendNegative
  | tickLimitNegative
  | colorUnknown
  | formatUnknown
  deriving DecidableEq, Repr

def Condition.message : Condition → String
  | noData => "data region empty"
  | channelInvalid => "channel invalid"
  | bracketUnmatched => "bracket unmatched"
  | tickLimit => "tick limit reached"
  | extendInvalid => "extend level invalid"
  | inputClosed => "input closed"
  | inputFailed => "input failed"
  | outputFailed => "output failed"
  | programMissing => "program global missing"
  | programType => "program global must be a string or a list of strings"
  | repeatLimit => "repeat count out of range"
  | dataLengthNotPositive => "data length must be positive"
  | extendNegative => "extend level must not be negative"
  | tickLimitNegative => "tick limit must not be negative"
  | colorUnknown => "color must be auto, always or never"
  | formatUnknown => "unknown config file format"

/-- What was tried with a file. -/
inductive FileAction where
  | open
  | read
  deriving DecidableEq, Repr

def FileAction.name : FileAction → String
  | .open => "open"
  | .read => "read"

/-- Why a file was not to be had. -/
inductive FileFault where
  | missing
  | isDirectory
  | notDirectory
  | invalidName
  | nameTooLong
  deriving DecidableEq, Repr

def FileFault.message : FileFault → String
  | missing => "no such file or directory"
  | isDirectory => "is a directory"
  | notDirectory => "not a directory"
  | invalidName => "invalid argument"
  | nameTooLong => "file name too long"

/-- What a text should have been read as. -/
inductive Scalar where
  | integer
  | boolean
  deriving DecidableEq, Repr

/-- The reader that is named when a text is not a scalar. -/
def Scalar.reader : Scalar → String
  | integer => "strconv.Atoi"
  | boolean => "strconv.ParseBool"

/-- Everything that can go wrong. -/
inductive Error where
  | condition (c : Condition)
  /-- A stream failed, in words of its own. -/
  | stream (text : String)
  | file (action : FileAction) (path : String) (fault : FileFault)
  | scalar (kind : Scalar) (text : String) (fault : ScalarFault)
  /-- A library failed, in words of its own. -/
  | library (text : String)
  /-- A settings file or a script that cannot be read as one, or a text that is cut short. -/
  | malformed
  /-- A function that a script has called failed. -/
  | call (function : String) (cause : Error)
  /-- A script could not be carried out to its end. -/
  | evaluation (cause : Error)
  /-- The operator at `ip` failed. -/
  | fault (ip : Int) (op : Operator) (cause : Error)
  /-- A run stopped at a tick. -/
  | runtime (tick ip : Int) (cause : Error)
  /-- A program could not be loaded. -/
  | source (origin name : String) (cause : Error)
  /-- A settings file or variable could not be used. -/
  | settings (source : String) (cause : Error)
  /-- Several errors at once, in order. -/
  | joined (causes : List Error)
  deriving Repr, BEq

instance : Coe Condition Error :=
  ⟨.condition⟩

namespace Error

mutual

/-- What an error says. -/
def message : Error → String
  | condition c => c.message
  | stream text => text
  | file action path why => action.name ++ " " ++ path ++ ": " ++ why.message
  | scalar kind text why => kind.reader ++ ": parsing " ++ Text.quoted text ++ ": " ++ why.message
  | library text => text
  | malformed => "malformed text"
  | call function cause => function ++ ": " ++ cause.message
  | evaluation cause => cause.message
  | fault ip op cause => "ip " ++ Text.grouped ip ++ " '" ++ op.name ++ "' " ++ cause.message
  | runtime tick ip cause =>
    "tick " ++ Text.grouped tick ++ " ip " ++ Text.grouped ip ++ " " ++ cause.message
  | source origin name cause => origin ++ " " ++ name ++ ": " ++ cause.message
  | settings origin cause => origin ++ ": " ++ cause.message
  | joined causes => "\n".intercalate (messages causes)

/-- What each of several errors says. -/
def messages : List Error → List String
  | [] => []
  | e :: es => e.message :: messages es

end

mutual

/-- The error itself and all errors below it. -/
def chain : Error → List Error
  | call function cause => call function cause :: cause.chain
  | evaluation cause => evaluation cause :: cause.chain
  | fault ip op cause => fault ip op cause :: cause.chain
  | runtime tick ip cause => runtime tick ip cause :: cause.chain
  | source origin name cause => source origin name cause :: cause.chain
  | settings origin cause => settings origin cause :: cause.chain
  | joined causes => joined causes :: chains causes
  | e => [e]

/-- The chains of several errors, one after the other. -/
def chains : List Error → List Error
  | [] => []
  | e :: es => e.chain ++ chains es

end

/-- Whether an error is itself the fault of an operator. -/
def isOperatorFault : Error → Bool
  | fault _ _ _ => true
  | _ => false

/-- Whether a machine fault lies in the chain of an error. -/
def isFault (e : Error) : Bool :=
  e.chain.any isOperatorFault

/-- Whether an error comes from a text that could not be read. -/
def isMalformed (e : Error) : Bool :=
  e.chain.any fun
    | malformed => true
    | _ => false

/-- Whether `cause` lies in the chain of an error. -/
def isCausedBy (e cause : Error) : Bool :=
  e.chain.contains cause

/-- Joins errors in order; no errors are no error. -/
def join? : List Error → Option Error
  | [] => none
  | causes => some (joined causes)

end Error

end TapeMachine
