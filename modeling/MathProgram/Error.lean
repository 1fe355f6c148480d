import MathProgram.Code.Result
import MathProgram.Code.Status
import MathProgram.Handle

/-!
# Errors

Why a call on a model, an environment or an expression fails. An error of the engine carries the
engine's result code and its explanation; all other errors are found before anything is passed to
the engine. `Error.message` is the wording.
-/

namespace MathProgram

/-- The lists whose lengths are compared with another's. -/
inductive Counted where
  | upperBounds
  | lowerBounds
  | objectiveCoefficients
  | integralityFlags
  | names
  | columns
  | senses
  | rightHandSides
  | vars
  | secondVars
  | values
  | coefficients
  | coefficientsAndVariables
  | coefficientsAndFirstVariables
  | coefficientsAndSecondVariables
  | coefficientsAndConstraints
  | termRange
  deriving DecidableEq, Repr

/-- The word for a list in messages. -/
def Counted.word : Counted → String
  | upperBounds => "upper bounds"
  | lowerBounds => "lower bounds"
  | objectiveCoefficients => "objective coefficients"
  | integralityFlags => "integrality flags"
  | names => "names"
  | columns => "columns"
  | senses => "senses"
  | rightHandSides => "right hand sides"
  | vars => "variables"
  | secondVars => "second variables"
  | values => "values"
  | coefficients => "coefficients"
  | coefficientsAndVariables => "coefficients and variables"
  | coefficientsAndFirstVariables => "coefficients and first variables"
  | coefficientsAndSecondVariables => "coefficients and second variables"
  | coefficientsAndConstraints => "coefficients and constraints"
  | termRange => "term range"

/-- The types of the values of parameters and attributes. -/
inductive ValueType where
  | int
  | real
  | str
  deriving DecidableEq, Repr

namespace ValueType

/-- The values of a type. -/
abbrev Value : ValueType → Type
  | int => Int32
  | real => Float
  | str => String

/-- The words for a type, with their article. -/
def words : ValueType → String
  | int => "an integer"
  | real => "a real"
  | str => "a string"

/-- The name of a type in the names of operations. -/
def word : ValueType → String
  | int => "int"
  | real => "real"
  | str => "str"

end ValueType

/-- What is wrong with an argument. -/
inductive BadArgument where
  /-- Both sides of a constraint are constants. -/
  | constantSides
  /-- The end of a range of terms is no index. -/
  | termRangeOverflow (start len : Nat)
  /-- The end of a range of indexes is no index. -/
  | indexRangeOverflow (start len : Nat)
  /-- The engine reports an unknown membership in an infeasible subsystem. -/
  | iisFlag (flag : Int32) (kind : Kind) (index : Nat)
  /-- The engine reports an unknown job state. -/
  | jobState (word : String)
  /-- The engine reports a parameter value of another type. -/
  | paramType (name : String) (wanted : ValueType)
  /-- A file name is not UTF-8. -/
  | fileName (shown : String)
  deriving DecidableEq, Repr

/-- The wording of what is wrong with an argument. -/
def BadArgument.message : BadArgument → String
  | constantSides => "a constraint needs an expression on at least one side"
  | termRangeOverflow start len =>
    "term range " ++ toString start ++ "+" ++ toString len ++ " overflows"
  | indexRangeOverflow start len =>
    "index range " ++ toString start ++ "+" ++ toString len ++ " overflows"
  | iisFlag flag kind index =>
    let place := match kind with
      | .variable => "column"
      | .constraint => "row"
    "invalid IIS flag " ++ toString flag.toInt ++ " for " ++ place ++ " " ++ toString index
  | jobState word => JobState.unknownMessage word
  | paramType name wanted => "parameter " ++ name ++ " is not " ++ wanted.words ++ " parameter"
  | fileName shown => "file name is not valid UTF-8: " ++ shown

/-- Why a call fails. -/
inductive Error where
  /-- The engine answered with a result code other than success. -/
  | engine (code : Int32) (explanation : String)
  /-- Two lists that have to be of one length are not. -/
  | lengthMismatch (what : Counted) (expected got : Nat)
  | invalidArgument (cause : BadArgument)
  /-- A handle was issued by another model. -/
  | foreignHandle (kind : Kind) (index : Nat)
  /-- A handle was issued before the model's handles of that kind were renewed. -/
  | staleHandle (kind : Kind) (index : Nat)
  /-- The model or the environment has been freed. -/
  | freed
  /-- The environment has live models. -/
  | envInUse (live : Nat)
  /-- A file name contains a NUL character. -/
  | nul (text : String)
  /-- An index pointed outside the list it was meant for, and the call was abandoned there. -/
  | outOfRange
  deriving DecidableEq, Repr

namespace Error

/-- The wording of an error. -/
def message : Error → String
  | engine code explanation =>
    let name := match ResultCode.ofCode? code with
      | some r => r.name
      | none => "MDO_UNKNOWN_RESULT"
    "Error: " ++ toString code.toInt ++ ": " ++ name ++ ": " ++ explanation
  | lengthMismatch what expected got =>
    "Length mismatch for " ++ what.word ++ ": expected " ++ toString expected ++ ", got "
      ++ toString got
  | invalidArgument cause => "Invalid argument: " ++ cause.message
  | foreignHandle kind index =>
    "The " ++ kind.word ++ " with index " ++ toString index ++ " belongs to a different model"
  | staleHandle kind index =>
    "The " ++ kind.word ++ " with index " ++ toString index ++ " is stale"
  | freed => "Object has been freed"
  | envInUse live => "Environment is still in use by " ++ toString live ++ " model(s)"
  | nul text => "String contains NUL byte: " ++ text
  | outOfRange => ""

/-- The engine's result code, if the error came from the engine. -/
def code? : Error → Option Int32
  | engine code _ => some code
  | _ => none

/-- The engine's result code, if the error came from the engine and the code is known. -/
def resultCode? (e : Error) : Option ResultCode := e.code?.bind ResultCode.ofCode?

end Error

/-- One above the largest index: indexes have 64 bits. -/
def indexLimit : Nat := UInt64.size

/-- The end of the range of `len` indexes from `start` on, if it is an index. -/
def rangeEnd? (start len : Nat) : Option Nat :=
  if start + len < indexLimit then some (start + len) else none

/-- Checks that a list has the expected length. -/
def checkLength (what : Counted) (expected got : Nat) : Except Error Unit :=
  if expected = got then .ok () else .error (.lengthMismatch what expected got)

end MathProgram
