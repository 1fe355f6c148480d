/-!
# Result codes

Every call of an engine ends with a result code, a 32-bit number of which zero alone means success.
`ResultCode` is the closed set of known codes; engines may answer with others as well.
-/

namespace MathProgram

/-- The known result codes. -/
inductive ResultCode where
  | okay
  | error
  | noMemory
  | invalidLicense
  | homeEnvNotFound
  | libFolderNotFound
  | ioError
  | fileReadError
  | fileWriteError
  | directoryError
  | formatError
  | versionError
  | remoteInvalidToken
  | remoteConnectionError
  | modelInputError
  | modelEmpty
  | modelInvalidRowIdx
  | modelInvalidColIdx
  | modelInvalidRowName
  | modelInvalidColName
  | modelInvalidStrAttr
  | modelInvalidIntAttr
  | modelInvalidRealAttr
  | noSoln
  | noRay
  | noStatistics
  | invalidBasisStatus
  | paramSetError
  | paramGetError
  | abortIterationLimit
  | abortTimeLimit
  | abortCtrlC
  | abortNodeLimit
  | abortStallingNodeLimit
  | abortInvalidMethod
  | abortSolverNotAvailable
  | simplexNumeric
  | interiorNumeric
  deriving DecidableEq, Repr

namespace ResultCode

/-- The number of a code. -/
def code : ResultCode → Int32
  | okay => 0
  | error => -1
  | noMemory => -2
  | invalidLicense => -10
  | homeEnvNotFound => -11
  | libFolderNotFound => -12
  | ioError => -1000
  | fileReadError => -1001
  | fileWriteError => -1002
  | directoryError => -1003
  | formatError => -1100
  | versionError => -1101
  | remoteInvalidToken => -1200
  | remoteConnectionError => -1201
  | modelInputError => -2000
  | modelEmpty => -2001
  | modelInvalidRowIdx => -2002
  | modelInvalidColIdx => -2003
  | modelInvalidRowName => -2004
  | modelInvalidColName => -2005
  | modelInvalidStrAttr => -2010
  | modelInvalidIntAttr => -2011
  | modelInvalidRealAttr => -2012
  | noSoln => -3000
  | noRay => -3001
  | noStatistics => -3002
  | invalidBasisStatus => -3003
  | paramSetError => -4000
  | paramGetError => -4001
  | abortIterationLimit => -9000
  | abortTimeLimit => -9001
  | abortCtrlC => -9002
  | abortNodeLimit => -9003
  | abortStallingNodeLimit => -9004
  | abortInvalidMethod => -9011
  | abortSolverNotAvailable => -9012
  | simplexNumeric => -10000
  | interiorNumeric => -20000

/-- The canonical name of a code. -/
def name : ResultCode → String
  | okay => "MDO_OKAY"
  | error => "MDO_ERROR"
  | noMemory => "MDO_NOMEMORY"
  | invalidLicense => "MDO_INVALID_LICENSE"
  | homeEnvNotFound => "MDO_HOME_ENV_NOT_FOUND"
  | libFolderNotFound => "MDO_LIB_FOLDER_NOT_FOUND"
  | ioError => "MDO_IO_ERROR"
  | fileReadError => "MDO_FILE_READ_ERROR"
  | fileWriteError => "MDO_FILE_WRITE_ERROR"
  | directoryError => "MDO_DIRECTORY_ERROR"
  | formatError => "MDO_FORMAT_ERROR"
  | versionError => "MDO_VERSION_ERROR"
  | remoteInvalidToken => "MDO_REMOTE_INVALID_TOKEN"
  | remoteConnectionError => "MDO_REMOTE_CONNECTION_ERROR"
  | modelInputError => "MDO_MODEL_INPUT_ERROR"
  | modelEmpty => "MDO_MODEL_EMPTY"
  | modelInvalidRowIdx => "MDO_MODEL_INVALID_ROW_IDX"
  | modelInvalidColIdx => "MDO_MODEL_INVALID_COL_IDX"
  | modelInvalidRowName => "MDO_MODEL_INVALID_ROW_NAME"
  | modelInvalidColName => "MDO_MODEL_INVALID_COL_NAME"
  | modelInvalidStrAttr => "MDO_MODEL_INVALID_STR_ATTR"
  | modelInvalidIntAttr => "MDO_MODEL_INVALID_INT_ATTR"
  | modelInvalidRealAttr => "MDO_MODEL_INVALID_REAL_ATTR"
  | noSoln => "MDO_NO_SOLN"
  | noRay => "MDO_NO_RAY"
  | noStatistics => "MDO_NO_STATISTICS"
  | invalidBasisStatus => "MDO_INVALID_BASIS_STATUS"
  | paramSetError => "MDO_PARAM_SET_ERROR"
  | paramGetError => "MDO_PARAM_GET_ERROR"
  | abortIterationLimit => "MDO_ABORT_ITERATION_LIMIT"
  | abortTimeLimit => "MDO_ABORT_TIME_LIMIT"
  | abortCtrlC => "MDO_ABORT_CTRL_C"
  | abortNodeLimit => "MDO_ABORT_NODE_LIMIT"
  | abortStallingNodeLimit => "MDO_ABORT_STALLING_NODE_LIMIT"
  | abortInvalidMethod => "MDO_ABORT_INVALID_METHOD"
  | abortSolverNotAvailable => "MDO_ABORT_SOLVER_NOT_AVAILABLE"
  | simplexNumeric => "MDO_SIMPLEX_NUMERIC"
  | interiorNumeric => "MDO_INTERIOR_NUMERIC"

/-- What a code says. -/
def description : ResultCode → String
  | okay => "Nothing wrong"
  | error => "Unspecified internal error"
  | noMemory => "Insufficient memory"
  | invalidLicense => "License is not valid"
  | homeEnvNotFound => "Home environment variable not found"
  | libFolderNotFound => "Library folder not found"
  | ioError => "General IO error"
  | fileReadError => "Failed to read data from file"
  | fileWriteError => "Failed to write data to file"
  | directoryError => "Invalid directory"
  | formatError => "Failed to parse the file"
  | versionError => "Incompatible file version"
  | remoteInvalidToken => "The remote access token is not valid"
  | remoteConnectionError => "Failed to connect to the remote server"
  | modelInputError => "Failed to input or load a model"
  | modelEmpty => "Model is empty"
  | modelInvalidRowIdx => "Row index is not valid"
  | modelInvalidColIdx => "Column index is not valid"
  | modelInvalidRowName => "Row name is not valid"
  | modelInvalidColName => "Column name is not valid"
  | modelInvalidStrAttr => "A string attribute was not recognized"
  | modelInvalidIntAttr => "An integer attribute was not recognized"
  | modelInvalidRealAttr => "A real attribute was not recognized"
  | noSoln => "Solution is not available"
  | noRay => "Unbounded ray is not available"
  | noStatistics => "Solver statistics are not available"
  | invalidBasisStatus => "Unrecognized basis status"
  | paramSetError => "Failed to change a parameter value"
  | paramGetError => "Failed to retrieve a parameter value"
  | abortIterationLimit => "Iteration limit was reached"
  | abortTimeLimit => "Time limit was reached"
  | abortCtrlC => "Interrupted by Control-C"
  | abortNodeLimit => "Node limit was reached"
  | abortStallingNodeLimit => "Stalling node limit was reached"
  | abortInvalidMethod => "Selected optimization method is not supported"
  | abortSolverNotAvailable => "Optimization solver is not available for the input model"
  | simplexNumeric => "Numerical difficulties in the simplex algorithm"
  | interiorNumeric => "Numerical difficulties in the interior point algorithm"

/-- All known codes. -/
def all : List ResultCode :=
  [okay, error, noMemory, invalidLicense, homeEnvNotFound, libFolderNotFound, ioError,
   fileReadError, fileWriteError, directoryError, formatError, versionError,
   remoteInvalidToken, remoteConnectionError, modelInputError, modelEmpty, modelInvalidRowIdx,
   modelInvalidColIdx, modelInvalidRowName, modelInvalidColName, modelInvalidStrAttr,
   modelInvalidIntAttr, modelInvalidRealAttr, noSoln, noRay, noStatistics, invalidBasisStatus,
   paramSetError, paramGetError, abortIterationLimit, abortTimeLimit, abortCtrlC,
   abortNodeLimit, abortStallingNodeLimit, abortInvalidMethod, abortSolverNotAvailable,
   simplexNumeric, interiorNumeric]

/-- The known code of a number. -/
def ofCode? (n : Int32) : Option ResultCode := all.find? fun r => r.code == n

/-- The code of success. -/
def isOk (r : ResultCode) : Bool := r == okay

/-- The text that explains a number, known or not. -/
def explain (n : Int32) : String :=
  match ofCode? n with
  | some r => r.description
  | none => "Unknown result code " ++ toString n.toInt

end ResultCode

end MathProgram
