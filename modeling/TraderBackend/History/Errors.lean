import TraderBackend.Lib.JsString

/-!
# Errors of the RPC node

`utils/errors.ts` of the history service: what an error says
(`formatErrorMessage`) and how the service reads it (`isRateLimitError`,
`isNoHistoricalStateError`).  An error is the record of the fields these
functions look at.
-/

namespace TraderBackend

open JsString

/-- An error as the RPC layer throws it: its message and the optional fields of
`RpcErrorShape`. -/
structure RpcError where
  /-- `error.message`, or the text of a thrown value that is no `Error`. -/
  message : String
  /-- `error.code`. -/
  code : Option String := none
  /-- `error.error.code`. -/
  errorCode : Option ℤ := none
  /-- `error.error.message`. -/
  errorMessage : Option String := none
  deriving DecidableEq, Repr

/-- `formatErrorMessage`. -/
def formatErrorMessage (error : RpcError) : String := error.message

/-- `isNoHistoricalStateError`. -/
def isNoHistoricalStateError (error : RpcError) : Bool :=
  let msg := formatErrorMessage error
  includes msg "historical state" && includes msg "is not available"

/-- `isRateLimitError`. -/
def isRateLimitError (error : RpcError) : Bool :=
  let msg := formatErrorMessage error
  if includes msg "rate limit" || includes msg "request limit" || includes msg "-32016" ||
      includes msg "-32007" || includes msg "429" then true
  else
    let code := error.errorCode
    if code = some (-32016) ∨ code = some (-32007) then true
    else if error.errorMessage.any fun m => includes m "rate limit" || includes m "request limit"
      then true
    else if error.code = some "UNKNOWN_ERROR" ∧ (code = some (-32016) ∨ code = some (-32007))
      then true
    else false

end TraderBackend
