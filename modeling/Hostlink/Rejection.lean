import Hostlink.HostError
import Hostlink.Request

/-!
# Rejections

A call is settled once: by a value, or by a `Rejection` that says why there is none.

* `Rejection.message` — the wording for a log;
* `Rejection.userMessage`, `Rejection.severity` — what a page shows, and how loudly.
-/

namespace Hostlink

/-- How loudly a rejection is shown. -/
inductive Severity where
  /-- The user wanted it so. -/
  | info
  /-- Worth another try. -/
  | warning
  | error
  /-- The host does not keep to the rules. -/
  | critical
  deriving DecidableEq, Repr

/-- The name of a severity. -/
def Severity.label : Severity → String
  | .info => "info"
  | .warning => "warning"
  | .error => "error"
  | .critical => "critical"

/-- Why a call has no value. -/
inductive Rejection where
  | timeout
  | canceled
  | host (error : HostError)
  | unknownResource (path : String)
  | malformed (reason : String)
  | encode (error : EncodeError)
  | transport (text : String)
  | superseded (name : String)
  | dismissed (name : String)
  | disconnected
  | noRuntime
  deriving DecidableEq, Repr

/-- A value, or why there is none. -/
abbrev Settlement := Except Rejection Json

namespace Rejection

/-- The wording of a rejection. -/
def message : Rejection → String
  | .timeout => "timeout"
  | .canceled => "canceled"
  | .host e => s!"host error: {e.display}"
  | .unknownResource path => s!"unknown resource: {path}"
  | .malformed reason => s!"malformed response: {reason}"
  | .encode e => s!"failed to encode request: {e.message}"
  | .transport text => s!"transport failed: {text}"
  | .superseded name => s!"pending handler '{name}' was superseded by a newer request"
  | .dismissed name => s!"'{name}' was dismissed without a value"
  | .disconnected => "bridge was dropped before the request settled"
  | .noRuntime => "no async runtime available to schedule the request timer"

/-- How loudly a rejection is shown. -/
def severity : Rejection → Severity
  | .timeout | .disconnected => .warning
  | .canceled | .superseded _ | .dismissed _ => .info
  | .host _ | .unknownResource _ | .encode _ | .transport _ => .error
  | .malformed _ | .noRuntime => .critical

/-- What a user is told. -/
def userMessage : Rejection → String
  | .timeout => "The application did not answer in time"
  | .canceled => "Request canceled"
  | .host e => e.message
  | .unknownResource path => s!"Unsupported request: {path}"
  | .malformed _ => "Unexpected response from the application"
  | .encode e => s!"Could not send request: {e.message}"
  | .transport text => s!"Could not reach the application: {text}"
  | .superseded _ => "Request replaced by a newer one"
  | .dismissed _ => "Nothing was selected"
  | .disconnected => "Connection to the application was lost"
  | .noRuntime => "Internal error: no async runtime"

/-- Does the page, and not the host, give the reason? -/
def isCancellation : Rejection → Bool
  | .canceled | .superseded _ | .dismissed _ => true
  | _ => false

end Rejection

namespace Settlement

/-- The value of a settlement, if it has one; a failure is only written to a log. -/
def value? : Settlement → Option Json
  | .ok v => some v
  | .error _ => none

end Settlement

end Hostlink
