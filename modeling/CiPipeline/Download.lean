import CiPipeline.Http.Status
import CiPipeline.Workspace

/-!
# Downloads

A file is requested up to four times: once more after each connection that does
not come about, and after each status that says to come back later.  The last
outcome decides.
-/

namespace CiPipeline

/-- Whether another request may have another outcome. -/
def RequestOutcome.isTransient : RequestOutcome → Bool
  | .unreachable => true
  | .broken => false
  | .answered status _ => Http.isTransient status

namespace Download

/-- The number of requests that may follow the first one. -/
def mostRetries : Nat := 3

def sendFailure (address : Url) : Failure :=
  .network s!"error sending request for url ({address.requestText})"

/-- What the last outcome comes to. -/
def settle (address : Url) : RequestOutcome → Except Failure ByteArray
  | .unreachable => .error (sendFailure address)
  | .broken => .error (sendFailure address)
  | .answered status body =>
      if Http.isSuccess status then
        match body with
        | some body => .ok body
        | none => .error (.network "error decoding response body")
      else .error
        (.remoteInclude address.text ("status " ++ Http.statusText status))

/-- Requests an address, and again a number of times while that may help. -/
def attempt (address : Url) : Nat → Action ByteArray
  | 0 => do MonadExcept.ofExcept (settle address (← Action.request address))
  | retries + 1 => do
      let outcome ← Action.request address
      if outcome.isTransient then attempt address retries
      else MonadExcept.ofExcept (settle address outcome)

/-- Requires that files can be requested from an address. -/
def check (address : Url) : Except Failure Unit :=
  if address.isWeb then .ok ()
  else .error (.network s!"builder error for url ({address.requestText})")

def run (address : Url) : Action ByteArray := do
  MonadExcept.ofExcept (check address)
  attempt address mostRetries

end Download

end CiPipeline
