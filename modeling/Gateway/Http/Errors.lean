import Mathlib.Init

/-!
The error taxonomy, as far as the modelled parts of the gateway use it.

Every failure that leaves the gateway is a `GatewayError`; everything else that
can be thrown (a driver fault, a JSON syntax error) is told apart only by not
being one.
-/

namespace Gateway

inductive ErrorCode where
  | invalidApiKey
  | ipNotAllowed
  | insufficientPermissions
  | insufficientQuota
  | rateLimitExceeded
  | tpmLimitExceeded
  | concurrencyLimit
  | payloadTooLarge
  | invalidRequest
  | noChannelAvailable
  | upstreamError
  | upstreamTimeout
  | upstreamUnreachable
  | malformedUpstreamBody
  | ssrfBlocked
  | internalError
  | notFound
  | serviceUnavailable
  | configurationError
deriving DecidableEq, Repr

inductive ErrorKind where
  | invalidRequestError
  | authenticationError
  | permissionError
  | notFoundError
  | rateLimitError
  | insufficientQuota
  | apiError
  | overloadedError
deriving DecidableEq, Repr

structure GatewayError where
  code : ErrorCode
  status : Nat
  message : String
  kind : ErrorKind
  param : Option String
  retryable : Bool
  upstreamStatus : Option Nat
deriving DecidableEq, Repr

def kindForStatus (status : Nat) : ErrorKind :=
  if status = 401 then .authenticationError
  else if status = 403 then .permissionError
  else if status = 404 then .notFoundError
  else if status = 429 then .rateLimitError
  else if status = 402 then .insufficientQuota
  else if status ≥ 500 then .apiError
  else .invalidRequestError

/-- An error whose kind follows from its status. -/
def GatewayError.ofStatus (code : ErrorCode) (status : Nat) (message : String)
    (param : Option String) : GatewayError :=
  ⟨code, status, message, kindForStatus status, param, false, none⟩

def invalidRequest (message : String) : GatewayError :=
  .ofStatus .invalidRequest 400 message none

def invalidParam (message param : String) : GatewayError :=
  .ofStatus .invalidRequest 400 message (some param)

def unauthorized (message : String) : GatewayError :=
  .ofStatus .invalidApiKey 401 message none

def forbidden (message : String) : GatewayError :=
  .ofStatus .insufficientPermissions 403 message none

def notFound (message : String) : GatewayError :=
  .ofStatus .notFound 404 message none

def payloadTooLarge (message : String) : GatewayError :=
  .ofStatus .payloadTooLarge 413 message none

def ssrfBlocked (reason : String) : GatewayError :=
  .ofStatus .ssrfBlocked 403 ("upstream address rejected: " ++ reason) none

def insufficientQuota (message : String) : GatewayError :=
  ⟨.insufficientQuota, 402, message, .insufficientQuota, none, false, none⟩

def upstreamTimeout (message : String) : GatewayError :=
  .ofStatus .upstreamTimeout 504 message none

def malformedUpstreamBody (message : String) : GatewayError :=
  .ofStatus .malformedUpstreamBody 502 message none

def noChannelAvailable (model group : String) : GatewayError :=
  ⟨.noChannelAvailable, 503,
    "no channel is able to serve model \"" ++ model ++ "\" for group \"" ++ group ++ "\"",
    .overloadedError, none, false, none⟩

def configurationError (message : String) : GatewayError :=
  .ofStatus .configurationError 500 message none

/-- What an aborted request is reported as. -/
def clientClosed : GatewayError := .ofStatus .upstreamTimeout 499 "client closed the request" none

/-- The retry matrix: a status another channel might not answer with. -/
def isRetryableStatus (status : Nat) : Bool :=
  if 200 ≤ status ∧ status < 300 then false
  else if status = 400 ∨ status = 408 ∨ status = 504 ∨ status = 524 then false
  else if 100 ≤ status ∧ status < 200 then true
  else if 300 ≤ status ∧ status < 400 then true
  else if 401 ≤ status ∧ status ≤ 407 then true
  else if 409 ≤ status ∧ status < 500 then true
  else if 500 ≤ status ∧ status ≤ 503 then true
  else if 505 ≤ status ∧ status ≤ 523 then true
  else if 525 ≤ status ∧ status ≤ 599 then true
  else false

/-- What an awaited operation can throw. -/
inductive Thrown where
  | gateway (error : GatewayError)
  | fault
deriving DecidableEq, Repr

/-- `GatewayError.from`, as far as the request paths tell faults apart. -/
def gatewayErrorFrom : Thrown → GatewayError
  | .gateway error => error
  | .fault => .ofStatus .internalError 500 "internal server error" none

end Gateway
