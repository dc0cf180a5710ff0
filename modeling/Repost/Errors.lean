import Repost.GoText

namespace Repost
open GoText
set_option autoImplicit true

inductive ErrorCode where
  | configuration | closed | validation | serialization | requestTooLarge
  | dns | connect | proxy | tls | io | attemptTimeout | operationDeadline
  | cancelled | overloaded | rateLimited | httpRejected | serverFailure
  | responseTooLarge | responseProtocol | descriptorVersion
  deriving DecidableEq

inductive DeliveryState where
  | notSent | possiblySent | accepted | rejected | cancelledUnknown
  deriving DecidableEq

inductive FailureReason where
  | dnsNotFound | dnsTimeout | connectRefused | connectTimeout
  | connectionReset | connectionClosed | tlsUntrusted | tlsCertificateExpired
  | tlsCertificateNotYetValid | tlsHostnameMismatch | tlsNegotiation
  | proxyAuthRequired | proxyConnectFailed | unknown
  deriving DecidableEq

inductive CauseCategory where
  | apiKeyProvider | defaultGenerator | idempotencyGenerator | retryEntropy
  | proxyCredentialProvider | customTransport | httpRuntime | unknown
  deriving DecidableEq

inductive ValidationIssueCode where
  | required | nullNotAllowed | typeMismatch | nonFinite | invalidJSON
  | invalidUnicode | collectionLimit | cycle
  deriving DecidableEq

inductive ConfigurationIssueCode where
  | missing | conflict | invalidValue | outOfRange
  deriving DecidableEq

inductive ClientOptionKey where
  | apiKey | apiKeyProvider | scheduler | defaultValueGenerators
  | idempotencyKeyGenerator | monotonicClock | wallClock | retryEntropy
  deriving DecidableEq

structure ValidationIssue where
  code : ValidationIssueCode
  path : Bytes
  deriving DecidableEq

structure ConfigurationIssue where
  code : ConfigurationIssueCode
  optionKeys : List ClientOptionKey
  deriving DecidableEq

structure Evidence where
  httpStatus : Int := 0
  compressedBytes : Int := 0
  decompressedBytes : Int := 0
  responseHeaderFields : Nat := 0
  responseHeaderBytes : Nat := 0
  truncated : Bool := false
  deriving DecidableEq

/-- The error of an operation. Empty reasons and categories are `none`. -/
structure Error extends Evidence where
  code : ErrorCode
  deliveryState : DeliveryState
  retryable : Bool := false
  operationID : Bytes := []
  idempotencyKey : Bytes := []
  attemptCount : Nat := 0
  failureReason : Option FailureReason := none
  causeCategory : Option CauseCategory := none
  validationIssues : List ValidationIssue := []
  configurationIssues : List ConfigurationIssue := []
  issueCount : Nat := 0
  issuesTruncated : Bool := false
  deriving DecidableEq

def withResponseEvidence (terminal last : Error) : Error :=
  { terminal with toEvidence := last.toEvidence }

@[simp] theorem withResponseEvidence_deliveryState (terminal last : Error) :
    (withResponseEvidence terminal last).deliveryState = terminal.deliveryState := rfl

def deliveryForCommit (committed : Bool) : DeliveryState :=
  if committed then .possiblySent else .notSent

/-- What a cancelled or closed operation reports. -/
def deliveryForAbort (committed : Bool) : DeliveryState :=
  if committed then .cancelledUnknown else .notSent

def operationDeadlineError (committed : Bool) (attempts : Nat) (operationID key : Bytes) : Error :=
  { code := .operationDeadline, deliveryState := deliveryForCommit committed,
    operationID := operationID, idempotencyKey := key, attemptCount := attempts }

def abortError (code : ErrorCode) (committed : Bool) (attempts : Nat)
    (operationID key : Bytes) : Error :=
  { code := code, deliveryState := deliveryForAbort committed,
    operationID := operationID, idempotencyKey := key, attemptCount := attempts }

def hookConfigurationError (state : DeliveryState) (operationID key : Bytes) (attempts : Nat)
    (option : ClientOptionKey) (cause : Option CauseCategory) : Error :=
  { code := .configuration, deliveryState := state, operationID := operationID,
    idempotencyKey := key, attemptCount := attempts, causeCategory := cause, issueCount := 1,
    configurationIssues := [{ code := .invalidValue, optionKeys := [option] }] }

def configurationError (code : ConfigurationIssueCode) (keys : List ClientOptionKey) : Error :=
  { code := .configuration, deliveryState := .notSent, issueCount := 1,
    configurationIssues := [{ code := code, optionKeys := keys }] }

def cancelledError (state : DeliveryState) : Error :=
  { code := .cancelled, deliveryState := state }

def operationError (code : ErrorCode) : Error :=
  { code := code, deliveryState := .notSent }

/-- The states that do not claim that the server never acted on the request. -/
def DeliveryState.Open (d : DeliveryState) : Prop :=
  d = .possiblySent ∨ d = .cancelledUnknown

instance (d : DeliveryState) : Decidable d.Open := inferInstanceAs (Decidable (_ ∨ _))

theorem deliveryForCommit_open : (deliveryForCommit true).Open := .inl rfl

theorem deliveryForAbort_open : (deliveryForAbort true).Open := .inr rfl

end Repost
