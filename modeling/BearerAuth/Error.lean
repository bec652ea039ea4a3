namespace BearerAuth

/-- Why there is no usable key for a token. -/
inductive KeyError where
  | missingKeyId
  | keyNotFound (kid uri : String)
  | fetch (uri reason : String)
  | invalidDocument (uri reason : String)
  | invalidKey (reason : String)
  | weakKey (bits required : Nat)
  | unsupportedScheme (uri : String)
  | discovery (reason : String)
  | configuration (reason : String)
deriving DecidableEq, Repr

def KeyError.message : KeyError → String
  | .missingKeyId => "JWS fails to declare a valid kid header"
  | .keyNotFound kid uri => s!"Key ID '{kid}' not present in JWKS at URI {uri}"
  | .fetch uri reason => s!"Failed to retrieve keys from {uri}: {reason}"
  | .invalidDocument uri reason => s!"Invalid key document at {uri}: {reason}"
  | .invalidKey reason => reason
  | .weakKey bits required =>
    s!"The verification key's size is {bits} bits which is not secure enough for the algorithm, " ++
      s!"at least {required} bits are required"
  | .unsupportedScheme uri =>
    s!"Unsupported JWKS URI '{uri}', only http, https and file URIs are supported"
  | .discovery reason =>
    "Unable to resolve JWKS URL via OpenID Connect configuration discovery: " ++ reason
  | .configuration reason => reason

/-- Why a token is not accepted. -/
inductive VerificationError where
  | key (e : KeyError)
  | signature (m : String)
  | malformed (m : String)
  | unsupported (m : String)
  | expired (m : String)
  | premature (m : String)
  | invalidClaim (m : String)
  | other (m : String)
deriving DecidableEq, Repr

def VerificationError.message : VerificationError → String
  | .key e => "key error: " ++ e.message
  | .signature m => "signature error: " ++ m
  | .malformed m => "malformed token: " ++ m
  | .unsupported m => "unsupported token: " ++ m
  | .expired m => "expired token: " ++ m
  | .premature m => "premature token: " ++ m
  | .invalidClaim m => "invalid claim: " ++ m
  | .other m => "verification failed: " ++ m

def VerificationError.cause? : VerificationError → Option KeyError
  | .key e => some e
  | _ => none

/-- Why a deployment cannot run. -/
inductive ConfigurationError where
  | invalidExclusion (pattern reason : String)
  | invalidHeaderSource (reason : String)
  | invalidParameter (name reason : String)
  | missingVerifier
  | missingEngine
  | key (e : KeyError)
deriving DecidableEq, Repr

def ConfigurationError.message : ConfigurationError → String
  | .invalidExclusion pattern reason => s!"Invalid path exclusion '{pattern}': {reason}"
  | .invalidHeaderSource reason => s!"Invalid header source: {reason}"
  | .invalidParameter name reason => s!"Invalid value for parameter {name}: {reason}"
  | .missingVerifier => "JWT authentication configuration does not provide a JWT verifier"
  | .missingEngine =>
    "JWT authentication configuration does not provide an authentication engine"
  | .key e => "Failed to load verification key: " ++ e.message

def ConfigurationError.cause? : ConfigurationError → Option KeyError
  | .key e => some e
  | _ => none

/-- Why a request could not be filtered at all. -/
inductive FilterError where
  | configuration (e : ConfigurationError)
  | unexpected (text : String)
deriving DecidableEq, Repr

def FilterError.message : FilterError → String
  | .configuration e => "JWT authentication misconfigured: " ++ e.message
  | .unexpected text => "JWT authentication failed unexpectedly: " ++ text

def FilterError.cause : FilterError → String
  | .configuration e => e.message
  | .unexpected text => text

/-- The messages of a filter error and of the errors behind it, outermost first. -/
def FilterError.chain : FilterError → List String
  | .configuration e =>
    [(FilterError.configuration e).message, e.message] ++ (e.cause?.map KeyError.message).toList
  | .unexpected text => [(FilterError.unexpected text).message, text]

end BearerAuth
