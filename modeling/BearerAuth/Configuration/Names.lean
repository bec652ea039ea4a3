namespace BearerAuth.ParameterName

def allowMultiple : String := "jwt.configs.allow-multiple"

/-- Whether the usual header is looked at besides the named ones. -/
def useDefaultHeaders : String := "jwt.headers.use-defaults"

def headerNames : String := "jwt.headers.names"

/-- The schemes in front of the token, by the positions of the headers. -/
def headerSchemes : String := "jwt.headers.prefixes"

def usernameClaims : String := "jwt.username.claims"

def rolesClaim : String := "jwt.roles.claim"

def realm : String := "jwt.realm"

def pathExclusions : String := "jwt.path-exclusions"

def secretKey : String := "jwt.secret.key"

def publicKey : String := "jwt.public.key"

def keyAlgorithm : String := "jwt.key.algorithm"

def keySetLocation : String := "jwt.jwks.url"

def cacheMinutes : String := "jwt.jwks.cache.minutes"

/-- The clock skew that is allowed for, in seconds. -/
def clockSkew : String := "jwt.allowed.clock.skew"

def providerAddress : String := "jwt.oidc.provider.url"

/-- The number of seconds between attempts to find a provider's keys. -/
def retryInterval : String := "jwt.oidc.retry.interval"

/-- The number of seconds after which a request for keys is given up. -/
def requestTimeout : String := "jwt.http.timeout.seconds"

def region : String := "jwt.aws.region"

def all : List String :=
  [allowMultiple, useDefaultHeaders, headerNames, headerSchemes, usernameClaims, rolesClaim, realm,
    pathExclusions, secretKey, publicKey, keyAlgorithm, keySetLocation, cacheMinutes, clockSkew,
    providerAddress, retryInterval, requestTimeout, region]

end BearerAuth.ParameterName
