namespace BearerAuth

/-- How grave an event is. -/
inductive Level where
  | error
  | warn
  | info
  | debug
  | trace
deriving DecidableEq, Repr

namespace Level

/-- The gravity of a level: a log of a level holds all events of no greater rank. -/
def rank : Level → Nat
  | .error => 1
  | .warn => 2
  | .info => 3
  | .debug => 4
  | .trace => 5

def name : Level → String
  | .error => "ERROR"
  | .warn => "WARN"
  | .info => "INFO"
  | .debug => "DEBUG"
  | .trace => "TRACE"

end Level

/-- The areas of the library that report events. -/
inductive Area where
  | binding
  | engine
  | exclusion
  | filter
  | discovery
  | loadBalancer
  | parameters
  | providers
  | factories
  | automated
  | frozen
deriving DecidableEq, Repr

/-- The name under which the events of an area are selected. -/
def Area.target : Area → String
  | .binding => "jwt_auth_filter::binding"
  | .engine => "jwt_auth_filter::engine"
  | .exclusion => "jwt_auth_filter::exclusion"
  | .filter => "jwt_auth_filter::filter"
  | .discovery => "jwt_auth_filter::keys::oidc"
  | .loadBalancer => "jwt_auth_filter::keys::elb"
  | .parameters => "jwt_auth_filter::config::params"
  | .providers => "jwt_auth_filter::config::providers"
  | .factories => "jwt_auth_filter::config::factories"
  | .automated => "jwt_auth_filter::config::automated"
  | .frozen => "jwt_auth_filter::config::frozen"

/-- An event with its message and its other fields. -/
structure Event where
  level : Level
  area : Area
  message : String
  fields : List (String × String) := []
deriving DecidableEq, Repr

end BearerAuth
