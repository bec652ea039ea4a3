import BearerAuth.Main
import BearerAuth.Proofs.Token.Repadding
import BearerAuth.Proofs.Token.Strength
import BearerAuth.Proofs.Engine.Ending
import BearerAuth.Proofs.Engine.Decision
import BearerAuth.Proofs.Filter.Frozen
import BearerAuth.Proofs.Exclusion.Paths
import BearerAuth.Proofs.Key.Cache
import BearerAuth.Proofs.Filter.Freezing
import BearerAuth.Proofs.Filter.History
import BearerAuth.Proofs.Configuration.Attributes
import BearerAuth.Proofs.Filter.Reconfiguration
import BearerAuth.Proofs.Key.Origin
import BearerAuth.Proofs.Key.Requests
import BearerAuth.Proofs.Key.Discovery.Attempt
import BearerAuth.Proofs.Key.Discovery.Once
import BearerAuth.Proofs.Key.Discovery.Recovery
import BearerAuth.Proofs.Key.Discovery.Registry
import BearerAuth.Proofs.Key.Unnamed
import BearerAuth.Proofs.Token.Unnamed
import BearerAuth.Proofs.Exclusion.Filled
import BearerAuth.Proofs.Recency.Order
import BearerAuth.Proofs.Key.Retention
import BearerAuth.Proofs.Key.Loads
import BearerAuth.Proofs.Configuration.Once
import BearerAuth.Proofs.Key.Outage
import BearerAuth.Proofs.Key.Entries
import BearerAuth.Proofs.Challenge
import BearerAuth.Proofs.Engine.Precedence
import BearerAuth.Proofs.Key.LoadBalancer.Address
import BearerAuth.Proofs.Key.LoadBalancer.Known
import BearerAuth.Proofs.Key.Discovery.Address
import BearerAuth.Proofs.Configuration.Replacement
import BearerAuth.Proofs.Configuration.Ranking
import BearerAuth.Proofs.HeaderSource
import BearerAuth.Proofs.Configuration.Sources
import BearerAuth.Proofs.Configuration.Document
import BearerAuth.Proofs.Claims.Paths
import BearerAuth.Proofs.Claims.Roles
import BearerAuth.Proofs.Exclusion.Warnings
import BearerAuth.Proofs.Key.Secret
