import ModelGate.Api.ErrorCodes
import ModelGate.Api.Outcome
import ModelGate.CircuitBreaker.Admission
import ModelGate.CircuitBreaker.Probes
import ModelGate.CircuitBreaker.SlidingWindow
import ModelGate.CircuitBreaker.Tripping
import ModelGate.Config.Retry
import ModelGate.Governance.Blame
import ModelGate.Governance.NoLeak
import ModelGate.Idempotency.Expiry
import ModelGate.Metrics.Tokens
import ModelGate.Provider.Mock
import ModelGate.RateLimit.Forecast
import ModelGate.Routing.Failover
import ModelGate.Routing.Proportion
import ModelGate.Routing.RoundRobin
import ModelGate.Server.Gauge
import ModelGate.Service.Accounting
import ModelGate.Service.Ownership
import ModelGate.Service.Provenance
import ModelGate.Storage.Migrate
import ModelGate.Api.Engine
import ModelGate.Api.Serving
import ModelGate.Semantics.Finish
import ModelGate.Storage.Ledger
import ModelGate.Storage.Recording
import ModelGate.Config.Load
import ModelGate.Server.Run
import ModelGate.Server.Servers
import ModelGate.Idempotency.Lifetime
import ModelGate.Service.Timing
