import Delegation.Basic
import Delegation.Latest.NodeActivation
import Delegation.Latest.Endpoints
import Delegation.Latest.Lifecycle
import Delegation.Latest.Recovery
import Delegation.V04.NodeActivation
import Delegation.V04.Ledger
import Delegation.V04.Endpoints
import Delegation.V04.Callbacks
import Delegation.V04.Lifecycle
import Delegation.V04.Conservation
import Delegation.V04.NodeLifecycle
import Delegation.V04.Recovery
import Delegation.Alignment
import Delegation.RoundTrips
import Delegation.Funds.FundModule
import Delegation.Funds.FundTransfModule
import Delegation.Funds.Invariants
import Delegation.Funds.Store
import Delegation.Funds.RoundTrip
import Delegation.Upgrade
