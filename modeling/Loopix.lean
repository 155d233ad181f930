import Loopix.Go
import Loopix.Proto
import Loopix.Sphinx.Messages
import Loopix.Sphinx.Suite
import Loopix.Sphinx.ToySuite
import Loopix.Sphinx.KeySchedule
import Loopix.Sphinx.Header
import Loopix.Sphinx.Pack
import Loopix.Sphinx.Process
import Loopix.Sphinx.Route
import Loopix.Sphinx.Fillers
import Loopix.Provider.Wire
import Loopix.Provider.Inbox
import Loopix.Provider.Clients
import Loopix.Provider.Delivery
import Loopix.Provider.Server
import Loopix.Provider.Interleaving
import Loopix.Provider.Lifecycle
