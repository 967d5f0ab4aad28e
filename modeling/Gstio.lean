import Gstio.Word
import Gstio.Table
import Gstio.Objects
import Gstio.Average
import Gstio.Elastic
import Gstio.Store
import Gstio.Manager
import Gstio.Usage
import Gstio.Run
import Gstio.Frame
import Gstio.Commit
import Gstio.Totals
import Gstio.Limits
import Gstio.Gas
import Gstio.Block
import Gstio.Snapshot
import Gstio.Share
import Gstio.Verify
import Gstio.Symbol
import Gstio.SymbolText
import Gstio.Commute
import Gstio.GasUsage
import Gstio.Transaction
