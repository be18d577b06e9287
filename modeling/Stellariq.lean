import Stellariq.Kit.Exec
import Stellariq.Kit.Ledger
import Stellariq.Kit.Runs
import Stellariq.Kit.Storage
import Stellariq.Kit.Host
import Stellariq.Interfaces
import Stellariq.Router.Contract
import Stellariq.TestAdapter
import Stellariq.Router.Route
import Stellariq.Router.Settlement
import Stellariq.Router.Exact
import Stellariq.Router.Events
import Stellariq.Kit.Transactions
import Stellariq.Router.Transactions
import Stellariq.Router.Journal
import Stellariq.Router.Authority
import Stellariq.Router.Audit
import Stellariq.Router.Lifetimes
import Stellariq.Router.Split
import Stellariq.Donations.Contract
import Stellariq.Donations.Transactions
import Stellariq.Donations.Book
import Stellariq.Donations.Custody
import Stellariq.Donations.Frozen
import Stellariq.Donations.Records
import Stellariq.Donations.Events
import Stellariq.Donations.Authority
import Stellariq.Donations.Lifetimes
import Stellariq.Donations.Overflow
import Stellariq.Router.Rejects
import Stellariq.Kit.Relational
import Stellariq.Router.Dust
import Stellariq.Router.Rates
import Stellariq.Kit.Rounding
import Stellariq.RateMath
import Stellariq.Router.Filters
import Stellariq.Donations.Order
import Stellariq.Kit.Statement
import Stellariq.Router.Statement
import Stellariq.Donations.Statement
import Stellariq.Network.Machine
import Stellariq.Network.Statement
import Stellariq.Network.Convert
import Stellariq.Kit.Leaves
import Stellariq.Router.Containment
import Stellariq.Router.Pause
import Stellariq.Donations.Replay
import Stellariq.Donations.Payments
import Stellariq.Kit.Prices
import Stellariq.Network.Wealth
import Stellariq.Network.Venues
import Stellariq.TestAdapter.Calls
import Stellariq.Router.Quote
import Stellariq.Network.Trading
import Stellariq.Kit.Guards
import Stellariq.Kit.Refinement
import Stellariq.Donations.Desk
import Stellariq.Router.Office
import Stellariq.Donations.Figures
import Stellariq.Donations.Views
import Stellariq.Kit.Chronicle
import Stellariq.Example
import Stellariq.Network.Reference
