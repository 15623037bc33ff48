import StacksApi.P2p.Reparse
import StacksApi.Serializers.PostConditions
import StacksApi.Datastore.Order
import StacksApi.Datastore.Balance
import StacksApi.Datastore.Redelivery
import StacksApi.Datastore.Lasting
import StacksApi.Datastore.Acknowledged
import StacksApi.Datastore.Pruned
import StacksApi.Datastore.BalanceRead
import StacksApi.Client.Delivery
import StacksApi.Routes.FaucetLimit
import StacksApi.EventStream.MempoolRun
import StacksApi.EventStream.StoreCalls
import StacksApi.EventStream.Fees
import StacksApi.EventStream.Accepts
import StacksApi.EventStream.MempoolRange
import StacksApi.EventStream.ReadBack
import StacksApi.EventStream.Conserved
import StacksApi.EventStream.Shown
import StacksApi.EventStream.Listed
import StacksApi.EventStream.Rendered
import StacksApi.EventStream.MempoolList
import StacksApi.EventStream.PageByPage
import StacksApi.EventStream.AddressUpdates
import StacksApi.EventStream.Searched
import StacksApi.EventStream.Truncated
import StacksApi.Datastore.ReadBack
import StacksApi.Collections.ArraySort
import StacksApi.Collections.InsertionMap
import StacksApi.Datastore.MemoryStore
import StacksApi.Datastore.MemoryRun
import StacksApi.Datastore.ChainListings
import StacksApi.Relational.Paging
import StacksApi.Relational.Walk
import StacksApi.Relational.Ties
import StacksApi.Relational.Totals
import StacksApi.Datastore.AddressHistory
import StacksApi.Datastore.Stepwise
import StacksApi.Controllers.Stepwise
import StacksApi.Routes.Listings
import StacksApi.Routes.Walks
import StacksApi.Controllers.Snapshot
import StacksApi.Routes.Links
import StacksApi.Routes.TxStream
import StacksApi.EventStream.Acknowledged
import StacksApi.EventStream.Resent
import StacksApi.Routes.Search
import StacksApi.Datastore.Positions
import StacksApi.Datastore.PageByPage
import StacksApi.Datastore.MempoolList
import StacksApi.Datastore.Totals
import StacksApi.Datastore.Mirrored
import StacksApi.Datastore.ToldApart
import StacksApi.Datastore.Searches
import StacksApi.Datastore.OneChain
import StacksApi.Datastore.AddressUpdates
import StacksApi.Datastore.Search
import StacksApi.Routes.Topics
import StacksApi.Client.BalancePush
import StacksApi.Routes.Requests
import StacksApi.Routes.Replies
import StacksApi.Transition.Chunked
import StacksApi.P2p.Block
import StacksApi.P2p.Messages
import StacksApi.Transition.Reading
import StacksApi.Transition.Refinement
import StacksApi.Controllers.MempoolTx
import StacksApi.Routes.Statement
