import OrderedStore.Failure.Message
import OrderedStore.Log.Reader
import OrderedStore.Main
import OrderedStore.Proofs.Contents
import OrderedStore.Proofs.LogFrames
import OrderedStore.Proofs.Volume
import OrderedStore.Proofs.TableImage
import OrderedStore.Proofs.TableWriting
import OrderedStore.Proofs.Tables
import OrderedStore.Proofs.Memtable
import OrderedStore.Proofs.View
import OrderedStore.Proofs.Catalog
import OrderedStore.Proofs.Store
import OrderedStore.Proofs.StoreSteps
import OrderedStore.Proofs.Opening
import OrderedStore.Proofs.Readers
import OrderedStore.Proofs.Crash
import OrderedStore.Proofs.Encoding
import OrderedStore.Proofs.Cursors
import OrderedStore.Proofs.IndexKeys
import OrderedStore.Proofs.Postings
import OrderedStore.Proofs.Results
import OrderedStore.Proofs.Indexed
import OrderedStore.Proofs.Searches
import OrderedStore.Proofs.DatabaseSteps
import OrderedStore.Proofs.Tokens
import OrderedStore.Proofs.Filing
import OrderedStore.Proofs.FilingSteps
import OrderedStore.Proofs.Sweeping
import OrderedStore.Proofs.IndexRuns
import OrderedStore.Proofs.Written
import OrderedStore.Proofs.LogReading
import OrderedStore.Proofs.Appending
import OrderedStore.Proofs.CursorWalks
import OrderedStore.Proofs.LiveCursors
import OrderedStore.Proofs.Slates
import OrderedStore.Proofs.Listings
import OrderedStore.Proofs.Recounts
import OrderedStore.Proofs.SweepRuns
import OrderedStore.Proofs.Sessions
import OrderedStore.Proofs.Desks
import OrderedStore.Proofs.Tidiness
import OrderedStore.Proofs.Balance
import OrderedStore.Proofs.Bookkeeping
import OrderedStore.Proofs.Statistics
import OrderedStore.Proofs.Spoiling
import OrderedStore.Proofs.Reclaiming
import OrderedStore.Proofs.Checksum
import OrderedStore.Proofs.LogRecovery
import OrderedStore.Proofs.LogDamage
import OrderedStore.Proofs.TableChecks
import OrderedStore.Proofs.TableBuilding
import OrderedStore.Proofs.TableDamage
import OrderedStore.Proofs.LogEncoding
import OrderedStore.Proofs.Transactions
import OrderedStore.Proofs.Commits
import OrderedStore.Proofs.Restarts
import OrderedStore.Proofs.Realms
import OrderedStore.Proofs.Offices
import OrderedStore.Proofs.Browsing
import OrderedStore.Proofs.Counterparts
import OrderedStore.Proofs.Numbering
import OrderedStore.Proofs.Turns
import OrderedStore.Proofs.Neighbours
import OrderedStore.Proofs.KeyFields
import OrderedStore.Proofs.Words
import OrderedStore.Proofs.Terms
import OrderedStore.Proofs.ResultWalks
import OrderedStore.Proofs.Showing
import OrderedStore.Proofs.Highlights
import OrderedStore.Proofs.NewestTable
import OrderedStore.Proofs.Layers
import OrderedStore.Proofs.FlushedCursors
import OrderedStore.Proofs.SearchBox
import OrderedStore.Proofs.Versions
import OrderedStore.Proofs.PostingOrder
import OrderedStore.Proofs.EncodingOrder
import OrderedStore.Proofs.Varint
import OrderedStore.Proofs.PrefixScans
import OrderedStore.Proofs.Suggestions
import OrderedStore.Proofs.Discovery
import OrderedStore.Proofs.LogNumbers
import OrderedStore.Proofs.BackwardScans
