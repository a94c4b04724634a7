import AccountingApi.ReadCommitted.Store
import AccountingApi.ReadCommitted.Table
import AccountingApi.ReadCommitted.Program
import AccountingApi.ReadCommitted.System
import AccountingApi.ReadCommitted.Logic
import AccountingApi.ReadCommitted.Soundness
import AccountingApi.ReadCommitted.Deadlock
import AccountingApi.Decimals.Rounding
import AccountingApi.Decimals.Sums
import AccountingApi.Decimals.Text
import AccountingApi.Numbering.Register
import AccountingApi.Money
import AccountingApi.MoneyText
import AccountingApi.Dates
import AccountingApi.Errors
import AccountingApi.Schema
import AccountingApi.Client
import AccountingApi.Company
import AccountingApi.Ledger.AssertBalanced
import AccountingApi.Tax
import AccountingApi.DocRef
import AccountingApi.Ledger.Periods
import AccountingApi.Ledger.Posting
import AccountingApi.Ledger.DocumentLifecycle
import AccountingApi.Ledger.Journal
import AccountingApi.Ledger.Balances
import AccountingApi.YearEndClose
import AccountingApi.Invoicing.Documents
import AccountingApi.Invoicing.Payments
import AccountingApi.Invoicing.JournalPreview
import AccountingApi.Api
import AccountingApi.Transactions
import AccountingApi.Changes.Pieces
import AccountingApi.Changes.Entries
import AccountingApi.Changes.Documents
import AccountingApi.Changes.Payments
import AccountingApi.Changes.YearEnds
import AccountingApi.Changes.MasterData
import AccountingApi.Protocol
import AccountingApi.Statements
import AccountingApi.FiscalPeriods
import AccountingApi.Conformance.Posting
import AccountingApi.Conformance.Journal
import AccountingApi.Conformance.Close
import AccountingApi.Conformance.Periods
import AccountingApi.Conformance.Documents
import AccountingApi.Conformance.Payments
import AccountingApi.Runs
import AccountingApi.LockOrder
import AccountingApi.Deadlocks
import AccountingApi.Postings
import AccountingApi.FiscalConsistency
import AccountingApi.Numbers
import AccountingApi.Lifecycle
import AccountingApi.PostedDocuments
import AccountingApi.Backing
import AccountingApi.Allocations
import AccountingApi.ReadCommitted.Update
import AccountingApi.Auth.Schema
import AccountingApi.Auth.RefreshTokens
import AccountingApi.Auth.Users
import AccountingApi.Auth.Api
import AccountingApi.Auth.Transactions
import AccountingApi.Auth.Conformance
import AccountingApi.Auth.LastAdmin
import AccountingApi.Auth.Passwords
import AccountingApi.ReadCommitted.Admission
import AccountingApi.ReadCommitted.Once
import AccountingApi.Auth.Guards
import AccountingApi.Auth.Calls
import AccountingApi.Auth.Appointments
import AccountingApi.Auth.TemporaryPasswords
import AccountingApi.Auth.Reinstatements
import AccountingApi.ReadCommitted.Traces
import AccountingApi.Succession.Lineage
import AccountingApi.Auth.Families
import AccountingApi.Auth.Sessions
import AccountingApi.Auth.Revocation
import AccountingApi.Transitions.System
import AccountingApi.Idempotency.Service
import AccountingApi.Idempotency.Server
import AccountingApi.Idempotency.Reservations
import AccountingApi.Idempotency.Executions
import AccountingApi.Idempotency.Isolation
import AccountingApi.Idempotency.Handlers
import AccountingApi.Cancellation.Chain
import AccountingApi.Reversals
import AccountingApi.ReadCommitted.Serial
import AccountingApi.ReadCommitted.Alone
import AccountingApi.ReadCommitted.Observations
import AccountingApi.ReadCommitted.UniqueIndex
import AccountingApi.ReadCommitted.Joins
import AccountingApi.Conformance.Commits
import AccountingApi.Closings
import AccountingApi.Ledger.Accounts
import AccountingApi.Conformance.Accounts
import AccountingApi.ChartOfAccounts
import AccountingApi.Settlements
import AccountingApi.Reporting.BalanceSheet
import AccountingApi.Reporting.IncomeStatement
import AccountingApi.Reporting.CashFlow
import AccountingApi.Reporting.GeneralLedger
import AccountingApi.Reporting.Aging
import AccountingApi.Subledgers
import AccountingApi.DoubleEntry
import AccountingApi.Movements
import AccountingApi.PostedAccounts
import AccountingApi.Segregation
import AccountingApi.IdempotentPostings
import AccountingApi.PostingAuthority
import AccountingApi.AccountTree
import AccountingApi.Books
import AccountingApi.Century
import AccountingApi.ClosedBooks
import AccountingApi.CashFlows
import AccountingApi.NetIncome
import AccountingApi.YearEnds
import AccountingApi.ClosingEntries
import AccountingApi.ClosedYears
import AccountingApi.YearEndRecords
import AccountingApi.YearMovements
import AccountingApi.Reopenings
import AccountingApi.Articulation
import AccountingApi.Sorting.Stable
import AccountingApi.Patterns.Like
import AccountingApi.Search
import AccountingApi.Paging.Pages
import AccountingApi.GeneralLedgers
import AccountingApi.Agings
import AccountingApi.DatedSubledgers
import AccountingApi.DocumentPartners
import AccountingApi.AgedSubledgers
import AccountingApi.TaxRounding
import AccountingApi.TaxTotals
import AccountingApi.TaxRearrangements
import AccountingApi.PostableDrafts
import AccountingApi.JournalPreviews
import AccountingApi.LineAmounts
import AccountingApi.ExactTotals
import AccountingApi.OpeningBalances
import AccountingApi.Audit
import AccountingApi.SoftDelete
import AccountingApi.Partners.Service
import AccountingApi.Partners.Roles
import AccountingApi.Listing.Paginated
import AccountingApi.Listing.Endpoints
import AccountingApi.Listings
