import PaymentLedger.Math.DecimalExact
import PaymentLedger.Math.Table
import PaymentLedger.Transaction.History
import PaymentLedger.Services.Replay
import PaymentLedger.Db.Effects
import PaymentLedger.Db.Drift
import PaymentLedger.Services.Runs
import PaymentLedger.Services.Serial
import PaymentLedger.Services.Deeds
import PaymentLedger.Services.Commits
import PaymentLedger.Ledger.Tables
import PaymentLedger.Ledger.Bookings
import PaymentLedger.Payments.Idempotency
import PaymentLedger.Payments.Lifecycle
import PaymentLedger.Ledger.Postings
import PaymentLedger.Payments.Outbox
import PaymentLedger.Reconciliation.Matching
import PaymentLedger.Ledger.ZeroSum
import PaymentLedger.Services.Retries
import PaymentLedger.Ledger.Conflicts
import PaymentLedger.Payments.Races
import PaymentLedger.Webhooks.Dispatch
import PaymentLedger.Webhooks.Delivery
import PaymentLedger.Webhooks.Progress
import PaymentLedger.Math.DecimalText
import PaymentLedger.Text.Xml
import PaymentLedger.Iso20022.Pain001
import PaymentLedger.Iso20022.Provenance
import PaymentLedger.Text.Csv
import PaymentLedger.Reconciliation.SettlementFile
import PaymentLedger.Payments.Requests
import PaymentLedger.Reconciliation.SelfReconciliation
import PaymentLedger.Api.Initiation
import PaymentLedger.Iso20022.Pacs008
import PaymentLedger.Payments.Amounts
import PaymentLedger.Services.Rules
import PaymentLedger.Ledger.Amounts
import PaymentLedger.Payments.Transitions
import PaymentLedger.Api.Transitions
import PaymentLedger.Fx.Conversion
import PaymentLedger.Reconciliation.RowOrder
import PaymentLedger.Math.Crc
import PaymentLedger.Qr.Sgqr
import PaymentLedger.Qr.Checksum
import PaymentLedger.Qr.Tlv
import PaymentLedger.Qr.Grammar
import PaymentLedger.Qr.Generation
import PaymentLedger.Iso20022.Comments
import PaymentLedger.Reconciliation.Reports
import PaymentLedger.Api.Reconciliation
import PaymentLedger.Reconciliation.Persistence
import PaymentLedger.Reconciliation.Rows
import PaymentLedger.Reconciliation.Uploads
import PaymentLedger.Payments.Initiations
import PaymentLedger.Api.Agreement
import PaymentLedger.Payments.Orphans
import PaymentLedger.Reconciliation.Windows
import PaymentLedger.Payments.Locking
import PaymentLedger.Transaction.Deadlocks
import PaymentLedger.Iso20022.Doctype
import PaymentLedger.Ledger.Exactness
import PaymentLedger.Payments.Deadlocks
import PaymentLedger.Services.Refinement
import PaymentLedger.Math.Machine
import PaymentLedger.Ledger.Bank
import PaymentLedger.Ledger.Linearization
import PaymentLedger.Ledger.Positions
import PaymentLedger.Webhooks.Workers
import PaymentLedger.Text.Json
import PaymentLedger.Payments.Bodies
import PaymentLedger.Ledger.Audit
import PaymentLedger.Fx.Pricing
import PaymentLedger.Webhooks.Scheduler
import PaymentLedger.Reconciliation.Differences
import PaymentLedger.Api.Accounts
import PaymentLedger.Webhooks.Subscriptions
import PaymentLedger.Webhooks.Composition
