import Helpdesk.Lib.Fallible
import Helpdesk.Lib.Runs
import Helpdesk.Core.Rules
import Helpdesk.Sla.Calendar
import Helpdesk.Sla.Shape
import Helpdesk.Sla.Overrun
import Helpdesk.Sla.Charges
import Helpdesk.Sla.Replay
import Helpdesk.Lib.Timeline
import Helpdesk.Sla.WorkingTime
import Helpdesk.Sla.Due
import Helpdesk.Python.Text
import Helpdesk.Python.Uuid
import Helpdesk.Core.Outbox
import Helpdesk.Python.JsonText
import Helpdesk.Tickets.Database
import Helpdesk.Tickets.Comments
import Helpdesk.Workflow.Approvals
import Helpdesk.Workflow.Service
import Helpdesk.Sla.Inputs
import Helpdesk.Tickets.Statements
import Helpdesk.Workflow.Runs
import Helpdesk.Tickets.Responses
import Helpdesk.Workflow.Transitions
import Helpdesk.Notifications.Database
import Helpdesk.Notifications.Rendering
import Helpdesk.Notifications.Worker
import Helpdesk.Notifications.Accounting
import Helpdesk.Knowledge.Chunking
import Helpdesk.Knowledge.Corpus
import Helpdesk.Knowledge.Processing
import Helpdesk.Knowledge.Persistence
import Helpdesk.Knowledge.Acquisition
import Helpdesk.Knowledge.Ingestion
import Helpdesk.Knowledge.Documents
import Helpdesk.Knowledge.World
import Helpdesk.Knowledge.Items
import Helpdesk.Knowledge.Stranding
import Helpdesk.Knowledge.Access
import Helpdesk.Knowledge.CorpusPublication
import Helpdesk.Knowledge.Retrieval
import Helpdesk.Knowledge.Suppression
import Helpdesk.Knowledge.Staleness
import Helpdesk.Routing.AbsentFields
import Helpdesk.Python.Decimal
import Helpdesk.Python.Isoformat
import Helpdesk.Tickets.Validation
import Helpdesk.Tickets.NormalForms
import Helpdesk.Tickets.Revalidation
import Helpdesk.Tickets.CustomValues
import Helpdesk.Lib.Sessions
import Helpdesk.Knowledge.CorpusHistory
import Helpdesk.Knowledge.Reverts
import Helpdesk.Sla.Progress
import Helpdesk.Knowledge.Administration
import Helpdesk.Knowledge.RefreshLifecycle
import Helpdesk.Ai.Gateway
import Helpdesk.Ai.RateLimit
import Helpdesk.Attachments.Finalization
import Helpdesk.Notifications.Leases
import Helpdesk.Attachments.Release
import Helpdesk.Knowledge.Originals
import Helpdesk.Attachments.Promotion
import Helpdesk.EmployeeAgent.Repository
import Helpdesk.EmployeeAgent.Stream
import Helpdesk.EmployeeAgent.World
import Helpdesk.EmployeeAgent.TicketWorkflow
import Helpdesk.EmployeeAgent.ActiveTurns
import Helpdesk.Sla.CalendarLaws
import Helpdesk.Lib.Ranking
import Helpdesk.Python.Arithmetic
import Helpdesk.Python.Dict
import Helpdesk.Retrieval.Fusion
import Helpdesk.Knowledge.PublicationCommands
import Helpdesk.Knowledge.Publishedness
import Helpdesk.Lib.Transactions
import Helpdesk.Lib.Balance
import Helpdesk.Routing.Assignment
import Helpdesk.Routing.RoundRobin
import Helpdesk.Admin.Access
import Helpdesk.Admin.LastAdministrator
import Helpdesk.Lib.Conditions
import Helpdesk.Queues.Filters
import Helpdesk.Queues.FilterLaws
import Helpdesk.Queues.Faithfulness
import Helpdesk.Python.Base64
import Helpdesk.Python.JsonLoads
import Helpdesk.Lib.Keyset
import Helpdesk.Tickets.Listing
import Helpdesk.Queues.Listing
import Helpdesk.Knowledge.Synonyms
import Helpdesk.Knowledge.SynonymRuns
import Helpdesk.Routing.Precedence
import Helpdesk.Sla.PauseStatuses
import Helpdesk.Routing.NumberFields
import Helpdesk.Python.DecimalContext
import Helpdesk.Python.DecimalTexts
import Helpdesk.Tickets.RequiredFields
import Helpdesk.Tickets.Numbers
import Helpdesk.Workflow.Reservation
import Helpdesk.Workflow.Ledger
import Helpdesk.Python.ClockChanges
import Helpdesk.Sla.AlwaysOpen
import Helpdesk.Sla.Sampling
import Helpdesk.Ai.Resilience
import Helpdesk.Ai.Circuit
import Helpdesk.Ai.ResilientCalls
import Helpdesk.Knowledge.ChunkWords
import Helpdesk.Knowledge.ChunkBounds
import Helpdesk.Knowledge.TableIsolation
import Helpdesk.Knowledge.Parsers
import Helpdesk.Knowledge.HeadingPaths
import Helpdesk.Core.RuleCallers
import Helpdesk.Python.JsonBytes
import Helpdesk.Queues.Cursors
import Helpdesk.Ai.FurtherPolicies
import Helpdesk.Retrieval.ExactFusion
import Helpdesk.Retrieval.Identifiers
import Helpdesk.Retrieval.Normalization
import Helpdesk.Retrieval.ErrorCodes
import Helpdesk.Lib.Websearch
import Helpdesk.Retrieval.Expansion
import Helpdesk.Identity.Oidc
import Helpdesk.Identity.SigningKeys
import Helpdesk.Identity.UnknownKeys
import Helpdesk.Lib.Scanning
import Helpdesk.Notifications.Substitution
import Helpdesk.EmployeeAgent.CitationMarkers
import Helpdesk.EmployeeAgent.Context
import Helpdesk.Sla.Boundaries
import Helpdesk.Lib.Regex
import Helpdesk.AnalystCopilot.Redaction
import Helpdesk.Knowledge.CleanTexts
import Helpdesk.Python.Csv
import Helpdesk.Knowledge.TableTexts
import Helpdesk.Lib.Forest
import Helpdesk.Knowledge.HtmlPages
