import Phrasebook.Host.Memory
import Phrasebook.Main
import Phrasebook.Proofs.Generation.Agreement
import Phrasebook.Proofs.Session.Accounting
import Phrasebook.Proofs.Session.Coalescing
import Phrasebook.Proofs.Session.Disposal
import Phrasebook.Session.Scripted
import Phrasebook.Proofs.Host.Files
import Phrasebook.Proofs.Session.Answering
import Phrasebook.Proofs.Session.Attention
import Phrasebook.Proofs.Session.Freshness
import Phrasebook.Proofs.Session.Phases
import Phrasebook.Proofs.Session.Reconfiguration
import Phrasebook.Proofs.Session.Routine
import Phrasebook.Proofs.Session.Ruling
import Phrasebook.Proofs.Session.Stacking
import Phrasebook.Proofs.Session.Transparency
import Phrasebook.Proofs.Session.Atomicity
import Phrasebook.Proofs.Session.Editing
import Phrasebook.Proofs.Session.Notification
import Phrasebook.Proofs.Session.Tenure
import Phrasebook.Proofs.Generation.Layout
import Phrasebook.Proofs.Text.Placeholder
import Phrasebook.Proofs.Event.Stream
import Phrasebook.Proofs.Configuration.Options
import Phrasebook.Proofs.Configuration.Project
import Phrasebook.Proofs.Configuration.NormalForm
import Phrasebook.Proofs.Configuration.Validation
import Phrasebook.Proofs.Generation.Containment
import Phrasebook.Proofs.Generation.Interface
import Phrasebook.Proofs.Generation.Exactness
import Phrasebook.Proofs.Generation.Recovery
import Phrasebook.Proofs.Generation.Runtime
import Phrasebook.Proofs.Session.Recurrence
import Phrasebook.Proofs.Session.Ledger
import Phrasebook.Proofs.Respelling.Session
import Phrasebook.Proofs.Session.Convergence
import Phrasebook.Proofs.Json.Unique
import Phrasebook.Proofs.Configuration.Decoding
import Phrasebook.Proofs.Locale.Grammar
import Phrasebook.Proofs.Decimal.Rounding
import Phrasebook.Proofs.Decimal.Shortest
import Phrasebook.Proofs.Decimal.Notation
import Phrasebook.Proofs.Yaml.Distinct
import Phrasebook.Proofs.Yaml.Keys
import Phrasebook.Proofs.Locale.Reordering
import Phrasebook.Proofs.Locale.Counting
import Phrasebook.Proofs.Locale.Naming
import Phrasebook.Proofs.Configuration.Suggestion
import Phrasebook.Proofs.Configuration.Warning
import Phrasebook.Proofs.Generation.Evaluation
import Phrasebook.Proofs.Locale.Navigation
