import Phrasebook.Formatting.Formatter
import Phrasebook.Lock.Threads
import Phrasebook.Proofs.Dictionary.Containment
import Phrasebook.Proofs.Session.IdleLock
import Phrasebook.Session.Translators
import Phrasebook.Proofs.Session.Operation
import Phrasebook.Proofs.Session.Change
import Phrasebook.Proofs.Dictionary.Snapshot
import Phrasebook.Proofs.Dictionary.Circles
import Phrasebook.Proofs.Message.Reading
import Phrasebook.Proofs.Message.Resolving
import Phrasebook.Proofs.Interval.Writing
import Phrasebook.Proofs.Interval.Scanning
import Phrasebook.Proofs.Message.Writing
import Phrasebook.Proofs.Placeholder.Scan
import Phrasebook.Proofs.Placeholder.Discovery
import Phrasebook.Proofs.Placeholder.Filling
import Phrasebook.Proofs.Diagnostic.Clipping
import Phrasebook.Proofs.Message.Redaction
import Phrasebook.Proofs.Number.Range
import Phrasebook.Proofs.Message.Truncation
import Phrasebook.Proofs.Session.QuietFailure
import Phrasebook.Proofs.Session.Answering
import Phrasebook.Proofs.Session.Notices
import Phrasebook.Proofs.Session.Misses
import Phrasebook.Proofs.Message.Tiling
import Phrasebook.Proofs.Number.Exact
import Phrasebook.Proofs.Interval.Integers
import Phrasebook.Proofs.Dictionary.Locality
import Phrasebook.Proofs.Diagnostic.JsonLines
import Phrasebook.Proofs.Lock.Commands
import Phrasebook.Proofs.Session.Guarding
import Phrasebook.Proofs.Lock.Rules
import Phrasebook.Proofs.Interval.Lookahead
import Phrasebook.Proofs.Interval.Faults
import Phrasebook.Proofs.Message.BracketedWords
import Phrasebook.Proofs.Message.Recovering
import Phrasebook.Proofs.Message.Interleaving
import Phrasebook.Proofs.Placeholder.Positional
import Phrasebook.Proofs.Session.CountToken
import Phrasebook.Proofs.Interval.Spelling
import Phrasebook.Proofs.Message.Repeats
import Phrasebook.Proofs.Message.DeadClauses
import Phrasebook.Proofs.Plural.LastForm
import Phrasebook.Proofs.Plural.Endings
import Phrasebook.Proofs.Plural.Representation
import Phrasebook.Proofs.Dictionary.Asking
import Phrasebook.Proofs.Dictionary.Priority
import Phrasebook.Proofs.Dictionary.History
import Phrasebook.Proofs.Locale.Detection
import Phrasebook.Proofs.Locale.Code
import Phrasebook.Proofs.Plural.Territory
import Phrasebook.Proofs.Number.Numeral
import Phrasebook.Proofs.Number.Quotient
import Phrasebook.Proofs.Formatting.Money
import Phrasebook.Proofs.Formatting.Temporal
