import JackScopes.Fault
import JackScopes.Kind
import JackScopes.Entry
import JackScopes.Category
import JackScopes.Table
import JackScopes.Session
import JackScopes.Text.Letters
import JackScopes.Text.Blank
import JackScopes.Text.Lines
import JackScopes.Text.Printable
import JackScopes.Text.Quoted
import JackScopes.Text.Place
import JackScopes.Log.Severity
import JackScopes.Log.Event
import JackScopes.Log.Logged
import JackScopes.Log.Sink
import JackScopes.Trace.Complaint
import JackScopes.Trace.Directive
import JackScopes.Trace.Report
import JackScopes.Trace.Replay
import JackScopes.Decimal.Binary64
import JackScopes.Decimal.Shortest
import JackScopes.Json.Misreading
import JackScopes.Json.Reader
import JackScopes.Json.Quoted
import JackScopes.Json.Numeral
import JackScopes.Json.Mismatch
import JackScopes.Settings.Basic
import JackScopes.Settings.Reading
import JackScopes.Settings.Text
import JackScopes.Directory
import JackScopes.Program
import JackScopes.Main
import JackScopes.Proofs.NameIndex
import JackScopes.Proofs.History
import JackScopes.Proofs.Addresses
import JackScopes.Proofs.Text.Words
import JackScopes.Proofs.Text.Lines
import JackScopes.Proofs.Trace.Grammar
import JackScopes.Proofs.Trace.Course
import JackScopes.Proofs.Trace.Meaning
import JackScopes.Proofs.Trace.Acceptance
import JackScopes.Proofs.Trace.Failure
import JackScopes.Proofs.Trace.UnknownNames
import JackScopes.Proofs.Trace.ClassBlocks
import JackScopes.Proofs.Trace.Addresses
import JackScopes.Proofs.Contents
import JackScopes.Proofs.Outcome
import JackScopes.Proofs.Trace.ReportText
import JackScopes.Proofs.EventLog
import JackScopes.Proofs.Overtaking
import JackScopes.Proofs.Text.Layout
import JackScopes.Proofs.Trace.Layout
import JackScopes.Proofs.Trace.Retelling
import JackScopes.Proofs.TableReading
import JackScopes.Proofs.Verbosity
import JackScopes.Proofs.Trace.EventLog
import JackScopes.Proofs.Json.Literal
import JackScopes.Proofs.Json.Tokens
import JackScopes.Proofs.Settings.Format
import JackScopes.Proofs.Renaming
import JackScopes.Proofs.Shadowing
import JackScopes.Proofs.Json.Locality
import JackScopes.Proofs.Settings.Threshold
import JackScopes.Proofs.Json.Strings
import JackScopes.Proofs.Json.Values
import JackScopes.Proofs.Settings.Refusal
import JackScopes.Proofs.FirstThreshold
import JackScopes.Proofs.Causes
