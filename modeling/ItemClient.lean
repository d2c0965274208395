import ItemClient.Client
import ItemClient.Link.Script
import ItemClient.Main
import ItemClient.Models
import ItemClient.UnitOfWork.Commit
import ItemClient.UnitOfWork.Reading
import ItemClient.Proofs.Outcomes
import ItemClient.Proofs.Registration.BreadthFirst
import ItemClient.Proofs.Registration.Walk
import ItemClient.Proofs.Registration.Iterations
import ItemClient.Proofs.Commit.Turns
import ItemClient.Proofs.Registration.Closure
import ItemClient.Proofs.Registration.Refusal
import ItemClient.Proofs.Json.Equality
import ItemClient.Proofs.Json.Members
import ItemClient.Proofs.Record.Difference
import ItemClient.Proofs.Record.Row
import ItemClient.Proofs.Entity.Change
import ItemClient.Proofs.Commit.Prepare
import ItemClient.Proofs.Session.Belief
import ItemClient.Proofs.Session.Sweep
import ItemClient.Proofs.Session.Basic
import ItemClient.Proofs.Session.Script
import ItemClient.Proofs.Session.Snapshot
import ItemClient.Proofs.Session.Coherence
import ItemClient.Proofs.Session.InFlight
import ItemClient.Proofs.Commit.Resume
import ItemClient.Proofs.Session.Retry
import ItemClient.Proofs.Session.Notices
import ItemClient.Proofs.Session.Locality
import ItemClient.Proofs.Session.Clean
import ItemClient.Proofs.Session.Chronicle
import ItemClient.Proofs.Session.Reference
import ItemClient.Proofs.Record.Decoding
import ItemClient.Proofs.Record.Nodes
import ItemClient.Proofs.Entity.Stored
import ItemClient.Proofs.Entity.Layout
import ItemClient.Proofs.Commit.Frame
import ItemClient.Proofs.Session.Reading
import ItemClient.Proofs.Session.Address
import ItemClient.Proofs.Session.Assignment
import ItemClient.Proofs.Session.Completeness
import ItemClient.Proofs.Number.Rounding
import ItemClient.Proofs.Number.Conversion
import ItemClient.Proofs.Filter.Grammar
import ItemClient.Proofs.Filter.Lexemes
import ItemClient.Proofs.Filter.Scanning
import ItemClient.Proofs.Filter.Language
import ItemClient.Proofs.Filter.Longest
import ItemClient.Proofs.Filter.Spacing
import ItemClient.Proofs.Filter.Merge
import ItemClient.Proofs.Http.Percent
import ItemClient.Proofs.Http.Path
import ItemClient.Proofs.Http.Target
import ItemClient.Proofs.Entity.Patch
import ItemClient.Proofs.Link.Classification
import ItemClient.Proofs.Text.Digits
import ItemClient.Proofs.Text.Spellings
import ItemClient.Proofs.Json.Lexeme
import ItemClient.Proofs.Json.Text
import ItemClient.Proofs.Record.Scalar
import ItemClient.Proofs.Entity.Unfolding
import ItemClient.Proofs.Record.Text
import ItemClient.Proofs.Entity.Rereading
import ItemClient.Proofs.Filter.Strings
import ItemClient.Proofs.Session.FirstRow
import ItemClient.Proofs.Http.Unsent
import ItemClient.Proofs.Number.Shortest
import ItemClient.Proofs.Filter.Numerals
import ItemClient.Proofs.Filter.Folding
import ItemClient.Proofs.Http.Authorization
import ItemClient.Proofs.Query.Selectors
import ItemClient.Proofs.Session.Accessors
import ItemClient.Proofs.CommandLine.Listing
