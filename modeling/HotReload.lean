import HotReload.Assoc
import HotReload.CommandLine.Basic
import HotReload.CommandLine.Reader
import HotReload.Decimal.Shortest
import HotReload.Digest.Sha1
import HotReload.Disk
import HotReload.Endpoint
import HotReload.Fault
import HotReload.Graph.Basic
import HotReload.Graph.Rank
import HotReload.Graph.Search
import HotReload.Http.Form
import HotReload.Http.Handshake
import HotReload.Http.Request
import HotReload.Http.Response
import HotReload.Http.Server
import HotReload.Json.Basic
import HotReload.Json.Number
import HotReload.Json.Reader
import HotReload.Json.Typed
import HotReload.Main
import HotReload.Message
import HotReload.Module
import HotReload.Path
import HotReload.Project.Basic
import HotReload.Project.Locate
import HotReload.Project.Manifest
import HotReload.Project.Memory
import HotReload.Project.Offers
import HotReload.Project.Specifier
import HotReload.Proofs.Assoc
import HotReload.Proofs.Disk
import HotReload.Proofs.Graph.Alike
import HotReload.Proofs.Graph.Asking
import HotReload.Proofs.Graph.BreadthFirst
import HotReload.Proofs.Graph.Charts
import HotReload.Proofs.Graph.Coherent
import HotReload.Proofs.Graph.Discovery
import HotReload.Proofs.Graph.Heard
import HotReload.Proofs.Graph.Inverse
import HotReload.Proofs.Graph.Layers
import HotReload.Proofs.Graph.LeafFirst
import HotReload.Proofs.Graph.Lookup
import HotReload.Proofs.Graph.Rank
import HotReload.Proofs.Graph.SideBySide
import HotReload.Proofs.Graph.Visits
import HotReload.Proofs.Graph.WellFormed
import HotReload.Proofs.Http.Disclosure
import HotReload.Proofs.Http.Entry
import HotReload.Proofs.Http.Relay
import HotReload.Proofs.Path.Below
import HotReload.Proofs.Path.Clean
import HotReload.Proofs.Path.Pieces
import HotReload.Proofs.Project.FirstImports
import HotReload.Proofs.Project.Numbers
import HotReload.Proofs.Project.Requires
import HotReload.Proofs.Project.Rewriting
import HotReload.Proofs.Resolver.Layout
import HotReload.Proofs.Resolver.Look
import HotReload.Proofs.Resolver.Snapshot
import HotReload.Proofs.Resolver.Veil
import HotReload.Proofs.Service.Course
import HotReload.Proofs.Service.Dispatch
import HotReload.Proofs.Service.Hosting
import HotReload.Proofs.Service.InOrder
import HotReload.Proofs.Service.Invalidation
import HotReload.Proofs.Service.Isolation
import HotReload.Proofs.Service.Lifecycle
import HotReload.Proofs.Service.Linkage
import HotReload.Proofs.Service.Modules
import HotReload.Proofs.Service.Ready
import HotReload.Proofs.Service.Refusal
import HotReload.Proofs.Service.Registry
import HotReload.Proofs.Service.Run
import HotReload.Proofs.Service.Settle
import HotReload.Proofs.Service.Subscribers
import HotReload.Proofs.Service.Twins
import HotReload.Proofs.Session.Affected
import HotReload.Proofs.Session.After
import HotReload.Proofs.Session.Coherence
import HotReload.Proofs.Session.Convergence
import HotReload.Proofs.Session.Cycle
import HotReload.Proofs.Session.Delivery
import HotReload.Proofs.Session.Ending
import HotReload.Proofs.Session.Failure
import HotReload.Proofs.Session.Framing
import HotReload.Proofs.Session.Loss
import HotReload.Proofs.Session.Passage
import HotReload.Proofs.Session.Reaction
import HotReload.Proofs.Session.Trace
import HotReload.Proofs.Session.Update
import HotReload.Proofs.Session.Veil
import HotReload.Proofs.Session.Within
import HotReload.Proofs.Session.Worker
import HotReload.Proofs.Settings.Layering
import HotReload.Proofs.Settings.ProjectFile
import HotReload.Proofs.Watch.Debounce
import HotReload.Proofs.Watch.Ignore
import HotReload.Proofs.Wire.Message
import HotReload.Proofs.Wire.Reading
import HotReload.Proofs.Wire.Record
import HotReload.Proofs.Wire.Types
import HotReload.Resolver.Basic
import HotReload.Resolver.Fault
import HotReload.Resolver.Tree
import HotReload.Script.Binding
import HotReload.Script.Cursor
import HotReload.Script.Declaration
import HotReload.Script.Expression
import HotReload.Script.Form
import HotReload.Script.Function
import HotReload.Script.Imports
import HotReload.Script.Letters
import HotReload.Script.Lexer
import HotReload.Script.Markup
import HotReload.Script.Program
import HotReload.Script.Source
import HotReload.Script.Splice
import HotReload.Script.Statement
import HotReload.Script.Token
import HotReload.Script.Types
import HotReload.Service.Basic
import HotReload.Service.Fanout
import HotReload.Service.Store
import HotReload.Session.Basic
import HotReload.Session.Connection
import HotReload.Session.Reaction
import HotReload.Session.Worker
import HotReload.Settings
import HotReload.Settings.Check
import HotReload.Settings.Environment
import HotReload.Settings.Layer
import HotReload.Settings.Load
import HotReload.Startup
import HotReload.Terminal.Line
import HotReload.Terminal.LogFilter
import HotReload.Text.Basic
import HotReload.Text.Utf8
import HotReload.Watch.Debounce
import HotReload.Watch.Event
import HotReload.Watch.Ignore
import HotReload.Watch.Watcher
