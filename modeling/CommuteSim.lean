import CommuteSim.CommandLine
import CommuteSim.Commute.Congestion
import CommuteSim.Commute.Memory
import CommuteSim.Commute.Mobsim
import CommuteSim.Commute.Population
import CommuteSim.Commute.Replanning
import CommuteSim.Commute.Scoring
import CommuteSim.Commute.Section
import CommuteSim.Commute.Settings
import CommuteSim.Commute.Simulation
import CommuteSim.Config.Basic
import CommuteSim.Config.File
import CommuteSim.Config.Yaml
import CommuteSim.Controller.Basic
import CommuteSim.Controller.Iteration
import CommuteSim.Controller.Run
import CommuteSim.Controller.Startup
import CommuteSim.Controller.Step
import CommuteSim.Controller.Teardown
import CommuteSim.Coordinator.Basic
import CommuteSim.Coordinator.Process
import CommuteSim.Fault.Basic
import CommuteSim.Fault.Cause
import CommuteSim.Files.OsError
import CommuteSim.Files.Path
import CommuteSim.Files.System
import CommuteSim.Json.Value
import CommuteSim.Lifecycle.Document
import CommuteSim.Lifecycle.Event
import CommuteSim.Lifecycle.Identifier
import CommuteSim.Listener.Bus
import CommuteSim.Log
import CommuteSim.Main
import CommuteSim.Number.Binary64
import CommuteSim.Number.Shortest
import CommuteSim.Number.Text
import CommuteSim.Output.Directory
import CommuteSim.Proofs.Commute.Crew
import CommuteSim.Proofs.Commute.Delivery
import CommuteSim.Proofs.Commute.Forecast
import CommuteSim.Proofs.Commute.Freshness
import CommuteSim.Proofs.Commute.Headcount
import CommuteSim.Proofs.Commute.Listeners
import CommuteSim.Proofs.Commute.Reference
import CommuteSim.Proofs.Commute.Routes
import CommuteSim.Proofs.Commute.Sharing
import CommuteSim.Proofs.Commute.Situations
import CommuteSim.Proofs.Commute.Travel
import CommuteSim.Proofs.Commute.Workers
import CommuteSim.Proofs.Config.Dump
import CommuteSim.Proofs.Config.Merge
import CommuteSim.Proofs.Config.Settings
import CommuteSim.Proofs.Controller.Account
import CommuteSim.Proofs.Controller.Actions
import CommuteSim.Proofs.Controller.Bookkeeping
import CommuteSim.Proofs.Controller.Claims
import CommuteSim.Proofs.Controller.Clocks
import CommuteSim.Proofs.Controller.Commuters
import CommuteSim.Proofs.Controller.Completions
import CommuteSim.Proofs.Controller.Conduct
import CommuteSim.Proofs.Controller.Course
import CommuteSim.Proofs.Controller.Failures
import CommuteSim.Proofs.Controller.Farewell
import CommuteSim.Proofs.Controller.Follows
import CommuteSim.Proofs.Controller.Foreseen
import CommuteSim.Proofs.Controller.Handlers
import CommuteSim.Proofs.Controller.Interrupts
import CommuteSim.Proofs.Controller.Iterations
import CommuteSim.Proofs.Controller.Journey
import CommuteSim.Proofs.Controller.Lifecycle
import CommuteSim.Proofs.Controller.Notes
import CommuteSim.Proofs.Controller.OperationTimes
import CommuteSim.Proofs.Controller.Outcome
import CommuteSim.Proofs.Controller.Parallelism
import CommuteSim.Proofs.Controller.Promptness
import CommuteSim.Proofs.Controller.Questions
import CommuteSim.Proofs.Controller.Release
import CommuteSim.Proofs.Controller.Scores
import CommuteSim.Proofs.Controller.Seeding
import CommuteSim.Proofs.Controller.Subtree
import CommuteSim.Proofs.Controller.Unwatched
import CommuteSim.Proofs.Controller.Upkeep
import CommuteSim.Proofs.Controller.Verdict
import CommuteSim.Proofs.Controller.Watch
import CommuteSim.Proofs.Coordinator.Agreement
import CommuteSim.Proofs.Coordinator.Crowd
import CommuteSim.Proofs.Coordinator.Order
import CommuteSim.Proofs.Coordinator.Rendezvous
import CommuteSim.Proofs.Files.Contents
import CommuteSim.Proofs.Files.Path
import CommuteSim.Proofs.Files.System
import CommuteSim.Proofs.Files.Tree
import CommuteSim.Proofs.Listener.Rounds
import CommuteSim.Proofs.Output.Directory
import CommuteSim.Proofs.Output.Iteration
import CommuteSim.Proofs.Output.Policy
import CommuteSim.Proofs.Output.Provision
import CommuteSim.Proofs.Timing.Chart
import CommuteSim.Proofs.Timing.History
import CommuteSim.Proofs.Timing.Ledger
import CommuteSim.Proofs.Timing.Report
import CommuteSim.Proofs.Timing.Table
import CommuteSim.Proofs.World.Aside
import CommuteSim.Proofs.World.Assertion
import CommuteSim.Proofs.World.Chronicle
import CommuteSim.Proofs.World.Impartial
import CommuteSim.Proofs.World.Path
import CommuteSim.Proofs.World.Twin
import CommuteSim.Proofs.World.Wander
import CommuteSim.Proofs.Yaml.Allowed
import CommuteSim.Proofs.Yaml.Block
import CommuteSim.Proofs.Yaml.Decode
import CommuteSim.Proofs.Yaml.Gap
import CommuteSim.Proofs.Yaml.Lexer
import CommuteSim.Proofs.Yaml.Plain
import CommuteSim.Proofs.Yaml.Quoted
import CommuteSim.Proofs.Yaml.Reader
import CommuteSim.Proofs.Yaml.Structure
import CommuteSim.Proofs.Yaml.Tree
import CommuteSim.Proofs.Yaml.Typed
import CommuteSim.Proofs.Yaml.Whole
import CommuteSim.Random.Generator
import CommuteSim.Random.KeyStream
import CommuteSim.Random.Seeding
import CommuteSim.Reading.Mismatch
import CommuteSim.SortedMap
import CommuteSim.Text.Invisible
import CommuteSim.Text.Quoted
import CommuteSim.Timing.Chart
import CommuteSim.Timing.Instant
import CommuteSim.Timing.Ledger
import CommuteSim.Timing.Report
import CommuteSim.World.Basic
import CommuteSim.World.Program
import CommuteSim.Yaml.Content
import CommuteSim.Yaml.Cursor
import CommuteSim.Yaml.Decode
import CommuteSim.Yaml.Node
import CommuteSim.Yaml.Node.Printer
import CommuteSim.Yaml.Node.Reader
import CommuteSim.Yaml.Token
import CommuteSim.Yaml.Token.Lexer
import CommuteSim.Yaml.Token.Property
import CommuteSim.Yaml.Token.Scalar
import CommuteSim.Yaml.Value
