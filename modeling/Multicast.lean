import Multicast.Address
import Multicast.Bier.Bitstring
import Multicast.Bier.Build
import Multicast.Bier.Header
import Multicast.Bier.Positions
import Multicast.Bier.Table
import Multicast.CommandLine.Options
import Multicast.CommandLine.Run
import Multicast.Decimal.Basic
import Multicast.Decimal.Places
import Multicast.Decimal.Reader
import Multicast.Decimal.Shortest
import Multicast.Event.Basic
import Multicast.Event.Packet
import Multicast.Event.Queue
import Multicast.Experiment.Config
import Multicast.Experiment.Error
import Multicast.Experiment.Reader
import Multicast.Experiment.Report
import Multicast.Experiment.Run
import Multicast.Experiment.Summary
import Multicast.Files.Path
import Multicast.Files.System
import Multicast.Files.Tree
import Multicast.Identifier
import Multicast.Main
import Multicast.Order
import Multicast.Proofs.Bier.Build
import Multicast.Proofs.Bier.Header
import Multicast.Proofs.Bier.Replicate
import Multicast.Proofs.Event.Copies
import Multicast.Proofs.Refresh.Decisions
import Multicast.Proofs.Refresh.Generation
import Multicast.Proofs.Refresh.History
import Multicast.Proofs.Refresh.Parts
import Multicast.Proofs.Request
import Multicast.Proofs.Route.Install
import Multicast.Proofs.Simulation.Effects
import Multicast.Proofs.Simulation.Flight
import Multicast.Proofs.Simulation.Handlers
import Multicast.Proofs.Simulation.History
import Multicast.Proofs.Simulation.Sound
import Multicast.Proofs.Split.Coverage
import Multicast.Proofs.Split.FirstHops
import Multicast.Proofs.Split.Groups
import Multicast.Proofs.Split.Parts
import Multicast.Proofs.Split.Slices
import Multicast.Proofs.Split.Steady
import Multicast.Proofs.Split.Tag
import Multicast.Proofs.Text
import Multicast.Proofs.Traversal
import Multicast.Proofs.Tree
import Multicast.Proofs.Unicast.Path
import Multicast.Proofs.Unicast.Sequence
import Multicast.Refresh.Bindings
import Multicast.Refresh.Config
import Multicast.Refresh.Driver
import Multicast.Request
import Multicast.Route.State
import Multicast.Route.Table
import Multicast.Schedule.Error
import Multicast.Schedule.Reader
import Multicast.Schedule.Valid
import Multicast.Schedule.Writer
import Multicast.Simulation.Forwarding
import Multicast.Simulation.Run
import Multicast.Simulation.Stats
import Multicast.Split.AtSource
import Multicast.Split.OverEpochs
import Multicast.Split.Tag
import Multicast.Text.Blank
import Multicast.Text.Line
import Multicast.Text.Numeral
import Multicast.Text.Printable
import Multicast.Text.Quoted
import Multicast.Text.Separated
import Multicast.Toml.Decode
import Multicast.Toml.Document
import Multicast.Toml.Instant
import Multicast.Toml.Line
import Multicast.Toml.Reader
import Multicast.Toml.Scalar
import Multicast.Toml.Text
import Multicast.Toml.Value
import Multicast.Topology
import Multicast.Total
import Multicast.Traffic.Generator
import Multicast.Traffic.Sampler
import Multicast.Tree
import Multicast.Unicast.Directory
import Multicast.Unicast.Interfaces
import Multicast.Unicast.NextHops
import Multicast.Unicast.Record
import Multicast.Unicast.Snapshot
import Multicast.Unicast.Source
import Multicast.Proofs.Bier.Entries
import Multicast.Proofs.Bier.Spread
import Multicast.Proofs.Bier.Rounds
import Multicast.Proofs.Bier.Classes
import Multicast.Proofs.Event.Order
import Multicast.Proofs.Refresh.Bindings
import Multicast.Proofs.Refresh.Network
import Multicast.Proofs.Simulation.Course
import Multicast.Proofs.Simulation.Refreshes
import Multicast.Proofs.Decimal.Rounding
import Multicast.Proofs.Simulation.Accounts
import Multicast.Proofs.Simulation.Delivery
import Multicast.Proofs.Refresh.Failure
import Multicast.Proofs.Refresh.Renewal
import Multicast.Proofs.Simulation.Emission
import Multicast.Proofs.Simulation.Bindings
import Multicast.Proofs.Simulation.Grace
import Multicast.Proofs.Simulation.Stages
import Multicast.Proofs.Simulation.Pacing
import Multicast.Proofs.Bier.Faults
import Multicast.Proofs.Refresh.Whole
import Multicast.Proofs.Simulation.Copying
import Multicast.Proofs.Simulation.Overrun
import Multicast.Proofs.Simulation.Faults
import Multicast.Proofs.Refresh.Alone
import Multicast.Proofs.Simulation.Alone
import Multicast.Proofs.Sorting
import Multicast.Proofs.Table
import Multicast.Proofs.Simulation.Tally
import Multicast.Proofs.Simulation.Balance
import Multicast.Proofs.Unicast.Records
import Multicast.Proofs.Unicast.Directory
import Multicast.Proofs.Unicast.Files
import Multicast.Proofs.Text.Lines
import Multicast.Proofs.Text.Words
import Multicast.Proofs.Decimal.Written
import Multicast.Proofs.Schedule.Fields
import Multicast.Proofs.Schedule.Roundtrip
import Multicast.Proofs.Schedule.Parts
import Multicast.Proofs.Tree.Chains
import Multicast.Proofs.Unicast.Endless
import Multicast.Proofs.Tree.Lost
import Multicast.Proofs.Traffic.Generated
import Multicast.Proofs.Traffic.Sampled
import Multicast.Proofs.Schedule.Grammar
import Multicast.Proofs.Event.Calls
import Multicast.Proofs.Simulation.Succession
import Multicast.Proofs.Simulation.HopLimit
import Multicast.Proofs.Refresh.Idle
import Multicast.Proofs.Route.Calls
import Multicast.Proofs.Address
import Multicast.Proofs.Bier.Members
