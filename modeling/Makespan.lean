import Makespan.Main
import Makespan.Proofs.Binary64.Order
import Makespan.Proofs.Broker.Accounted
import Makespan.Proofs.Broker.Calls
import Makespan.Proofs.Broker.Dependencies
import Makespan.Proofs.Broker.InFlight
import Makespan.Proofs.Broker.Lockstep
import Makespan.Proofs.Broker.Opening
import Makespan.Proofs.Broker.Precedence
import Makespan.Proofs.Broker.Provisioning
import Makespan.Proofs.Broker.Renaming
import Makespan.Proofs.Broker.Run
import Makespan.Proofs.Broker.Ticks
import Makespan.Proofs.Broker.Timely
import Makespan.Proofs.EventQueue.Placement
import Makespan.Proofs.Graph.Levels
import Makespan.Proofs.Graph.WellFormed
import Makespan.Proofs.Pool.Holding
import Makespan.Proofs.Pool.Ranking
import Makespan.Proofs.Scheduler.Accounted
import Makespan.Proofs.Scheduler.ArrivalOrder
import Makespan.Proofs.Scheduler.History
import Makespan.Proofs.Settings.Validated
import Makespan.Proofs.Simulation.Completion
import Makespan.Proofs.Simulation.CreatedSpeeds
import Makespan.Proofs.Simulation.Setup
import Makespan.Proofs.Simulation.Ticks
import Makespan.Proofs.Workflow.Acceptance
import Makespan.Proofs.Workflow.CycleSearch
import Makespan.Proofs.Workflow.FinishingOrder
import Makespan.Proofs.Workflow.Validated
import Makespan.Proofs.Graph.Attributes
import Makespan.Proofs.Scheduler.StandIn
import Makespan.Proofs.Broker.StandIn
import Makespan.Proofs.Broker.Kept
import Makespan.Proofs.Broker.Chronicle
import Makespan.Proofs.Simulation.Timeline
import Makespan.Proofs.Binary64.Monotone
import Makespan.Proofs.Broker.Standstill
import Makespan.Proofs.Broker.Outlasted
import Makespan.Proofs.Simulation.Termination
import Makespan.Proofs.Graph.Derived
import Makespan.Proofs.Graph.Shortcut
import Makespan.Proofs.Broker.Shortcut
import Makespan.Proofs.Simulation.Shortcut
import Makespan.Proofs.Graph.Declared
import Makespan.Proofs.Graph.LongestPaths
import Makespan.Proofs.Sweep.Cells
import Makespan.Proofs.Graph.Renaming
import Makespan.Proofs.Simulation.JobNames
import Makespan.Proofs.Graph.Reachability
import Makespan.Proofs.Broker.Rounds
import Makespan.Proofs.Simulation.Timetable
import Makespan.Proofs.Broker.Tangled
import Makespan.Proofs.Broker.Refused
import Makespan.Proofs.Simulation.Stalled
import Makespan.Proofs.Broker.Acknowledged
import Makespan.Proofs.EventQueue.Service
import Makespan.Proofs.Broker.Pairing
import Makespan.Proofs.Broker.Depth
import Makespan.Proofs.Broker.Prompt
import Makespan.Proofs.Simulation.Cycles
import Makespan.Proofs.Graph.Visits
import Makespan.Proofs.Files.Tree
import Makespan.Proofs.Discovery
