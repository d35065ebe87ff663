import Rollout.Main
import Rollout.Platform.Fleet
import Rollout.Platform.Supervised
import Rollout.Json.Reader
import Rollout.Proofs.Graph.Acyclic
import Rollout.Proofs.Graph.Build
import Rollout.Proofs.Graph.Layers
import Rollout.Proofs.Graph.Levels
import Rollout.Deploy.History
import Rollout.Proofs.Deploy.Runs
import Rollout.Proofs.Deploy.Wave
import Rollout.Proofs.Deploy.Account
import Rollout.Proofs.Deploy.Outcomes
import Rollout.Proofs.Parameter
import Rollout.Proofs.Deploy.References
import Rollout.Proofs.Deploy.Calls
import Rollout.Proofs.Deploy.Mutations
import Rollout.Proofs.Graph.Cycle
import Rollout.Proofs.Graph.Validity
import Rollout.Proofs.Platform.Index
import Rollout.Proofs.Platform.Serving
import Rollout.Proofs.Deploy.Timeline
import Rollout.Proofs.Deploy.Discovery
import Rollout.Proofs.Deploy.Redeployment
import Rollout.Proofs.Platform.Traced
import Rollout.Proofs.Delete.Runs
import Rollout.Proofs.Uniqueness
import Rollout.Proofs.Delete.Removal
import Rollout.Delete.History
import Rollout.Proofs.Delete.Account
import Rollout.Proofs.Deploy.Stopping
import Rollout.Proofs.Platform.Writing
import Rollout.Proofs.Deploy.Effect
import Rollout.Proofs.Coordinate
import Rollout.Proofs.Deploy.Convergence
import Rollout.Proofs.Deploy.Lockstep
import Rollout.Proofs.Deploy.Addressing
import Rollout.Proofs.Deploy.Stability
import Rollout.Proofs.Deploy.Sharing
import Rollout.Proofs.Deploy.Sequential
import Rollout.Proofs.Manifest.Parameters
import Rollout.Proofs.Manifest.Settings
import Rollout.Proofs.Manifest.Declarations
import Rollout.Proofs.Manifest.Outlines
import Rollout.Proofs.Project
import Rollout.Proofs.Manifest.Materialization
import Rollout.Proofs.Manifest.Acceptance
import Rollout.Proofs.Deploy.Blame
import Rollout.Proofs.Deploy.Rearrangement
import Rollout.Proofs.Manifest.Coordinates
import Rollout.Proofs.Deploy.Sparing
import Rollout.Proofs.Delete.Stopping
import Rollout.Proofs.Undoing
import Rollout.Proofs.DryRun
import Rollout.Proofs.Graph.Faults
import Rollout.Proofs.Format
import Rollout.Proofs.Platform.Catalogue
import Rollout.Proofs.Deploy.Rounds
import Rollout.Proofs.Deploy.Repetition
import Rollout.Proofs.Deploy.Overwriting
import Rollout.Proofs.Json.Literal
import Rollout.Proofs.Template
import Rollout.Proofs.Delete.Matching
import Rollout.Proofs.DeleteFile
import Rollout.Proofs.Manifest.Repetition
import Rollout.Proofs.Text.ByteOrder
import Rollout.Proofs.KeyOrder
