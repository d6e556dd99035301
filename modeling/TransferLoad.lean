import TransferLoad.Main
import TransferLoad.Net.Rehearsal
import TransferLoad.Rehearsal
import TransferLoad.Proofs.Run.Budget
import TransferLoad.Proofs.Run.Worker
import TransferLoad.Proofs.Run.Interleaving
import TransferLoad.Proofs.Run.Engine
import TransferLoad.Proofs.Run.Simulation
import TransferLoad.Proofs.Run.Accounting
import TransferLoad.Proofs.Run.Sequences
import TransferLoad.Proofs.Run.Isolation
import TransferLoad.Proofs.Artifact.Summary
import TransferLoad.Proofs.Run.Cancellation
import TransferLoad.Proofs.Artifact.RoundTrip
import TransferLoad.Proofs.Artifact.TornLines
import TransferLoad.Proofs.FileTree
import TransferLoad.Proofs.Run.Artifact
import TransferLoad.Proofs.Run.Interruption
import TransferLoad.Proofs.Artifact.LostLines
import TransferLoad.Proofs.Run.LostIdentifiers
import TransferLoad.Proofs.Run.ReadBack
import TransferLoad.Proofs.Run.SignedTransfers
import TransferLoad.Proofs.Run.PacingAccuracy
import TransferLoad.Proofs.Settings.InOrder
import TransferLoad.Proofs.Run.Setup
import TransferLoad.Proofs.Verification.Window
import TransferLoad.Proofs.Verification.Lookups
import TransferLoad.Proofs.Run.Verification
import TransferLoad.Proofs.Run.Workload
import TransferLoad.Proofs.Provisioning.Outcome
import TransferLoad.Proofs.Command.Layers
import TransferLoad.Proofs.Run.Bounds
import TransferLoad.Proofs.Artifact.FullWriter
import TransferLoad.Proofs.Provisioning.Waiting
import TransferLoad.Proofs.Provisioning.Funding
import TransferLoad.Proofs.Run.Warnings
import TransferLoad.Proofs.Run.Progress
import TransferLoad.Proofs.AddressText
import TransferLoad.Proofs.RemoteNode.Refusals
import TransferLoad.Proofs.RemoteNode.Numbers
