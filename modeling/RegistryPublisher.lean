import RegistryPublisher.Main
import RegistryPublisher.Proofs.Command.Local
import RegistryPublisher.Proofs.Command.Token
import RegistryPublisher.Proofs.Descriptor.RoundTrip
import RegistryPublisher.Proofs.Publish.Diagnosis
import RegistryPublisher.Proofs.Report.Message
import RegistryPublisher.Proofs.Settings.Load
import RegistryPublisher.Proofs.Verdict
import RegistryPublisher.Proofs.World.EnvFile
import RegistryPublisher.Proofs.Command.Registry
import RegistryPublisher.Proofs.Settings.Verbatim
import RegistryPublisher.Proofs.Settings.Token
import RegistryPublisher.Proofs.Json.Form
import RegistryPublisher.Proofs.Json.Skipping
import RegistryPublisher.Proofs.Json.Accepted
import RegistryPublisher.Proofs.Json.FormRecords
import RegistryPublisher.Proofs.Json.Edited
import RegistryPublisher.Proofs.Verdict.Tolerance
import RegistryPublisher.Proofs.Positional
import RegistryPublisher.Proofs.Descriptor.Canonical
import RegistryPublisher.Proofs.Descriptor.Integers
import RegistryPublisher.Proofs.Report.Guidance
import RegistryPublisher.Proofs.Report.Dispatch
import RegistryPublisher.Proofs.Command.Authentication
import RegistryPublisher.Proofs.Session
import RegistryPublisher.Proofs.Receipt
import RegistryPublisher.Proofs.CommandLine.Placement
import RegistryPublisher.Proofs.Program
