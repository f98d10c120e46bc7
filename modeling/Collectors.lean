import Collectors.Backend.Scripted
import Collectors.CommandLine.Run
import Collectors.Json.Codec
import Collectors.Proofs.History
import Collectors.Proofs.Teardown
import Collectors.Proofs.Transparency
import Collectors.Proofs.Failures
import Collectors.Proofs.Authority
import Collectors.Proofs.Relay
import Collectors.Proofs.Lookups
import Collectors.Proofs.Workload
import Collectors.Proofs.Sharing
import Collectors.Proofs.Published
import Collectors.Proofs.Retention
import Collectors.Proofs.Formats
import Collectors.Proofs.Batches
import Collectors.Proofs.Ledger
import Collectors.Proofs.Isolation
import Collectors.Proofs.Tally
import Collectors.Proofs.Activity
import Collectors.Proofs.Registrations
import Collectors.Proofs.Checks
import Collectors.Proofs.Identifiers
import Collectors.Proofs.Hosting
import Collectors.Proofs.Replies
import Collectors.Proofs.Addresses
import Collectors.Proofs.Serving
import Collectors.Proofs.Leaks
import Collectors.Proofs.Commands
import Collectors.Proofs.Sorting
import Collectors.Proofs.Sums
import Collectors.Proofs.Storing
