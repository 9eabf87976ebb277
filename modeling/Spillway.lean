import Spillway.Medium
import Spillway.Plan
import Spillway.Proofs.Boundary
import Spillway.Proofs.Capped
import Spillway.Proofs.Placement
import Spillway.Proofs.Queue
import Spillway.Proofs.Release
import Spillway.Shelf
import Spillway.Spooler
import Spillway.Tape
import Spillway.Vessel
import Spillway.Proofs.RoundTrip
import Spillway.Proofs.Cursor
import Spillway.Proofs.Completion
import Spillway.Proofs.Offsets
import Spillway.Proofs.Cutting
import Spillway.Proofs.Tearing
import Spillway.Proofs.Fullness
import Spillway.Proofs.Reopening
import Spillway.Proofs.Ledger
import Spillway.Proofs.Calls
import Spillway.Proofs.Syncing
import Spillway.Proofs.Safekeeping
import Spillway.Proofs.Appending
import Spillway.Proofs.Interchange
import Spillway.Proofs.Attempts
import Spillway.Proofs.Protocol
import Spillway.Proofs.Salvage
import Spillway.Proofs.Counting
import Spillway.Proofs.Truncation
import Spillway.Proofs.Lending
import Spillway.Proofs.Retrying
import Spillway.Proofs.Tandem
import Spillway.Proofs.Refusal
import Spillway.Proofs.Codec
import Spillway.Proofs.Passing
import Spillway.Proofs.Granularity
import Spillway.Proofs.Emission
import Spillway.Proofs.Lengths
import Spillway.Proofs.Arithmetic
import Spillway.Proofs.Ownership
import Spillway.Proofs.Sharing
import Spillway.Proofs.Grammar
import Spillway.Proofs.Lexing
import Spillway.Proofs.Skimming
import Spillway.Proofs.Members
import Spillway.Proofs.Records
import Spillway.Proofs.Forms
