import SlashingGuard.Main
import SlashingGuard.Disk.Tree
import SlashingGuard.Duty.Plain
import SlashingGuard.Store.Outage
import SlashingGuard.Proofs.Guard.Retention
import SlashingGuard.Proofs.Run.Proposals
import SlashingGuard.Proofs.Run.Votes
import SlashingGuard.Proofs.Run.Rules
import SlashingGuard.Proofs.Ledger.Atomicity
import SlashingGuard.Proofs.Guard.Atomicity
import SlashingGuard.Proofs.Run.Records
import SlashingGuard.Proofs.Run.Floors
import SlashingGuard.Proofs.Run.FreshDuties
import SlashingGuard.Proofs.Run.Registration
import SlashingGuard.Proofs.Ledger.Independence
import SlashingGuard.Proofs.Run.Careful
import SlashingGuard.Proofs.Guard.Alike
import SlashingGuard.Proofs.Guard.Memory
import SlashingGuard.Proofs.Run.Restart
import SlashingGuard.Proofs.Interchange.Document
import SlashingGuard.Proofs.Run.Export
import SlashingGuard.Proofs.Interchange.Interruption
import SlashingGuard.Proofs.Store.FileDamage
import SlashingGuard.Proofs.Guard.FirstFault
import SlashingGuard.Proofs.Guard.PruneEffect
import SlashingGuard.Proofs.Guard.ServicePrune
import SlashingGuard.Proofs.Guard.Metering
import SlashingGuard.Proofs.Run.Conservation
import SlashingGuard.Proofs.Ledger.Session
import SlashingGuard.Proofs.Guard.Contention
import SlashingGuard.Proofs.Interchange.Contention
import SlashingGuard.Proofs.Ledger.FloorJoin
import SlashingGuard.Proofs.Ledger.Leftovers
import SlashingGuard.Proofs.Signer.LateFailure
import SlashingGuard.Proofs.Text.Hexadecimal
import SlashingGuard.Proofs.Text.Trimming
import SlashingGuard.Proofs.Json.Alike
import SlashingGuard.Proofs.Json.Scalars
import SlashingGuard.Proofs.Json.Deletion
import SlashingGuard.Proofs.Signer.Layer
import SlashingGuard.Proofs.Signer.Settling
import SlashingGuard.Signer.Loop
import SlashingGuard.Proofs.Signer.RoundTrip
import SlashingGuard.Proofs.Signer.Timetable
import SlashingGuard.Proofs.Ledger.StoredValues
import SlashingGuard.Proofs.Run.LongRoots

/-! # Slashing protection of a remote signer

    The ledger of signed duties with its keys, values and transactions, the
    decisions on requests, prunes, the service with its locks and counters,
    the export, the configuration, the launch of a signer and the loop that
    prunes; and what holds of them over all runs.

    Left out are the third storage backend, of which only its name and the
    refusal to open it are there, the text of logs, the registry that counters
    are published in, threads and real time, for which locks are held by names
    and moments are numbers, and what a crash does to a disk.  The file system
    in memory has neither links nor permissions, and its calls fail only for
    where a path leads; theorems on disks that fail in other ways are stated
    for any server of the calls. -/
