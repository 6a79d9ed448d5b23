import BroadcastAudit.Causal.Precedence
import BroadcastAudit.Fifo.InOrder
import BroadcastAudit.Files.FileTree
import BroadcastAudit.Layout
import BroadcastAudit.Main
import BroadcastAudit.Proofs.Acceptance
import BroadcastAudit.Proofs.Causal.HappensBefore
import BroadcastAudit.Causal.Scan
import BroadcastAudit.Proofs.Causal.Recoverable
import BroadcastAudit.Proofs.Causal.Domains
import BroadcastAudit.Proofs.Causal.Creation
import BroadcastAudit.Proofs.Causal.Outcome
import BroadcastAudit.Proofs.Causal.Reordering
import BroadcastAudit.Proofs.Causal.Growth
import BroadcastAudit.Proofs.Causal.Influence
import BroadcastAudit.Proofs.Causal.OwnSlot
import BroadcastAudit.Proofs.Causal.Strictness
import BroadcastAudit.Proofs.Links.Acceptance
import BroadcastAudit.Proofs.Links.Ordered
import BroadcastAudit.Proofs.Layout
import BroadcastAudit.Proofs.BlankLines
import BroadcastAudit.Proofs.Fifo.Agreement
import BroadcastAudit.Proofs.Fifo.Refusals
import BroadcastAudit.Proofs.Causal.StampCounts
import BroadcastAudit.Proofs.Causal.Uncovered
import BroadcastAudit.Proofs.Fifo.Outcome
import BroadcastAudit.Proofs.AppendedLines
import BroadcastAudit.Proofs.ClockOrder
import BroadcastAudit.Proofs.Causal.Chain
import BroadcastAudit.Config.Format
import BroadcastAudit.Proofs.Config.NumberLists
import BroadcastAudit.Proofs.Config.Flaws
import BroadcastAudit.Proofs.Config.Printing
import BroadcastAudit.Proofs.Config.Format
import BroadcastAudit.Proofs.Config.Hosts
import BroadcastAudit.Proofs.Files.Scan
import BroadcastAudit.Proofs.Links.Readers
import BroadcastAudit.Proofs.Links.Spans
import BroadcastAudit.Proofs.Consistency
