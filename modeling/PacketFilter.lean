import PacketFilter.Main
import PacketFilter.Proofs.Acknowledgements
import PacketFilter.Proofs.AddressSets
import PacketFilter.Proofs.Answers
import PacketFilter.Proofs.ChainHistory
import PacketFilter.Proofs.Charges
import PacketFilter.Proofs.Codec.Normal
import PacketFilter.Proofs.ConnectionLimit
import PacketFilter.Proofs.Decision
import PacketFilter.Proofs.DisabledSets
import PacketFilter.Proofs.Drafts
import PacketFilter.Proofs.Effort
import PacketFilter.Proofs.Expiry
import PacketFilter.Proofs.Glob
import PacketFilter.Proofs.Keepalive
import PacketFilter.Proofs.LaterFragments
import PacketFilter.Proofs.LiveState
import PacketFilter.Proofs.LogBudgets
import PacketFilter.Proofs.OrBlocks
import PacketFilter.Proofs.Publication
import PacketFilter.Proofs.Refusal
import PacketFilter.Proofs.Reinjection
import PacketFilter.Proofs.Reload
import PacketFilter.Proofs.StarredNames
import PacketFilter.Proofs.StateCharge
import PacketFilter.Proofs.StateTable.Probing
import PacketFilter.Proofs.StateTable.Sweeping
import PacketFilter.Proofs.Withdrawal
import PacketFilter.Schema.Snapshot
