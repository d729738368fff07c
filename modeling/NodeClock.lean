import NodeClock.Call.Pool
import NodeClock.Exchange.Rehearsal
import NodeClock.Main
import NodeClock.Proofs.Matching
import NodeClock.Proofs.Agreement
import NodeClock.Proofs.Setting
import NodeClock.Proofs.Call
import NodeClock.Proofs.Deadline
import NodeClock.Proofs.Cancellation
import NodeClock.Proofs.Concurrency
import NodeClock.Proofs.Retransmission
import NodeClock.Proofs.Timeline
import NodeClock.Proofs.Backoff
import NodeClock.Proofs.Rehearsal
import NodeClock.Proofs.Answers
import NodeClock.Proofs.QueryText
import NodeClock.Proofs.Target
import NodeClock.Proofs.SetRead
import NodeClock.Proofs.Ticking
import NodeClock.Proofs.ReadBack
import NodeClock.Proofs.Zones
import NodeClock.Proofs.Blame
import NodeClock.Proofs.Room
import NodeClock.Proofs.Updates
import NodeClock.Proofs.Reading
import NodeClock.Proofs.Retry
import NodeClock.Proofs.Numeral
import NodeClock.Proofs.Truncation
