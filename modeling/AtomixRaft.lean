import AtomixRaft.Protocol
import AtomixRaft.Channel
import AtomixRaft.Candidate
import AtomixRaft.Effects
import AtomixRaft.Restart
import AtomixRaft.Invariant
import AtomixRaft.Blocking
import AtomixRaft.Stop
import AtomixRaft.Frame
import AtomixRaft.Tally
import AtomixRaft.Terms
import AtomixRaft.Hang
import AtomixRaft.Ballots
import AtomixRaft.Progress
import AtomixRaft.Winning
import AtomixRaft.Replies
import AtomixRaft.Election
import AtomixRaft.Cluster
