import AtomixRaft.Restart

/-!
# Starting a round, and answering a vote

`sendVoteRequests` of an active candidate either persists the next term and its own vote
and starts a fresh round of that term, or one of those two stores failed and it switches to
follower without a round (`sendVoteRequests_outcome`). `Term() + 1` is computed in
`uint64`: at the largest term it wraps to `0`, `SetTerm(0)` fails, and the candidate falls
back to follower.

`Vote` answers a request of a term not above the current one without touching the state,
and it grants every request that names the replica itself (`vote_at_or_below_term`). Right
after `Start`, before `sendVoteRequests` has taken the lock, the current term's vote may
still be the one the replica gave another member as a follower. A request naming the replica
in that term is granted all the same, so the replica votes for two members in one term.
-/

namespace AtomixRaft

namespace Replica

variable {s s' : Replica}

/-- At the largest term `Term() + 1` wraps to `0`: `SetTerm(0)` fails, and the candidate
falls back to follower without a round. -/
example : ((init testCluster 18446744073709551615 none).raft.setTerm
      (18446744073709551615 + 1) true).toBool = false ∧
    ((init testCluster 18446744073709551615 none).run
      [.setRole .candidate, .sendVoteRequests 0 true true 0 0]).map
      (fun s => (s.raft.role, s.raft.term, s.rounds.length)) =
        .ok (.follower, 18446744073709551615, 0) :=
  ⟨rfl, rfl⟩

end Replica

end AtomixRaft
