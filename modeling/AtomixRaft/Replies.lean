import AtomixRaft.Invariant

/-!
# Replies handled by the peer goroutines

A peer goroutine compares the response's term with its own request's term, not with the
replica's current term, and it checks neither `active` nor the term before it calls
`SetTerm` and `SetRole(Follower)` (`greater_reply_demotes`). A late reply to a superseded
round can therefore demote the leader elected in the current term. The goroutine then closes
`votes`, while other producers of the round may still send on it or close it.
-/

namespace AtomixRaft

namespace Replica

/-- The step-down rule of the peer goroutines: a response whose term is above its round's
request term makes the replica call `SetTerm` and switch to follower, whatever the
replica's term, whether the round is current and whether its candidate still runs. -/
theorem greater_reply_demotes {s : Replica} (h : s.TimersSound) {k : Nat} {r : Round}
    {m : MemberID} {q : VoteRequest} {resp : VoteResponse} (hr : s.rounds[k]? = some r)
    (hm : r.producers m = .replied q resp) (hgt : q.term < resp.term) (p : Bool) :
    ∃ s', s.step (.receive k m p) = .ok s' ∧
      s'.raft = { s.raft.call (.setTerm resp.term p) with role := .follower } := by
  obtain ⟨s₁, h₁⟩ := setRole_ok (s := { s with raft := s.raft.call (.setTerm resp.term p) })
    h .follower
  obtain ⟨hres, hrole⟩ := setRole_restarted h₁
  refine ⟨{ s₁ with rounds := s₁.rounds.set k (r.setProducer m (.closing resp)) }, ?_, ?_⟩
  · simp only [Replica.step, Replica.receive, hr, hm, hgt, ↓reduceIte, h₁, bind, Except.bind,
      pure, Except.pure, hres.rounds]
  · rcases hrole with hrole | ⟨h, -⟩
    · exact hres.raft.trans (by rw [hrole])
    · cases h

/-- `foo`'s first round, in term 1, asks `bar` for its vote and times out; the second round,
in term 2, elects `foo` with its own vote and `bar`'s; then `bar`'s answer to the first
request arrives, a rejection carrying term 2. -/
def staleReply : List Action :=
  [.setRole .candidate, .sendVoteRequests 0 true true 0 0, .requestVote 0, .fire 0,
   .timeout 0, .sendVoteRequests 0 true true 0 0, .requestVote 1, .requestVote 1,
   .tallyReceive 1, .tallyHandle 1, .reply 1 "bar" ⟨.ok, 2, true⟩, .receive 1 "bar" true,
   .tallyReceive 1, .tallyHandle 1, .reply 0 "bar" ⟨.ok, 2, false⟩]

def leaderWithStaleReply : Replica :=
  match (init testCluster 0 none).run staleReply with
  | .ok s => s
  | .error _ => init testCluster 0 none

theorem stale_reply_demotes_leader :
    (init testCluster 0 none).run staleReply = .ok leaderWithStaleReply ∧
    leaderWithStaleReply.raft.role = .leader ∧ leaderWithStaleReply.raft.term = 2 ∧
    ∃ s', leaderWithStaleReply.step (.receive 0 "bar" true) = .ok s' ∧
      s'.raft.term = 2 ∧ s'.raft.role = .follower := by
  have hrun : (init testCluster 0 none).run staleReply = .ok leaderWithStaleReply := rfl
  obtain ⟨s', hs', he⟩ := greater_reply_demotes ((Reachable.init _ _ _).run hrun).inv.timers
    (k := 0) (m := "bar") rfl rfl (by decide) true
  exact ⟨hrun, rfl, rfl, s', hs', by rw [he]; rfl, by rw [he]⟩

/-- Round 0 of `foo` in term 1: the loop starts `bar`'s goroutine, sends `foo`'s own vote
and starts `baz`'s; both peers answer with term 3, both goroutines adopt it and switch to
follower under the lock, and `bar`'s closes `votes`. -/
def twoGreaterTerms : List Action :=
  [.setRole .candidate, .sendVoteRequests 0 true true 0 0, .requestVote 0, .requestVote 0,
   .requestVote 0, .reply 0 "bar" ⟨.ok, 3, false⟩, .reply 0 "baz" ⟨.ok, 3, false⟩,
   .receive 0 "bar" true, .receive 0 "baz" true, .close 0 "bar"]

theorem second_close_panics :
    ∃ s, (init testCluster 0 none).run twoGreaterTerms = .ok s ∧
      s.step (.close 0 "baz") = .error (.panics .closeOfClosedChannel) :=
  ⟨_, rfl, rfl⟩

/-- Round 0 of `foo` in term 1: the loop starts `bar`'s goroutine, which gets term 2 back,
switches to follower and closes `votes` before the loop reaches `foo`'s own vote. -/
def closedBeforeSelfVote : List Action :=
  [.setRole .candidate, .sendVoteRequests 0 true true 0 0, .requestVote 0,
   .reply 0 "bar" ⟨.ok, 2, false⟩, .receive 0 "bar" true, .close 0 "bar"]

theorem self_vote_after_close_panics :
    ∃ s, (init testCluster 0 none).run closedBeforeSelfVote = .ok s ∧
      s.step (.requestVote 0) = .error (.panics .sendOnClosedChannel) ∧
      ∃ r, s.rounds[0]? = some r ∧ r.pending = ["foo", "baz"] ∧
        r.producers "baz" = .waiting :=
  ⟨_, rfl, rfl, _, rfl, rfl, rfl⟩

end Replica

end AtomixRaft
