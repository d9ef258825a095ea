import AtomixRaft.Effects

/-!
# A stopped candidate starts no election

`Stop` clears `active` under the write lock, and nothing sets it again. Every goroutine of
the candidate checks `active` under the lock before it writes anything: a queued
`sendVoteRequests` returns, the timer goroutine starts no new one, and the tally exits.
-/

namespace AtomixRaft

namespace Replica

variable {s s' : Replica} {i : Nat}

/-- Whether an action is taken by one of candidate `i`'s own goroutines: a
`sendVoteRequests` it started, its timer goroutine, or the tally of one of its rounds. -/
def runsFor (s : Replica) (i : Nat) : Action → Bool
  | .sendVoteRequests j .. => j == i
  | .timeout k | .expire k => s.timers[k]?.map (·.role) == some i
  | .tallyReceive k | .tallyHandle k => s.rounds[k]?.map (·.role) == some i
  | _ => false

/-- A stopped candidate stays stopped: only `Stop` writes `active`, and only to clear it. -/
theorem stopped_run (hi : s.stopped i) (h : Relation.ReflTransGen Next s s') : s'.stopped i :=
  (evolves_run h).stopped i hi

/-- One step of a stopped candidate's own goroutines changes neither the term, the vote nor
the role, starts no round and queues no `sendVoteRequests`. -/
theorem inert_step {a : Action} (hi : s.stopped i) (ha : s.runsFor i a = true)
    (hs : s.step a = .ok s') :
    s'.raft = s.raft ∧ s'.rounds.length = s.rounds.length ∧ s'.calls.Sublist s.calls := by
  have hact := active_eq_false hi
  cases a with
  | sendVoteRequests j tp vp li lt =>
    obtain rfl : j = i := by simpa [runsFor] using ha
    simp only [Replica.step] at hs
    split_ifs at hs
    rcases sendVoteRequests_eq_ok hs with ⟨-, rfl⟩ | ⟨_, hon, -⟩
    · exact ⟨rfl, rfl, List.erase_sublist _ _⟩
    · exact absurd (hon.symm.trans hact) Bool.noConfusion
  | timeout k | expire k =>
    obtain ⟨t, ht, rfl⟩ : ∃ t, s.timers[k]? = some t ∧ t.role = i := by simpa [runsFor] using ha
    obtain ⟨t', ht', h⟩ := timer_eq_ok (by first | exact .inr (.inl hs) | exact .inr (.inr hs))
    cases ht.symm.trans ht'
    rcases h with ⟨-, rfl⟩ | ⟨-, -, ⟨-, rfl⟩ | ⟨hon, -⟩⟩ | ⟨-, -, -, -, rfl⟩
    · exact ⟨rfl, rfl, .refl _⟩
    · exact ⟨rfl, rfl, .refl _⟩
    · exact absurd (hon.symm.trans hact) Bool.noConfusion
    · exact ⟨rfl, rfl, .refl _⟩
  | tallyReceive k =>
    obtain ⟨_, _, _, _, rfl⟩ := updateRound_eq_ok hs
    exact ⟨rfl, List.length_set .., List.Sublist.refl _⟩
  | tallyHandle k =>
    obtain ⟨r, hr, rfl⟩ : ∃ r, s.rounds[k]? = some r ∧ r.role = i := by simpa [runsFor] using ha
    simp only [Replica.step, Replica.tallyHandle, hr] at hs
    split at hs
    · simp only [hact, Bool.false_and, Tally.handle, Bool.not_false, ↓reduceIte, pure,
        Except.pure, Except.ok.injEq] at hs
      subst hs
      exact ⟨rfl, List.length_set .., List.Sublist.refl _⟩
    · cases hs
  | _ => simp [runsFor] at ha

/-- Once candidate `i` is stopped, none of its own goroutines, at any later point of any
run, increments the term, records a vote, changes the role, starts a round or queues a new
`sendVoteRequests`, however the timer's expiry interleaves with `Stop`. -/
theorem stopped_candidate_starts_no_election {s₀ s s' : Replica} {i : Nat} {a : Action}
    (hi : s₀.stopped i) (hrun : Relation.ReflTransGen Next s₀ s) (ha : s.runsFor i a = true)
    (hs : s.step a = .ok s') :
    s'.raft = s.raft ∧ s'.rounds.length = s.rounds.length ∧ s'.calls.Sublist s.calls :=
  inert_step (stopped_run hi hrun) ha hs

/-- A three-member replica whose candidate was stopped before its `sendVoteRequests` took
the write lock. -/
def stoppedBeforeElection : Replica :=
  ⟨.restore testCluster 0 none, none, [⟨false, none⟩], [0], [], []⟩

theorem queued_call_after_stop_returns :
    (init testCluster 0 none).run [.setRole .candidate, .setRole .follower] =
      .ok stoppedBeforeElection ∧
    stoppedBeforeElection.step (.sendVoteRequests 0 true true 0 0) =
      .ok { stoppedBeforeElection with calls := [] } ∧
    ({ stoppedBeforeElection with calls := [] } : Replica).raft = stoppedBeforeElection.raft ∧
    ({ stoppedBeforeElection with calls := [] } : Replica).rounds.length =
      stoppedBeforeElection.rounds.length ∧
    ({ stoppedBeforeElection with calls := [] } : Replica).calls.Sublist
      stoppedBeforeElection.calls :=
  ⟨rfl, rfl, stopped_candidate_starts_no_election
    (show stoppedBeforeElection.stopped 0 from ⟨_, rfl, rfl⟩) .refl
    (show stoppedBeforeElection.runsFor 0 (.sendVoteRequests 0 true true 0 0) = true from rfl)
    rfl⟩

end Replica

end AtomixRaft
