import AtomixRaft.Effects

/-!
# What a step does to the rounds

A step touches at most one round, the one its goroutine belongs to; `sendVoteRequests`
appends a new round and changes no other. Only the tally's own two steps change a round's
tally (`step_rounds`).
-/

namespace AtomixRaft

/-- The round whose goroutines take the action. -/
def Action.round : Action → Option Nat
  | .requestVote k | .reply k _ _ | .fail k _ | .receive k _ _ | .close k _ => some k
  | .tallyReceive k | .tallyHandle k => some k
  | _ => none

/-- The round whose tally takes the action. -/
def Action.tallies : Action → Option Nat
  | .tallyReceive k | .tallyHandle k => some k
  | _ => none

theorem Action.round_of_tallies {a : Action} {k : Nat} (h : a.tallies = some k) :
    a.round = some k := by
  cases a <;> simp_all [tallies, round]

/-- The response a producer holds, once its peer has answered. -/
def Producer.response : Producer → Option VoteResponse
  | .replied _ resp | .closing resp => some resp
  | .done resp => resp
  | _ => none

/-- Whether the action is a peer's RPC returning, the only step that gives a producer a
response. -/
def Action.replies : Action → Bool
  | .reply .. => true
  | _ => false

namespace Round

variable {r r' : Round}

/-- Every response held in `r'` was held in `r`: no peer answered in between. -/
def KeepsResponses (r r' : Round) : Prop :=
  ∀ m resp, (r'.producers m).response = some resp → (r.producers m).response = some resp

theorem keepsResponses_setProducer {r₀ : Round} (hp : r₀.producers = r.producers) {m : MemberID}
    {p : Producer} (h : ∀ resp, p.response = some resp → (r.producers m).response = some resp) :
    r.KeepsResponses (r₀.setProducer m p) := by
  intro m' resp h'
  simp only [setProducer] at h'
  split_ifs at h' with e
  · exact e ▸ h resp h'
  · rwa [hp] at h'

theorem requestVote_moved {self : MemberID} (h : r.requestVote self = .ok r') :
    r'.tally = r.tally ∧ r.KeepsResponses r' := by
  unfold requestVote at h
  split at h
  · cases h
  · split_ifs at h
    · obtain ⟨_, -, h⟩ := bind_eq_ok.mp h
      cases h; exact ⟨rfl, keepsResponses_setProducer rfl fun _ h => nomatch h⟩
    · cases h; exact ⟨rfl, keepsResponses_setProducer rfl fun _ h => nomatch h⟩

theorem reply_tally {m : MemberID} {resp : VoteResponse} (h : r.reply m resp = .ok r') :
    r'.tally = r.tally := by
  unfold reply at h
  split at h <;> cases h; rfl

theorem fail_moved {m : MemberID} (h : r.fail m = .ok r') :
    r'.tally = r.tally ∧ r.KeepsResponses r' := by
  unfold fail at h
  split at h
  · obtain ⟨_, -, h⟩ := bind_eq_ok.mp h
    cases h; exact ⟨rfl, keepsResponses_setProducer rfl fun _ h => nomatch h⟩
  · cases h

theorem closeVotes_moved {m : MemberID} (h : r.closeVotes m = .ok r') :
    r'.tally = r.tally ∧ r.KeepsResponses r' := by
  unfold closeVotes at h
  split at h
  · rename_i resp hc
    obtain ⟨_, -, h⟩ := bind_eq_ok.mp h
    cases h
    exact ⟨rfl, keepsResponses_setProducer rfl fun _ h => by simpa [Producer.response, hc] using h⟩
  · cases h

theorem tallyReceive_producers (h : r.tallyReceive = .ok r') : r'.producers = r.producers := by
  unfold tallyReceive at h
  split at h
  · cases h; rfl
  · split at h <;> cases h; rfl
  · cases h

/-! What each round function does, once: later invariants cite these and do not unfold the
functions. -/

theorem requestVote_eq_ok {self : MemberID} (h : r.requestVote self = .ok r') :
    ∃ m rest, r.pending = m :: rest ∧
      ((m = self ∧ ∃ votes, r.votes.send ⟨m, true⟩ = .ok votes ∧
          r' = { r with pending := rest, votes := votes }.setProducer m (.done none)) ∨
        (m ≠ self ∧ r' = { r with pending := rest }.setProducer m
          (.requesting ⟨r.term, self, r.lastIndex, r.lastTerm⟩))) := by
  unfold requestVote at h
  split at h
  · cases h
  · rename_i m rest hp
    split_ifs at h with hm
    · obtain ⟨votes, hv, h⟩ := bind_eq_ok.mp h
      exact ⟨m, rest, hp, .inl ⟨hm, votes, hv, (Except.ok.inj h).symm⟩⟩
    · exact ⟨m, rest, hp, .inr ⟨hm, (Except.ok.inj h).symm⟩⟩

theorem reply_eq_ok {m : MemberID} {resp : VoteResponse} (h : r.reply m resp = .ok r') :
    ∃ q, r.producers m = .requesting q ∧ r' = r.setProducer m (.replied q resp) := by
  unfold reply at h
  split at h
  · exact ⟨_, ‹_›, (Except.ok.inj h).symm⟩
  · cases h

theorem fail_eq_ok {m : MemberID} (h : r.fail m = .ok r') :
    ∃ q votes, r.producers m = .requesting q ∧ r.votes.send ⟨m, false⟩ = .ok votes ∧
      r' = { r with votes := votes }.setProducer m (.done none) := by
  unfold fail at h
  split at h
  · obtain ⟨votes, hv, h⟩ := bind_eq_ok.mp h
    exact ⟨_, votes, ‹_›, hv, (Except.ok.inj h).symm⟩
  · cases h

theorem closeVotes_eq_ok {m : MemberID} (h : r.closeVotes m = .ok r') :
    ∃ resp votes, r.producers m = .closing resp ∧ r.votes.close = .ok votes ∧
      r' = { r with votes := votes }.setProducer m (.done (some resp)) := by
  unfold closeVotes at h
  split at h
  · obtain ⟨votes, hv, h⟩ := bind_eq_ok.mp h
    exact ⟨_, votes, ‹_›, hv, (Except.ok.inj h).symm⟩
  · cases h

/-- The tally's `range` takes the next ballot off `votes`. -/
theorem tallyReceive_cons {b : Ballot} {rest : List Ballot} (hst : r.tally.state = .receiving)
    (hbuf : r.votes.buffer = b :: rest) :
    r.tallyReceive = .ok { r with votes := { r.votes with buffer := rest },
                                  tally := { r.tally with state := .handling b } } := by
  simp only [tallyReceive, hst, hbuf]
  rfl

/-- The tally's `range` ends on a closed, empty `votes`. -/
theorem tallyReceive_drained (hst : r.tally.state = .receiving) (hbuf : r.votes.buffer = [])
    (hc : r.votes.closed = true) :
    r.tallyReceive = .ok { r with tally := { r.tally with state := .drained } } := by
  simp only [tallyReceive, hst, hbuf, hc, ↓reduceIte]
  rfl

theorem tallyReceive_eq_ok (h : r.tallyReceive = .ok r') :
    r.tally.state = .receiving ∧
      ((∃ b rest, r.votes.buffer = b :: rest ∧ r' = { r with
          votes := { r.votes with buffer := rest },
          tally := { r.tally with state := .handling b } }) ∨
        (r.votes.buffer = [] ∧ r.votes.closed = true ∧
          r' = { r with tally := { r.tally with state := .drained } })) := by
  unfold tallyReceive at h
  split at h
  · exact ⟨‹_›, .inl ⟨_, _, ‹_›, (Except.ok.inj h).symm⟩⟩
  · split_ifs at h with hc
    exact ⟨‹_›, .inr ⟨‹_›, hc, (Except.ok.inj h).symm⟩⟩
  · cases h

end Round

namespace Replica

variable {s s' : Replica}

theorem vote_rounds {q : VoteRequest} {p : Bool} {cs : List Call} {resp out : VoteResponse}
    (hs : s.vote q p cs resp = .ok (s', out)) : s'.rounds = s.rounds := by
  rcases vote_eq_ok hs with ⟨-, -, -, h₁⟩ | ⟨-, rfl, -⟩
  · exact (setRole_restarted h₁).1.rounds
  · rfl

/-- Rounds a step appends are new: none of their producers has started. -/
def Fresh (l : List Round) : Prop := ∀ r ∈ l, ∀ m, r.producers m = .waiting

theorem fresh_nil : Fresh [] := fun _ h => nomatch h

theorem sendVoteRequests_rounds {i : Nat} {tp vp : Bool} {li : Index} {lt : Term}
    (hs : s.sendVoteRequests i tp vp li lt = .ok s') :
    ∃ l, s'.rounds = s.rounds ++ l ∧ Fresh l := by
  rcases sendVoteRequests_eq_ok hs with ⟨-, rfl⟩ | ⟨s₁, -, h₁, h⟩
  · exact ⟨[], (List.append_nil _).symm, fresh_nil⟩
  have e₁ := (resetElectionTimeout_restarted h₁).rounds
  rcases h with ⟨-, hs⟩ | ⟨raft₁, -, ⟨-, hs⟩ | ⟨raft₂, -, rfl⟩⟩
  · exact ⟨[], by rw [(setRole_restarted hs).1.rounds, e₁, List.append_nil], fresh_nil⟩
  · exact ⟨[], by rw [(setRole_restarted hs).1.rounds, e₁, List.append_nil], fresh_nil⟩
  · exact ⟨_, by rw [e₁], by simp [Fresh, Round.start]⟩

/-- The peer goroutine of `m` handles its response under the lock: its producer had
replied, and the round's tally is left as it was. -/
theorem receive_rounds {k : Nat} {m : MemberID} {p : Bool} (hs : s.receive k m p = .ok s') :
    ∃ r q resp r', s.rounds[k]? = some r ∧ r.producers m = .replied q resp ∧
      s'.rounds = s.rounds.set k r' ∧ r'.tally = r.tally ∧ r.KeepsResponses r' := by
  obtain ⟨r, q, resp, hr, hq, ⟨-, s₁, h₁, rfl⟩ | ⟨-, votes, -, rfl⟩⟩ := receive_eq_ok hs
  · exact ⟨r, q, resp, r.setProducer m (.closing resp), hr, hq,
      by rw [(setRole_restarted h₁).1.rounds], rfl,
      Round.keepsResponses_setProducer rfl fun _ h => by simpa [Producer.response, hq] using h⟩
  · exact ⟨r, q, resp, _, hr, hq, rfl, rfl,
      Round.keepsResponses_setProducer rfl fun _ h => by simpa [Producer.response, hq] using h⟩

theorem tallyHandle_rounds {k : Nat} (hs : s.tallyHandle k = .ok s') :
    ∃ r b, s.rounds[k]? = some r ∧ r.tally.state = .handling b ∧
      s'.rounds = s.rounds.set k { r with tally := (r.tally.handle b
        (s.active r.role && decide (s.raft.term = r.term)) s.raft.leader
        (quorum r.votingMembers.length)).1 } := by
  obtain ⟨r, b, hr, hb, rfl | ⟨role, h⟩⟩ := tallyHandle_eq_ok hs
  · exact ⟨r, b, hr, hb, rfl⟩
  · exact ⟨r, b, hr, hb, (setRole_restarted h).1.rounds⟩

/-- What a step does to the rounds: a step of no round may append new rounds, and a step of
round `k` replaces it by a round whose tally is unchanged unless the tally took the step,
and whose producers gained no response unless a peer's RPC returned. -/
theorem step_rounds {a : Action} (hs : s.step a = .ok s') :
    (a.round = none ∧ ∃ l, s'.rounds = s.rounds ++ l ∧ Fresh l) ∨
    (∃ k r r', a.round = some k ∧ s.rounds[k]? = some r ∧ s'.rounds = s.rounds.set k r' ∧
      (a.tallies = none → r'.tally = r.tally) ∧ (a.replies = false → r.KeepsResponses r')) := by
  have same : ∀ {s' : Replica}, s'.rounds = s.rounds → ∃ l, s'.rounds = s.rounds ++ l ∧ Fresh l :=
    fun h => ⟨[], by rw [h, List.append_nil], fresh_nil⟩
  cases a with
  | call c => cases hs; exact .inl ⟨rfl, same rfl⟩
  | setRole role => exact .inl ⟨rfl, same (setRole_restarted hs).1.rounds⟩
  | vote q p cs resp =>
    simp only [Replica.step] at hs
    split_ifs at hs
    obtain ⟨⟨s₁, out⟩, h₁, hs⟩ := bind_eq_ok.mp hs
    cases hs
    exact .inl ⟨rfl, same (vote_rounds h₁)⟩
  | sendVoteRequests i tp vp li lt =>
    simp only [Replica.step] at hs
    split_ifs at hs
    have := sendVoteRequests_rounds hs
    exact .inl ⟨rfl, this⟩
  | requestVote k =>
    obtain ⟨r, r', hr, hf, rfl⟩ := updateRound_eq_ok hs
    have := Round.requestVote_moved hf
    exact .inr ⟨k, r, r', rfl, hr, rfl, fun _ => this.1, fun _ => this.2⟩
  | reply k m resp =>
    obtain ⟨r, r', hr, hf, rfl⟩ := updateRound_eq_ok hs
    exact .inr ⟨k, r, r', rfl, hr, rfl, fun _ => Round.reply_tally hf, fun h => nomatch h⟩
  | fail k m =>
    obtain ⟨r, r', hr, hf, rfl⟩ := updateRound_eq_ok hs
    have := Round.fail_moved hf
    exact .inr ⟨k, r, r', rfl, hr, rfl, fun _ => this.1, fun _ => this.2⟩
  | receive k m p =>
    obtain ⟨r, -, -, r', hr, -, he, ht, hk⟩ := receive_rounds hs
    exact .inr ⟨k, r, r', rfl, hr, he, fun _ => ht, fun _ => hk⟩
  | close k m =>
    obtain ⟨r, r', hr, hf, rfl⟩ := updateRound_eq_ok hs
    have := Round.closeVotes_moved hf
    exact .inr ⟨k, r, r', rfl, hr, rfl, fun _ => this.1, fun _ => this.2⟩
  | tallyReceive k =>
    obtain ⟨r, r', hr, hf, rfl⟩ := updateRound_eq_ok hs
    exact .inr ⟨k, r, r', rfl, hr, rfl, (fun h => nomatch h),
      fun _ m resp h => by rwa [Round.tallyReceive_producers hf] at h⟩
  | tallyHandle k =>
    obtain ⟨r, _, hr, _, he⟩ := tallyHandle_rounds hs
    exact .inr ⟨k, r, _, rfl, hr, he, (fun h => nomatch h), fun _ _ _ h => h⟩
  | fire k => exact .inl ⟨rfl, same (timers_eq (.inl hs)).2.2⟩
  | timeout k => exact .inl ⟨rfl, same (timers_eq (.inr (.inl hs))).2.2⟩
  | expire k => exact .inl ⟨rfl, same (timers_eq (.inr (.inr hs))).2.2⟩

/-- A step of another goroutine leaves round `k` as it was. -/
theorem round_frame {a : Action} {k : Nat} {r : Round} (hs : s.step a = .ok s')
    (ha : a.round ≠ some k) (hr : s.rounds[k]? = some r) : s'.rounds[k]? = some r := by
  rcases step_rounds hs with ⟨-, l, he, -⟩ | ⟨j, -, r', hj, -, he, -⟩
  · rw [he, List.getElem?_append_left (List.getElem?_eq_some_iff.mp hr).1, hr]
  · rw [he, List.getElem?_set_ne (by rintro rfl; exact ha hj), hr]

/-- Only the tally's own steps change its state and counters. -/
theorem tally_frame {a : Action} {k : Nat} {r : Round} (hs : s.step a = .ok s')
    (ha : a.tallies ≠ some k) (hr : s.rounds[k]? = some r) :
    ∃ r', s'.rounds[k]? = some r' ∧ r'.tally = r.tally := by
  by_cases hk : a.round = some k
  · have hn : a.tallies = none := by
      cases hc : a.tallies with
      | none => rfl
      | some j =>
        obtain rfl : k = j := Option.some.inj (hk.symm.trans (Action.round_of_tallies hc))
        exact absurd hc ha
    obtain ⟨hk', -⟩ | ⟨j, r₀, r', hj, hr₀, he, ht, -⟩ := step_rounds hs
    · rw [hk] at hk'; cases hk'
    obtain rfl : j = k := Option.some.inj (hj.symm.trans hk)
    rw [hr] at hr₀
    cases hr₀
    exact ⟨r', by rw [he, List.getElem?_set_self (List.getElem?_eq_some_iff.mp hr).1], ht hn⟩
  · exact ⟨r, round_frame hs hk hr, rfl⟩

end Replica

end AtomixRaft
