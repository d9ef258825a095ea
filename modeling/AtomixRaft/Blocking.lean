import AtomixRaft.Invariant

/-!
# No send waits

A round's `votes` has one slot per voting member, and each member's producer sends at
most once, so a producer that has not finished always finds room; an `electionExpired`
channel gets a value only when `Stop` stops its running timer, which happens once. Hence no
step of a reachable replica waits on a full channel (`sends_never_block`), including the
sends made under the write lock.
-/

namespace AtomixRaft

theorem bind_ne_blocks {α β : Type} {e : Except Fault α} {f : α → Except Fault β}
    (he : e ≠ .error .blocks) (hf : ∀ a, e = .ok a → f a ≠ .error .blocks) :
    e >>= f ≠ .error .blocks := by
  cases e with
  | error err => simpa [bind, Except.bind] using he
  | ok a => simpa [bind, Except.bind] using hf a rfl

theorem ne_blocks_of_ok {α : Type} {e : Except Fault α} {a : α} (h : e = .ok a) :
    e ≠ .error .blocks := by
  simp [h]

theorem Chan.send_ne_blocks {α : Type} {c : Chan α} (v : α)
    (h : c.buffer.length < c.capacity) : c.send v ≠ .error .blocks :=
  fun hb => Nat.lt_irrefl _ (Nat.lt_of_lt_of_le h (Chan.send_blocks hb))

namespace Round

variable {raft : ProtocolState} {r : Round}

theorem Sound.requestVote_ne_blocks (hr : r.Sound raft) :
    r.requestVote raft.cluster.member ≠ .error .blocks := by
  unfold Round.requestVote
  split
  · simp
  · rename_i m rest hpm
    have hmem : m ∈ r.votingMembers := hr.pending.subset (hpm ▸ List.mem_cons_self _ _)
    have hfin : (r.producers m).finished = false := by
      simp [(hr.waiting m).2 (.inl (hpm ▸ List.mem_cons_self _ _)), Producer.finished]
    split_ifs
    · exact bind_ne_blocks (Chan.send_ne_blocks _ (hr.room_of_unfinished hmem hfin))
        fun _ _ => by simp [pure, Except.pure]
    · simp [pure, Except.pure]

/-- A producer that was started and has not finished finds room on `votes`. -/
theorem Sound.room_of_busy (hr : r.Sound raft) {m : MemberID} (hw : r.producers m ≠ .waiting)
    (hf : (r.producers m).finished = false) : r.votes.buffer.length < r.votes.capacity :=
  hr.room_of_unfinished (hr.mem_of_ne_waiting hw) hf

theorem Sound.fail_ne_blocks (hr : r.Sound raft) (m : MemberID) : r.fail m ≠ .error .blocks := by
  unfold Round.fail
  split
  · rename_i q hq
    have hroom := hr.room_of_busy (m := m) (by simp [hq]) (by simp [hq, Producer.finished])
    exact bind_ne_blocks (Chan.send_ne_blocks _ hroom) fun _ _ => by simp [pure, Except.pure]
  · simp

end Round

namespace Replica

variable {s : Replica}

theorem setRole_ne_blocks (h : s.TimersSound) (role : RoleType) :
    s.setRole role ≠ .error .blocks :=
  let ⟨_, hs⟩ := setRole_ok h role; ne_blocks_of_ok hs

theorem updateRound_ne_blocks {k : Nat} {f : Round → Except Fault Round}
    (hf : ∀ r, s.rounds[k]? = some r → f r ≠ .error .blocks) :
    s.updateRound k f ≠ .error .blocks := by
  unfold updateRound
  split
  · rename_i r hr
    exact bind_ne_blocks (hf r hr) fun _ _ => by simp [pure, Except.pure]
  · simp

theorem Inv.vote_ne_blocks (h : s.Inv) (q : VoteRequest) (p : Bool) (cs : List Call)
    (resp : VoteResponse) : s.vote q p cs resp ≠ .error .blocks := by
  unfold Replica.vote
  dsimp only
  split_ifs
  · refine bind_ne_blocks (setRole_ne_blocks ?_ _) fun _ _ => by simp [pure, Except.pure]
    exact h.timers
  all_goals simp [pure, Except.pure]

theorem Inv.sendVoteRequests_ne_blocks (h : s.Inv) (i : Nat) (tp vp : Bool) (li : Index)
    (lt : Term) : s.sendVoteRequests i tp vp li lt ≠ .error .blocks :=
  let ⟨_, hs⟩ := sendVoteRequests_ok h.timers i tp vp li lt; ne_blocks_of_ok hs

theorem Inv.receive_ne_blocks (h : s.Inv) (k : Nat) (m : MemberID) (p : Bool) :
    s.receive k m p ≠ .error .blocks := by
  unfold Replica.receive
  split
  · rename_i r hr
    have hrs := h.rounds r (List.getElem?_mem hr)
    split
    · rename_i q resp hq
      split_ifs
      · refine bind_ne_blocks (setRole_ne_blocks ?_ _) fun _ _ => by simp [pure, Except.pure]
        exact h.timers
      · have hroom := hrs.room_of_busy (m := m) (by simp [hq]) (by simp [hq, Producer.finished])
        exact bind_ne_blocks (Chan.send_ne_blocks _ hroom) fun _ _ => by simp [pure, Except.pure]
    all_goals simp
  · simp

theorem Inv.tallyHandle_ne_blocks (h : s.Inv) (k : Nat) : s.tallyHandle k ≠ .error .blocks := by
  unfold Replica.tallyHandle
  split
  · split
    · dsimp only
      split
      · exact setRole_ne_blocks (by exact h.timers) _
      · simp [pure, Except.pure]
    · simp
  · simp

/-- No step of a reachable replica waits on a full channel: every send on a round's
`votes`, under the write lock or not, and on an `electionExpired` channel finds room. A
round's channel has one slot per voting member, and the buffer together with the producers
still to send never exceeds it, whether or not the tally still receives; an
`electionExpired` channel holds at most one value, and none while its timer runs. -/
theorem sends_never_block {s : Replica} (hs : Reachable s) :
    (∀ a, s.step a ≠ .error .blocks) ∧
    (∀ r ∈ s.rounds, r.votes.capacity = r.votingMembers.length ∧
      r.votes.buffer.length + r.live ≤ r.votes.capacity) ∧
    (∀ t ∈ s.timers, t.expired.capacity = 1 ∧ t.expired.buffer.length ≤ 1 ∧
      (t.state = .running → t.expired.buffer = [])) := by
  have h := hs.inv
  refine ⟨fun a => ?_, fun r hr => ⟨(h.rounds r hr).capacity, (h.rounds r hr).room⟩,
    fun t ht => ⟨(h.timers t ht).capacity, (h.timers t ht).size, (h.timers t ht).running⟩⟩
  cases a with
  | call c => simp [Replica.step, pure, Except.pure]
  | setRole role => exact setRole_ne_blocks h.timers role
  | vote q p cs resp =>
    simp only [Replica.step]
    split_ifs
    · intro hb
      cases hv : s.vote q p cs resp with
      | error e => rw [hv] at hb; cases hb; exact h.vote_ne_blocks q p cs resp hv
      | ok v => rw [hv] at hb; cases hb
    · simp
  | sendVoteRequests i tp vp li lt =>
    simp only [Replica.step]
    split_ifs
    · exact Inv.sendVoteRequests_ne_blocks (by exact ⟨h.raft, h.timers, h.rounds⟩) i tp vp li lt
    · simp
  | requestVote k =>
    exact updateRound_ne_blocks fun r hr =>
      (h.rounds r (List.getElem?_mem hr)).requestVote_ne_blocks
  | reply k m resp =>
    refine updateRound_ne_blocks fun r _ => ?_
    unfold Round.reply; split <;> simp [pure, Except.pure]
  | fail k m =>
    exact updateRound_ne_blocks fun r hr => (h.rounds r (List.getElem?_mem hr)).fail_ne_blocks m
  | receive k m p => exact h.receive_ne_blocks k m p
  | close k m =>
    refine updateRound_ne_blocks fun r _ => ?_
    unfold Round.closeVotes
    split
    · exact bind_ne_blocks (Chan.close_ne_blocks _) fun _ _ => by simp [pure, Except.pure]
    · simp
  | tallyReceive k =>
    refine updateRound_ne_blocks fun r _ => ?_
    unfold Round.tallyReceive; split <;> (try split) <;> simp [pure, Except.pure]
  | tallyHandle k => exact h.tallyHandle_ne_blocks k
  | fire k | timeout k | expire k =>
    simp only [Replica.step, Replica.fire, Replica.timeout, Replica.expire]
    split <;> (try split) <;> simp [pure, Except.pure]

theorem election_started_never_blocks :
    Reachable electionStarted ∧ ∀ a, electionStarted.step a ≠ .error .blocks :=
  ⟨electionStarted_reachable, (sends_never_block electionStarted_reachable).1⟩

end Replica

end AtomixRaft
