import AtomixRaft.Tally
import AtomixRaft.Hang

/-!
# No ballot is lost or counted twice

Each producer of a round sends at most one ballot on `votes`: the request loop its own
vote, a peer goroutine `false` when the RPC fails, or its `ballotValue` when the response's
term is not above the request's. A peer goroutine that saw a greater term closes `votes`
instead. The tally moves a ballot from the channel to its hand and from its hand to its
counted list, and drops one only when it exits on a stale round.

So, as long as a round's tally has not exited, the voters of its counted, held and buffered
ballots are exactly the members whose producer sent one, each once
(`ballots_conserved`). Nothing a producer sent is lost on the way, and nothing is counted
twice.
-/

namespace AtomixRaft

/-- Whether producer `p` of a round of term `t` has sent its ballot: the request loop's own
vote and a failed request send one, and a peer goroutine sends one unless its response's
term is above the request's, which is the round's. -/
def Producer.sent (t : Term) : Producer → Bool
  | .done none => true
  | .done (some response) => decide (response.term ≤ t)
  | _ => false

theorem Producer.sent_of_finished {p : Producer} {t : Term} (h : p.finished = false) :
    p.sent t = false := by
  cases p <;> simp_all [Producer.finished, Producer.sent]

namespace Round

variable {r r' : Round} {raft : ProtocolState}

/-- A peer goroutine about to close `votes` saw a term above the round's, and while the
tally has not exited, the voters of the round's ballots are the members whose producer
sent one. -/
structure Conserves (r : Round) : Prop where
  closing : ∀ m response, r.producers m = .closing response → r.term < response.term
  ballots : r.tally.state ≠ .exited →
    ∀ m, m ∈ r.ballots.map Ballot.voter ↔ (r.producers m).sent r.term = true

/-- A fresh round has no ballot and no producer that sent one. -/
theorem conserves_fresh (hs : r.Sound raft) (hw : ∀ m, r.producers m = .waiting) :
    r.Conserves := by
  refine ⟨fun m _ h => absurd (hw m ▸ h) nofun, fun _ m => ?_⟩
  have hfin : (r.producers m).finished = false := by simp [hw m, Producer.finished]
  simp [hs.not_voter hfin, Producer.sent_of_finished hfin]

/-- The producer of `m`, not finished, moves on to `p` and sends the ballots `l`: one of
`m` exactly when `p` counts as sent. -/
theorem Conserves.move (hc : r.Conserves) (hs : r.Sound raft) {m : MemberID}
    (hfin : (r.producers m).finished = false) {p : Producer}
    (hp : ∀ response, p = .closing response → r.term < response.term) {l : List Ballot}
    (hl : l.map Ballot.voter = if p.sent r.term then [m] else []) (pend : List MemberID)
    {v : Chan Ballot} (hbuf : v.buffer = r.votes.buffer ++ l) :
    ({ r with pending := pend, votes := v }.setProducer m p).Conserves := by
  refine ⟨fun m' response h => ?_, fun hx m' => ?_⟩
  · simp only [setProducer_producers] at h
    split_ifs at h
    exacts [hp response h, hc.closing m' response h]
  · rw [ballots_move r pend hbuf m p, List.map_append, List.mem_append, hl]
    simp only [setProducer_producers, setProducer_term]
    by_cases hm : m' = m
    · subst hm
      have := hs.not_voter hfin
      split_ifs <;> simp_all
    · rw [if_neg hm, hc.ballots hx m']
      split_ifs <;> simp [hm]

/-- A tally step keeps the producers and, unless the tally exits, the ballots. -/
theorem Conserves.retally (hc : r.Conserves) (hp : r'.producers = r.producers)
    (ht : r'.term = r.term)
    (hb : r'.tally.state ≠ .exited → r.tally.state ≠ .exited ∧ r'.ballots = r.ballots) :
    r'.Conserves := by
  refine ⟨fun m response h => ht ▸ hc.closing m response (hp ▸ h), fun hx m => ?_⟩
  obtain ⟨hx₀, he⟩ := hb hx
  rw [he, hp, ht]
  exact hc.ballots hx₀ m

theorem Conserves.requestVote (hc : r.Conserves) (hs : r.Sound raft)
    (h : r.requestVote raft.cluster.member = .ok r') : r'.Conserves := by
  obtain ⟨m, rest, hpm, h'⟩ := requestVote_eq_ok h
  have hfin : (r.producers m).finished = false := by
    simp [(hs.waiting m).2 (.inl (hpm ▸ List.mem_cons_self _ _)), Producer.finished]
  rcases h' with ⟨-, votes, hv, rfl⟩ | ⟨-, rfl⟩
  · obtain ⟨-, -, rfl⟩ := Chan.send_eq_ok hv
    exact hc.move hs hfin (fun _ h => by cases h) (l := [_]) (by simp [Producer.sent]) rest rfl
  · exact hc.move hs hfin (fun _ h => by cases h) (l := []) (by simp [Producer.sent]) rest
      (List.append_nil _).symm

theorem Conserves.reply (hc : r.Conserves) (hs : r.Sound raft) {m : MemberID}
    {response : VoteResponse} (h : r.reply m response = .ok r') : r'.Conserves := by
  obtain ⟨q, hq, rfl⟩ := reply_eq_ok h
  exact hc.move hs (by simp [hq, Producer.finished]) (fun _ h => by cases h) (l := [])
    (by simp [Producer.sent]) r.pending (List.append_nil _).symm

theorem Conserves.fail (hc : r.Conserves) (hs : r.Sound raft) {m : MemberID}
    (h : r.fail m = .ok r') : r'.Conserves := by
  obtain ⟨q, votes, hq, hv, rfl⟩ := fail_eq_ok h
  obtain ⟨-, -, rfl⟩ := Chan.send_eq_ok hv
  exact hc.move hs (by simp [hq, Producer.finished]) (fun _ h => by cases h) (l := [_])
    (by simp [Producer.sent]) r.pending rfl

theorem Conserves.closeVotes (hc : r.Conserves) (hs : r.Sound raft) {m : MemberID}
    (h : r.closeVotes m = .ok r') : r'.Conserves := by
  obtain ⟨response, votes, hcl, hv, rfl⟩ := closeVotes_eq_ok h
  obtain ⟨-, rfl⟩ := Chan.close_eq_ok hv
  have hgt := term_lt_iff.mp (hc.closing m response hcl)
  exact hc.move hs (by simp [hcl, Producer.finished]) (fun _ h => by cases h) (l := [])
    (by simp [Producer.sent, term_le_iff]; omega) r.pending (List.append_nil _).symm

theorem Conserves.tallyReceive (hc : r.Conserves) (h : r.tallyReceive = .ok r') :
    r'.Conserves := by
  obtain ⟨hst, ⟨b, rest, hbuf, rfl⟩ | ⟨hbuf, -, rfl⟩⟩ := tallyReceive_eq_ok h
  all_goals refine hc.retally rfl rfl fun _ => ⟨by simp [hst], ?_⟩
  all_goals simp [Round.ballots, hst, hbuf, TallyState.held]

theorem Conserves.handle (hc : r.Conserves) {b : Ballot} (hb : r.tally.state = .handling b)
    (current : Bool) (leader : Option MemberID) (q : Nat) :
    ({ r with tally := (r.tally.handle b current leader q).1 } : Round).Conserves := by
  refine hc.retally rfl rfl fun hx => ⟨by simp [hb], ?_⟩
  revert hx
  unfold Tally.handle
  dsimp only
  split_ifs <;> simp [Round.ballots, hb, TallyState.held]

end Round

namespace Replica

variable {s s' : Replica}

/-- Every round of the replica conserves its ballots. -/
def Conserved (s : Replica) : Prop := ∀ r ∈ s.rounds, r.Conserves

theorem Conserved.setRound (h : s.Conserved) {k : Nat} {r : Round} (hr : r.Conserves)
    (rounds : List Round) (he : rounds = s.rounds.set k r) : ∀ r' ∈ rounds, r'.Conserves :=
  fun r' hm => (List.mem_or_eq_of_mem_set (he ▸ hm)).elim (h r') (· ▸ hr)

theorem Conserved.updateRound (h : s.Conserved) (hi : s.Inv) {k : Nat}
    {f : Round → Except Fault Round}
    (hf : ∀ r r', r.Conserves → r.Sound s.raft → f r = .ok r' → r'.Conserves)
    (hs : s.updateRound k f = .ok s') : s'.Conserved := by
  obtain ⟨r, r', hr, hfr, rfl⟩ := updateRound_eq_ok hs
  have hm := List.getElem?_mem hr
  exact h.setRound (hf r r' (h r hm) (hi.rounds r hm) hfr) _ rfl

theorem Conserved.receive (h : s.Conserved) (hi : s.Inv) {k : Nat} {m : MemberID} {p : Bool}
    (hs : s.receive k m p = .ok s') : s'.Conserved := by
  obtain ⟨r, q, resp, hr, hq, ⟨hgt, s₁, h₁, rfl⟩ | ⟨hle, votes, hv, rfl⟩⟩ :=
    receive_eq_ok hs
  all_goals
    have hm := List.getElem?_mem hr
    have hrs := hi.rounds r hm
    have hreq := (hrs.requests m q (by simp [hq, Producer.request?])).1
    have hfin : (r.producers m).finished = false := by simp [hq, Producer.finished]
  · have hp : ∀ response, Producer.closing resp = .closing response → r.term < response.term :=
      fun _ he => by cases he; exact hreq ▸ hgt
    exact h.setRound ((h r hm).move hrs hfin hp (l := []) (by simp [Producer.sent]) r.pending
      (List.append_nil _).symm) _ (by rw [(setRole_restarted h₁).1.rounds])
  · obtain ⟨-, -, rfl⟩ := Chan.send_eq_ok hv
    have hle' : resp.term ≤ r.term := hreq ▸ UInt64.not_lt.mp hle
    exact h.setRound ((h r hm).move hrs hfin (fun _ h => by cases h) (l := [_])
      (by simp [Producer.sent, hle']) r.pending rfl) _ rfl

theorem Conserved.tallyHandle (h : s.Conserved) {k : Nat} (hs : s.tallyHandle k = .ok s') :
    s'.Conserved := by
  obtain ⟨r, b, hr, hb, he⟩ := tallyHandle_rounds hs
  exact h.setRound ((h r (List.getElem?_mem hr)).handle hb _ _ _) _ he

/-- A step that touches no round may only append fresh ones. -/
theorem Conserved.append (h : s.Conserved) (hi' : s'.Inv) {l : List Round}
    (he : s'.rounds = s.rounds ++ l) (hl : Fresh l) : s'.Conserved := by
  intro r hm
  rcases List.mem_append.mp (he ▸ hm) with hm' | hm'
  · exact h r hm'
  · exact Round.conserves_fresh (hi'.rounds r hm) (hl r hm')

theorem Conserved.step (h : s.Conserved) (hi : s.Inv) {a : Action} (hs : s.step a = .ok s') :
    s'.Conserved := by
  cases a with
  | requestVote k => exact h.updateRound hi (fun _ _ hc hr hf => hc.requestVote hr hf) hs
  | reply k m resp => exact h.updateRound hi (fun _ _ hc hr hf => hc.reply hr hf) hs
  | fail k m => exact h.updateRound hi (fun _ _ hc hr hf => hc.fail hr hf) hs
  | receive k m p => exact h.receive hi hs
  | close k m => exact h.updateRound hi (fun _ _ hc hr hf => hc.closeVotes hr hf) hs
  | tallyReceive k => exact h.updateRound hi (fun _ _ hc _ hf => hc.tallyReceive hf) hs
  | tallyHandle k => exact h.tallyHandle hs
  | _ =>
    rcases step_rounds hs with ⟨-, l, he, hl⟩ | ⟨k, -, -, ha, -⟩
    · exact h.append (hi.step hs) he hl
    · cases ha

end Replica

theorem Reachable.conserved {s : Replica} (h : Reachable s) : s.Conserved := by
  induction h with
  | init => exact fun _ h => nomatch h
  | step a hr hs ih => exact ih.step hr.inv hs

namespace Replica

/-- No ballot is lost or counted twice. In every reachable state, while a round's tally has
not exited, the voters of the ballots it counted, the one it holds and those waiting on
`votes` are the members whose producer sent a ballot, each exactly once: the loop's own
vote, a failed request, or a response whose term is not above the round's. -/
theorem ballots_conserved {s : Replica} (hs : Reachable s) {r : Round} (hr : r ∈ s.rounds)
    (hx : r.tally.state ≠ .exited) :
    ((r.tally.counted ++ r.tally.state.held ++ r.votes.buffer).map Ballot.voter).Perm
      (r.votingMembers.filter fun m => (r.producers m).sent r.term) := by
  have hrs := hs.inv.rounds r hr
  have hc := (hs.conserved r hr).ballots hx
  refine (List.perm_ext_iff_of_nodup hrs.nodup (hrs.nodup_members.filter _)).mpr fun m => ?_
  rw [List.mem_filter]
  refine ⟨fun hm => ⟨?_, (hc m).mp hm⟩, fun h => (hc m).mpr h.2⟩
  obtain ⟨b, hb, rfl⟩ := List.mem_map.mp hm
  exact hrs.voter_mem hb

theorem split_vote_ballots_conserved :
    ∃ r, splitVoteState.rounds[0]? = some r ∧ r.tally.state ≠ .exited ∧
      ((r.tally.counted ++ r.tally.state.held ++ r.votes.buffer).map Ballot.voter).Perm
        (r.votingMembers.filter fun m => (r.producers m).sent r.term) := by
  have hs : Reachable splitVoteState := (Reachable.init pairCluster 0 none).run
    (show (init pairCluster 0 none).run splitVote = .ok splitVoteState from rfl)
  exact ⟨_, rfl, by decide, ballots_conserved hs
    (List.getElem?_mem (show splitVoteState.rounds[0]? = some _ from rfl)) (by decide)⟩

end Replica

end AtomixRaft
