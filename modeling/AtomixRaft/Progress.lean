import AtomixRaft.Restart
import AtomixRaft.Tally
import AtomixRaft.Hang

/-!
# An active candidate always restarts its election

When the election timer expires before the round resolves, the candidate restarts its
election in a new round and a new term. In the code that restart is never lost and never
blocked. An active candidate always has one pending (`Replica.Live`). Each step towards it
is a step of the candidate's own and is enabled: a running timer fires, a fired one times
out and queues `sendVoteRequests`, and `sendVoteRequests` always completes. That call starts
a round in the next term, unless one of its two stores fails and it falls back to follower
(`active_candidate_starts_next_round`). So the tally a split vote leaves waiting leaks a
goroutine, but the candidate still moves on to its next round.

The request loop never waits either: while `votes` is open, its own turns send the
candidate's ballot and start one request goroutine per peer (`request_loop_completes`).

A tally ends once `votes` is closed: its own steps handle the ballots still buffered, then
its `range` finds the channel closed and empty (`closed_tally_returns`).
-/

namespace AtomixRaft

namespace Replica

variable {s : Replica} {i : Nat}

/-- Whether an action is a step of candidate `i` towards its next round: one of its election
timers fires, the timer's goroutine takes the timeout case, or a `sendVoteRequests` it
queued takes the lock. -/
def restartsFor (s : Replica) (i : Nat) : Action → Bool
  | .fire k | .timeout k => s.timers[k]?.map (·.role) == some i
  | .sendVoteRequests j .. => j == i
  | _ => false

/-- A step of candidate `i`'s restart; no other goroutine and no call from outside takes
part. -/
def RestartNext (i : Nat) (s s' : Replica) : Prop :=
  ∃ a, s.restartsFor i a = true ∧ s.step a = .ok s'

theorem fire_eq {k : Nat} {t : ElectionTimer} (hk : s.timers[k]? = some t)
    (hr : t.state = .running) :
    s.fire k = .ok { s with timers := s.timers.set k { t with state := .fired } } := by
  simp only [fire, hk, hr, ↓reduceIte]
  rfl

theorem timeout_eq {k : Nat} {t : ElectionTimer} (hk : s.timers[k]? = some t)
    (hsel : t.selecting = true) (hf : t.state = .fired) (ha : s.active t.role = true) :
    s.timeout k = .ok { s with
      timers := s.timers.set k { t with selecting := false }
      calls := s.calls ++ [t.role] } := by
  simp only [timeout, hk]
  rw [if_pos ⟨hsel, hf⟩]
  split_ifs with h
  · rfl
  · exact absurd ha h

/-- A fired timer whose goroutine still selects times out and queues its candidate's
`sendVoteRequests`. -/
theorem timeout_queues {k : Nat} {t : ElectionTimer} (hk : s.timers[k]? = some t)
    (hsel : t.selecting = true) (hf : t.state = .fired) (ha : s.active t.role = true) :
    ∃ s', RestartNext t.role s s' ∧ t.role ∈ s'.calls ∧ s'.raft = s.raft ∧
      s'.rounds = s.rounds ∧ s'.active t.role = true :=
  ⟨_, ⟨.timeout k, by simp [restartsFor, hk], timeout_eq hk hsel hf ha⟩, by simp, rfl, rfl, ha⟩

/-- The timer alone brings an active candidate to a state with its `sendVoteRequests`
queued, without touching the protocol state or the rounds. -/
theorem queued_of_active (hs : Reachable s) (hi : s.active i = true) :
    ∃ s', Relation.ReflTransGen (RestartNext i) s s' ∧ i ∈ s'.calls ∧ s'.raft = s.raft ∧
      s'.rounds = s.rounds ∧ s'.active i = true := by
  by_cases hc : i ∈ s.calls
  · exact ⟨s, .refl, hc, rfl, rfl, hi⟩
  have hl := hs.live
  obtain ⟨t, ht, htp⟩ : ∃ t ∈ s.timers, (t.role == i && t.pending) = true := by
    have hp := hl.pending i hi
    have : s.calls.count i = 0 := List.count_eq_zero.mpr hc
    exact List.countP_pos_iff.mp (by simp only [restarts] at hp; omega)
  obtain ⟨hr, hp⟩ : t.role = i ∧ t.pending = true := by simpa using htp
  obtain ⟨k, hk⟩ := List.mem_iff_getElem?.mp ht
  subst hr
  cases hst : t.state with
  | running =>
    have hk' := List.getElem?_set_self (a := { t with state := .fired })
      (List.getElem?_eq_some_iff.mp hk).1
    obtain ⟨s₂, hn, h⟩ := timeout_queues (s := { s with timers := _ }) hk'
      ((hl.timers t ht).selecting hst) rfl hi
    exact ⟨s₂, .tail (.single ⟨.fire k, by simp [restartsFor, hk], fire_eq hk hst⟩) hn, h⟩
  | fired =>
    have hsel : t.selecting = true := by simpa [ElectionTimer.pending, hst] using hp
    obtain ⟨s₂, hn, h⟩ := timeout_queues hk hsel hst hi
    exact ⟨s₂, .single hn, h⟩
  | stopped => simp [ElectionTimer.pending, hst] at hp

/-- An active candidate always restarts its election. From any reachable state, and
whether its stores succeed or fail, its own steps (its timer firing and timing out, then its
queued `sendVoteRequests`) reach a state with a new round of the candidate in the next term,
in which the replica voted for itself. Only when `SetTerm(Term() + 1)` or `SetLastVotedFor`
fails do they reach instead a state where the replica is a follower, the candidate is
stopped and no round was added. -/
theorem active_candidate_starts_next_round (hs : Reachable s) (hi : s.active i = true)
    (tp vp : Bool) (li : Index) (lt : Term) :
    ∃ s', Relation.ReflTransGen (RestartNext i) s s' ∧
      ((s.raft.term < s'.raft.term ∧ s'.raft.term = s.raft.term + 1 ∧
          s'.raft.lastVotedFor = some s.raft.cluster.member ∧
          s'.rounds = s.rounds ++ [Round.start i s'.raft.term s.raft.cluster.members li lt]) ∨
        (((∃ e, s.raft.setTerm (s.raft.term + 1) tp = .error e) ∨
            ∃ raft e, s.raft.setTerm (s.raft.term + 1) tp = .ok raft ∧
              raft.setLastVotedFor raft.cluster.member vp = .error e) ∧
          s'.raft.role = .follower ∧ s'.active i = false ∧ s'.rounds = s.rounds)) := by
  obtain ⟨s₁, hrun, hq, hraft, hrounds, ha⟩ := queued_of_active hs hi
  have hs₁ := hs.later (hrun.mono fun _ _ h => ⟨h.choose, h.choose_spec.2⟩)
  have hl₁ := hs₁.live
  have ho₁ := hs₁.oneRestart
  obtain ⟨s', h'⟩ := sendVoteRequests_ok (s := { s₁ with calls := s₁.calls.erase i })
    hs₁.inv.timers i tp vp li lt
  refine ⟨s', hrun.tail ⟨.sendVoteRequests i tp vp li lt, by simp [restartsFor],
    by simpa [step, hq] using h'⟩, ?_⟩
  obtain ⟨s₂, h₂, ⟨hlt, rfl⟩ | ⟨hf, s₃, e, hr₃, h₃⟩⟩ :=
    sendVoteRequests_active (s := { s₁ with calls := s₁.calls.erase i }) ha h'
  · refine .inl ⟨by simpa [hraft] using hlt, by simp [hraft], by simp [hraft], ?_⟩
    simp [hraft, (resetElectionTimeout_restarted h₂).rounds, hrounds]
  · have l₃ := (resetElectionTimeout_live h₂ hl₁.current hl₁.timers ho₁.owned (ho₁.idle hq).2
      ha).same e
    obtain ⟨r₃, hrole⟩ := switchTo_restarted h₃
    exact .inr ⟨hraft ▸ hf, hrole, (switchTo_inactive l₃.current l₃.timers h₃).1 i,
      r₃.rounds.trans (hr₃.trans ((resetElectionTimeout_restarted h₂).rounds.trans hrounds))⟩

theorem split_vote_starts_next_round :
    ∃ s', Relation.ReflTransGen (RestartNext 0) splitVoteState s' ∧
      (s'.rounds.length = 2 ∨ s'.raft.role = .follower) := by
  have hs : Reachable splitVoteState := (Reachable.init pairCluster 0 none).run
    (show (init pairCluster 0 none).run splitVote = .ok splitVoteState from rfl)
  have hl : splitVoteState.rounds.length = 1 := by decide
  obtain ⟨s', hrun, h⟩ := active_candidate_starts_next_round hs (i := 0) (by decide) true true 0 0
  refine ⟨s', hrun, h.imp (fun h => ?_) (fun h => h.2.1)⟩
  rw [h.2.2.2, List.length_append, hl]
  rfl

/-! ## The request loop completes -/

theorem updateRound_eq {k : Nat} {r r' : Round} {f : Round → Except Fault Round}
    (hr : s.rounds[k]? = some r) (hf : f r = .ok r') :
    s.updateRound k f = .ok { s with rounds := s.rounds.set k r' } := by
  simp only [updateRound, hr, hf, bind, Except.bind, pure, Except.pure]

/-- A turn of round `k`'s request loop. -/
def LoopNext (k : Nat) (s s' : Replica) : Prop := s.step (.requestVote k) = .ok s'

/-- What the loop's next turn does to its producers: the replica's own ballot is sent, and
any other member gets a goroutine requesting its vote in the round's term. -/
def loopProducer (r : Round) (self m : MemberID) : Producer :=
  if m = self then .done none else .requesting ⟨r.term, self, r.lastIndex, r.lastTerm⟩

/-- A turn of the request loop on an open channel always runs: a pending member's producer
is still waiting, so the candidate's own ballot finds room on `votes`. -/
theorem requestVote_turn {raft : ProtocolState} {r : Round} (hr : r.Sound raft)
    {m : MemberID} {rest : List MemberID} (hp : r.pending = m :: rest)
    (hc : r.votes.closed = false) :
    ∃ r', r.requestVote raft.cluster.member = .ok r' ∧ r'.pending = rest ∧
      r'.votes.closed = false ∧ r'.term = r.term ∧ r'.lastIndex = r.lastIndex ∧
      r'.lastTerm = r.lastTerm ∧ ∀ m', r'.producers m' =
        if m' = m then loopProducer r raft.cluster.member m else r.producers m' := by
  have hm : m ∈ r.pending := hp ▸ List.mem_cons_self _ _
  have hfin : (r.producers m).finished = false := by
    simp [(hr.waiting m).2 (.inl hm), Producer.finished]
  have hroom := hr.room_of_unfinished (hr.pending.subset hm) hfin
  unfold Round.requestVote loopProducer
  simp only [hp]
  split_ifs with hself
  · simp only [Chan.send, hc, hroom, Bool.false_eq_true, ↓reduceIte, bind, Except.bind, pure,
      Except.pure]
    exact ⟨_, rfl, rfl, rfl, rfl, rfl, rfl, fun m' => by simp [hself]⟩
  · exact ⟨_, rfl, rfl, hc, rfl, rfl, rfl, fun m' => by simp [hself]⟩

/-- The loop's turns from a round with `l` still pending reach the end of the loop, each
pending member's producer set as its turn sets it. -/
theorem loop_completes (l : List MemberID) {k : Nat} :
    ∀ {s : Replica} {r : Round}, Reachable s → s.rounds[k]? = some r → r.pending = l →
      r.votes.closed = false →
      ∃ s', Relation.ReflTransGen (LoopNext k) s s' ∧ s'.raft = s.raft ∧
        ∃ r', s'.rounds[k]? = some r' ∧ r'.pending = [] ∧ ∀ m, r'.producers m =
          if m ∈ l then loopProducer r s.raft.cluster.member m else r.producers m := by
  induction l with
  | nil => exact fun _ hr hp _ => ⟨_, .refl, rfl, _, hr, hp, fun m => by simp⟩
  | cons m rest ih =>
    intro s r hs hr hp hc
    have hrs := hs.inv.rounds r (List.getElem?_mem hr)
    have hnd : (m :: rest).Nodup := hp ▸ hrs.nodup_members.sublist hrs.pending.sublist
    obtain ⟨r₁, h₁, hp₁, hc₁, ht₁, hi₁, hl₁, hprod₁⟩ := requestVote_turn hrs hp hc
    have hstep : LoopNext k s { s with rounds := s.rounds.set k r₁ } := updateRound_eq hr h₁
    obtain ⟨s', hrun, hraft, r', hr', hp', hprod⟩ := ih (hs.step _ hstep)
      (List.getElem?_set_self (List.getElem?_eq_some_iff.mp hr).1) hp₁ hc₁
    refine ⟨s', .head hstep hrun, hraft, r', hr', hp', fun m' => ?_⟩
    rw [hprod, hprod₁]
    by_cases hm' : m' = m
    · subst hm'
      simp [(List.nodup_cons.mp hnd).1]
    · simp [hm', loopProducer, ht₁, hi₁, hl₁]

/-- The request loop of a round whose `votes` is still open always completes by its own
turns, none of which waits: it sends the candidate's own ballot and starts one goroutine
for each other member still pending, requesting its vote with a `VoteRequest` of the round's
term that names the replica, and it leaves every other producer as it was. -/
theorem request_loop_completes (hs : Reachable s) {k : Nat} {r : Round}
    (hr : s.rounds[k]? = some r) (hc : r.votes.closed = false) :
    ∃ s', Relation.ReflTransGen (LoopNext k) s s' ∧ ∃ r', s'.rounds[k]? = some r' ∧
      r'.pending = [] ∧ ∀ m, r'.producers m =
        if m ∈ r.pending then
          (if m = s.raft.cluster.member then .done none
            else .requesting ⟨r.term, s.raft.cluster.member, r.lastIndex, r.lastTerm⟩)
        else r.producers m :=
  let ⟨s', hrun, _, h⟩ := loop_completes r.pending hs hr rfl hc
  ⟨s', hrun, h⟩

theorem started_round_requests_every_peer :
    ∃ s', Relation.ReflTransGen (LoopNext 0) electionStarted s' ∧ ∃ r', s'.rounds[0]? = some r' ∧
      r'.pending = [] ∧ r'.producers "bar" = .requesting ⟨1, "foo", 0, 0⟩ ∧
      r'.producers "baz" = .requesting ⟨1, "foo", 0, 0⟩ ∧ r'.producers "foo" = .done none := by
  obtain ⟨s', hrun, r', hr', hp, hprod⟩ := request_loop_completes electionStarted_reachable
    (show electionStarted.rounds[0]? = some _ from rfl) rfl
  exact ⟨s', hrun, r', hr', hp, (hprod "bar").trans (by decide), (hprod "baz").trans (by decide),
    (hprod "foo").trans (by decide)⟩

/-! ## A tally on a closed channel returns -/

/-- A step of the tally goroutine of round `k`: its `range` takes a value, or it handles one. -/
def TallyNext (k : Nat) (s s' : Replica) : Prop := ∃ a, a.tallies = some k ∧ s.step a = .ok s'

theorem TallyNext.reachable {k : Nat} {s' : Replica} (hs : Reachable s) (h : TallyNext k s s') :
    Reachable s' :=
  .step _ hs h.choose_spec.2

theorem tallyHandle_ok {k : Nat} {r : Round} {b : Ballot} (h : s.TimersSound)
    (hr : s.rounds[k]? = some r) (hb : r.tally.state = .handling b) :
    ∃ s', s.tallyHandle k = .ok s' := by
  simp only [tallyHandle, hr, hb]
  split
  · exact setRole_ok (by exact h) _
  · exact ⟨_, rfl⟩

/-- A tally holding a ballot handles it, and then has returned or is back in its `range`
over the same channel. -/
theorem handling_step {k : Nat} {r : Round} {b : Ballot} (h : s.TimersSound)
    (hr : s.rounds[k]? = some r) (hb : r.tally.state = .handling b) :
    ∃ s' r', TallyNext k s s' ∧ s'.rounds[k]? = some r' ∧ r'.votes = r.votes ∧
      (r'.tally.state.returned = true ∨ r'.tally.state = .receiving) := by
  obtain ⟨s', hs'⟩ := tallyHandle_ok h hr hb
  obtain ⟨r₀, b₀, hr₀, -, he⟩ := tallyHandle_rounds hs'
  rw [hr] at hr₀
  cases hr₀
  refine ⟨s', _, ⟨.tallyHandle k, rfl, hs'⟩,
    he ▸ List.getElem?_set_self (List.getElem?_eq_some_iff.mp hr).1, ?_, ?_⟩
  · rfl
  · exact Tally.handle_next

/-- The `range` of a tally over a closed channel takes the next buffered ballot, one fewer
remaining, or finds the channel empty and returns. -/
theorem receiving_step {k : Nat} {r : Round} (hr : s.rounds[k]? = some r)
    (hst : r.tally.state = .receiving) (hc : r.votes.closed = true) :
    ∃ s' r', TallyNext k s s' ∧ s'.rounds[k]? = some r' ∧ r'.votes.closed = true ∧
      (r'.tally.state.returned = true ∨ ∃ b, r'.tally.state = .handling b ∧
        r'.votes.buffer.length + 1 = r.votes.buffer.length) := by
  have hk := (List.getElem?_eq_some_iff.mp hr).1
  cases hbuf : r.votes.buffer with
  | nil =>
    exact ⟨_, _, ⟨.tallyReceive k, rfl,
      updateRound_eq hr (Round.tallyReceive_drained hst hbuf hc)⟩, List.getElem?_set_self hk, hc,
      .inl rfl⟩
  | cons b rest =>
    exact ⟨_, _, ⟨.tallyReceive k, rfl, updateRound_eq hr (Round.tallyReceive_cons hst hbuf)⟩,
      List.getElem?_set_self hk, hc, .inr ⟨b, rfl, by simp [hbuf]⟩⟩

/-- From its `range` over a closed channel, the tally's own steps reach its return: each
ballot it takes leaves one fewer in the buffer. -/
theorem receiving_returns {k : Nat} (n : Nat) : ∀ {s : Replica} {r : Round}, Reachable s →
    s.rounds[k]? = some r → r.votes.closed = true → r.tally.state = .receiving →
    r.votes.buffer.length = n → ∃ s', Relation.ReflTransGen (TallyNext k) s s' ∧
      ∃ r', s'.rounds[k]? = some r' ∧ r'.tally.state.returned = true := by
  induction n using Nat.strong_induction_on with
  | _ n ih =>
  intro s r hs hr hc hst hn
  obtain ⟨s₁, r₁, h₁, hr₁, hc₁, hret | ⟨b, hb, hlen⟩⟩ := receiving_step hr hst hc
  · exact ⟨s₁, .single h₁, r₁, hr₁, hret⟩
  have hs₁ := h₁.reachable hs
  obtain ⟨s₂, r₂, h₂, hr₂, hv, hret | hst₂⟩ := handling_step hs₁.inv.timers hr₁ hb
  · exact ⟨s₂, .tail (.single h₁) h₂, r₂, hr₂, hret⟩
  obtain ⟨s', hrun, h'⟩ :=
    ih _ (by rw [hv]; omega) (h₂.reachable hs₁) hr₂ (hv ▸ hc₁) hst₂ rfl
  exact ⟨s', .head h₁ (.head h₂ hrun), h'⟩

/-- A tally whose `votes` channel was closed always returns, by its own steps alone: it
handles the ballots still buffered, and its `range` then ends on the closed, empty channel.
No other goroutine has to take a step, so once a peer goroutine closed `votes` the tally
goroutine cannot leak. -/
theorem closed_tally_returns {k : Nat} {r : Round} (hs : Reachable s)
    (hr : s.rounds[k]? = some r) (hc : r.votes.closed = true) :
    ∃ s', Relation.ReflTransGen (TallyNext k) s s' ∧
      ∃ r', s'.rounds[k]? = some r' ∧ r'.tally.state.returned = true := by
  cases hst : r.tally.state with
  | receiving => exact receiving_returns _ hs hr hc hst rfl
  | handling b =>
    obtain ⟨s₁, r₁, h₁, hr₁, hv, hret | hst₁⟩ := handling_step hs.inv.timers hr hst
    · exact ⟨s₁, .single h₁, r₁, hr₁, hret⟩
    obtain ⟨s', hrun, h'⟩ :=
      receiving_returns _ (h₁.reachable hs) hr₁ (hv ▸ hc) hst₁ rfl
    exact ⟨s', .head h₁ hrun, h'⟩
  | _ => exact ⟨s, .refl, r, hr, by simp [hst, TallyState.returned]⟩

/-- Round 0 of `foo` in `pairCluster`: `foo`'s own vote is buffered, then `bar` answers with
term 2 and its goroutine adopts the term, switches to follower and closes `votes` before the
tally took anything. -/
def closedWithBallot : List Action :=
  [.setRole .candidate, .sendVoteRequests 0 true true 0 0, .requestVote 0, .requestVote 0,
   .reply 0 "bar" ⟨.ok, 2, false⟩, .receive 0 "bar" true, .close 0 "bar"]

def closedVotesState : Replica :=
  match (init pairCluster 0 none).run closedWithBallot with
  | .ok s => s
  | .error _ => init pairCluster 0 none

theorem closed_votes_tally_returns :
    ∃ s', Relation.ReflTransGen (TallyNext 0) closedVotesState s' ∧
      ∃ r', s'.rounds[0]? = some r' ∧ r'.tally.state.returned = true :=
  closed_tally_returns ((Reachable.init _ _ _).run
    (show (init pairCluster 0 none).run closedWithBallot = .ok closedVotesState from rfl))
    rfl (by decide)

end Replica

/-! ## Every election timer goroutine returns -/

namespace ElectionTimer

/-- A stopped timer whose goroutine still selects has a value waiting on its
`electionExpired`: the one `Stop` or `resetElectionTimeout` sent after stopping it. -/
def Expires (t : ElectionTimer) : Prop :=
  t.state = .stopped → t.selecting = true → t.expired.buffer ≠ []

theorem expires_start (i : Nat) : (start i).Expires := nofun

theorem Expires.cancel {t t' : ElectionTimer} {b : Bool} (h : t.Expires)
    (hc : t.cancel = .ok (b, t')) : t'.Expires := by
  unfold ElectionTimer.cancel at hc
  split_ifs at hc
  · obtain ⟨e, he, hc⟩ := bind_eq_ok.mp hc
    obtain ⟨-, -, rfl⟩ := Chan.send_eq_ok he
    cases hc
    exact fun _ _ => by simp
  · cases hc
    exact h

end ElectionTimer

namespace Replica

variable {s s' : Replica} {i : Nat}

/-- Every timer of the replica is `Expires`. -/
def TimersExpire (s : Replica) : Prop := ∀ t ∈ s.timers, t.Expires

theorem TimersExpire.set (h : s.TimersExpire) {k : Nat} {t : ElectionTimer} (ht : t.Expires) :
    ({ s with timers := s.timers.set k t } : Replica).TimersExpire :=
  fun t' hm => (List.mem_or_eq_of_mem_set hm).elim (h t') (· ▸ ht)

theorem TimersExpire.stopTimer (h : s.TimersExpire) {b : Bool}
    (hs : s.stopTimer i = .ok (b, s')) : s'.TimersExpire := by
  rcases stopTimer_eq_ok hs with ⟨-, rfl⟩ | ⟨c, k, t, t', -, -, hk, hcan, rfl⟩
  · exact h
  · exact h.set ((h t (List.getElem?_mem hk)).cancel hcan)

theorem TimersExpire.stopRole (h : s.TimersExpire) (hs : s.stopRole = .ok s') :
    s'.TimersExpire := by
  unfold Replica.stopRole at hs
  split at hs
  · obtain ⟨⟨b, s₁⟩, h₁, hs⟩ := bind_eq_ok.mp hs
    cases hs
    exact (h.stopTimer h₁ : s₁.TimersExpire)
  · cases hs
    exact h

theorem TimersExpire.switchTo (h : s.TimersExpire) {role : RoleType}
    (hs : s.switchTo role = .ok s') : s'.TimersExpire := by
  obtain ⟨s₁, h₁, hs⟩ := bind_eq_ok.mp hs
  cases hs
  exact (h.stopRole h₁ : s₁.TimersExpire)

theorem TimersExpire.setRole (h : s.TimersExpire) {role : RoleType}
    (hs : s.setRole role = .ok s') : s'.TimersExpire := by
  cases role with
  | candidate =>
    obtain ⟨s₁, h₁, hs⟩ := bind_eq_ok.mp hs
    have h₁' : s₁.newCandidateRole.TimersExpire := (h.stopRole h₁ : s₁.TimersExpire)
    unfold Replica.start at hs
    split_ifs at hs
    · exact h₁'.switchTo hs
    · cases hs
      exact h₁'
  | _ => exact h.switchTo hs

theorem TimersExpire.resetElectionTimeout (h : s.TimersExpire)
    (hs : s.resetElectionTimeout i = .ok s') : s'.TimersExpire := by
  obtain ⟨⟨b, s₁⟩, h₁, hs⟩ := bind_eq_ok.mp hs
  have h₁' := h.stopTimer h₁
  dsimp only at hs
  split at hs <;> cases hs
  · exact h₁'
  · intro t hm
    rcases List.mem_append.mp hm with hm | hm
    · exact h₁' t hm
    · exact List.mem_singleton.mp hm ▸ ElectionTimer.expires_start i

theorem TimersExpire.sendVoteRequests (h : s.TimersExpire) {tp vp : Bool} {li : Index}
    {lt : Term} (hs : s.sendVoteRequests i tp vp li lt = .ok s') : s'.TimersExpire := by
  rcases sendVoteRequests_eq_ok hs with ⟨-, rfl⟩ | ⟨s₁, -, h₁, h'⟩
  · exact h
  have h₁' := h.resetElectionTimeout h₁
  rcases h' with ⟨-, hs⟩ | ⟨raft₁, -, ⟨-, hs⟩ | ⟨raft₂, -, rfl⟩⟩
  · exact h₁'.setRole hs
  · exact TimersExpire.setRole (s := { s₁ with raft := raft₁ }) h₁' hs
  · exact h₁'

/-- A step of election timer `k`, or of the goroutine that selects on it. -/
def TimerNext (k : Nat) (s s' : Replica) : Prop :=
  s.fire k = .ok s' ∨ s.timeout k = .ok s' ∨ s.expire k = .ok s'

theorem TimersExpire.timer (h : s.TimersExpire) {k : Nat} (hs : TimerNext k s s') :
    s'.TimersExpire := by
  obtain ⟨t, -, h'⟩ := timer_eq_ok hs
  rcases h' with ⟨-, rfl⟩ | ⟨-, -, ⟨-, rfl⟩ | ⟨-, rfl⟩⟩ | ⟨v, rest, -, -, rfl⟩
  · exact h.set nofun
  · exact h.set fun _ => nofun
  · exact TimersExpire.set (s := s) h (k := k) (fun _ => nofun)
  · exact h.set fun _ => nofun

theorem TimersExpire.step (h : s.TimersExpire) {a : Action} (hs : s.step a = .ok s') :
    s'.TimersExpire := by
  rcases step_roles hs with
    e | ⟨s₁, s₂, role, h₂, e₁, e₂⟩ | ⟨i, tp, vp, li, lt, -, h₁⟩ | ⟨k, h₁⟩
  · exact fun t hm => h t (e.timers ▸ hm)
  · have h₂' := TimersExpire.setRole (fun t hm => h t (e₁.timers ▸ hm)) h₂
    exact fun t hm => h₂' t (e₂.timers ▸ hm)
  · exact TimersExpire.sendVoteRequests (s := { s with calls := s.calls.erase i }) h h₁
  · exact h.timer h₁

end Replica

theorem Reachable.timersExpire {s : Replica} (h : Reachable s) : s.TimersExpire := by
  induction h with
  | init => exact fun _ h => nomatch h
  | step a _ hs ih => exact ih.step hs

namespace Replica

variable {s : Replica}

theorem timeout_ok {k : Nat} {t : ElectionTimer} (hk : s.timers[k]? = some t)
    (hsel : t.selecting = true) (hf : t.state = .fired) :
    ∃ s', s.timeout k = .ok s' ∧ s'.timers[k]? = some { t with selecting := false } := by
  have hlt := (List.getElem?_eq_some_iff.mp hk).1
  simp only [timeout, hk, hsel, hf, and_self, ↓reduceIte]
  split_ifs <;> exact ⟨_, rfl, List.getElem?_set_self hlt⟩

theorem expire_ok {k : Nat} {t : ElectionTimer} (hk : s.timers[k]? = some t)
    (hsel : t.selecting = true) (hb : t.expired.buffer ≠ []) :
    ∃ s' t', s.expire k = .ok s' ∧ s'.timers[k]? = some t' ∧ t'.selecting = false := by
  obtain ⟨v, rest, hvr⟩ := List.exists_cons_of_ne_nil hb
  let t' : ElectionTimer := { t with selecting := false, expired.buffer := rest }
  refine ⟨{ s with timers := s.timers.set k t' }, t', ?_,
    List.getElem?_set_self (List.getElem?_eq_some_iff.mp hk).1, rfl⟩
  simp only [expire, hk, hsel, hvr]
  rfl

/-- Every election timer goroutine returns, by its own steps and its timer's firing alone:
a running timer fires and the goroutine takes the `timer.C` case, a fired one takes it at
once, and a stopped one finds the value that `Stop` or `resetElectionTimeout` sent on its
`electionExpired` after stopping it. So `resetElectionTimeout` leaks no goroutine. -/
theorem timer_goroutine_returns (hs : Reachable s) {k : Nat} {t : ElectionTimer}
    (hk : s.timers[k]? = some t) :
    ∃ s', Relation.ReflTransGen (TimerNext k) s s' ∧
      ∃ t', s'.timers[k]? = some t' ∧ t'.selecting = false := by
  cases hsel : t.selecting
  · exact ⟨s, .refl, t, hk, hsel⟩
  cases hst : t.state with
  | running =>
    have hk' := List.getElem?_set_self (a := { t with state := .fired })
      (List.getElem?_eq_some_iff.mp hk).1
    obtain ⟨s₂, h₂, hk₂⟩ := timeout_ok (s := { s with timers := _ }) hk' hsel rfl
    exact ⟨s₂, .tail (.single (.inl (fire_eq hk hst))) (.inr (.inl h₂)), _, hk₂, rfl⟩
  | fired =>
    obtain ⟨s₂, h₂, hk₂⟩ := timeout_ok hk hsel hst
    exact ⟨s₂, .single (.inr (.inl h₂)), _, hk₂, rfl⟩
  | stopped =>
    obtain ⟨s₂, t₂, h₂, hk₂, hsel₂⟩ :=
      expire_ok hk hsel (hs.timersExpire t (List.getElem?_mem hk) hst hsel)
    exact ⟨s₂, .single (.inr (.inr h₂)), t₂, hk₂, hsel₂⟩

/-- The candidate of `electionStarted` is stopped by `SetRole(Follower)`, which stops its
running election timer and sends on `electionExpired`. -/
def stoppedCandidate : Replica :=
  match electionStarted.step (.setRole .follower) with
  | .ok s => s
  | .error _ => electionStarted

theorem stopped_timer_goroutine_returns :
    ∃ t, stoppedCandidate.timers[0]? = some t ∧ t.state = .stopped ∧
      ∃ s', Relation.ReflTransGen (TimerNext 0) stoppedCandidate s' ∧
        ∃ t', s'.timers[0]? = some t' ∧ t'.selecting = false :=
  ⟨_, rfl, rfl, timer_goroutine_returns (show Reachable stoppedCandidate from
    .step (.setRole .follower) electionStarted_reachable rfl) rfl⟩

end Replica

end AtomixRaft
