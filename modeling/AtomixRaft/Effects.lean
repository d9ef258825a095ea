import AtomixRaft.Candidate

/-!
# What the role changes do

`SetRole`, `Stop` and `resetElectionTimeout` are called from most steps. This module says
once what they can change (`Restarted`): the role and the candidates, never the term, the
votes or the rounds; a stopped candidate stays stopped; and an `electionExpired` channel
has room whenever its timer is running, so these calls never wait (`setRole_ok`).
-/

namespace AtomixRaft

theorem bind_eq_ok {ε α β : Type} {e : Except ε α} {f : α → Except ε β} {b : β} :
    e >>= f = .ok b ↔ ∃ a, e = .ok a ∧ f a = .ok b := by
  cases e <;> simp [bind, Except.bind]

/-- An `electionExpired` channel has capacity one, is never closed, and holds a value
only once its timer was stopped. -/
structure ElectionTimer.Sound (t : ElectionTimer) : Prop where
  capacity : t.expired.capacity = 1
  notClosed : t.expired.closed = false
  running : t.state = .running → t.expired.buffer = []
  size : t.expired.buffer.length ≤ 1

theorem ElectionTimer.sound_start (i : Nat) : (ElectionTimer.start i).Sound :=
  ⟨rfl, rfl, fun _ => rfl, Nat.zero_le _⟩

theorem ElectionTimer.cancel_spec {t : ElectionTimer} (ht : t.Sound) :
    ∃ b t', t.cancel = .ok (b, t') ∧ t'.Sound := by
  unfold cancel
  split_ifs with h
  · refine ⟨true, { t with state := .stopped, expired := { t.expired with buffer := [true] } },
      ?_, ⟨ht.capacity, ht.notClosed, by simp, by simp⟩⟩
    simp [Chan.send, ht.notClosed, ht.running h, ht.capacity, bind, Except.bind, pure,
      Except.pure]
  · exact ⟨false, t, rfl, ht⟩

theorem ElectionTimer.cancel_sound {t t' : ElectionTimer} {b : Bool}
    (h : t.cancel = .ok (b, t')) (ht : t.Sound) : t'.Sound := by
  obtain ⟨b', t'', h', ht''⟩ := cancel_spec ht
  rw [h] at h'
  cases h'
  exact ht''

namespace Replica

def TimersSound (s : Replica) : Prop := ∀ t ∈ s.timers, t.Sound

/-- Candidate `i` exists and was stopped. -/
def stopped (s : Replica) (i : Nat) : Prop := ∃ c, s.candidates[i]? = some c ∧ c.active = false

theorem active_eq_false {s : Replica} {i : Nat} (h : s.stopped i) : s.active i = false := by
  obtain ⟨c, hc, ha⟩ := h
  simp [active, hc, ha]

theorem stopped_modify {cs : List CandidateRole} {f : CandidateRole → CandidateRole} {i j : Nat}
    (hf : ∀ c, c.active = false → (f c).active = false)
    (h : ∃ c, cs[j]? = some c ∧ c.active = false) :
    ∃ c, (cs.modify f i)[j]? = some c ∧ c.active = false := by
  obtain ⟨c, hc, ha⟩ := h
  by_cases hij : i = j
  · exact ⟨f c, by simp [List.getElem?_modify, hc, hij], hf c ha⟩
  · exact ⟨c, by simp [List.getElem?_modify, hc, hij], ha⟩

theorem stopped_append {cs : List CandidateRole} {c' : CandidateRole} {j : Nat}
    (h : ∃ c, cs[j]? = some c ∧ c.active = false) :
    ∃ c, (cs ++ [c'])[j]? = some c ∧ c.active = false := by
  obtain ⟨c, hc, ha⟩ := h
  exact ⟨c, by rw [List.getElem?_append_left (List.getElem?_eq_some_iff.mp hc).1]; exact hc, ha⟩

/-- What stopping and starting roles may change: the role, the candidates, the queued
calls and the timers. A stopped candidate stays stopped and sound timers stay sound. -/
structure Restarted (s s' : Replica) : Prop where
  raft : s'.raft = { s.raft with role := s'.raft.role }
  rounds : s'.rounds = s.rounds
  timers : s.TimersSound → s'.TimersSound
  stopped : ∀ i, s.stopped i → s'.stopped i

theorem Restarted.grows {s s' : Replica} (h : Restarted s s') : s.raft.Grows s'.raft :=
  h.raft ▸ ProtocolState.grows_role _ _

theorem Restarted.refl (s : Replica) : Restarted s s := ⟨rfl, rfl, id, fun _ => id⟩

theorem Restarted.trans {s₁ s₂ s₃ : Replica} (h₁ : Restarted s₁ s₂) (h₂ : Restarted s₂ s₃) :
    Restarted s₁ s₃ :=
  ⟨by rw [h₂.raft, h₁.raft], h₂.rounds.trans h₁.rounds, h₂.timers ∘ h₁.timers,
    fun i => h₂.stopped i ∘ h₁.stopped i⟩

theorem stopTimer_restarted {s s' : Replica} {i : Nat} {b : Bool}
    (h : s.stopTimer i = .ok (b, s')) : Restarted s s' := by
  unfold stopTimer at h
  split at h
  · split at h
    · rename_i k _ t hk
      obtain ⟨⟨b', t'⟩, hc, h⟩ := bind_eq_ok.mp h
      cases h
      refine ⟨rfl, rfl, fun hs x hx => ?_, fun _ => id⟩
      rcases List.mem_or_eq_of_mem_set hx with hx | rfl
      exacts [hs x hx, ElectionTimer.cancel_sound hc (hs t (List.getElem?_mem hk))]
    · cases h; exact .refl s
  · cases h; exact .refl s

theorem stopTimer_ok {s : Replica} (h : s.TimersSound) (i : Nat) :
    ∃ b s', s.stopTimer i = .ok (b, s') := by
  unfold stopTimer
  split
  · split
    · rename_i k _ t hk
      obtain ⟨b, t', hc, -⟩ := ElectionTimer.cancel_spec (h t (List.getElem?_mem hk))
      simp only [hc, bind, Except.bind, pure, Except.pure]
      exact ⟨_, _, rfl⟩
    · exact ⟨_, _, rfl⟩
  · exact ⟨_, _, rfl⟩

theorem stop_restarted {s s' : Replica} {i : Nat} (h : s.stop i = .ok s') : Restarted s s' := by
  obtain ⟨⟨b, s₁⟩, h₁, h⟩ := bind_eq_ok.mp h
  cases h
  refine (stopTimer_restarted h₁).trans ⟨rfl, rfl, id, fun j => stopped_modify ?_⟩
  exact fun _ _ => rfl

theorem stop_ok {s : Replica} (h : s.TimersSound) (i : Nat) : ∃ s', s.stop i = .ok s' := by
  obtain ⟨b, s₁, h₁⟩ := stopTimer_ok h i
  simp only [stop, h₁, bind, Except.bind, pure, Except.pure]
  exact ⟨_, rfl⟩

theorem stopRole_restarted {s s' : Replica} (h : s.stopRole = .ok s') : Restarted s s' := by
  unfold stopRole at h
  split at h
  · exact stop_restarted h
  · cases h; exact .refl s

theorem stopRole_ok {s : Replica} (h : s.TimersSound) : ∃ s', s.stopRole = .ok s' := by
  unfold stopRole
  split
  · exact stop_ok h _
  · exact ⟨_, rfl⟩

theorem switchTo_restarted {s s' : Replica} {role : RoleType} (h : s.switchTo role = .ok s') :
    Restarted s s' ∧ s'.raft.role = role := by
  obtain ⟨s₁, h₁, h⟩ := bind_eq_ok.mp h
  cases h
  have r₁ := stopRole_restarted h₁
  exact ⟨r₁.trans ⟨by rw [r₁.raft], rfl, id, fun _ => id⟩, rfl⟩

theorem switchTo_ok {s : Replica} (h : s.TimersSound) (role : RoleType) :
    ∃ s', s.switchTo role = .ok s' := by
  obtain ⟨s₁, h₁⟩ := stopRole_ok h
  simp only [switchTo, h₁, bind, Except.bind, pure, Except.pure]
  exact ⟨_, rfl⟩

/-- After `SetRole(role)` the role is `role`, except that a candidate of a one-member
cluster is already leader. -/
theorem setRole_restarted {s s' : Replica} {role : RoleType} (h : s.setRole role = .ok s') :
    Restarted s s' ∧ (s'.raft.role = role ∨ role = .candidate ∧ s'.raft.role = .leader) := by
  cases role with
  | candidate =>
    obtain ⟨s₁, h₁, h⟩ := bind_eq_ok.mp h
    have r₁ := stopRole_restarted h₁
    have r₂ : Restarted s₁ s₁.newCandidateRole := ⟨rfl, rfl, id, fun _ => stopped_append⟩
    unfold start at h
    split_ifs at h
    · obtain ⟨r₃, hr⟩ := switchTo_restarted h
      exact ⟨r₁.trans (r₂.trans r₃), .inr ⟨rfl, hr⟩⟩
    · cases h
      exact ⟨r₁.trans (r₂.trans ⟨rfl, rfl, id, fun _ => id⟩), .inl rfl⟩
  | follower => exact (switchTo_restarted h).imp_right .inl
  | leader => exact (switchTo_restarted h).imp_right .inl

theorem setRole_ok {s : Replica} (h : s.TimersSound) (role : RoleType) :
    ∃ s', s.setRole role = .ok s' := by
  cases role with
  | candidate =>
    obtain ⟨s₁, h₁⟩ := stopRole_ok h
    have hs₁ := (stopRole_restarted h₁).timers h
    simp only [setRole, h₁, bind, Except.bind, start]
    split_ifs
    · exact switchTo_ok (s := s₁.newCandidateRole) hs₁ _
    · exact ⟨_, rfl⟩
  | follower => exact switchTo_ok h _
  | leader => exact switchTo_ok h _

theorem resetElectionTimeout_restarted {s s' : Replica} {i : Nat}
    (h : s.resetElectionTimeout i = .ok s') : Restarted s s' := by
  obtain ⟨⟨b, s₁⟩, h₁, h⟩ := bind_eq_ok.mp h
  have r₁ := stopTimer_restarted h₁
  dsimp only at h
  split at h <;> cases h
  · exact r₁
  · refine r₁.trans ⟨rfl, rfl, fun hs t ht => ?_, fun j => stopped_modify (fun _ h => h)⟩
    rcases List.mem_append.mp ht with ht | ht
    exacts [hs t ht, by simp at ht; exact ht ▸ ElectionTimer.sound_start i]

theorem resetElectionTimeout_ok {s : Replica} (h : s.TimersSound) (i : Nat) :
    ∃ s', s.resetElectionTimeout i = .ok s' := by
  obtain ⟨b, s₁, h₁⟩ := stopTimer_ok h i
  simp only [resetElectionTimeout, h₁, bind, Except.bind]
  split <;> exact ⟨_, rfl⟩

/-- `sendVoteRequests` always completes on sound timers: stopping a timer sends on an
empty `electionExpired`, and a failed setter only switches the role. -/
theorem sendVoteRequests_ok {s : Replica} (h : s.TimersSound) (i : Nat) (tp vp : Bool)
    (li : Index) (lt : Term) : ∃ s', s.sendVoteRequests i tp vp li lt = .ok s' := by
  unfold sendVoteRequests
  split_ifs
  · obtain ⟨s₁, h₁⟩ := resetElectionTimeout_ok h i
    have ht₁ := (resetElectionTimeout_restarted h₁).timers h
    simp only [h₁, bind, Except.bind]
    split
    · exact setRole_ok ht₁ _
    · split
      · exact setRole_ok (by exact ht₁) _
      · exact ⟨_, rfl⟩
  · exact ⟨_, rfl⟩

theorem updateRound_eq_ok {s s' : Replica} {k : Nat} {f : Round → Except Fault Round}
    (h : s.updateRound k f = .ok s') : ∃ r r', s.rounds[k]? = some r ∧ f r = .ok r' ∧
      s' = { s with rounds := s.rounds.set k r' } := by
  unfold updateRound at h
  split at h
  · obtain ⟨r', hf, h⟩ := bind_eq_ok.mp h
    exact ⟨_, r', ‹_›, hf, (Except.ok.inj h).symm⟩
  · cases h

/-- What every step keeps: the protocol state only grows, and a stopped candidate stays
stopped. -/
structure Evolves (s s' : Replica) : Prop where
  grows : s.raft.Grows s'.raft
  stopped : ∀ i, s.stopped i → s'.stopped i

theorem Evolves.refl (s : Replica) : Evolves s s := ⟨.refl _, fun _ => id⟩

theorem Evolves.trans {s₁ s₂ s₃ : Replica} (h₁ : Evolves s₁ s₂) (h₂ : Evolves s₂ s₃) :
    Evolves s₁ s₃ :=
  ⟨h₁.grows.trans h₂.grows, fun i => h₂.stopped i ∘ h₁.stopped i⟩

theorem Restarted.evolves {s s' : Replica} (h : Restarted s s') : Evolves s s' :=
  ⟨h.grows, h.stopped⟩

theorem evolves_of_raft {s : Replica} {raft : ProtocolState} (h : s.raft.Grows raft) :
    Evolves s { s with raft := raft } :=
  ⟨h, fun _ => id⟩

/-- A step that changes only the rounds, the timers or the queued calls. -/
theorem evolves_of_eq {s s' : Replica} (hr : s'.raft = s.raft)
    (hc : s'.candidates = s.candidates) : Evolves s s' :=
  ⟨hr ▸ .refl _, fun _ ⟨c, h₁, h₂⟩ => ⟨c, hc ▸ h₁, h₂⟩⟩

/-- What the timer goroutine's steps do to timer `k`: the timer fires if it runs; the first
select case ends a fired timer's goroutine and queues `sendVoteRequests` when the timer's
role is active; the second takes the value off `electionExpired` and ends the goroutine. -/
theorem timer_eq_ok {s s' : Replica} {k : Nat}
    (hs : s.fire k = .ok s' ∨ s.timeout k = .ok s' ∨ s.expire k = .ok s') :
    ∃ t, s.timers[k]? = some t ∧
      ((t.state = .running ∧ s' = { s with timers := s.timers.set k { t with state := .fired } }) ∨
        (t.selecting = true ∧ t.state = .fired ∧
          ((s.active t.role = false ∧
              s' = { s with timers := s.timers.set k { t with selecting := false } }) ∨
            (s.active t.role = true ∧ s' = { s with
              timers := s.timers.set k { t with selecting := false },
              calls := s.calls ++ [t.role] }))) ∨
        (∃ v rest, t.selecting = true ∧ t.expired.buffer = v :: rest ∧
          s' = { s with timers :=
            s.timers.set k { t with selecting := false, expired.buffer := rest } })) := by
  rcases hs with hs | hs | hs
  · unfold fire at hs
    split at hs
    · rename_i t ht
      split_ifs at hs with hr
      exact ⟨t, ht, .inl ⟨hr, (Except.ok.inj hs).symm⟩⟩
    · cases hs
  · unfold timeout at hs
    split at hs
    · rename_i t ht
      split_ifs at hs with hsel
      have hs := (Except.ok.inj hs).symm
      refine ⟨t, ht, .inr (.inl ⟨hsel.1, hsel.2, ?_⟩)⟩
      by_cases ha : s.active t.role = true
      · exact .inr ⟨ha, hs.trans (if_pos ha)⟩
      · exact .inl ⟨by simpa using ha, hs.trans (if_neg ha)⟩
    · cases hs
  · unfold expire at hs
    split at hs
    · rename_i t ht
      split at hs
      · rename_i v rest hsel hb
        exact ⟨t, ht, .inr (.inr ⟨v, rest, hsel, hb, (Except.ok.inj hs).symm⟩)⟩
      · cases hs
    · cases hs

/-- The timer goroutine's steps change only the timers and the queued calls. -/
theorem timers_eq {s s' : Replica} {k : Nat}
    (hs : s.fire k = .ok s' ∨ s.timeout k = .ok s' ∨ s.expire k = .ok s') :
    s'.raft = s.raft ∧ s'.candidates = s.candidates ∧ s'.rounds = s.rounds := by
  obtain ⟨t, -, ⟨-, rfl⟩ | ⟨-, -, ⟨-, rfl⟩ | ⟨-, rfl⟩⟩ | ⟨-, -, -, -, rfl⟩⟩ := timer_eq_ok hs <;>
    exact ⟨rfl, rfl, rfl⟩

/-- What `Vote` does: a request of a greater term goes through `updateTermAndLeader`, the
passive handler's calls and `SetRole(Follower)`, and gets the handler's answer; any other
leaves the replica as it is and is granted exactly when it names the replica. -/
theorem vote_eq_ok {s s' : Replica} {q : VoteRequest} {p : Bool} {cs : List Call}
    {resp out : VoteResponse} (hs : s.vote q p cs resp = .ok (s', out)) :
    (s.raft.term < q.term ∧ out = resp ∧
      resp.Recorded ((s.raft.updateTermAndLeader q.term p).2.calls cs) q.candidate ∧
      { s with raft := (s.raft.updateTermAndLeader q.term p).2.calls cs }.setRole .follower =
        .ok s') ∨
    (¬s.raft.term < q.term ∧ s' = s ∧
      out = ⟨.ok, s.raft.term, decide (q.candidate = s.raft.cluster.member)⟩) := by
  have hg : (s.raft.updateTermAndLeader q.term p).1 = decide (s.raft.term < q.term) := by
    unfold ProtocolState.updateTermAndLeader; split_ifs with h <;> simp [h]
  unfold Replica.vote at hs
  dsimp only at hs
  rw [hg] at hs
  split_ifs at hs with hlt hrec hc
  · obtain ⟨s₁, h₁, hs⟩ := bind_eq_ok.mp hs
    cases hs
    exact .inl ⟨of_decide_eq_true hlt, rfl, hrec, h₁⟩
  · cases hs
    exact .inr ⟨by simpa using hlt, rfl, by simp [hc]⟩
  · cases hs
    exact .inr ⟨by simpa using hlt, rfl, by simp [hc]⟩

/-- What a peer goroutine's handling of its response does: its producer had replied; a
response of a greater term makes the replica adopt the term and switch to follower, and the
producer goes on to close `votes`; any other is sent on `votes` as a ballot. -/
theorem receive_eq_ok {s s' : Replica} {k : Nat} {m : MemberID} {p : Bool}
    (hs : s.receive k m p = .ok s') :
    ∃ r q resp, s.rounds[k]? = some r ∧ r.producers m = .replied q resp ∧
      ((q.term < resp.term ∧ ∃ s₁,
          { s with raft := s.raft.call (.setTerm resp.term p) }.setRole .follower = .ok s₁ ∧
          s' = { s₁ with rounds := s₁.rounds.set k (r.setProducer m (.closing resp)) }) ∨
        (¬q.term < resp.term ∧ ∃ votes,
          r.votes.send ⟨m, ballotValue resp s.raft.term⟩ = .ok votes ∧
          s' = { s with rounds := s.rounds.set k ({ r with votes := votes }.setProducer m
            (.done (some resp))) })) := by
  unfold Replica.receive at hs
  split at hs
  · rename_i r hr
    split at hs
    · rename_i q resp hq
      refine ⟨r, q, resp, hr, hq, ?_⟩
      split_ifs at hs with hgt
      · obtain ⟨s₁, h₁, hs⟩ := bind_eq_ok.mp hs
        exact .inl ⟨hgt, s₁, h₁, (Except.ok.inj hs).symm⟩
      · obtain ⟨votes, hv, hs⟩ := bind_eq_ok.mp hs
        exact .inr ⟨hgt, votes, hv, (Except.ok.inj hs).symm⟩
    · cases hs
  · cases hs

/-- What the tally's handling of a ballot does: it sets the tally's new state and, if
`Tally.handle` says so, calls `SetRole`. -/
theorem tallyHandle_eq_ok {s s' : Replica} {k : Nat} (hs : s.tallyHandle k = .ok s') :
    ∃ r b, s.rounds[k]? = some r ∧ r.tally.state = .handling b ∧
      let s₁ : Replica := { s with rounds := s.rounds.set k { r with tally := (r.tally.handle b
        (s.active r.role && decide (s.raft.term = r.term)) s.raft.leader
        (quorum r.votingMembers.length)).1 } }
      s' = s₁ ∨ ∃ role, s₁.setRole role = .ok s' := by
  unfold Replica.tallyHandle at hs
  split at hs
  · rename_i r hr
    split at hs
    · rename_i b hb
      refine ⟨r, b, hr, hb, ?_⟩
      dsimp only at hs ⊢
      split at hs
      · exact .inr ⟨_, hs⟩
      · exact .inl (Except.ok.inj hs).symm
    · cases hs
  · cases hs

theorem vote_evolves {s s' : Replica} {q : VoteRequest} {p : Bool} {cs : List Call}
    {resp out : VoteResponse} (hs : s.vote q p cs resp = .ok (s', out)) : Evolves s s' := by
  rcases vote_eq_ok hs with ⟨-, -, -, h₁⟩ | ⟨-, rfl, -⟩
  · exact (evolves_of_raft ((ProtocolState.grows_updateTermAndLeader _ _ _).trans
      (ProtocolState.grows_calls _ _))).trans (setRole_restarted h₁).1.evolves
  · exact .refl _

/-- What `sendVoteRequests` of candidate `i` does: an inactive role returns; an active one
resets its election timer, then switches to follower if `SetTerm` or `SetLastVotedFor`
fails, and otherwise records the next term and its own vote and starts a round. -/
theorem sendVoteRequests_eq_ok {s s' : Replica} {i : Nat} {tp vp : Bool} {li : Index}
    {lt : Term} (hs : s.sendVoteRequests i tp vp li lt = .ok s') :
    (s.active i = false ∧ s' = s) ∨
    ∃ s₁, s.active i = true ∧ s.resetElectionTimeout i = .ok s₁ ∧
      (((∃ e, s₁.raft.setTerm (s₁.raft.term + 1) tp = .error e) ∧
          s₁.setRole .follower = .ok s') ∨
        ∃ raft₁, s₁.raft.setTerm (s₁.raft.term + 1) tp = .ok raft₁ ∧
          (((∃ e, raft₁.setLastVotedFor raft₁.cluster.member vp = .error e) ∧
              { s₁ with raft := raft₁ }.setRole .follower = .ok s') ∨
            ∃ raft₂, raft₁.setLastVotedFor raft₁.cluster.member vp = .ok raft₂ ∧
              s' = { s₁ with raft := raft₂, rounds := s₁.rounds ++
                [Round.start i raft₂.term raft₂.cluster.members li lt] })) := by
  unfold Replica.sendVoteRequests at hs
  split_ifs at hs with ha
  · obtain ⟨s₁, h₁, hs⟩ := bind_eq_ok.mp hs
    refine .inr ⟨s₁, ha, h₁, ?_⟩
    split at hs
    · exact .inl ⟨⟨_, ‹_›⟩, hs⟩
    · rename_i raft₁ ht
      refine .inr ⟨raft₁, ht, ?_⟩
      split at hs
      · exact .inl ⟨⟨_, ‹_›⟩, hs⟩
      · exact .inr ⟨_, ‹_›, (Except.ok.inj hs).symm⟩
  · exact .inl ⟨by simpa using ha, (Except.ok.inj hs).symm⟩

theorem sendVoteRequests_evolves {s s' : Replica} {i : Nat} {tp vp : Bool} {li : Index}
    {lt : Term} (hs : s.sendVoteRequests i tp vp li lt = .ok s') : Evolves s s' := by
  rcases sendVoteRequests_eq_ok hs with ⟨-, rfl⟩ | ⟨s₁, -, h₁, h⟩
  · exact .refl _
  have e₁ := (resetElectionTimeout_restarted h₁).evolves
  rcases h with ⟨-, hs⟩ | ⟨raft₁, ht, h⟩
  · exact e₁.trans (setRole_restarted hs).1.evolves
  have e₂ := e₁.trans (evolves_of_raft (s := s₁) (ProtocolState.call_eq_of_run
    (c := .setTerm _ tp) ht ▸ ProtocolState.grows_call _ _))
  rcases h with ⟨-, hs⟩ | ⟨raft₂, hv, rfl⟩
  · exact e₂.trans (setRole_restarted hs).1.evolves
  · exact e₂.trans (evolves_of_raft (s := { s₁ with raft := raft₁ })
      (ProtocolState.call_eq_of_run (c := .setLastVotedFor _ vp) hv ▸
        ProtocolState.grows_call _ _) |>.trans (evolves_of_eq rfl rfl))

theorem receive_evolves {s s' : Replica} {k : Nat} {m : MemberID} {p : Bool}
    (hs : s.receive k m p = .ok s') : Evolves s s' := by
  obtain ⟨r, q, resp, -, -, ⟨-, s₁, h₁, rfl⟩ | ⟨-, votes, -, rfl⟩⟩ := receive_eq_ok hs
  · exact ((evolves_of_raft (ProtocolState.grows_call _ _)).trans
      (setRole_restarted h₁).1.evolves).trans (evolves_of_eq rfl rfl)
  · exact evolves_of_eq rfl rfl

theorem tallyHandle_evolves {s s' : Replica} {k : Nat} (hs : s.tallyHandle k = .ok s') :
    Evolves s s' := by
  obtain ⟨r, b, -, -, rfl | ⟨role, h⟩⟩ := tallyHandle_eq_ok hs
  · exact evolves_of_eq rfl rfl
  · refine (evolves_of_eq ?_ ?_).trans (setRole_restarted h).1.evolves <;> rfl

/-- Every step only grows the protocol state and keeps stopped candidates stopped. -/
theorem step_evolves {s s' : Replica} {a : Action} (hs : s.step a = .ok s') : Evolves s s' := by
  cases a with
  | call c => cases hs; exact evolves_of_raft (ProtocolState.grows_call _ _)
  | setRole role => exact (setRole_restarted hs).1.evolves
  | vote q p cs resp =>
    simp only [Replica.step] at hs
    split_ifs at hs
    obtain ⟨⟨s₁, out⟩, h₁, hs⟩ := bind_eq_ok.mp hs
    cases hs
    exact vote_evolves h₁
  | sendVoteRequests i tp vp li lt =>
    simp only [Replica.step] at hs
    split_ifs at hs
    refine (evolves_of_eq ?_ ?_).trans (sendVoteRequests_evolves hs) <;> rfl
  | requestVote k | reply k _ _ | fail k _ | close k _ | tallyReceive k =>
    obtain ⟨_, _, _, _, rfl⟩ := updateRound_eq_ok hs
    exact evolves_of_eq rfl rfl
  | receive k m p => exact receive_evolves hs
  | tallyHandle k => exact tallyHandle_evolves hs
  | fire k => have := timers_eq (.inl hs); exact evolves_of_eq this.1 this.2.1
  | timeout k => have := timers_eq (.inr (.inl hs)); exact evolves_of_eq this.1 this.2.1
  | expire k => have := timers_eq (.inr (.inr hs)); exact evolves_of_eq this.1 this.2.1

theorem evolves_run {s s' : Replica} (h : Relation.ReflTransGen Next s s') : Evolves s s' := by
  induction h with
  | refl => exact .refl s
  | tail _ hn ih => exact ih.trans (step_evolves hn.choose_spec)

end Replica

end AtomixRaft
