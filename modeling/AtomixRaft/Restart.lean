import AtomixRaft.Effects

/-!
# One pending restart per candidate

An election is restarted by a queued `sendVoteRequests`, and a running election timer, or one
that fired while its goroutine still selects, can queue the next one. `Start` queues the
first; `sendVoteRequests` takes it off the queue and arms the timer; the timer's goroutine
queues the next only once the timer fired, and then stops selecting. So each candidate has at
most one restart pending (`one_election_restart`), and when its `sendVoteRequests` runs no
timer of the candidate still runs: `resetElectionTimeout` never takes its cancel branch and
always arms a new timer for the round.

Conversely every active candidate has its restart pending (`active_candidate_restarts`):
the active candidate is the current role, `SetRole` stops it before starting another, and a
timer's goroutine can lose its restart only to a value on `electionExpired`, which only a
stopped timer holds. While a tally waits forever, the candidate's restart therefore stays
pending.
-/

namespace AtomixRaft

namespace ElectionTimer

/-- The timer can still have its goroutine queue a `sendVoteRequests`: it runs, or it fired
and the goroutine has not taken a select case yet. -/
def pending (t : ElectionTimer) : Bool :=
  t.state == .running || (t.state == .fired && t.selecting)

theorem cancel_eq_ok {t t' : ElectionTimer} {b : Bool} (h : t.cancel = .ok (b, t')) :
    t'.role = t.role ∧ (t'.pending = true → t.pending = true) ∧
      (b = true → t.state = .running) := by
  unfold cancel at h
  split_ifs at h with hr
  · obtain ⟨e, -, h⟩ := bind_eq_ok.mp h
    cases h
    exact ⟨rfl, by simp [pending], fun _ => hr⟩
  · cases h
    exact ⟨rfl, id, fun h => by cases h⟩

end ElectionTimer

namespace Replica

variable {s s' : Replica} {i : Nat}

/-- The pending restarts of candidate `i`'s election: its queued `sendVoteRequests` and its
timers that can still queue one. -/
def restarts (s : Replica) (i : Nat) : Nat :=
  s.calls.count i + s.timers.countP (fun t => t.role == i && t.pending)

/-- Every candidate's election timer is one of its own. -/
def Owned (s : Replica) : Prop :=
  ∀ (i : Nat) (c : CandidateRole) (k : Nat), s.candidates[i]? = some c →
    c.electionTimer = some k →
    ∃ t, s.timers[k]? = some t ∧ t.role = i

/-- At most one pending restart per candidate, none for a candidate not made yet. -/
structure OneRestart (s : Replica) : Prop where
  owned : s.Owned
  bound : ∀ i, s.restarts i ≤ if i < s.candidates.length then 1 else 0

/-- A change that arms no timer and queues no call: no candidate gets a pending restart,
none is dropped, and every election timer stays its candidate's. -/
structure Quiets (s s' : Replica) : Prop where
  restarts : ∀ i, s'.restarts i ≤ s.restarts i
  length : s.candidates.length ≤ s'.candidates.length
  owned : s.Owned → s'.Owned

theorem Quiets.refl (s : Replica) : Quiets s s := ⟨fun _ => le_refl _, le_refl _, id⟩

theorem Quiets.trans {s₁ s₂ s₃ : Replica} (h₁ : Quiets s₁ s₂) (h₂ : Quiets s₂ s₃) :
    Quiets s₁ s₃ :=
  ⟨fun i => (h₂.restarts i).trans (h₁.restarts i), h₁.length.trans h₂.length,
    h₂.owned ∘ h₁.owned⟩

theorem quiets_of_eq (hc : s'.calls = s.calls) (ht : s'.timers = s.timers)
    (hcs : s'.candidates = s.candidates) : Quiets s s' :=
  ⟨fun i => by simp [restarts, hc, ht], hcs ▸ le_refl _, fun h j c k hj hk => by
    rw [hcs] at hj; rw [ht]; exact h j c k hj hk⟩

theorem OneRestart.quiets (h : s.OneRestart) (hq : Quiets s s') : s'.OneRestart := by
  refine ⟨hq.owned h.owned, fun i => (hq.restarts i).trans ((h.bound i).trans ?_)⟩
  have := hq.length
  split_ifs <;> omega

/-- Two states with the same candidates, current role, queued calls and timers: they differ
in the protocol state or the rounds only. -/
structure SameRoles (s s' : Replica) : Prop where
  candidates : s'.candidates = s.candidates
  current : s'.current = s.current
  calls : s'.calls = s.calls
  timers : s'.timers = s.timers

theorem OneRestart.same (h : s.OneRestart) (e : SameRoles s s') : s'.OneRestart :=
  h.quiets (quiets_of_eq e.calls e.timers e.candidates)

/-- Replacing timer `k` by one of the same candidate. -/
theorem restarts_setTimer {k : Nat} {t t' : ElectionTimer} (hk : s.timers[k]? = some t)
    (hr : t'.role = t.role) (j : Nat) :
    ({ s with timers := s.timers.set k t' } : Replica).restarts j +
        (if t.role == j && t.pending then 1 else 0) =
      s.restarts j + (if t.role == j && t'.pending then 1 else 0) := by
  obtain ⟨hlt, rfl⟩ := List.getElem?_eq_some_iff.mp hk
  have hle := List.boole_getElem_le_countP (fun t => t.role == j && t.pending) s.timers k hlt
  simp only [restarts, List.countP_set _ _ _ _ hlt, hr] at hle ⊢
  omega

theorem owned_setTimer (ho : s.Owned) {k : Nat} {t t' : ElectionTimer}
    (hk : s.timers[k]? = some t) (hr : t'.role = t.role) :
    ({ s with timers := s.timers.set k t' } : Replica).Owned := by
  unfold Owned
  intro j c k₀ hc he
  obtain ⟨t₀, ht₀, hrole⟩ := ho j c k₀ hc he
  by_cases hkk : k = k₀
  · subst hkk
    rw [hk] at ht₀
    cases ht₀
    exact ⟨t', List.getElem?_set_self (List.getElem?_eq_some_iff.mp hk).1, hr.trans hrole⟩
  · exact ⟨t₀, (List.getElem?_set_ne hkk).trans ht₀, hrole⟩

theorem quiets_setTimer {k : Nat} {t t' : ElectionTimer} (hk : s.timers[k]? = some t)
    (hr : t'.role = t.role) (hp : t'.pending = true → t.pending = true) :
    Quiets s { s with timers := s.timers.set k t' } := by
  refine ⟨fun j => ?_, le_refl _, fun ho => owned_setTimer ho hk hr⟩
  have := restarts_setTimer hk hr j
  have : (if t.role == j && t'.pending then 1 else 0) ≤
      (if t.role == j && t.pending then 1 else 0) := by
    split_ifs <;> simp_all
  omega

/-- Changing the candidates without touching their election timers. -/
theorem quiets_modify {f : CandidateRole → CandidateRole}
    (hf : ∀ c, (f c).electionTimer = c.electionTimer) (i : Nat) :
    Quiets s { s with candidates := s.candidates.modify f i } := by
  refine ⟨fun _ => le_refl _, by simp, fun ho => ?_⟩
  unfold Owned at ho ⊢
  intro j c k hc he
  simp only [List.getElem?_modify, Option.map_eq_map, Option.map_eq_some'] at hc
  obtain ⟨c₀, hc₀, rfl⟩ := hc
  exact ho j c₀ k hc₀ (by split_ifs at he <;> simp_all)

/-- What `r.electionTimer != nil && r.electionTimer.Stop()` does: nothing, or it cancels
candidate `i`'s election timer. -/
theorem stopTimer_eq_ok {b : Bool} (h : s.stopTimer i = .ok (b, s')) :
    (b = false ∧ s' = s) ∨
      ∃ c k t t', s.candidates[i]? = some c ∧ c.electionTimer = some k ∧
        s.timers[k]? = some t ∧ t.cancel = .ok (b, t') ∧
        s' = { s with timers := s.timers.set k t' } := by
  unfold stopTimer at h
  split at h
  · rename_i a k hc
    split at h
    · rename_i t hk
      obtain ⟨⟨b', t'⟩, hcan, h⟩ := bind_eq_ok.mp h
      cases h
      exact .inr ⟨_, k, t, t', hc, rfl, hk, hcan, rfl⟩
    · cases h; exact .inl ⟨rfl, rfl⟩
  · cases h; exact .inl ⟨rfl, rfl⟩

/-- `resetElectionTimeout` touches only the timers and the candidates. -/
theorem resetElectionTimeout_raft (h : s.resetElectionTimeout i = .ok s') : s'.raft = s.raft := by
  obtain ⟨⟨b, s₁⟩, h₁, h⟩ := bind_eq_ok.mp h
  have h₁' : s₁.raft = s.raft := by
    rcases stopTimer_eq_ok h₁ with ⟨-, rfl⟩ | ⟨_, _, _, _, -, -, -, -, rfl⟩ <;> rfl
  dsimp only at h
  split at h <;> cases h <;> exact h₁'

/-- What `sendVoteRequests` of an active candidate does once it has reset its timer. Both
stores succeed: it moves to the next term, votes for itself and appends the round. Or
`SetTerm(Term() + 1)` fails, or `SetLastVotedFor` of the replica itself fails after it; then
it calls `SetRole(Follower)` from a state with the same roles and the same rounds. -/
theorem sendVoteRequests_active (hi : s.active i = true) {tp vp : Bool} {li : Index} {lt : Term}
    (hs : s.sendVoteRequests i tp vp li lt = .ok s') :
    ∃ s₁, s.resetElectionTimeout i = .ok s₁ ∧
      ((s.raft.term < s.raft.term + 1 ∧ s' = { s₁ with
          raft := { s.raft with
            term := s.raft.term + 1, leader := none, lastVotedFor := some s.raft.cluster.member
            voteLog := (s.raft.term + 1, s.raft.cluster.member) :: s.raft.voteLog }
          rounds := s₁.rounds ++ [Round.start i (s.raft.term + 1) s.raft.cluster.members li lt] }) ∨
        (((∃ e, s.raft.setTerm (s.raft.term + 1) tp = .error e) ∨
            ∃ raft e, s.raft.setTerm (s.raft.term + 1) tp = .ok raft ∧
              raft.setLastVotedFor raft.cluster.member vp = .error e) ∧
          ∃ s₂, SameRoles s₁ s₂ ∧ s₂.rounds = s₁.rounds ∧ s₂.setRole .follower = .ok s')) := by
  rcases sendVoteRequests_eq_ok hs with ⟨ha, -⟩ | ⟨s₁, -, h₁, h⟩
  · rw [hi] at ha; cases ha
  refine ⟨s₁, h₁, ?_⟩
  rw [resetElectionTimeout_raft h₁] at h
  rcases h with ⟨he, h₂⟩ | ⟨raft₁, ht, ⟨⟨e, he⟩, h₂⟩ | ⟨raft₂, hv, rfl⟩⟩
  · exact .inr ⟨.inl he, s₁, ⟨rfl, rfl, rfl, rfl⟩, rfl, h₂⟩
  · exact .inr ⟨.inr ⟨raft₁, e, ht, he⟩, { s₁ with raft := raft₁ }, ⟨rfl, rfl, rfl, rfl⟩, rfl, h₂⟩
  obtain ⟨-, rfl⟩ := ProtocolState.setLastVotedFor_eq_ok hv
  rcases ProtocolState.setTerm_eq_ok ht with ⟨hlt, rfl⟩ | ⟨heq, -⟩
  · exact .inl ⟨hlt, rfl⟩
  · exact absurd heq (term_succ_ne _)

theorem stopTimer_quiets {b : Bool} (h : s.stopTimer i = .ok (b, s')) : Quiets s s' := by
  rcases stopTimer_eq_ok h with ⟨-, rfl⟩ | ⟨c, k, t, t', -, -, hk, hcan, rfl⟩
  · exact .refl _
  · obtain ⟨hr, hp, -⟩ := ElectionTimer.cancel_eq_ok hcan
    exact quiets_setTimer hk hr hp

theorem stopRole_quiets (h : s.stopRole = .ok s') : Quiets s s' := by
  unfold stopRole at h
  split at h
  · obtain ⟨⟨b, s₁⟩, h₁, h⟩ := bind_eq_ok.mp h
    cases h
    exact (stopTimer_quiets h₁).trans
      (quiets_modify (f := fun c => { c with active := false }) (fun _ => rfl) _)
  · cases h; exact .refl s

theorem switchTo_quiets {role : RoleType} (h : s.switchTo role = .ok s') : Quiets s s' := by
  obtain ⟨s₁, h₁, h⟩ := bind_eq_ok.mp h
  cases h
  exact (stopRole_quiets h₁).trans (quiets_of_eq rfl rfl rfl)

/-- Queuing candidate `i`'s `sendVoteRequests`. -/
theorem restarts_queue (j : Nat) :
    ({ s with calls := s.calls ++ [i] } : Replica).restarts j =
      s.restarts j + if i = j then 1 else 0 := by
  simp only [restarts, List.count_append, List.count_singleton, beq_iff_eq]
  split_ifs <;> omega

/-- `SetRole` keeps one pending restart per candidate: a new candidate starts with none and
`Start` queues its first. -/
theorem setRole_oneRestart {role : RoleType} (hs : s.setRole role = .ok s') (h : s.OneRestart) :
    s'.OneRestart := by
  cases role with
  | follower => exact h.quiets (switchTo_quiets hs)
  | leader => exact h.quiets (switchTo_quiets hs)
  | candidate =>
    obtain ⟨s₁, h₁, hs⟩ := bind_eq_ok.mp hs
    have o₁ := h.quiets (stopRole_quiets h₁)
    have o₂ : s₁.newCandidateRole.OneRestart := by
      refine ⟨?_, fun j => (o₁.bound j).trans ?_⟩
      · unfold Owned
        intro j c k hc he
        by_cases hj : j < s₁.candidates.length
        · exact o₁.owned j c k ((List.getElem?_append_left hj).symm.trans hc) he
        · rw [newCandidateRole, List.getElem?_append_right (Nat.le_of_not_lt hj)] at hc
          cases List.mem_singleton.mp (List.getElem?_mem hc)
          cases he
      · simp only [newCandidateRole, List.length_append, List.length_singleton]
        split_ifs <;> omega
    unfold start at hs
    split_ifs at hs
    · exact o₂.quiets (switchTo_quiets hs)
    · cases hs
      refine ⟨o₂.owned, fun j => ?_⟩
      have hr : s₁.newCandidateRole.restarts j = s₁.restarts j := rfl
      have hl : s₁.newCandidateRole.candidates.length = s₁.candidates.length + 1 := by
        simp [newCandidateRole]
      have := o₁.bound j
      rw [restarts_queue, hr]
      dsimp only
      rw [hl]
      split_ifs at this ⊢ <;> omega

/-- `resetElectionTimeout` arms at most one timer, candidate `i`'s, and makes it `i`'s
election timer. -/
theorem resetElectionTimeout_restarts (h : s.resetElectionTimeout i = .ok s') (ho : s.Owned) :
    s'.Owned ∧ s.candidates.length ≤ s'.candidates.length ∧
      ∀ j, s'.restarts j ≤ s.restarts j + if i = j then 1 else 0 := by
  obtain ⟨⟨b, s₁⟩, h₁, h⟩ := bind_eq_ok.mp h
  have q₁ := stopTimer_quiets h₁
  dsimp only at h
  split at h <;> cases h
  · exact ⟨q₁.owned ho, q₁.length, fun j => (q₁.restarts j).trans (Nat.le_add_right _ _)⟩
  refine ⟨?_, by simpa using q₁.length, fun j => ?_⟩
  · unfold Owned
    intro j c k hc he
    simp only [List.getElem?_modify, Option.map_eq_map, Option.map_eq_some'] at hc
    obtain ⟨c₀, hc₀, rfl⟩ := hc
    split_ifs at he with hij
    · cases he
      exact ⟨_, List.getElem?_concat_length _ _, hij ▸ rfl⟩
    · obtain ⟨t, ht, hrole⟩ := q₁.owned ho j c₀ k hc₀ he
      exact ⟨t, (List.getElem?_append_left (List.getElem?_eq_some_iff.mp ht).1).trans ht, hrole⟩
  · have := q₁.restarts j
    simp only [restarts, List.countP_append, List.countP_singleton, ElectionTimer.start,
      ElectionTimer.pending, beq_iff_eq] at this ⊢
    split_ifs <;> simp_all
    omega

/-- Taking candidate `i`'s queued call off the queue. -/
theorem restarts_erase (hi : i ∈ s.calls) (j : Nat) :
    ({ s with calls := s.calls.erase i } : Replica).restarts j + (if i = j then 1 else 0) =
      s.restarts j := by
  have := List.count_pos_iff.mpr hi
  simp only [restarts, List.count_erase, beq_iff_eq]
  split_ifs with h
  · subst h; omega
  · omega

theorem sendVoteRequests_oneRestart (h : s.OneRestart) (hi : i ∈ s.calls) {tp vp : Bool}
    {li : Index} {lt : Term}
    (hs : ({ s with calls := s.calls.erase i } : Replica).sendVoteRequests i tp vp li lt =
      .ok s') : s'.OneRestart := by
  rcases sendVoteRequests_eq_ok hs with ⟨-, rfl⟩ | ⟨s₁, -, h₁, h'⟩
  · refine h.quiets ⟨fun j => ?_, le_refl _, id⟩
    have := restarts_erase hi j
    omega
  obtain ⟨ho₁, hl₁, hr₁⟩ := resetElectionTimeout_restarts h₁ h.owned
  have o₁ : s₁.OneRestart := by
    refine ⟨ho₁, fun j => ?_⟩
    have := (hr₁ j).trans_eq (restarts_erase hi j)
    have := h.bound j
    split_ifs at * <;> simp_all <;> omega
  rcases h' with ⟨-, hs⟩ | ⟨raft₁, -, ⟨-, hs⟩ | ⟨raft₂, -, rfl⟩⟩
  · exact setRole_oneRestart hs o₁
  · exact setRole_oneRestart hs (o₁.same ⟨rfl, rfl, rfl, rfl⟩)
  · exact o₁.same ⟨rfl, rfl, rfl, rfl⟩

/-- The timer goroutine arms nothing; it queues a call only for the timer that fired, which
then stops selecting. -/
theorem timers_quiets {k : Nat}
    (hs : s.fire k = .ok s' ∨ s.timeout k = .ok s' ∨ s.expire k = .ok s') : Quiets s s' := by
  obtain ⟨t, hk, h⟩ := timer_eq_ok hs
  rcases h with ⟨hr, rfl⟩ | ⟨hsel, hf, h⟩ | ⟨v, rest, -, -, rfl⟩
  · exact quiets_setTimer hk rfl (fun _ => by simp [ElectionTimer.pending, hr])
  · have hr : ({ t with selecting := false } : ElectionTimer).role = t.role := rfl
    have q₁ := quiets_setTimer hk hr (fun _ => by simp [ElectionTimer.pending, hsel, hf])
    rcases h with ⟨-, rfl⟩ | ⟨-, rfl⟩
    · exact q₁
    · refine ⟨fun j => ?_, q₁.length, q₁.owned⟩
      have := restarts_setTimer hk hr j
      have hq : ({ s with
          timers := s.timers.set k { t with selecting := false },
          calls := s.calls ++ [t.role] } : Replica).restarts j = _ :=
        restarts_queue (s := { s with timers := s.timers.set k { t with selecting := false } }) j
      rw [hq]
      simp only [ElectionTimer.pending, hsel, hf, beq_iff_eq] at this
      split_ifs at this ⊢ <;> simp_all
  · exact quiets_setTimer hk rfl (fun h => by simp_all [ElectionTimer.pending])

/-- What a step does to the candidates, the current role, the queued calls and the timers:
nothing, a `SetRole` between changes of the protocol state or the rounds, a queued
`sendVoteRequests`, or one select of a timer goroutine. -/
theorem step_roles {a : Action} (hs : s.step a = .ok s') :
    SameRoles s s' ∨
    (∃ s₁ s₂ role, s₁.setRole role = .ok s₂ ∧ SameRoles s s₁ ∧ SameRoles s₂ s') ∨
    (∃ i tp vp li lt, i ∈ s.calls ∧
      ({ s with calls := s.calls.erase i } : Replica).sendVoteRequests i tp vp li lt = .ok s') ∨
    ∃ k, s.fire k = .ok s' ∨ s.timeout k = .ok s' ∨ s.expire k = .ok s' := by
  cases a with
  | call c => cases hs; exact .inl ⟨rfl, rfl, rfl, rfl⟩
  | setRole role => exact .inr (.inl ⟨s, s', role, hs, ⟨rfl, rfl, rfl, rfl⟩, ⟨rfl, rfl, rfl, rfl⟩⟩)
  | vote q p cs resp =>
    simp only [Replica.step] at hs
    split_ifs at hs
    obtain ⟨⟨s₁, out⟩, h₁, hs⟩ := bind_eq_ok.mp hs
    cases hs
    rcases vote_eq_ok h₁ with ⟨-, -, -, h₂⟩ | ⟨-, rfl, -⟩
    · exact .inr (.inl ⟨_, s₁, .follower, h₂, ⟨rfl, rfl, rfl, rfl⟩, ⟨rfl, rfl, rfl, rfl⟩⟩)
    · exact .inl ⟨rfl, rfl, rfl, rfl⟩
  | sendVoteRequests i tp vp li lt =>
    simp only [Replica.step] at hs
    split_ifs at hs with hi
    exact .inr (.inr (.inl ⟨i, tp, vp, li, lt, hi, hs⟩))
  | requestVote k | reply k _ _ | fail k _ | close k _ | tallyReceive k =>
    obtain ⟨_, _, _, _, rfl⟩ := updateRound_eq_ok hs
    exact .inl ⟨rfl, rfl, rfl, rfl⟩
  | receive k m p =>
    obtain ⟨r, q, resp, -, -, ⟨-, s₁, h₁, rfl⟩ | ⟨-, votes, -, rfl⟩⟩ := receive_eq_ok hs
    · exact .inr (.inl ⟨_, s₁, .follower, h₁, ⟨rfl, rfl, rfl, rfl⟩, ⟨rfl, rfl, rfl, rfl⟩⟩)
    · exact .inl ⟨rfl, rfl, rfl, rfl⟩
  | tallyHandle k =>
    obtain ⟨r, b, -, -, rfl | ⟨role, h₁⟩⟩ := tallyHandle_eq_ok hs
    · exact .inl ⟨rfl, rfl, rfl, rfl⟩
    · exact .inr (.inl ⟨_, s', role, h₁, ⟨rfl, rfl, rfl, rfl⟩, ⟨rfl, rfl, rfl, rfl⟩⟩)
  | fire k => exact .inr (.inr (.inr ⟨k, .inl hs⟩))
  | timeout k => exact .inr (.inr (.inr ⟨k, .inr (.inl hs)⟩))
  | expire k => exact .inr (.inr (.inr ⟨k, .inr (.inr hs)⟩))

theorem OneRestart.step (h : s.OneRestart) {a : Action} (hs : s.step a = .ok s') :
    s'.OneRestart := by
  rcases step_roles hs with e | ⟨s₁, s₂, role, h₂, e₁, e₂⟩ | ⟨i, tp, vp, li, lt, hi, h₁⟩ | ⟨k, h₁⟩
  · exact h.same e
  · exact (setRole_oneRestart h₂ (h.same e₁)).same e₂
  · exact sendVoteRequests_oneRestart h hi h₁
  · exact h.quiets (timers_quiets h₁)

/-- A candidate whose `sendVoteRequests` is queued exists and has no timer pending. -/
theorem OneRestart.idle (h : s.OneRestart) (hi : i ∈ s.calls) :
    i < s.candidates.length ∧ ∀ t ∈ s.timers, t.role = i → t.pending = false := by
  have hbd := h.bound i
  have hc := List.count_pos_iff.mpr hi
  have hlt : i < s.candidates.length := by
    by_contra hn
    simp only [restarts, hn, if_false] at hbd
    omega
  have : s.timers.countP (fun t => t.role == i && t.pending) = 0 := by
    simp only [restarts, hlt, if_true] at hbd
    omega
  refine ⟨hlt, fun t ht hr => ?_⟩
  simpa [hr] using List.countP_eq_zero.mp this t ht

/-- With no timer of candidate `i` pending, `resetElectionTimeout` does not take its cancel
branch: it arms a new timer and makes it `i`'s election timer. -/
theorem resetElectionTimeout_idle (ho : s.Owned)
    (idle : ∀ t ∈ s.timers, t.role = i → t.pending = false)
    (h : s.resetElectionTimeout i = .ok s') :
    ∃ s₁, s.stopTimer i = .ok (false, s₁) ∧ s₁.candidates = s.candidates ∧ s' = { s₁ with
      timers := s₁.timers ++ [.start i]
      candidates := s₁.candidates.modify
        (fun c => { c with electionTimer := some s₁.timers.length }) i } := by
  obtain ⟨⟨b, s₁⟩, h₁, h⟩ := bind_eq_ok.mp h
  have hb : b = false ∧ s₁.candidates = s.candidates := by
    rcases stopTimer_eq_ok h₁ with ⟨hb, rfl⟩ | ⟨c, k, t, t', hci, hk, ht, hcan, rfl⟩
    · exact ⟨hb, rfl⟩
    · obtain ⟨t₀, ht₀, hrole⟩ := ho i c k hci hk
      rw [ht] at ht₀
      cases ht₀
      have hp := idle t (List.getElem?_mem ht) hrole
      exact ⟨Bool.eq_false_iff.mpr fun hb => by
        simp [ElectionTimer.pending, (ElectionTimer.cancel_eq_ok hcan).2.2 hb] at hp, rfl⟩
  obtain ⟨rfl, hcs⟩ := hb
  simp only [Bool.false_eq_true, ↓reduceIte, pure, Except.pure, Except.ok.injEq] at h
  exact ⟨s₁, h₁, hcs, h.symm⟩

theorem oneRestart_init (cluster : Cluster) (term : Term) (vote : Option MemberID) :
    (init cluster term vote).OneRestart :=
  ⟨fun _ _ _ h => by simp [init] at h, fun _ => by simp [restarts, init]⟩

end Replica

theorem Reachable.oneRestart {s : Replica} (h : Reachable s) : s.OneRestart := by
  induction h with
  | init cluster term vote => exact Replica.oneRestart_init cluster term vote
  | step a _ hs ih => exact ih.step hs

namespace Replica

variable {s : Replica} {i : Nat}

/-- Each candidate has at most one restart of its election pending. So once its
`sendVoteRequests` is queued no timer of the candidate can queue another, and
`resetElectionTimeout` does not take its cancel branch: it arms a new running timer and
makes it the candidate's election timer. -/
theorem one_election_restart (hs : Reachable s) (i : Nat) :
    s.restarts i ≤ 1 ∧
    (i ∈ s.calls → (∀ t ∈ s.timers, t.role = i → t.pending = false) ∧
      ∀ s', s.resetElectionTimeout i = .ok s' →
        ∃ c k, s'.candidates[i]? = some c ∧ c.electionTimer = some k ∧
          s'.timers[k]? = some (.start i)) := by
  have h := hs.oneRestart
  refine ⟨(h.bound i).trans (by split_ifs <;> omega), fun hi => ?_⟩
  obtain ⟨hlt, idle⟩ := h.idle hi
  refine ⟨idle, fun s' hr => ?_⟩
  obtain ⟨s₁, -, hcs, rfl⟩ := resetElectionTimeout_idle h.owned idle hr
  obtain ⟨c, hc⟩ : ∃ c, s₁.candidates[i]? = some c :=
    ⟨_, List.getElem?_eq_getElem (hcs ▸ hlt : i < s₁.candidates.length)⟩
  exact ⟨{ c with electionTimer := some s₁.timers.length }, _,
    by simp [List.getElem?_modify, hc], rfl, List.getElem?_concat_length _ _⟩

/-- The three-member test replica once its candidate role started: its first
`sendVoteRequests` is queued. -/
def candidateStarted : Replica :=
  match (init testCluster 0 none).run [.setRole .candidate] with
  | .ok s => s
  | .error _ => init testCluster 0 none

theorem candidateStarted_reachable : Reachable candidateStarted :=
  (Reachable.init testCluster 0 none).run
    (show (init testCluster 0 none).run [.setRole .candidate] = .ok candidateStarted from rfl)

theorem started_candidate_arms_timer :
    0 ∈ candidateStarted.calls ∧ ∃ s', candidateStarted.resetElectionTimeout 0 = .ok s' ∧
      ∃ c k, s'.candidates[0]? = some c ∧ c.electionTimer = some k ∧
        s'.timers[k]? = some (.start 0) := by
  have hi : 0 ∈ candidateStarted.calls := by decide
  obtain ⟨s', h'⟩ : ∃ s', candidateStarted.resetElectionTimeout 0 = .ok s' := ⟨_, rfl⟩
  exact ⟨hi, s', h', ((one_election_restart candidateStarted_reachable 0).2 hi).2 s' h'⟩

end Replica

namespace ElectionTimer

/-- A timer whose goroutine cannot lose its restart: it still selects while the timer runs,
and a value waits on `electionExpired` only once the timer was stopped. -/
structure Live (t : ElectionTimer) : Prop where
  selecting : t.state = .running → t.selecting = true
  stopped : t.expired.buffer ≠ [] → t.state = .stopped

theorem live_start (i : Nat) : (start i).Live := ⟨fun _ => rfl, fun h => absurd rfl h⟩

theorem Live.cancel {t t' : ElectionTimer} {b : Bool} (h : t.Live)
    (hc : t.cancel = .ok (b, t')) : t'.Live := by
  unfold ElectionTimer.cancel at hc
  split_ifs at hc
  · obtain ⟨e, -, hc⟩ := bind_eq_ok.mp hc
    cases hc
    exact ⟨nofun, fun _ => rfl⟩
  · cases hc
    exact h

end ElectionTimer

namespace Replica

variable {s s' : Replica} {i : Nat}

/-- Every active candidate is the current role and has a restart of its election pending,
and every timer is `Live`. -/
structure Live (s : Replica) : Prop where
  current : ∀ i, s.active i = true → s.current = some i
  pending : ∀ i, s.active i = true → 0 < s.restarts i
  timers : ∀ t ∈ s.timers, t.Live

theorem restarts_pos_of_call (h : i ∈ s.calls) : 0 < s.restarts i :=
  Nat.lt_of_lt_of_le (List.count_pos_iff.mpr h) (Nat.le_add_right _ _)

theorem restarts_pos_of_timer {t : ElectionTimer} (ht : t ∈ s.timers) (hr : t.role = i)
    (hp : t.pending = true) : 0 < s.restarts i :=
  Nat.lt_of_lt_of_le (List.countP_pos_iff.mpr ⟨t, ht, by simp [hr, hp]⟩) (Nat.le_add_left _ _)

/-- Replacing timer `k` by one of the same candidate that is pending exactly when it was,
as far as candidate `j` is concerned. -/
theorem restarts_setTimer_eq {k j : Nat} {t t' : ElectionTimer} (hk : s.timers[k]? = some t)
    (hr : t'.role = t.role) (hp : t.role = j → t'.pending = t.pending) :
    ({ s with timers := s.timers.set k t' } : Replica).restarts j = s.restarts j := by
  have := restarts_setTimer hk hr j
  by_cases hj : t.role = j
  · rw [hp hj] at this
    omega
  · simpa [hj] using this

theorem active_congr (h : s'.candidates = s.candidates) (j : Nat) :
    s'.active j = s.active j := by
  simp [active, h]

theorem active_modify {f : CandidateRole → CandidateRole}
    (h : s'.candidates = s.candidates.modify f i) (hf : ∀ c, (f c).active = c.active)
    (j : Nat) : s'.active j = s.active j := by
  simp only [active, h, List.getElem?_modify]
  split_ifs <;> cases s.candidates[j]? <;> simp [hf]

theorem active_stop {f : CandidateRole → CandidateRole} (hf : ∀ c, (f c).active = false)
    {j : Nat} (h : ({ s with candidates := s.candidates.modify f i } : Replica).active j = true) :
    s.active j = true ∧ i ≠ j := by
  simp only [active, List.getElem?_modify] at h ⊢
  split_ifs at h with hij
  · cases hc : s.candidates[j]? <;> simp [hc, hf] at h
  · exact ⟨by simpa using h, hij⟩

/-- The new candidate is the only one `newCandidateRole` makes active. -/
theorem newCandidateRole_active (hna : ∀ j, s.active j = false) {j : Nat}
    (hj : s.newCandidateRole.active j = true) : j = s.candidates.length := by
  by_contra hne
  rcases Nat.lt_or_gt_of_ne hne with hlt | hgt
  · have : s.newCandidateRole.active j = s.active j := by
      simp only [active, newCandidateRole, List.getElem?_append_left hlt]
    rw [this, hna j] at hj
    cases hj
  · have : (s.candidates ++ [⟨true, none⟩])[j]? = none :=
      List.getElem?_eq_none (by simp only [List.length_append, List.length_singleton]; omega)
    simp [active, newCandidateRole, this] at hj

theorem Live.same (h : s.Live) (e : SameRoles s s') : s'.Live := by
  have ha := active_congr e.candidates
  refine ⟨fun j hj => e.current.trans (h.current j ((ha j).symm.trans hj)), fun j hj => ?_,
    e.timers ▸ h.timers⟩
  simpa [restarts, e.calls, e.timers] using h.pending j ((ha j).symm.trans hj)

theorem Live.of_inactive (hna : ∀ j, s.active j = false) (ht : ∀ t ∈ s.timers, t.Live) :
    s.Live :=
  ⟨fun j hj => by simp [hna] at hj, fun j hj => by simp [hna] at hj, ht⟩

theorem timers_live_set {ts : List ElectionTimer} (h : ∀ t ∈ ts, t.Live) {k : Nat}
    {t' : ElectionTimer} (ht : t'.Live) : ∀ t ∈ ts.set k t', t.Live :=
  fun t hm => (List.mem_or_eq_of_mem_set hm).elim (h t) (· ▸ ht)

theorem stopTimer_live {b : Bool} (ht : ∀ t ∈ s.timers, t.Live)
    (h : s.stopTimer i = .ok (b, s')) :
    (∀ t ∈ s'.timers, t.Live) ∧ s'.candidates = s.candidates ∧ s'.current = s.current := by
  rcases stopTimer_eq_ok h with ⟨-, rfl⟩ | ⟨c, k, t, t', -, -, hk, hcan, rfl⟩
  · exact ⟨ht, rfl, rfl⟩
  · exact ⟨timers_live_set ht ((ht t (List.getElem?_mem hk)).cancel hcan), rfl, rfl⟩

/-- `stopRole` stops the current role, the only candidate that can be active. -/
theorem stopRole_live (hc : ∀ i, s.active i = true → s.current = some i)
    (ht : ∀ t ∈ s.timers, t.Live) (h : s.stopRole = .ok s') :
    (∀ j, s'.active j = false) ∧ ∀ t ∈ s'.timers, t.Live := by
  unfold stopRole at h
  split at h
  · rename_i c hcur
    obtain ⟨⟨b, s₁⟩, h₁, h⟩ := bind_eq_ok.mp h
    cases h
    obtain ⟨ht₁, hcs, -⟩ := stopTimer_live ht h₁
    refine ⟨fun j => Bool.eq_false_iff.mpr fun hj => ?_, ht₁⟩
    obtain ⟨hj, hne⟩ := active_stop (fun _ => rfl) hj
    rw [active_congr hcs] at hj
    exact hne (Option.some.inj (hcur.symm.trans (hc j hj)))
  · rename_i hcur
    cases h
    exact ⟨fun j => Bool.eq_false_iff.mpr fun hj => by simp [hcur] at hc; simp [hc] at hj, ht⟩

theorem switchTo_inactive {role : RoleType} (hc : ∀ i, s.active i = true → s.current = some i)
    (ht : ∀ t ∈ s.timers, t.Live) (h : s.switchTo role = .ok s') :
    (∀ j, s'.active j = false) ∧ ∀ t ∈ s'.timers, t.Live := by
  obtain ⟨s₁, h₁, h⟩ := bind_eq_ok.mp h
  cases h
  obtain ⟨hna, ht₁⟩ := stopRole_live hc ht h₁
  exact ⟨hna, ht₁⟩

theorem switchTo_live {role : RoleType} (hc : ∀ i, s.active i = true → s.current = some i)
    (ht : ∀ t ∈ s.timers, t.Live) (h : s.switchTo role = .ok s') : s'.Live :=
  .of_inactive (switchTo_inactive hc ht h).1 (switchTo_inactive hc ht h).2

/-- `SetRole` stops the current role; a new candidate role is then the only active one, with
its first `sendVoteRequests` queued. -/
theorem setRole_live {role : RoleType} (hs : s.setRole role = .ok s') (h : s.Live) :
    s'.Live := by
  cases role with
  | follower => exact switchTo_live h.current h.timers hs
  | leader => exact switchTo_live h.current h.timers hs
  | candidate =>
    obtain ⟨s₁, h₁, hs⟩ := bind_eq_ok.mp hs
    obtain ⟨hna, ht₁⟩ := stopRole_live h.current h.timers h₁
    have hc : ∀ j, s₁.newCandidateRole.active j = true →
        s₁.newCandidateRole.current = some j :=
      fun j hj => by rw [newCandidateRole_active hna hj]; rfl
    unfold start at hs
    split_ifs at hs
    · exact switchTo_live hc ht₁ hs
    · cases hs
      exact ⟨hc, fun j hj => restarts_pos_of_call (by simp [newCandidateRole_active hna hj]),
        ht₁⟩

/-- With no timer of the active candidate `i` pending, `resetElectionTimeout` arms one, so
the candidate keeps a pending restart. -/
theorem resetElectionTimeout_live (hs : s.resetElectionTimeout i = .ok s')
    (hc : ∀ i, s.active i = true → s.current = some i) (ht : ∀ t ∈ s.timers, t.Live)
    (ho : s.Owned) (idle : ∀ t ∈ s.timers, t.role = i → t.pending = false)
    (ha : s.active i = true) : s'.Live := by
  obtain ⟨s₁, h₁, hcs, hs'⟩ := resetElectionTimeout_idle ho idle hs
  obtain ⟨ht₁, -, hcur⟩ := stopTimer_live ht h₁
  have hact : ∀ j, s'.active j = s.active j := fun j =>
    (active_modify (s := s₁) (congrArg Replica.candidates hs') (fun _ => rfl) j).trans
      (active_congr hcs j)
  refine ⟨fun j hj => ?_, fun j hj => ?_, ?_⟩
  · rw [hs']
    exact hcur.trans (hc j ((hact j).symm.trans hj))
  · obtain rfl : i = j := Option.some.inj ((hc i ha).symm.trans (hc j ((hact j).symm.trans hj)))
    rw [hs']
    exact restarts_pos_of_timer (List.mem_append_right _ (List.mem_singleton_self _)) rfl rfl
  · rw [hs']
    intro t hm
    rcases List.mem_append.mp hm with hm | hm
    · exact ht₁ t hm
    · exact List.mem_singleton.mp hm ▸ ElectionTimer.live_start i

/-- `sendVoteRequests` of an active candidate arms its next election timer before anything
can stop it; for a stopped one it only takes the call off the queue. -/
theorem sendVoteRequests_live (h : s.Live) (ho : s.OneRestart) (hi : i ∈ s.calls)
    {tp vp : Bool} {li : Index} {lt : Term}
    (hs : ({ s with calls := s.calls.erase i } : Replica).sendVoteRequests i tp vp li lt =
      .ok s') : s'.Live := by
  rcases sendVoteRequests_eq_ok hs with ⟨hna, rfl⟩ | ⟨s₁, ha, h₁, h'⟩
  · refine ⟨h.current, fun j hj => ?_, h.timers⟩
    have hij : i ≠ j := by rintro rfl; simp [hna] at hj
    have he := restarts_erase hi j
    have := h.pending j hj
    rw [if_neg hij] at he
    omega
  have l₁ := resetElectionTimeout_live h₁ h.current h.timers ho.owned (ho.idle hi).2 ha
  rcases h' with ⟨-, hs⟩ | ⟨raft₁, -, ⟨-, hs⟩ | ⟨raft₂, -, rfl⟩⟩
  · exact setRole_live hs l₁
  · exact setRole_live hs (l₁.same ⟨rfl, rfl, rfl, rfl⟩)
  · exact l₁.same ⟨rfl, rfl, rfl, rfl⟩

/-- Replacing a timer by a live one of the same candidate, pending exactly when it was if
that candidate is active. -/
theorem Live.setTimer (h : s.Live) {k : Nat} {t t' : ElectionTimer}
    (hk : s.timers[k]? = some t) (hr : t'.role = t.role) (hl : t'.Live)
    (hp : s.active t.role = true → t'.pending = t.pending) :
    ({ s with timers := s.timers.set k t' } : Replica).Live := by
  refine ⟨h.current, fun j (hj : s.active j = true) => ?_, timers_live_set h.timers hl⟩
  rw [restarts_setTimer_eq hk hr fun e => hp (e ▸ hj)]
  exact h.pending j hj

/-- The timer goroutine keeps every active candidate's restart pending: a fired timer whose
goroutine stops selecting queues the next `sendVoteRequests` in its place. -/
theorem timers_live (h : s.Live) {k : Nat}
    (hs : s.fire k = .ok s' ∨ s.timeout k = .ok s' ∨ s.expire k = .ok s') : s'.Live := by
  obtain ⟨t, hk, h'⟩ := timer_eq_ok hs
  have hl := h.timers t (List.getElem?_mem hk)
  rcases h' with ⟨hr, rfl⟩ | ⟨hsel, hf, h'⟩ | ⟨v, rest, -, hb, rfl⟩
  · have hb : t.expired.buffer = [] := by
      by_contra hne
      exact absurd (hr.symm.trans (hl.stopped hne)) (by decide)
    exact h.setTimer hk rfl ⟨nofun, fun hne => absurd hb hne⟩ fun _ => by
      simp [ElectionTimer.pending, hr, hl.selecting hr]
  · have hl' : ({ t with selecting := false } : ElectionTimer).Live :=
      ⟨fun h => absurd (hf.symm.trans h) (by decide), hl.stopped⟩
    rcases h' with ⟨hna, rfl⟩ | ⟨-, rfl⟩
    · exact h.setTimer hk rfl hl' fun ha => absurd (hna.symm.trans ha) Bool.false_ne_true
    · have hrole : ({ t with selecting := false } : ElectionTimer).role = t.role := rfl
      refine ⟨h.current, fun j (hj : s.active j = true) => ?_, timers_live_set h.timers hl'⟩
      have hq := restarts_queue
        (s := { s with timers := s.timers.set k { t with selecting := false } }) (i := t.role) j
      refine Nat.lt_of_lt_of_le ?_ (Nat.le_of_eq hq.symm)
      by_cases hj' : t.role = j
      · simp [hj']
      · rw [restarts_setTimer_eq hk hrole (absurd · hj'), if_neg hj']
        exact h.pending j hj
  · have hst : t.state = .stopped := hl.stopped (by simp [hb])
    exact h.setTimer hk rfl ⟨fun h => absurd (hst.symm.trans h) (by decide), fun _ => hst⟩
      fun _ => by simp [ElectionTimer.pending, hst]

theorem Live.step (h : s.Live) (ho : s.OneRestart) {a : Action} (hs : s.step a = .ok s') :
    s'.Live := by
  rcases step_roles hs with e | ⟨s₁, s₂, role, h₂, e₁, e₂⟩ | ⟨i, tp, vp, li, lt, hi, h₁⟩ | ⟨k, h₁⟩
  · exact h.same e
  · exact (setRole_live h₂ (h.same e₁)).same e₂
  · exact sendVoteRequests_live h ho hi h₁
  · exact timers_live h h₁

theorem live_init (cluster : Cluster) (term : Term) (vote : Option MemberID) :
    (init cluster term vote).Live :=
  .of_inactive (fun _ => by simp [active, init]) (fun _ h => by simp [init] at h)

end Replica

theorem Reachable.live {s : Replica} (h : Reachable s) : s.Live := by
  induction h with
  | init cluster term vote => exact Replica.live_init cluster term vote
  | step a hr hs ih => exact ih.step hr.oneRestart hs

namespace Replica

variable {s : Replica} {i : Nat}

/-- A candidate is active only while it is the current role, and then exactly one restart of
its election is pending: its queued `sendVoteRequests`, its running timer, or its fired timer
whose goroutine still selects. A tally left waiting after a split vote therefore does not
stall the election: the candidate's timer still queues the next round. -/
theorem active_candidate_restarts (hs : Reachable s) (hi : s.active i = true) :
    s.current = some i ∧ s.restarts i = 1 := by
  have h := hs.live
  have hb := hs.oneRestart.bound i
  have hp := h.pending i hi
  refine ⟨h.current i hi, ?_⟩
  split_ifs at hb <;> omega

theorem started_candidate_restart_pending :
    candidateStarted.active 0 = true ∧ candidateStarted.current = some 0 ∧
      candidateStarted.restarts 0 = 1 :=
  ⟨by decide, active_candidate_restarts candidateStarted_reachable (by decide)⟩

end Replica

end AtomixRaft
