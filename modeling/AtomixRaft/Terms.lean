import AtomixRaft.Tally

/-!
# One election per term

`sendVoteRequests` fixes a round's candidate, term, voting members and log position when it
starts the round, and nothing changes them afterwards; rounds are only ever appended. A new
round is started only after `SetTerm(Term() + 1)` succeeded, so its term is above the
replica's term before, and every earlier round's term is at most that. Hence the rounds form
an append-only log of elections in strictly increasing terms (`rounds_append_only`): no two
rounds share a term.

The tally of a round acts only while the replica's term is the round's term, and it calls
`SetRole` at most once. With one round per term, the tallies of all the rounds together
switch the replica's role at most once per term (`one_tally_switch_per_term`).
-/

namespace AtomixRaft

/-- What `sendVoteRequests` fixed when it started the round: its candidate, its term, its
voting members and the log position its requests carry. -/
def Round.header (r : Round) : Nat × Term × List MemberID × Index × Term :=
  (r.role, r.term, r.votingMembers, r.lastIndex, r.lastTerm)

namespace Round

variable {r r' : Round}

@[simp] theorem header_term : r.header.2.1 = r.term := rfl

@[simp] theorem setProducer_header (m : MemberID) (p : Producer) :
    (r.setProducer m p).header = r.header := rfl

theorem requestVote_header {self : MemberID} (h : r.requestVote self = .ok r') :
    r'.header = r.header := by
  obtain ⟨m, rest, -, ⟨-, votes, -, rfl⟩ | ⟨-, rfl⟩⟩ := requestVote_eq_ok h <;> rfl

theorem reply_header {m : MemberID} {resp : VoteResponse} (h : r.reply m resp = .ok r') :
    r'.header = r.header := by
  obtain ⟨q, -, rfl⟩ := reply_eq_ok h
  rfl

theorem fail_header {m : MemberID} (h : r.fail m = .ok r') : r'.header = r.header := by
  obtain ⟨q, votes, -, -, rfl⟩ := fail_eq_ok h
  rfl

theorem closeVotes_header {m : MemberID} (h : r.closeVotes m = .ok r') :
    r'.header = r.header := by
  obtain ⟨resp, votes, -, -, rfl⟩ := closeVotes_eq_ok h
  rfl

theorem tallyReceive_header (h : r.tallyReceive = .ok r') : r'.header = r.header := by
  obtain ⟨-, ⟨b, rest, -, rfl⟩ | ⟨-, -, rfl⟩⟩ := tallyReceive_eq_ok h <;> rfl

end Round

/-- Replacing a round by one with the same header keeps the headers of all rounds. -/
theorem headers_set {rs : List Round} {k : Nat} {r r' : Round} (hk : rs[k]? = some r)
    (h : r'.header = r.header) : (rs.set k r').map Round.header = rs.map Round.header := by
  apply List.ext_getElem?
  intro j
  simp only [List.getElem?_map, List.getElem?_set]
  split_ifs with hkj hlt
  · subst hkj
    simp [hk, h]
  · subst hkj
    simp [List.getElem?_eq_none (Nat.le_of_not_lt hlt)]
  · rfl

namespace Replica

variable {s s' : Replica}

/-- `sendVoteRequests` keeps the rounds, or appends one round, in the term it moved to. -/
theorem sendVoteRequests_headers {i : Nat} {tp vp : Bool} {li : Index} {lt : Term}
    (hs : s.sendVoteRequests i tp vp li lt = .ok s') :
    s'.rounds = s.rounds ∨
      ∃ r, s'.rounds = s.rounds ++ [r] ∧ s.raft.term < r.term ∧ r.term = s'.raft.term := by
  rcases sendVoteRequests_eq_ok hs with ⟨-, rfl⟩ | ⟨s₁, -, h₁, h⟩
  · exact .inl rfl
  have r₁ := resetElectionTimeout_restarted h₁
  rcases h with ⟨-, h₂⟩ | ⟨raft₁, ht, ⟨-, h₂⟩ | ⟨raft₂, hv, rfl⟩⟩
  · exact .inl ((setRole_restarted h₂).1.rounds.trans r₁.rounds)
  · exact .inl ((setRole_restarted h₂).1.rounds.trans r₁.rounds)
  obtain ⟨-, rfl⟩ := ProtocolState.setLastVotedFor_eq_ok hv
  rcases ProtocolState.setTerm_eq_ok ht with ⟨hlt, rfl⟩ | ⟨heq, -⟩
  · have hterm : s₁.raft.term = s.raft.term := by rw [r₁.raft]
    exact .inr ⟨_, by rw [r₁.rounds], by rw [← hterm]; exact hlt, rfl⟩
  · exact absurd heq (term_succ_ne _)

theorem updateRound_headers {k : Nat} {f : Round → Except Fault Round}
    (hf : ∀ r r', f r = .ok r' → r'.header = r.header) (hs : s.updateRound k f = .ok s') :
    s'.rounds.map Round.header = s.rounds.map Round.header := by
  obtain ⟨r, r', hr, hfr, rfl⟩ := updateRound_eq_ok hs
  exact headers_set hr (hf r r' hfr)

/-- What a step does to the rounds: it keeps every round's header, or `sendVoteRequests`
appends one round, in the term it moved to, above the replica's term before the step. -/
theorem step_headers {a : Action} (hs : s.step a = .ok s') :
    s'.rounds.map Round.header = s.rounds.map Round.header ∨
      ∃ r, s'.rounds = s.rounds ++ [r] ∧ s.raft.term < r.term ∧ r.term = s'.raft.term := by
  have same : ∀ {s' : Replica}, s'.rounds = s.rounds →
      s'.rounds.map Round.header = s.rounds.map Round.header := fun h => by rw [h]
  cases a with
  | call c => cases hs; exact .inl rfl
  | setRole role => exact .inl (same (setRole_restarted hs).1.rounds)
  | vote q p cs resp =>
    simp only [Replica.step] at hs
    split_ifs at hs
    obtain ⟨⟨s₁, out⟩, h₁, hs⟩ := bind_eq_ok.mp hs
    cases hs
    exact .inl (same (vote_rounds h₁))
  | sendVoteRequests i tp vp li lt =>
    simp only [Replica.step] at hs
    split_ifs at hs
    exact (sendVoteRequests_headers hs).imp_left same
  | requestVote k => exact .inl (updateRound_headers (fun _ _ => Round.requestVote_header) hs)
  | reply k m resp => exact .inl (updateRound_headers (fun _ _ => Round.reply_header) hs)
  | fail k m => exact .inl (updateRound_headers (fun _ _ => Round.fail_header) hs)
  | close k m => exact .inl (updateRound_headers (fun _ _ => Round.closeVotes_header) hs)
  | tallyReceive k => exact .inl (updateRound_headers (fun _ _ => Round.tallyReceive_header) hs)
  | receive k m p =>
    obtain ⟨r, q, resp, hr, -, ⟨-, s₁, h₁, rfl⟩ | ⟨-, votes, -, rfl⟩⟩ :=
      receive_eq_ok hs
    · rw [(setRole_restarted h₁).1.rounds]
      exact .inl (headers_set hr rfl)
    · exact .inl (headers_set hr rfl)
  | tallyHandle k =>
    obtain ⟨r, b, hr, -, he⟩ := tallyHandle_rounds hs
    exact .inl (he ▸ headers_set hr rfl)
  | fire k => exact .inl (same (timers_eq (.inl hs)).2.2)
  | timeout k => exact .inl (same (timers_eq (.inr (.inl hs))).2.2)
  | expire k => exact .inl (same (timers_eq (.inr (.inr hs))).2.2)

/-- A round of the replica after a step: one it had before, with the same header, or the
round `sendVoteRequests` appended, in a term above the replica's term before the step. -/
theorem round_before {a : Action} (hs : s.step a = .ok s') {k : Nat} {r' : Round}
    (hr' : s'.rounds[k]? = some r') :
    (∃ r, s.rounds[k]? = some r ∧ r.header = r'.header) ∨ s.raft.term < r'.term := by
  rcases step_headers hs with he | ⟨r, he, hlt, -⟩
  · have := congrArg (·[k]?) he
    simp only [List.getElem?_map, hr', Option.map_some'] at this
    obtain ⟨r, hr, h⟩ := Option.map_eq_some'.mp this.symm
    exact .inl ⟨r, hr, h⟩
  · rw [he] at hr'
    rcases Nat.lt_or_ge k s.rounds.length with hk | hk
    · exact .inl ⟨r', (List.getElem?_append_left hk).symm.trans hr', rfl⟩
    · rw [List.getElem?_append_right hk] at hr'
      cases List.mem_singleton.mp (List.getElem?_mem hr')
      exact .inr hlt

/-- The rounds were started in strictly increasing terms, none above the replica's term. -/
structure Ordered (s : Replica) : Prop where
  increasing : s.rounds.Pairwise (fun r r' => r.term < r'.term)
  le_term : ∀ r ∈ s.rounds, r.term ≤ s.raft.term

/-- No two rounds share a term. -/
theorem Ordered.index_eq (h : s.Ordered) {k k' : Nat} {r r' : Round}
    (hk : s.rounds[k]? = some r) (hk' : s.rounds[k']? = some r') (ht : r.term = r'.term) :
    k = k' := by
  obtain ⟨hlt, rfl⟩ := List.getElem?_eq_some_iff.mp hk
  obtain ⟨hlt', rfl⟩ := List.getElem?_eq_some_iff.mp hk'
  have hp := List.pairwise_iff_getElem.mp h.increasing
  rcases Nat.lt_trichotomy k k' with h₁ | h₁ | h₁
  · have := hp k k' hlt hlt' h₁
    rw [ht] at this
    exact absurd (term_lt_iff.mp this) (Nat.lt_irrefl _)
  · exact h₁
  · have := hp k' k hlt' hlt h₁
    rw [ht] at this
    exact absurd (term_lt_iff.mp this) (Nat.lt_irrefl _)

theorem Ordered.step (h : s.Ordered) {a : Action} (hs : s.step a = .ok s') : s'.Ordered := by
  have hle := term_le_iff.mp (step_evolves hs).grows.term_le
  rcases step_headers hs with he | ⟨r, he, hlt, hr⟩
  · have ht : s'.rounds.map Round.term = s.rounds.map Round.term := by
      simpa [List.map_map, Function.comp_def] using congrArg (List.map (·.2.1)) he
    refine ⟨List.pairwise_map.mp (ht ▸ List.pairwise_map.mpr h.increasing), fun r hr => ?_⟩
    obtain ⟨r₀, hr₀, h₀⟩ := List.mem_map.mp (ht ▸ List.mem_map_of_mem Round.term hr)
    have := term_le_iff.mp (h.le_term r₀ hr₀)
    rw [term_le_iff, ← h₀]
    omega
  · have hlt := term_lt_iff.mp hlt
    refine ⟨he ▸ List.pairwise_append.mpr ⟨h.increasing, List.pairwise_singleton _ _,
      fun r₀ h₀ r' h' => ?_⟩, fun r' h' => ?_⟩
    · cases List.mem_singleton.mp h'
      have := term_le_iff.mp (h.le_term r₀ h₀)
      rw [term_lt_iff]
      omega
    · rw [he] at h'
      rcases List.mem_append.mp h' with h' | h'
      · have := term_le_iff.mp (h.le_term r' h')
        rw [term_le_iff]
        omega
      · cases List.mem_singleton.mp h'
        exact hr ▸ UInt64.le_refl _

theorem ordered_init (cluster : Cluster) (term : Term) (vote : Option MemberID) :
    (init cluster term vote).Ordered :=
  ⟨List.Pairwise.nil, fun _ h => nomatch h⟩

end Replica

theorem Reachable.ordered {s : Replica} (h : Reachable s) : s.Ordered := by
  induction h with
  | init cluster term vote => exact Replica.ordered_init cluster term vote
  | step a _ hs ih => exact ih.step hs

namespace Replica

variable {s s' : Replica}

/-- The rounds form an append-only log of elections in strictly increasing terms. Over every
run a round keeps its candidate, term, voting members and log position for its whole life,
and rounds are only appended, each in a term above every earlier round's. -/
theorem rounds_append_only (hs : Reachable s) (h : Relation.ReflTransGen Next s s') :
    s.rounds.map Round.header <+: s'.rounds.map Round.header ∧
      s'.rounds.Pairwise (fun r r' => r.term < r'.term) := by
  refine ⟨?_, (hs.later h).ordered.increasing⟩
  induction h with
  | refl => exact List.prefix_refl _
  | tail _ hn ih =>
    rcases step_headers hn.choose_spec with he | ⟨r, he, -⟩
    · exact he ▸ ih
    · rw [he, List.map_append]
      exact ih.trans (List.prefix_append _ _)

/-- The election timer of `electionStarted` fires and times out, and the queued
`sendVoteRequests` starts a second round. -/
def secondRound : List Action := [.fire 0, .timeout 0, .sendVoteRequests 0 true true 0 0]

theorem started_election_rounds_append_only :
    ∃ s', electionStarted.run secondRound = .ok s' ∧ s'.rounds.length = 2 ∧
      electionStarted.rounds.map Round.header <+: s'.rounds.map Round.header ∧
        s'.rounds.Pairwise (fun r r' => r.term < r'.term) :=
  ⟨_, rfl, rfl, rounds_append_only electionStarted_reachable
    (.tail (.tail (.single ⟨.fire 0, rfl⟩) ⟨.timeout 0, rfl⟩)
      ⟨.sendVoteRequests 0 true true 0 0, rfl⟩)⟩

/-- Whether action `a` is the tally of a round of term `t` calling `SetRole`. -/
def switchesIn (s : Replica) (t : Term) (a : Action) : Bool :=
  match a.handles with
  | some k => (s.rounds[k]?.map Round.term == some t) && (s.tallySwitch k).isSome
  | none => false

/-- How many times a tally of a round of term `t` calls `SetRole` along the actions `as` run
from `s`, up to the first that does not run. -/
def termSwitches (t : Term) : Replica → List Action → Nat
  | _, [] => 0
  | s, a :: as =>
    match s.step a with
    | .ok s' => (if s.switchesIn t a then 1 else 0) + termSwitches t s' as
    | .error _ => 0

/-- Every round of term `t` has a returned tally, and the replica's term has reached `t`, so
no round of term `t` can be started any more. -/
structure Done (s : Replica) (t : Term) : Prop where
  le_term : t ≤ s.raft.term
  returned : ∀ (k : Nat) (r : Round), s.rounds[k]? = some r → r.term = t →
    r.tally.state.returned = true

variable {t : Term}

theorem Done.step (h : s.Done t) {a : Action} (hs : s.step a = .ok s') : s'.Done t := by
  have hle := term_le_iff.mp (step_evolves hs).grows.term_le
  have ht := term_le_iff.mp h.le_term
  refine ⟨term_le_iff.mpr (by omega), fun k r' hr' hrt => ?_⟩
  rcases round_before hs hr' with ⟨r, hr, he⟩ | hlt
  · have hrt' : r.term = t := (congrArg (·.2.1) he).trans hrt
    obtain ⟨r'', hr'', htally⟩ := returned_step hs hr (h.returned k r hr hrt')
    rw [hr'] at hr''
    cases hr''
    rw [htally]
    exact h.returned k r hr hrt'
  · rw [hrt, term_lt_iff] at hlt
    omega

theorem Done.switchesIn (h : s.Done t) (a : Action) : s.switchesIn t a = false := by
  unfold Replica.switchesIn
  split
  · rename_i k _
    cases hk : s.rounds[k]? with
    | none => simp
    | some r =>
      by_cases hrt : r.term = t
      · simp [tallySwitch_returned hk (h.returned k r hk hrt)]
      · simp [hrt]
  · rfl

theorem termSwitches_done (h : s.Done t) (as : List Action) : termSwitches t s as = 0 := by
  induction as generalizing s with
  | nil => rfl
  | cons a as ih =>
    unfold termSwitches
    split
    · rename_i s' hs
      simp [h.switchesIn a, ih (h.step hs)]
    · rfl

/-- Once a tally of term `t` switched the role, every round of term `t` has returned: that
round's own tally, and no other round has term `t`. -/
theorem done_of_switch (hs : Reachable s) {a : Action} (hstep : s.step a = .ok s')
    (hsw : s.switchesIn t a = true) : s'.Done t := by
  have ho := hs.ordered
  cases a with
  | tallyHandle k =>
    obtain ⟨hkt, hsw'⟩ := Bool.and_eq_true_iff.mp hsw
    obtain ⟨r, hr, rfl⟩ : ∃ r, s.rounds[k]? = some r ∧ r.term = t := by
      cases hk : s.rounds[k]? <;> simp_all
    obtain ⟨r', hr', hret⟩ := tallyHandle_switched hstep hsw'
    have hle := term_le_iff.mp (step_evolves hstep).grows.term_le
    have hrt := term_le_iff.mp (ho.le_term r (List.getElem?_mem hr))
    refine ⟨term_le_iff.mpr (by omega), fun k' r'' hr'' hrt'' => ?_⟩
    rcases round_before hstep hr'' with ⟨r₀, hr₀, he⟩ | hlt
    · obtain rfl := ho.index_eq hr hr₀ ((congrArg (·.2.1) he).trans hrt'').symm
      rw [hr'] at hr''
      cases hr''
      exact hret
    · rw [hrt'', term_lt_iff] at hlt
      omega
  | _ => simp [switchesIn, Action.handles] at hsw

/-- Over any run from a reachable state, the tallies of all the replica's rounds together call
`SetRole` at most once per term: in each term a tally switches the replica to leader or to
follower at most once. -/
theorem one_tally_switch_per_term (hs : Reachable s) (t : Term) (as : List Action) :
    termSwitches t s as ≤ 1 := by
  induction as generalizing s with
  | nil => exact Nat.zero_le _
  | cons a as ih =>
    unfold termSwitches
    split
    · rename_i s' hstep
      split_ifs with hsw
      · rw [termSwitches_done (done_of_switch hs hstep hsw)]
      · simpa using ih (hs.step a hstep)
    · exact Nat.zero_le _

theorem started_election_one_switch_per_term : termSwitches 1 electionStarted firstRoundWon ≤ 1 :=
  one_tally_switch_per_term electionStarted_reachable 1 firstRoundWon

/-- The bound is reached: the tally of the won round switches the replica to leader. -/
example : termSwitches 1 electionStarted firstRoundWon = 1 := by decide

/-- A tally switches the role only for a round of the active candidate in the current term. -/
theorem tallySwitch_current {k : Nat} (hsw : (s.tallySwitch k).isSome) :
    ∃ r, s.rounds[k]? = some r ∧ s.active r.role = true ∧ s.raft.term = r.term := by
  unfold tallySwitch at hsw
  split at hsw
  · rename_i r hr
    split at hsw
    · refine ⟨r, hr, ?_⟩
      cases hc : (s.active r.role && decide (s.raft.term = r.term))
      · simp [hc, Tally.handle] at hsw
      · simpa using hc
    · simp at hsw
  · simp at hsw

/-- Only the newest round's tally can switch the role. A tally calls `SetRole` only for a
round of the active candidate in the replica's current term, and a later round would be in a
greater term, above the replica's. So the tally of a superseded round can only exit. -/
theorem only_newest_round_switches (hs : Reachable s) {k : Nat}
    (hsw : (s.tallySwitch k).isSome) :
    ∃ r, s.rounds[k]? = some r ∧ k + 1 = s.rounds.length ∧ s.active r.role = true ∧
      s.raft.term = r.term := by
  obtain ⟨r, hr, ha, ht⟩ := tallySwitch_current hsw
  have ho := hs.ordered
  obtain ⟨hk, hkr⟩ := List.getElem?_eq_some_iff.mp hr
  refine ⟨r, hr, ?_, ha, ht⟩
  by_contra hne
  have hk' : k + 1 < s.rounds.length := by omega
  have hlt := List.pairwise_iff_getElem.mp ho.increasing k (k + 1) hk hk' (Nat.lt_succ_self k)
  have hle := term_le_iff.mp (ho.le_term _ (List.getElem_mem hk'))
  rw [hkr, ← ht, term_lt_iff] at hlt
  omega

theorem winning_round_is_newest :
    ∃ s, electionStarted.run aboutToWin = .ok s ∧ ∃ r, s.rounds[0]? = some r ∧
      0 + 1 = s.rounds.length ∧ s.active r.role = true ∧ s.raft.term = r.term :=
  ⟨_, rfl, only_newest_round_switches (electionStarted_reachable.run
    (show electionStarted.run aboutToWin = .ok _ from rfl)) (k := 0) (by decide)⟩

end Replica

end AtomixRaft
