import AtomixRaft.Blocking
import AtomixRaft.Frame

/-!
# The quorum rule of the tally

The tally of a round counts ballots of distinct voting members, and a granted one comes from
the candidate itself or from a peer that voted for it in the round's term. Handling its
ballot, it switches to leader exactly at the quorum-th grant while the role is active in the
round's term and no leader is known, and to follower exactly at the quorum-th rejection.
Once the term moved on or the role was stopped it exits and changes nothing, and over any
run it switches the role at most once (`tally_quorum_rule`).

`tallySwitch` is the role the tally would switch to if it handled its ballot now. The step
of the tally makes exactly that change: `SetRole` of the predicted role, and no change of the
protocol state or of the current role when it predicts none (`tallyHandle_switch`).
-/

namespace AtomixRaft

/-- Whether the tally goroutine has returned. -/
def TallyState.returned : TallyState → Bool
  | .receiving | .handling _ => false
  | _ => true

/-- The round whose ballot the tally handles in this action. -/
def Action.handles : Action → Option Nat
  | .tallyHandle k => some k
  | _ => none

namespace Tally

variable {t : Tally} {b : Ballot} {current : Bool} {leader : Option MemberID} {q : Nat}

theorem handle_leader : (t.handle b current leader q).2 = some .leader ↔
    current = true ∧ b.granted = true ∧ leader = none ∧ t.voteCount + 1 = q := by
  unfold handle
  cases current <;> cases b.granted <;> simp <;> split_ifs <;> simp_all

theorem handle_follower : (t.handle b current leader q).2 = some .follower ↔
    current = true ∧ b.granted = false ∧ t.rejectCount + 1 = q := by
  unfold handle
  cases current <;> cases b.granted <;> simp <;> split_ifs <;> simp_all

theorem handle_returned (h : (t.handle b current leader q).2.isSome) :
    (t.handle b current leader q).1.state.returned = true := by
  unfold handle at h ⊢
  dsimp only at h ⊢
  split_ifs at h ⊢ <;> simp_all [TallyState.returned]

theorem handle_ne_candidate : (t.handle b current leader q).2 ≠ some .candidate := by
  unfold handle
  dsimp only
  split_ifs <;> simp

/-- Handling a ballot, the tally either returns or goes back to its `range`. -/
theorem handle_next : (t.handle b current leader q).1.state.returned = true ∨
    (t.handle b current leader q).1.state = .receiving := by
  unfold handle
  dsimp only
  split_ifs <;> simp [TallyState.returned]

end Tally

theorem Round.tallyReceive_receiving {r r' : Round} (h : r.tallyReceive = .ok r') :
    r.tally.state = .receiving := by
  unfold Round.tallyReceive at h
  split at h
  · assumption
  · assumption
  · cases h

namespace Replica

variable {s s' : Replica} {k : Nat} {r : Round}

/-- The role the tally of round `k` switches to if it handles its ballot now. -/
def tallySwitch (s : Replica) (k : Nat) : Option RoleType :=
  match s.rounds[k]? with
  | some r =>
    match r.tally.state with
    | .handling b => (r.tally.handle b (s.active r.role && decide (s.raft.term = r.term))
        s.raft.leader (quorum r.votingMembers.length)).2
    | _ => none
  | none => none

/-- `tallyHandle` when `handle` asks for no role switch. -/
theorem tallyHandle_of_none {b : Ballot} (hr : s.rounds[k]? = some r)
    (hb : r.tally.state = .handling b) {c : Bool}
    (hc : (s.active r.role && decide (s.raft.term = r.term)) = c) {t : Tally}
    (hn : r.tally.handle b c s.raft.leader (quorum r.votingMembers.length) = (t, none)) :
    s.tallyHandle k = .ok { s with rounds := s.rounds.set k { r with tally := t } } := by
  simp only [tallyHandle, hr, hb, hc, hn]
  rfl

/-- `tallyHandle` when `handle` asks for a switch to `role`. -/
theorem tallyHandle_of_some {b : Ballot} (hr : s.rounds[k]? = some r)
    (hb : r.tally.state = .handling b) {c : Bool}
    (hc : (s.active r.role && decide (s.raft.term = r.term)) = c) {t : Tally}
    {role : RoleType}
    (hn : r.tally.handle b c s.raft.leader (quorum r.votingMembers.length) = (t, some role)) :
    s.tallyHandle k = ({ s with rounds := s.rounds.set k { r with tally := t } } : Replica).setRole
      role := by
  simp only [tallyHandle, hr, hb, hc, hn]

/-- The role change a step of the tally makes is the one `tallySwitch` predicts: `SetRole`
of that role, after which no role is current; when it predicts none, the step changes
neither the protocol state nor the current role. -/
theorem tallyHandle_switch (h : s.tallyHandle k = .ok s') :
    (∀ role, s.tallySwitch k = some role → s'.raft.role = role ∧ s'.current = none) ∧
      (s.tallySwitch k = none → s'.raft = s.raft ∧ s'.current = s.current) := by
  obtain ⟨r, b, hr, hb, -⟩ := tallyHandle_eq_ok h
  have hsw : s.tallySwitch k = (r.tally.handle b (s.active r.role && decide (s.raft.term = r.term))
      s.raft.leader (quorum r.votingMembers.length)).2 := by
    simp only [tallySwitch, hr, hb]
  rcases hn : r.tally.handle b (s.active r.role && decide (s.raft.term = r.term)) s.raft.leader
      (quorum r.votingMembers.length) with ⟨t, _ | role⟩
  · rw [tallyHandle_of_none hr hb rfl hn] at h
    cases h
    rw [hsw, hn]
    exact ⟨fun _ h => (by cases h), fun _ => ⟨rfl, rfl⟩⟩
  · rw [tallyHandle_of_some hr hb rfl hn] at h
    rw [hsw, hn]
    refine ⟨fun role' h' => ?_, fun h' => (by cases h')⟩
    cases h'
    cases role with
    | candidate => exact absurd (congrArg Prod.snd hn) Tally.handle_ne_candidate
    | leader | follower =>
      obtain ⟨s₁, -, h⟩ := bind_eq_ok.mp h
      cases h
      exact ⟨rfl, rfl⟩

/-- How many times the tally of round `k` calls `SetRole` along the actions `as` run from
`s`, up to the first that does not run. -/
def tallySwitches (k : Nat) : Replica → List Action → Nat
  | _, [] => 0
  | s, a :: as =>
    match s.step a with
    | .ok s' =>
      (if a.handles = some k ∧ (s.tallySwitch k).isSome then 1 else 0) + tallySwitches k s' as
    | .error _ => 0

theorem tallySwitch_returned (hr : s.rounds[k]? = some r) (hret : r.tally.state.returned) :
    s.tallySwitch k = none := by
  simp only [tallySwitch, hr]
  cases h : r.tally.state <;> simp_all [TallyState.returned]

/-- A returned tally stays as it is. -/
theorem returned_step {a : Action} (hs : s.step a = .ok s') (hr : s.rounds[k]? = some r)
    (hret : r.tally.state.returned) : ∃ r', s'.rounds[k]? = some r' ∧ r'.tally = r.tally := by
  by_cases ha : a.tallies = some k
  · cases a <;> simp only [Action.tallies, Option.some.injEq, reduceCtorEq] at ha <;> subst ha
    · obtain ⟨r₀, _, hr₀, hf, -⟩ := updateRound_eq_ok hs
      rw [hr] at hr₀; cases hr₀
      simp [Round.tallyReceive_receiving hf, TallyState.returned] at hret
    · obtain ⟨r₀, b, hr₀, hb, -⟩ := tallyHandle_eq_ok hs
      rw [hr] at hr₀; cases hr₀
      simp [hb, TallyState.returned] at hret
  · exact tally_frame hs ha hr

/-- After the tally switched the role it has returned. -/
theorem tallyHandle_switched (hs : s.tallyHandle k = .ok s') (hsw : (s.tallySwitch k).isSome) :
    ∃ r', s'.rounds[k]? = some r' ∧ r'.tally.state.returned := by
  obtain ⟨r, b, hr, hb, he⟩ := tallyHandle_rounds hs
  simp only [tallySwitch, hr, hb] at hsw
  exact ⟨_, by rw [he, List.getElem?_set_self (List.getElem?_eq_some_iff.mp hr).1],
    Tally.handle_returned hsw⟩

theorem tallySwitches_returned (as : List Action) (hr : s.rounds[k]? = some r)
    (hret : r.tally.state.returned) : tallySwitches k s as = 0 := by
  induction as generalizing s r with
  | nil => rfl
  | cons a as ih =>
    unfold tallySwitches
    split
    · rename_i s' hs
      obtain ⟨r', hr', ht⟩ := returned_step hs hr hret
      simp [tallySwitch_returned hr hret, ih hr' (ht ▸ hret)]
    · rfl

/-- Over any run, the tally of a round calls `SetRole` at most once. -/
theorem tallySwitches_le_one (as : List Action) : tallySwitches k s as ≤ 1 := by
  induction as generalizing s with
  | nil => exact Nat.zero_le _
  | cons a as ih =>
    unfold tallySwitches
    split
    · rename_i s' hs
      split_ifs with h
      · obtain ⟨ha, hsw⟩ := h
        cases a <;> simp only [Action.handles, Option.some.injEq, reduceCtorEq] at ha
        subst ha
        obtain ⟨r', hr', hret⟩ := tallyHandle_switched hs hsw
        rw [tallySwitches_returned as hr' hret]
      · simpa using ih
    · exact Nat.zero_le _

/-- Every ballot the tally counted comes from a distinct voting member, and a granted one
from the candidate itself or from a peer whose response granted the vote in the round's
term. -/
theorem counted_ballots (h : s.Inv) (hr : s.rounds[k]? = some r) :
    (r.tally.counted.map (·.voter)).Nodup ∧
    ∀ b ∈ r.tally.counted, b.granted = true → b.voter ∈ r.votingMembers ∧
      (b.voter = s.raft.cluster.member ∨
        ∃ resp, r.producers b.voter = .done (some resp) ∧ resp.voted = true ∧
          resp.term = r.term) := by
  have hrs := h.rounds r (List.getElem?_mem hr)
  have hsub : r.tally.counted.Sublist r.ballots :=
    (List.sublist_append_left _ _).trans (List.sublist_append_left _ _)
  refine ⟨hrs.nodup.sublist (hsub.map _), fun b hb hg => ⟨?_, hrs.granted b (hsub.subset hb) hg⟩⟩
  refine hrs.mem_of_ne_waiting fun hw => ?_
  have := hrs.finished b (hsub.subset hb)
  rw [hw] at this
  cases this

theorem tallySwitch_leader {b : Ballot} (h : s.Inv) (hr : s.rounds[k]? = some r)
    (hb : r.tally.state = .handling b) :
    s.tallySwitch k = some .leader ↔ b.granted = true ∧ s.active r.role = true ∧
      s.raft.term = r.term ∧ s.raft.leader = none ∧
      (r.tally.counted.filter (·.granted)).length + 1 = quorum r.votingMembers.length := by
  simp only [tallySwitch, hr, hb, Tally.handle_leader, Bool.and_eq_true, decide_eq_true_eq,
    (h.rounds r (List.getElem?_mem hr)).voteCount]
  tauto

theorem tallySwitch_follower {b : Ballot} (h : s.Inv) (hr : s.rounds[k]? = some r)
    (hb : r.tally.state = .handling b) :
    s.tallySwitch k = some .follower ↔ b.granted = false ∧ s.active r.role = true ∧
      s.raft.term = r.term ∧
      (r.tally.counted.filter (!·.granted)).length + 1 = quorum r.votingMembers.length := by
  simp only [tallySwitch, hr, hb, Tally.handle_follower, Bool.and_eq_true, decide_eq_true_eq,
    (h.rounds r (List.getElem?_mem hr)).rejectCount]
  tauto

/-- Once the term moved on or the role was stopped, the tally exits and changes nothing
else. -/
theorem tallyHandle_stale {b : Ballot} (hr : s.rounds[k]? = some r)
    (hb : r.tally.state = .handling b) (hc : ¬(s.active r.role = true ∧ s.raft.term = r.term)) :
    s.tallyHandle k = .ok { s with
      rounds := s.rounds.set k { r with tally := { r.tally with state := .exited } } } := by
  have : (s.active r.role && decide (s.raft.term = r.term)) = false := by simpa using hc
  simp only [tallyHandle, hr, hb, this, Tally.handle, Bool.not_false, ↓reduceIte]
  rfl

/-- The quorum rule of a round's tally, in every reachable state: it counts ballots of
distinct voting members, a granted one being the candidate's own or a peer's vote in the
round's term; it switches to leader exactly at the quorum-th grant while the role is active
in the round's term and no leader is known, and to follower exactly at the quorum-th
rejection; a stale tally only exits; and over any run it switches the role at most once. -/
theorem tally_quorum_rule {s : Replica} (hs : Reachable s) {k : Nat} {r : Round}
    (hr : s.rounds[k]? = some r) :
    ((r.tally.counted.map (·.voter)).Nodup ∧
      ∀ b ∈ r.tally.counted, b.granted = true → b.voter ∈ r.votingMembers ∧
        (b.voter = s.raft.cluster.member ∨
          ∃ resp, r.producers b.voter = .done (some resp) ∧ resp.voted = true ∧
            resp.term = r.term)) ∧
    (∀ b, r.tally.state = .handling b →
      (s.tallySwitch k = some .leader ↔ b.granted = true ∧ s.active r.role = true ∧
        s.raft.term = r.term ∧ s.raft.leader = none ∧
        (r.tally.counted.filter (·.granted)).length + 1 = quorum r.votingMembers.length) ∧
      (s.tallySwitch k = some .follower ↔ b.granted = false ∧ s.active r.role = true ∧
        s.raft.term = r.term ∧
        (r.tally.counted.filter (!·.granted)).length + 1 = quorum r.votingMembers.length) ∧
      (¬(s.active r.role = true ∧ s.raft.term = r.term) →
        s.tallyHandle k = .ok { s with
          rounds := s.rounds.set k { r with tally := { r.tally with state := .exited } } })) ∧
    ∀ as, tallySwitches k s as ≤ 1 :=
  ⟨counted_ballots hs.inv hr, fun _ hb => ⟨tallySwitch_leader hs.inv hr hb,
    tallySwitch_follower hs.inv hr hb, tallyHandle_stale hr hb⟩, tallySwitches_le_one⟩

/-- `foo`'s first round is won: `bar` grants, and the tally counts `bar`'s vote and `foo`'s
own, the quorum of two. -/
def firstRoundWon : List Action :=
  [.requestVote 0, .requestVote 0, .requestVote 0, .reply 0 "bar" ⟨.ok, 1, true⟩,
   .receive 0 "bar" true, .tallyReceive 0, .tallyHandle 0, .tallyReceive 0, .tallyHandle 0]

/-- `firstRoundWon` up to the tally holding `bar`'s grant, the quorum-th. -/
def aboutToWin : List Action := firstRoundWon.take 8

theorem first_round_wins_at_quorum :
    ∃ s r, electionStarted.run aboutToWin = .ok s ∧ s.rounds[0]? = some r ∧
      r.tally.state = .handling ⟨"bar", true⟩ ∧ s.tallySwitch 0 = some .leader ∧
      ∀ as, tallySwitches 0 s as ≤ 1 := by
  refine ⟨_, _, rfl, rfl, rfl, ?_⟩
  have h := tally_quorum_rule (electionStarted_reachable.run
    (show electionStarted.run aboutToWin = .ok _ from rfl)) (k := 0) rfl
  exact ⟨(h.2.1 _ rfl).1.mpr ⟨rfl, rfl, rfl, rfl, rfl⟩, h.2.2⟩

end Replica

end AtomixRaft
