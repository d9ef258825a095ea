import AtomixRaft.Progress

/-!
# A quorum decides the election

The tally goroutine counts the ballots on `votes` in whatever order the producers sent them.
While its candidate is active in the round's term, each ballot it handles raises `voteCount`
or `rejectCount`. The quorum-th grant makes it call `SetRole(Leader)` when no leader is known,
and the quorum-th rejection `SetRole(Follower)`. The ballots come from distinct members, so
once a quorum of them are of one kind, fewer than a quorum are of the other, and the count
cannot end the other way.

So once a round holds a quorum of ballots of one kind that the tally has not all counted,
the tally's own steps decide the election that way, in the round's term (`quorum_decides`):
a quorum of grants elects the candidate (`quorum_of_grants_elects`), and a quorum of
rejections makes it step down (`quorum_of_rejections_steps_down`). These are the
counterparts of the split vote, after which the tally waits forever.
-/

namespace AtomixRaft

/-- How many ballots of `l` are of kind `g`: grants for `true`, rejections for `false`. -/
def ballotCount (g : Bool) (l : List Ballot) : Nat := (l.filter (·.granted == g)).length

@[simp] theorem ballotCount_append (g : Bool) (l l' : List Ballot) :
    ballotCount g (l ++ l') = ballotCount g l + ballotCount g l' := by
  simp [ballotCount]

@[simp] theorem ballotCount_singleton (g : Bool) (b : Ballot) :
    ballotCount g [b] = if b.granted = g then 1 else 0 := by
  by_cases h : b.granted = g <;> simp [ballotCount, h]

@[simp] theorem ballotCount_nil (g : Bool) : ballotCount g [] = 0 := rfl

/-- The tally's counter for ballots of kind `g`. -/
def Tally.countOf (t : Tally) (g : Bool) : Nat := if g then t.voteCount else t.rejectCount

@[simp] theorem Tally.countOf_true (t : Tally) : t.countOf true = t.voteCount := rfl

@[simp] theorem Tally.countOf_false (t : Tally) : t.countOf false = t.rejectCount := rfl

/-- The role a quorum of ballots of kind `g` switches to. -/
def decidedRole (g : Bool) : RoleType := if g then .leader else .follower

namespace Tally

variable {t : Tally} {b : Ballot} {leader : Option MemberID} {q : Nat}

theorem handle_counted : (t.handle b true leader q).1.counted = t.counted ++ [b] := by
  unfold handle
  dsimp only
  split_ifs <;> simp_all

theorem handle_receiving (h : (t.handle b true leader q).2 = none) :
    (t.handle b true leader q).1.state = .receiving := by
  unfold handle at h ⊢
  dsimp only at h ⊢
  split_ifs at h ⊢ <;> simp_all

end Tally

namespace Round

variable {r : Round} {raft : ProtocolState}

/-- The granted ballots of the round. -/
def grants (r : Round) : Nat := (r.ballots.filter (·.granted)).length

/-- The rejections of the round. -/
def rejections (r : Round) : Nat := (r.ballots.filter (!·.granted)).length

theorem grants_eq : r.grants = ballotCount true r.ballots := by
  simp [grants, ballotCount]

theorem rejections_eq : r.rejections = ballotCount false r.ballots := by
  simp [rejections, ballotCount]

/-- A round has at most one ballot per voting member. -/
theorem Sound.ballots_length_le (hs : r.Sound raft) :
    r.ballots.length ≤ r.votingMembers.length := by
  have hsub : r.ballots.map Ballot.voter ⊆ r.votingMembers := fun m hm => by
    obtain ⟨b, hb, rfl⟩ := List.mem_map.mp hm
    exact hs.voter_mem hb
  simpa using (List.subperm_of_subset hs.nodup hsub).length_le

/-- The tally's counters count the ballots it counted. -/
theorem Sound.countOf (hs : r.Sound raft) (g : Bool) :
    r.tally.countOf g = ballotCount g r.tally.counted := by
  cases g
  · simp [Tally.countOf, ballotCount, hs.rejectCount]
  · simp [Tally.countOf, ballotCount, hs.voteCount]

/-- With a quorum of ballots of one kind, those of the other kind stay below a quorum. -/
theorem Sound.other_lt (hs : r.Sound raft) {g : Bool}
    (hq : quorum r.votingMembers.length ≤ ballotCount g r.ballots) :
    ballotCount (!g) r.ballots < quorum r.votingMembers.length := by
  have hlen := List.length_eq_length_filter_add (l := r.ballots) (·.granted == g)
  have := hs.ballots_length_le
  have hother : ballotCount (!g) r.ballots =
      (r.ballots.filter fun b => !(b.granted == g)).length := by
    cases g <;> simp [ballotCount]
  unfold ballotCount at hq
  rw [hother]
  unfold quorum at *
  omega

/-- A held ballot of the other kind is not the quorum-th of its kind. -/
theorem Sound.other_below (hs : r.Sound raft) {b : Ballot} (hb : r.tally.state = .handling b)
    {g : Bool} (hg : b.granted = !g)
    (hq : quorum r.votingMembers.length ≤ ballotCount g r.ballots) :
    r.tally.countOf (!g) + 1 < quorum r.votingMembers.length := by
  have hlt := hs.other_lt hq
  simp only [ballots, hb, TallyState.held, ballotCount_append, ballotCount_singleton, hg,
    ↓reduceIte] at hlt
  rw [hs.countOf]
  omega

end Round

namespace Replica

variable {s : Replica} {k : Nat} {r : Round}

/-- Round `r`'s tally can still decide the election for kind `g`: the candidate is active in
the round's term, no leader is known if `g` is a win, and the round holds a quorum of ballots
of kind `g` of which the tally counted fewer than a quorum. -/
structure Deciding (s : Replica) (r : Round) (g : Bool) : Prop where
  active : s.active r.role = true
  term : s.raft.term = r.term
  leader : g = true → s.raft.leader = none
  below : r.tally.countOf g < quorum r.votingMembers.length
  reached : quorum r.votingMembers.length ≤ ballotCount g r.ballots

variable {g : Bool}

/-- The tally handles the ballot it holds: the quorum-th ballot of kind `g` switches the
replica to the role it decides, in the same term, and any other ballot sends the tally back
to its `range` with the count still open. -/
theorem handling_decides (hs : Reachable s) {b : Ballot} (hr : s.rounds[k]? = some r)
    (hb : r.tally.state = .handling b) (he : s.Deciding r g) :
    ∃ s', TallyNext k s s' ∧ ((s'.raft.role = decidedRole g ∧ s'.raft.term = s.raft.term) ∨
      ∃ r', s'.rounds[k]? = some r' ∧ s'.Deciding r' g ∧ r'.tally.state = .receiving ∧
        r'.votes = r.votes ∧ s'.raft = s.raft) := by
  have hrs := hs.inv.rounds r (List.getElem?_mem hr)
  have hc : (s.active r.role && decide (s.raft.term = r.term)) = true := by
    simp [he.active, he.term]
  -- a ballot that does not end the count leaves the round deciding
  have next : (r.tally.handle b true s.raft.leader (quorum r.votingMembers.length)).2 = none →
      (r.tally.handle b true s.raft.leader (quorum r.votingMembers.length)).1.countOf g <
        quorum r.votingMembers.length →
      ∃ s', TallyNext k s s' ∧ ((s'.raft.role = decidedRole g ∧ s'.raft.term = s.raft.term) ∨
        ∃ r', s'.rounds[k]? = some r' ∧ s'.Deciding r' g ∧ r'.tally.state = .receiving ∧
          r'.votes = r.votes ∧ s'.raft = s.raft) := fun hn hv => by
    have hbs : ({ r with tally := (r.tally.handle b true s.raft.leader
        (quorum r.votingMembers.length)).1 } : Round).ballots = r.ballots := by
      simp [Round.ballots, Tally.handle_receiving hn, Tally.handle_counted, hb,
        TallyState.held]
    exact ⟨_, ⟨.tallyHandle k, rfl, tallyHandle_of_none hr hb hc (Prod.ext rfl hn)⟩,
      .inr ⟨_, List.getElem?_set_self (List.getElem?_eq_some_iff.mp hr).1,
        ⟨he.active, he.term, he.leader, hv, by rw [hbs]; exact he.reached⟩,
        Tally.handle_receiving hn, rfl, rfl⟩⟩
  -- the quorum-th ballot of kind `g` switches the role
  have switch :
      (r.tally.handle b true s.raft.leader (quorum r.votingMembers.length)).2 =
        some (decidedRole g) →
      ∃ s', TallyNext k s s' ∧ ((s'.raft.role = decidedRole g ∧ s'.raft.term = s.raft.term) ∨
        ∃ r', s'.rounds[k]? = some r' ∧ s'.Deciding r' g ∧ r'.tally.state = .receiving ∧
          r'.votes = r.votes ∧ s'.raft = s.raft) := fun hn => by
    obtain ⟨s', h'⟩ := setRole_ok (s := { s with rounds := s.rounds.set k { r with
      tally := (r.tally.handle b true s.raft.leader (quorum r.votingMembers.length)).1 } })
      (by exact hs.inv.timers) (decidedRole g)
    obtain ⟨hres, hrole⟩ := setRole_restarted h'
    refine ⟨s', ⟨.tallyHandle k, rfl, (tallyHandle_of_some hr hb hc (Prod.ext rfl hn)).trans h'⟩,
      .inl ⟨hrole.resolve_right ?_, by rw [hres.raft]⟩⟩
    cases g <;> simp [decidedRole]
  have hbelow := he.below
  cases g <;> cases hg : b.granted <;> simp only [Tally.countOf_true, Tally.countOf_false] at hbelow
  · -- a rejection, counted towards stepping down
    by_cases hq : r.tally.rejectCount + 1 = quorum r.votingMembers.length
    · exact switch (by simp [Tally.handle, hg, hq, decidedRole])
    · exact next (by simp [Tally.handle, hg, hq]) (by simp [Tally.handle, hg, hq]; omega)
  · -- a grant, below the quorum of grants
    have hlt := hrs.other_below (g := false) hb hg he.reached
    simp only [Bool.not_false, Tally.countOf_true] at hlt
    exact next (by simp [Tally.handle, hg, hlt.ne]) (by simpa [Tally.handle, hg, hlt.ne])
  · -- a rejection, below the quorum of rejections
    have hlt := hrs.other_below (g := true) hb hg he.reached
    simp only [Bool.not_true, Tally.countOf_false] at hlt
    exact next (by simp [Tally.handle, hg, hlt.ne]) (by simpa [Tally.handle, hg, hlt.ne])
  · -- a grant, counted towards the election
    by_cases hq : r.tally.voteCount + 1 = quorum r.votingMembers.length
    · exact switch (by simp [Tally.handle, hg, hq, he.leader rfl, decidedRole])
    · exact next (by simp [Tally.handle, hg, hq]) (by simp [Tally.handle, hg, hq]; omega)

/-- The `range` of a deciding tally takes a ballot: the ballots of kind `g` it has not
counted are still on `votes`, so the channel is not empty. -/
theorem receiving_decides (hs : Reachable s) (hr : s.rounds[k]? = some r)
    (hst : r.tally.state = .receiving) (he : s.Deciding r g) :
    ∃ s' r' b, TallyNext k s s' ∧ s'.rounds[k]? = some r' ∧ s'.Deciding r' g ∧
      r'.tally.state = .handling b ∧ r'.votes.buffer.length + 1 = r.votes.buffer.length ∧
      s'.raft = s.raft := by
  have hrs := hs.inv.rounds r (List.getElem?_mem hr)
  cases hbuf : r.votes.buffer with
  | nil =>
    -- every ballot is counted, and fewer than a quorum of them are of kind `g`
    have hq := he.reached
    have hv := he.below
    simp only [Round.ballots, hst, hbuf, TallyState.held, List.append_nil] at hq
    rw [hrs.countOf] at hv
    omega
  | cons b rest =>
    refine ⟨_, _, b,
      ⟨.tallyReceive k, rfl, updateRound_eq hr (Round.tallyReceive_cons hst hbuf)⟩,
      List.getElem?_set_self (List.getElem?_eq_some_iff.mp hr).1,
      ⟨he.active, he.term, he.leader, he.below, ?_⟩, rfl, by simp [hbuf], rfl⟩
    simpa [Round.ballots, hst, hbuf, TallyState.held] using he.reached

/-- From its `range`, a deciding tally's own steps switch the replica to the role it decides:
each ballot it takes leaves one fewer on `votes`. -/
theorem receiving_decided (n : Nat) : ∀ {s : Replica} {r : Round}, Reachable s →
    s.rounds[k]? = some r → r.tally.state = .receiving → s.Deciding r g →
    r.votes.buffer.length = n → ∃ s', Relation.ReflTransGen (TallyNext k) s s' ∧
      s'.raft.role = decidedRole g ∧ s'.raft.term = s.raft.term := by
  induction n using Nat.strong_induction_on with
  | _ n ih =>
  intro s r hs hr hst he hn
  obtain ⟨s₁, r₁, b, h₁, hr₁, he₁, hb₁, hlen, hraft₁⟩ :=
    receiving_decides hs hr hst he
  have hs₁ := h₁.reachable hs
  obtain ⟨s₂, h₂, ⟨hrole, hterm⟩ | ⟨r₂, hr₂, he₂, hst₂, hv, hraft₂⟩⟩ :=
    handling_decides hs₁ hr₁ hb₁ he₁
  · exact ⟨s₂, .tail (.single h₁) h₂, hrole, by rw [hterm, hraft₁]⟩
  · obtain ⟨s', hrun, hrole, hterm⟩ :=
      ih _ (by rw [hv]; omega) (h₂.reachable hs₁) hr₂ hst₂ he₂ rfl
    exact ⟨s', .head h₁ (.head h₂ hrun), hrole, by rw [hterm, hraft₂, hraft₁]⟩

/-- A quorum decides the election. In every reachable state, take a round whose tally still
runs, whose candidate is active in the round's term, and whose ballots hold a quorum of kind
`g` of which the tally counted fewer than a quorum, with no leader known if `g` is a win.
Then the tally's own steps, whatever the order of the ballots on `votes`, switch the replica
to leader for grants and to follower for rejections, in the round's term. -/
theorem quorum_decides (hs : Reachable s) (hr : s.rounds[k]? = some r)
    (hret : r.tally.state.returned = false) (he : s.Deciding r g) :
    ∃ s', Relation.ReflTransGen (TallyNext k) s s' ∧ s'.raft.role = decidedRole g ∧
      s'.raft.term = r.term := by
  cases hst : r.tally.state with
  | receiving =>
    obtain ⟨s', hrun, hrole, hterm⟩ := receiving_decided _ hs hr hst he rfl
    exact ⟨s', hrun, hrole, hterm.trans he.term⟩
  | handling b =>
    obtain ⟨s₁, h₁, ⟨hrole, hterm⟩ | ⟨r₁, hr₁, he₁, hst₁, -, hraft⟩⟩ :=
      handling_decides hs hr hst he
    · exact ⟨s₁, .single h₁, hrole, hterm.trans he.term⟩
    · obtain ⟨s', hrun, hrole, hterm⟩ :=
        receiving_decided _ (h₁.reachable hs) hr₁ hst₁ he₁ rfl
      exact ⟨s', .head h₁ hrun, hrole, by rw [hterm, hraft, he.term]⟩
  | _ => simp [hst, TallyState.returned] at hret

/-- A quorum of grants elects the candidate. In every reachable state, take a round whose
tally still runs, whose candidate is active in the round's term with no leader known, and
whose ballots hold a quorum of grants of which the tally counted fewer than a quorum. Then
the tally's own steps, whatever the order of the ballots on `votes`, make the replica leader
in the round's term. -/
theorem quorum_of_grants_elects (hs : Reachable s) (hr : s.rounds[k]? = some r)
    (hret : r.tally.state.returned = false) (ha : s.active r.role = true)
    (ht : s.raft.term = r.term) (hl : s.raft.leader = none)
    (hv : r.tally.voteCount < quorum r.votingMembers.length)
    (hg : quorum r.votingMembers.length ≤ r.grants) :
    ∃ s', Relation.ReflTransGen (TallyNext k) s s' ∧ s'.raft.role = .leader ∧
      s'.raft.term = r.term :=
  quorum_decides (g := true) hs hr hret ⟨ha, ht, fun _ => hl, hv, Round.grants_eq ▸ hg⟩

/-- `foo`'s first round in term 1: its own grant and `bar`'s wait on `votes`, and the tally
has counted nothing yet. -/
def grantsQueued : List Action :=
  [.setRole .candidate, .sendVoteRequests 0 true true 0 0, .requestVote 0, .requestVote 0,
   .requestVote 0, .reply 0 "bar" ⟨.ok, 1, true⟩, .receive 0 "bar" true]

def grantsQueuedState : Replica :=
  match (init testCluster 0 none).run grantsQueued with
  | .ok s => s
  | .error _ => init testCluster 0 none

theorem queued_grants_elect :
    ∃ r, grantsQueuedState.rounds[0]? = some r ∧
      ∃ s', Relation.ReflTransGen (TallyNext 0) grantsQueuedState s' ∧
        s'.raft.role = .leader ∧ s'.raft.term = r.term :=
  ⟨_, rfl, quorum_of_grants_elects ((Reachable.init _ _ _).run
    (show (init testCluster 0 none).run grantsQueued = .ok grantsQueuedState from rfl)) rfl
    (by decide) (by decide) (by decide) (by decide) (by decide) (by decide)⟩

/-- A quorum of rejections makes the candidate step down. In every reachable state, take a
round whose tally still runs, whose candidate is active in the round's term, and whose ballots
hold a quorum of rejections of which the tally counted fewer than a quorum. Then the tally's
own steps, whatever the order of the ballots on `votes`, make the replica a follower in the
round's term, whether or not a leader is known. -/
theorem quorum_of_rejections_steps_down (hs : Reachable s) (hr : s.rounds[k]? = some r)
    (hret : r.tally.state.returned = false) (ha : s.active r.role = true)
    (ht : s.raft.term = r.term)
    (hv : r.tally.rejectCount < quorum r.votingMembers.length)
    (hq : quorum r.votingMembers.length ≤ r.rejections) :
    ∃ s', Relation.ReflTransGen (TallyNext k) s s' ∧ s'.raft.role = .follower ∧
      s'.raft.term = r.term :=
  quorum_decides (g := false) hs hr hret ⟨ha, ht, nofun, hv, Round.rejections_eq ▸ hq⟩

/-- `foo`'s first round in term 1: `bar` and `baz` both reject, and their rejections wait on
`votes` behind `foo`'s own grant. -/
def rejectionsQueued : List Action :=
  [.setRole .candidate, .sendVoteRequests 0 true true 0 0, .requestVote 0, .requestVote 0,
   .requestVote 0, .reply 0 "bar" ⟨.ok, 1, false⟩, .receive 0 "bar" true,
   .reply 0 "baz" ⟨.ok, 1, false⟩, .receive 0 "baz" true]

def rejectionsQueuedState : Replica :=
  match (init testCluster 0 none).run rejectionsQueued with
  | .ok s => s
  | .error _ => init testCluster 0 none

theorem queued_rejections_step_down :
    ∃ r, rejectionsQueuedState.rounds[0]? = some r ∧
      ∃ s', Relation.ReflTransGen (TallyNext 0) rejectionsQueuedState s' ∧
        s'.raft.role = .follower ∧ s'.raft.term = r.term :=
  ⟨_, rfl, quorum_of_rejections_steps_down ((Reachable.init _ _ _).run
    (show (init testCluster 0 none).run rejectionsQueued = .ok rejectionsQueuedState from rfl))
    rfl (by decide) (by decide) (by decide) (by decide) (by decide)⟩

end Replica

end AtomixRaft
