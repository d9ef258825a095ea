import AtomixRaft.Effects

/-!
# The replica invariant

`Replica.Inv`: the protocol state is `Valid`, every timer is `Sound`, and every round is
`Round.Sound`. A sound round has room on `votes` for every producer that has not finished,
its ballots come from distinct finished producers, a granted ballot is the candidate's own
vote or a peer's vote of the round's term, and the tally's counters count its ballots.
`reachable_inv` proves it of every reachable replica.
-/

namespace AtomixRaft

def Producer.finished : Producer → Bool
  | .done _ => true
  | _ => false

def Producer.request? : Producer → Option VoteRequest
  | .requesting q => some q
  | .replied q _ => some q
  | _ => none

/-- The ballot the tally took off `votes` and has not handled yet. -/
def TallyState.held : TallyState → List Ballot
  | .handling b => [b]
  | _ => []

theorem countP_update {α : Type} {l : List α} (hl : l.Nodup) {m : α} (hm : m ∈ l)
    {f g : α → Bool} (hfg : ∀ x, x ≠ m → f x = g x) :
    l.countP f + (if g m then 1 else 0) = l.countP g + (if f m then 1 else 0) := by
  induction l with
  | nil => cases hm
  | cons a l ih =>
    obtain ⟨ha, hl⟩ := List.nodup_cons.mp hl
    by_cases h : a = m
    · subst h
      have : l.countP f = l.countP g :=
        List.countP_congr fun x hx => by rw [hfg x (fun h => ha (h ▸ hx))]
      simp only [List.countP_cons, this]
      omega
    · have := ih hl ((List.mem_cons.mp hm).resolve_left (Ne.symm h))
      simp only [List.countP_cons, hfg a h]
      omega

namespace Round

/-- Members whose producer has not finished: the loop's own vote not yet sent, and the
peer goroutines still running. -/
def live (r : Round) : Nat := r.votingMembers.countP fun m => !(r.producers m).finished

/-- The ballots of the round the tally has not dropped: counted, held, or on `votes`. -/
def ballots (r : Round) : List Ballot := r.tally.counted ++ r.tally.state.held ++ r.votes.buffer

@[simp] theorem setProducer_producers (r : Round) (m m' : MemberID) (p : Producer) :
    (r.setProducer m p).producers m' = if m' = m then p else r.producers m' := rfl

@[simp] theorem setProducer_votes (r : Round) (m : MemberID) (p : Producer) :
    (r.setProducer m p).votes = r.votes := rfl

@[simp] theorem setProducer_tally (r : Round) (m : MemberID) (p : Producer) :
    (r.setProducer m p).tally = r.tally := rfl

@[simp] theorem setProducer_votingMembers (r : Round) (m : MemberID) (p : Producer) :
    (r.setProducer m p).votingMembers = r.votingMembers := rfl

@[simp] theorem setProducer_pending (r : Round) (m : MemberID) (p : Producer) :
    (r.setProducer m p).pending = r.pending := rfl

@[simp] theorem setProducer_term (r : Round) (m : MemberID) (p : Producer) :
    (r.setProducer m p).term = r.term := rfl

@[simp] theorem setProducer_role (r : Round) (m : MemberID) (p : Producer) :
    (r.setProducer m p).role = r.role := rfl

/-- What holds of every round of a replica whose protocol state is `raft`. -/
structure Sound (raft : ProtocolState) (r : Round) : Prop where
  members : r.votingMembers = raft.cluster.members
  capacity : r.votes.capacity = r.votingMembers.length
  term_le : r.term ≤ raft.term
  selfVote : (r.term, raft.cluster.member) ∈ raft.voteLog
  pending : r.pending <:+ r.votingMembers
  waiting : ∀ m, r.producers m = .waiting ↔ m ∈ r.pending ∨ m ∉ r.votingMembers
  requests : ∀ m q, (r.producers m).request? = some q →
    q.term = r.term ∧ q.candidate = raft.cluster.member ∧ m ≠ raft.cluster.member
  room : r.votes.buffer.length + r.live ≤ r.votes.capacity
  nodup : (r.ballots.map Ballot.voter).Nodup
  finished : ∀ b ∈ r.ballots, (r.producers b.voter).finished = true
  granted : ∀ b ∈ r.ballots, b.granted = true → b.voter = raft.cluster.member ∨
    ∃ resp, r.producers b.voter = .done (some resp) ∧ resp.voted = true ∧ resp.term = r.term
  voteCount : r.tally.voteCount = (r.tally.counted.filter (·.granted)).length
  rejectCount : r.tally.rejectCount = (r.tally.counted.filter (!·.granted)).length
  won : r.tally.state = .won → r.tally.voteCount = quorum r.votingMembers.length
  lost : r.tally.state = .lost → r.tally.rejectCount = quorum r.votingMembers.length

theorem Sound.mono {raft raft' : ProtocolState} {r : Round} (hr : r.Sound raft)
    (h : raft.Grows raft') : r.Sound raft' := by
  obtain ⟨hm, hc, ht, hv, hp, hw, hq, hroom, hn, hf, hg, hvc, hrc, hwon, hlost⟩ := hr
  rw [← h.cluster] at hm hv hq hg
  exact ⟨hm, hc, UInt64.le_trans ht h.term_le, h.log _ hv, hp, hw, hq, hroom, hn, hf, hg, hvc,
    hrc, hwon, hlost⟩

theorem Sound.nodup_members {raft : ProtocolState} {r : Round} (hr : r.Sound raft) :
    r.votingMembers.Nodup :=
  hr.members ▸ raft.cluster.nodup

theorem Sound.mem_of_ne_waiting {raft : ProtocolState} {r : Round} (hr : r.Sound raft)
    {m : MemberID} (hm : r.producers m ≠ .waiting) : m ∈ r.votingMembers :=
  by_contra fun h => hm ((hr.waiting m).2 (.inr h))

/-- A producer that has not finished sent no ballot. -/
theorem Sound.not_voter {raft : ProtocolState} {r : Round} (hr : r.Sound raft) {m : MemberID}
    (hm : (r.producers m).finished = false) : m ∉ r.ballots.map Ballot.voter := by
  intro hv
  obtain ⟨b, hb, hbm⟩ := List.mem_map.mp hv
  have := hr.finished b hb
  rw [hbm, hm] at this
  cases this

/-- Every ballot of a round comes from one of its voting members. -/
theorem Sound.voter_mem {raft : ProtocolState} {r : Round} (hr : r.Sound raft) {b : Ballot}
    (hb : b ∈ r.ballots) : b.voter ∈ r.votingMembers :=
  hr.mem_of_ne_waiting fun hw => by simpa [hw, Producer.finished] using hr.finished b hb

/-- A send finds room on `votes` while its producer has not finished. -/
theorem Sound.room_of_unfinished {raft : ProtocolState} {r : Round} (hr : r.Sound raft)
    {m : MemberID} (hmem : m ∈ r.votingMembers) (hm : (r.producers m).finished = false) :
    r.votes.buffer.length < r.votes.capacity := by
  have hpos : 0 < r.live := List.countP_pos_iff.mpr ⟨m, hmem, by simp [hm]⟩
  have := hr.room
  omega

theorem ballots_move (r : Round) (pend : List MemberID) {v : Chan Ballot} {l : List Ballot}
    (hbuf : v.buffer = r.votes.buffer ++ l) (m : MemberID) (p : Producer) :
    ({ r with pending := pend, votes := v }.setProducer m p).ballots = r.ballots ++ l := by
  simp [ballots, hbuf, List.append_assoc]

/-- The producer of `m`, not finished, moves on to `p`: it may leave the loop's pending
list, send one ballot as it finishes, and close `votes`. -/
theorem Sound.move {raft : ProtocolState} {r : Round} (hr : r.Sound raft) {m : MemberID}
    (hmem : m ∈ r.votingMembers) (hfin : (r.producers m).finished = false)
    {pend : List MemberID} (hsuf : pend <:+ r.votingMembers) (hm : m ∉ pend)
    (hpend : ∀ x, x ≠ m → (x ∈ pend ↔ x ∈ r.pending))
    {p : Producer} (hp : p ≠ .waiting)
    (hq : ∀ q, p.request? = some q →
      q.term = r.term ∧ q.candidate = raft.cluster.member ∧ m ≠ raft.cluster.member)
    {l : List Ballot}
    (hbs : ∀ b ∈ l, b.voter = m ∧ (b.granted = true → m = raft.cluster.member ∨
      ∃ resp, p = .done (some resp) ∧ resp.voted = true ∧ resp.term = r.term))
    (hlen : l.length ≤ if p.finished then 1 else 0) {v : Chan Ballot}
    (hbuf : v.buffer = r.votes.buffer ++ l) (hcap : v.capacity = r.votes.capacity) :
    ({ r with pending := pend, votes := v }.setProducer m p).Sound raft := by
  have hnd := hr.nodup_members
  have hvoter := hr.not_voter hfin
  have hballots : ∀ b ∈ r.ballots, b.voter ≠ m := fun b hb h =>
    hvoter (List.mem_map.mpr ⟨b, hb, h⟩)
  have hlive := countP_update hnd hmem (f := fun x => !(r.producers x).finished)
    (g := fun x => !(if x = m then p else r.producers x).finished)
    (fun x hx => by simp [hx])
  refine ⟨hr.members, hcap.trans hr.capacity, hr.term_le, hr.selfVote, hsuf, fun x => ?_,
    fun x q => ?_, ?_, ?_, ?_, ?_, hr.voteCount, hr.rejectCount, hr.won, hr.lost⟩
  · by_cases hx : x = m
    · subst hx
      simp only [setProducer_producers, if_pos, hp, false_iff, not_or, not_not]
      exact ⟨hm, hmem⟩
    · simp only [setProducer_producers, if_neg hx, setProducer_votingMembers,
        setProducer_pending]
      rw [hr.waiting x, hpend x hx]
  · by_cases hx : x = m
    · subst hx; simpa using hq q
    · simpa [hx] using hr.requests x q
  · simp only [setProducer_votes, hbuf, hcap, List.length_append, live,
      setProducer_votingMembers, setProducer_producers] at hlive ⊢
    have := hr.room
    simp only [live, hfin, Bool.not_false, if_true, if_pos rfl] at this hlive
    split at hlen <;> simp_all
    omega
  · have hbs' : (l.map Ballot.voter).Nodup ∧ ∀ v ∈ l.map Ballot.voter, v = m := by
      rcases l with _ | ⟨b, _ | ⟨b', l⟩⟩
      · simp
      · simp [(hbs b (by simp)).1]
      · split at hlen <;> simp at hlen
    rw [ballots_move _ _ hbuf, List.map_append]
    refine List.Nodup.append hr.nodup hbs'.1 fun v h₁ h₂ => hvoter ?_
    rwa [← hbs'.2 v h₂]
  · rw [ballots_move _ _ hbuf]
    rintro b hb
    rcases List.mem_append.mp hb with hb | hb
    · simpa [hballots b hb] using hr.finished b hb
    · have hpf : p.finished = true := by
        by_contra h
        have : l.length ≤ 0 := by simpa [h] using hlen
        simp [List.length_eq_zero.mp (Nat.le_zero.mp this)] at hb
      simp [(hbs b hb).1, hpf]
  · rw [ballots_move _ _ hbuf]
    rintro b hb hg
    rcases List.mem_append.mp hb with hb | hb
    · simpa [hballots b hb] using hr.granted b hb hg
    · simpa [(hbs b hb).1] using (hbs b hb).2 hg

/-- `move` for a peer goroutine, whose producer has left the loop. -/
theorem Sound.moveGoroutine {raft : ProtocolState} {r : Round} (hr : r.Sound raft)
    {m : MemberID} (hne : r.producers m ≠ .waiting) (hfin : (r.producers m).finished = false)
    {p : Producer} (hp : p ≠ .waiting)
    (hq : ∀ q, p.request? = some q →
      q.term = r.term ∧ q.candidate = raft.cluster.member ∧ m ≠ raft.cluster.member)
    {l : List Ballot}
    (hbs : ∀ b ∈ l, b.voter = m ∧ (b.granted = true → m = raft.cluster.member ∨
      ∃ resp, p = .done (some resp) ∧ resp.voted = true ∧ resp.term = r.term))
    (hlen : l.length ≤ if p.finished then 1 else 0) {v : Chan Ballot}
    (hbuf : v.buffer = r.votes.buffer ++ l) (hcap : v.capacity = r.votes.capacity) :
    ({ r with votes := v }.setProducer m p).Sound raft :=
  hr.move (hr.mem_of_ne_waiting hne) hfin hr.pending (fun h => hne ((hr.waiting m).2 (.inl h)))
    (fun _ _ => Iff.rfl) hp hq hbs hlen hbuf hcap

theorem Sound.requestVote {raft : ProtocolState} {r r' : Round} (hr : r.Sound raft)
    (h : r.requestVote raft.cluster.member = .ok r') : r'.Sound raft := by
  unfold Round.requestVote at h
  split at h
  · cases h
  · rename_i m rest hpm
    have hsuf : (m :: rest) <:+ r.votingMembers := hpm ▸ hr.pending
    have hmem : m ∈ r.votingMembers := hsuf.subset (List.mem_cons_self _ _)
    have hm : m ∉ rest := (List.nodup_cons.mp (hr.nodup_members.sublist hsuf.sublist)).1
    have hfin : (r.producers m).finished = false := by
      simp [(hr.waiting m).2 (.inl (hpm ▸ List.mem_cons_self _ _)), Producer.finished]
    have hrest : rest <:+ r.votingMembers := (List.suffix_cons _ _).trans hsuf
    have hpend : ∀ x, x ≠ m → (x ∈ rest ↔ x ∈ r.pending) := fun x hx => by simp [hpm, hx]
    split_ifs at h with hself
    · obtain ⟨votes, hs, h⟩ := bind_eq_ok.mp h
      obtain ⟨-, -, rfl⟩ := Chan.send_eq_ok hs
      cases h
      exact hr.move hmem hfin hrest hm hpend (by simp) (by simp [Producer.request?])
        (by simp [hself]) (by simp [Producer.finished]) rfl rfl
    · cases h
      exact hr.move hmem hfin hrest hm hpend (by simp)
        (fun q hq => by cases hq; exact ⟨rfl, rfl, hself⟩) (l := []) (by simp) (by simp)
        (List.append_nil _).symm rfl

theorem Sound.reply {raft : ProtocolState} {r r' : Round} {m : MemberID}
    {resp : VoteResponse} (hr : r.Sound raft) (h : r.reply m resp = .ok r') : r'.Sound raft := by
  unfold Round.reply at h
  split at h
  · rename_i q hq
    cases h
    exact hr.moveGoroutine (by simp [hq]) (by simp [hq, Producer.finished]) (by simp)
      (fun q' h' => hr.requests m q' (by simpa [hq, Producer.request?] using h'))
      (l := []) (by simp) (by simp) (List.append_nil _).symm rfl
  · cases h

theorem Sound.fail {raft : ProtocolState} {r r' : Round} {m : MemberID} (hr : r.Sound raft)
    (h : r.fail m = .ok r') : r'.Sound raft := by
  unfold Round.fail at h
  split at h
  · rename_i q hq
    obtain ⟨votes, hs, h⟩ := bind_eq_ok.mp h
    obtain ⟨-, -, rfl⟩ := Chan.send_eq_ok hs
    cases h
    exact hr.moveGoroutine (by simp [hq]) (by simp [hq, Producer.finished]) (by simp)
      (by simp [Producer.request?]) (by simp) (by simp [Producer.finished]) rfl rfl
  · cases h

theorem Sound.closeVotes {raft : ProtocolState} {r r' : Round} {m : MemberID}
    (hr : r.Sound raft) (h : r.closeVotes m = .ok r') : r'.Sound raft := by
  unfold Round.closeVotes at h
  split at h
  · rename_i resp hc
    obtain ⟨votes, hs, h⟩ := bind_eq_ok.mp h
    obtain ⟨-, rfl⟩ := Chan.close_eq_ok hs
    cases h
    exact hr.moveGoroutine (by simp [hc]) (by simp [hc, Producer.finished]) (by simp)
      (by simp [Producer.request?]) (l := []) (by simp) (by simp) (List.append_nil _).symm rfl
  · cases h

theorem Sound.tallyReceive {raft : ProtocolState} {r r' : Round} (hr : r.Sound raft)
    (h : r.tallyReceive = .ok r') : r'.Sound raft := by
  unfold Round.tallyReceive at h
  split at h
  · rename_i b rest hst hbuf
    cases h
    have hb : ({ r with votes := { r.votes with buffer := rest },
                        tally := { r.tally with state := .handling b } } : Round).ballots =
        r.ballots := by
      simp [ballots, hst, hbuf, TallyState.held]
    have hroom := hr.room
    rw [hbuf] at hroom
    refine ⟨hr.members, hr.capacity, hr.term_le, hr.selfVote, hr.pending, hr.waiting,
      hr.requests, ?_, hb ▸ hr.nodup, hb ▸ hr.finished, hb ▸ hr.granted, hr.voteCount,
      hr.rejectCount, by simp, by simp⟩
    simp only [live, List.length_cons] at hroom ⊢
    omega
  · split at h
    · cases h
      exact ⟨hr.members, hr.capacity, hr.term_le, hr.selfVote, hr.pending, hr.waiting,
        hr.requests, hr.room, by simpa [ballots, TallyState.held, *] using hr.nodup,
        by simpa [ballots, TallyState.held, *] using hr.finished,
        by simpa [ballots, TallyState.held, *] using hr.granted, hr.voteCount, hr.rejectCount,
        by simp, by simp⟩
    · cases h
  · cases h

/-- A new tally over the same channel keeps the round sound if its counted and held
ballots are a sublist of the old ones and its counters count them. -/
theorem Sound.setTally {raft : ProtocolState} {r : Round} (hr : r.Sound raft) {t : Tally}
    (hsub : List.Sublist (t.counted ++ t.state.held) (r.tally.counted ++ r.tally.state.held))
    (hvc : t.voteCount = (t.counted.filter (·.granted)).length)
    (hrc : t.rejectCount = (t.counted.filter (!·.granted)).length)
    (hwon : t.state = .won → t.voteCount = quorum r.votingMembers.length)
    (hlost : t.state = .lost → t.rejectCount = quorum r.votingMembers.length) :
    ({ r with tally := t } : Round).Sound raft := by
  have hs : List.Sublist ({ r with tally := t } : Round).ballots r.ballots :=
    hsub.append_right _
  exact ⟨hr.members, hr.capacity, hr.term_le, hr.selfVote, hr.pending, hr.waiting, hr.requests,
    hr.room, hr.nodup.sublist (hs.map _), fun b hb => hr.finished b (hs.subset hb),
    fun b hb => hr.granted b (hs.subset hb), hvc, hrc, hwon, hlost⟩

theorem Sound.handle {raft : ProtocolState} {r : Round} (hr : r.Sound raft) {b : Ballot}
    (hb : r.tally.state = .handling b) (current : Bool) (leader : Option MemberID) :
    ({ r with tally := (r.tally.handle b current leader
      (quorum r.votingMembers.length)).1 } : Round).Sound raft := by
  have hvc := hr.voteCount
  have hrc := hr.rejectCount
  unfold Tally.handle
  dsimp only
  split_ifs <;> refine hr.setTally ?_ ?_ ?_ ?_ ?_ <;>
    simp_all [TallyState.held, List.filter_append]

theorem sound_start (raft : ProtocolState) (i : Nat) (li : Index) (lt : Term)
    (hv : (raft.term, raft.cluster.member) ∈ raft.voteLog) :
    (Round.start i raft.term raft.cluster.members li lt).Sound raft where
  members := rfl
  capacity := rfl
  term_le := UInt64.le_refl _
  selfVote := hv
  pending := List.suffix_refl _
  waiting m := by simp [Round.start, em]
  requests m q := by simp [Round.start, Producer.request?]
  room := by simp [Round.start, live, Producer.finished, Chan.make]
  nodup := by simp [Round.start, ballots, TallyState.held, Chan.make]
  finished b := by simp [Round.start, ballots, TallyState.held, Chan.make]
  granted b := by simp [Round.start, ballots, TallyState.held, Chan.make]
  voteCount := rfl
  rejectCount := rfl
  won := by simp [Round.start]
  lost := by simp [Round.start]

end Round

namespace Replica

/-- The invariant of a replica. -/
structure Inv (s : Replica) : Prop where
  raft : s.raft.Valid
  timers : s.TimersSound
  rounds : ∀ r ∈ s.rounds, r.Sound s.raft

variable {s s' : Replica}

theorem Inv.restarted (h : s.Inv) (hr : Restarted s s') : s'.Inv :=
  ⟨hr.raft ▸ ProtocolState.valid_role h.raft _, hr.timers h.timers,
    fun r hm => (h.rounds r (hr.rounds ▸ hm)).mono hr.grows⟩

theorem Inv.grow (h : s.Inv) {raft : ProtocolState} (hv : raft.Valid) (hg : s.raft.Grows raft) :
    ({ s with raft := raft } : Replica).Inv :=
  ⟨hv, h.timers, fun r hm => (h.rounds r hm).mono hg⟩

theorem Inv.call (h : s.Inv) (c : Call) : ({ s with raft := s.raft.call c } : Replica).Inv :=
  h.grow (ProtocolState.valid_call h.raft c) (ProtocolState.grows_call _ _)

theorem Inv.setRound (h : s.Inv) {k : Nat} {r : Round} (hr : r.Sound s.raft) :
    ({ s with rounds := s.rounds.set k r } : Replica).Inv :=
  ⟨h.raft, h.timers, fun r' hm => (List.mem_or_eq_of_mem_set hm).elim (h.rounds r') (· ▸ hr)⟩

theorem Inv.setTimer (h : s.Inv) {k : Nat} {t : ElectionTimer} (ht : t.Sound) :
    ({ s with timers := s.timers.set k t } : Replica).Inv :=
  ⟨h.raft, fun t' hm => (List.mem_or_eq_of_mem_set hm).elim (h.timers t') (· ▸ ht), h.rounds⟩

theorem Inv.updateRound (h : s.Inv) {k : Nat} {f : Round → Except Fault Round}
    (hf : ∀ r r', r.Sound s.raft → f r = .ok r' → r'.Sound s.raft)
    (hs : s.updateRound k f = .ok s') : s'.Inv := by
  unfold Replica.updateRound at hs
  split at hs
  · rename_i r hr
    obtain ⟨r', hf', hs⟩ := bind_eq_ok.mp hs
    cases hs
    exact h.setRound (hf r r' (h.rounds r (List.getElem?_mem hr)) hf')
  · cases hs

theorem Inv.vote (h : s.Inv) {q : VoteRequest} {p : Bool} {cs : List Call}
    {resp out : VoteResponse} (hs : s.vote q p cs resp = .ok (s', out)) : s'.Inv := by
  rcases vote_eq_ok hs with ⟨-, -, -, h₁⟩ | ⟨-, rfl, -⟩
  · refine (h.grow ?_ ?_).restarted (setRole_restarted h₁).1
    · exact ProtocolState.valid_calls (ProtocolState.valid_updateTermAndLeader h.raft _ _) _
    · exact (ProtocolState.grows_updateTermAndLeader _ _ _).trans
        (ProtocolState.grows_calls _ _)
  · exact h

theorem Inv.sendVoteRequests (h : s.Inv) {i : Nat} {tp vp : Bool} {li : Index} {lt : Term}
    (hs : s.sendVoteRequests i tp vp li lt = .ok s') : s'.Inv := by
  rcases sendVoteRequests_eq_ok hs with ⟨-, rfl⟩ | ⟨s₁, -, h₁, h'⟩
  · exact h
  have i₁ := h.restarted (resetElectionTimeout_restarted h₁)
  rcases h' with ⟨-, hs⟩ | ⟨raft₁, ht, h'⟩
  · exact i₁.restarted (setRole_restarted hs).1
  have i₂ := ProtocolState.call_eq_of_run (c := .setTerm _ tp) ht ▸ i₁.call (.setTerm _ tp)
  rcases h' with ⟨-, hs⟩ | ⟨raft₂, hv, rfl⟩
  · exact i₂.restarted (setRole_restarted hs).1
  have i₃ := ProtocolState.call_eq_of_run (c := .setLastVotedFor _ vp) hv ▸
    i₂.call (.setLastVotedFor _ vp)
  refine ⟨i₃.raft, i₃.timers, fun r hm => ?_⟩
  rcases List.mem_append.mp hm with hm | hm
  · exact i₃.rounds r hm
  · obtain ⟨-, rfl⟩ := ProtocolState.setLastVotedFor_eq_ok hv
    simp only [List.mem_singleton] at hm
    subst hm
    exact Round.sound_start _ _ _ _ (List.mem_cons_self _ _)

theorem Inv.receive (h : s.Inv) {k : Nat} {m : MemberID} {p : Bool}
    (hs : s.receive k m p = .ok s') : s'.Inv := by
  obtain ⟨r, q, resp, hr, hq, ⟨-, s₁, h₁, rfl⟩ | ⟨hgt, votes, hv, rfl⟩⟩ := receive_eq_ok hs
  all_goals have hrs := h.rounds r (List.getElem?_mem hr)
  · have r₁ := (setRole_restarted h₁).1
    refine ((h.call _).restarted r₁).setRound ?_
    refine (hrs.moveGoroutine (by simp [hq]) (by simp [hq, Producer.finished]) (by simp)
      (by simp [Producer.request?]) (l := []) (by simp) (by simp) (List.append_nil _).symm
      rfl).mono ((ProtocolState.grows_call _ _).trans r₁.grows)
  · have hreq := hrs.requests m q (by simp [hq, Producer.request?])
    obtain ⟨-, -, rfl⟩ := Chan.send_eq_ok hv
    refine h.setRound (hrs.moveGoroutine (by simp [hq]) (by simp [hq, Producer.finished])
      (by simp) (by simp [Producer.request?]) ?_ (by simp [Producer.finished]) rfl rfl)
    simp only [List.mem_singleton]
    rintro b rfl
    refine ⟨rfl, fun hb => .inr ⟨resp, by simp, ?_⟩⟩
    rw [ballotValue_eq_true] at hb
    refine ⟨hb.1, term_le_antisymm ?_ ?_⟩
    · exact hreq.1 ▸ UInt64.not_lt.mp hgt
    · exact hb.2 ▸ hrs.term_le

theorem Inv.tallyHandle (h : s.Inv) {k : Nat} (hs : s.tallyHandle k = .ok s') : s'.Inv := by
  obtain ⟨r, b, hr, hb, h'⟩ := tallyHandle_eq_ok hs
  have i₁ := h.setRound (k := k) ((h.rounds r (List.getElem?_mem hr)).handle hb
    (s.active r.role && decide (s.raft.term = r.term)) s.raft.leader)
  rcases h' with rfl | ⟨role, h'⟩
  · exact i₁
  · exact i₁.restarted (setRole_restarted h').1

theorem Inv.timers_step (h : s.Inv) {k : Nat}
    (hs : s.fire k = .ok s' ∨ s.timeout k = .ok s' ∨ s.expire k = .ok s') : s'.Inv := by
  obtain ⟨t, ht, h'⟩ := timer_eq_ok hs
  have sound := h.timers t (List.getElem?_mem ht)
  rcases h' with ⟨-, rfl⟩ | ⟨-, -, h'⟩ | ⟨v, rest, -, hb, rfl⟩
  · exact h.setTimer ⟨sound.capacity, sound.notClosed, by simp, sound.size⟩
  · have i₁ := h.setTimer (k := k) (t := { t with selecting := false })
      ⟨sound.capacity, sound.notClosed, sound.running, sound.size⟩
    rcases h' with ⟨-, rfl⟩ | ⟨-, rfl⟩
    exacts [i₁, ⟨i₁.raft, i₁.timers, i₁.rounds⟩]
  · have hsize := sound.size
    rw [hb] at hsize
    refine h.setTimer ⟨sound.capacity, sound.notClosed, fun hr => ?_, ?_⟩
    · simp [sound.running hr] at hb
    simp only [List.length_cons] at hsize ⊢
    omega

/-- Every step keeps the invariant. -/
theorem Inv.step (h : s.Inv) {a : Action} (hs : s.step a = .ok s') : s'.Inv := by
  cases a with
  | call c => cases hs; exact h.call c
  | setRole role => exact h.restarted (setRole_restarted hs).1
  | vote q p cs resp =>
    simp only [Replica.step] at hs
    split_ifs at hs
    obtain ⟨⟨s₁, out⟩, h₁, hs⟩ := bind_eq_ok.mp hs
    cases hs
    exact h.vote h₁
  | sendVoteRequests i tp vp li lt =>
    simp only [Replica.step] at hs
    split_ifs at hs
    exact Inv.sendVoteRequests (s := { s with calls := s.calls.erase i })
      ⟨h.raft, h.timers, h.rounds⟩ hs
  | requestVote k => exact h.updateRound (fun _ _ hr hf => hr.requestVote hf) hs
  | reply k m resp => exact h.updateRound (fun _ _ hr hf => hr.reply hf) hs
  | fail k m => exact h.updateRound (fun _ _ hr hf => hr.fail hf) hs
  | receive k m p => exact h.receive hs
  | close k m => exact h.updateRound (fun _ _ hr hf => hr.closeVotes hf) hs
  | tallyReceive k => exact h.updateRound (fun _ _ hr hf => hr.tallyReceive hf) hs
  | tallyHandle k => exact h.tallyHandle hs
  | fire k => exact h.timers_step (.inl hs)
  | timeout k => exact h.timers_step (.inr (.inl hs))
  | expire k => exact h.timers_step (.inr (.inr hs))

theorem inv_init (cluster : Cluster) (term : Term) (vote : Option MemberID) :
    (init cluster term vote).Inv :=
  ⟨ProtocolState.valid_restore cluster term vote, fun _ h => (nomatch h), fun _ h => (nomatch h)⟩

end Replica

theorem Reachable.inv {s : Replica} (h : Reachable s) : s.Inv := by
  induction h with
  | init cluster term vote => exact Replica.inv_init cluster term vote
  | step a _ hs ih => exact ih.step hs

namespace Replica

/-- The three-member test replica once its first round has started: the candidate moved to
term 1 and voted for itself, and no ballot was sent yet. -/
def electionStarted : Replica :=
  match (init testCluster 0 none).run [.setRole .candidate, .sendVoteRequests 0 true true 0 0] with
  | .ok s => s
  | .error _ => init testCluster 0 none

theorem electionStarted_reachable : Reachable electionStarted :=
  (Reachable.init testCluster 0 none).run (show (init testCluster 0 none).run
    [.setRole .candidate, .sendVoteRequests 0 true true 0 0] = .ok electionStarted from rfl)

end Replica

end AtomixRaft
