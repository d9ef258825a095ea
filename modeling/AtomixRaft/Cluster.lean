import AtomixRaft.Tally

/-!
# Election safety

A cluster of replicas with one stable membership. Each replica takes its own steps; a
`VoteRequest` of a peer goroutine reaches its member, whose handler answers it, and the
answer comes back as the goroutine's RPC result, or is lost. The candidate role answers with
its `Vote`. The other roles are not in the sources: their handler is any calls on the
protocol state and any answer that grants a vote only to the member recorded as the vote of
the answer's term (`VoteResponse.Recorded`).

Every response a round holds that grants the vote is the voter's recorded vote for the
round's candidate (`Net.Backed`), so a tally that switches its replica to leader holds a
quorum of such votes in its round's term (`wonTerm_of_switch`). Two quorums of one
membership share a member, and a member records one vote per term, so no two members are
switched to leader by a tally in the same term (`election_safety`). Since a tally's step makes
exactly the switch it is recorded with, this holds of the role change itself: a tally step
that makes a member leader is recorded, and no other member was made leader in that term
(`tally_leader_unique`).
-/

namespace AtomixRaft

/-- Two quorums of one membership share a member. -/
theorem quorums_meet {L Q₁ Q₂ : List MemberID} (hQ₁ : Q₁.Nodup) (hQ₂ : Q₂.Nodup)
    (h₁ : ∀ v ∈ Q₁, v ∈ L) (h₂ : ∀ v ∈ Q₂, v ∈ L) (hq₁ : quorum L.length ≤ Q₁.length)
    (hq₂ : quorum L.length ≤ Q₂.length) : ∃ v ∈ Q₁, v ∈ Q₂ := by
  by_contra hd
  have hnd : (Q₁ ++ Q₂).Nodup :=
    List.nodup_append.mpr ⟨hQ₁, hQ₂, fun v hv₁ hv₂ => hd ⟨v, hv₁, hv₂⟩⟩
  have hle := (List.subperm_of_subset hnd fun v hv =>
    (List.mem_append.mp hv).elim (h₁ v) (h₂ v)).length_le
  rw [List.length_append] at hle
  unfold quorum at hq₁ hq₂
  omega

namespace Replica

variable {s s' : Replica}

/-- Modelled from the spec: a replica answers a `VoteRequest`. A candidate runs its `Vote`;
the follower and leader roles are not in the sources, so their handler is the calls
`handled` it made and its answer `response`, which keeps `Recorded`. -/
def answer (s : Replica) (request : VoteRequest) (persisted : Bool) (handled : List Call)
    (response : VoteResponse) : Except Fault (Replica × VoteResponse) :=
  if s.current.isSome then s.vote request persisted handled response
  else
    let raft := s.raft.calls handled
    if response.Recorded raft request.candidate then pure ({ s with raft := raft }, response)
    else .error .notEnabled

theorem recorded_logged {raft : ProtocolState} (hv : raft.Valid) {resp : VoteResponse}
    {c : MemberID} (h : resp.Recorded raft c) (hvoted : resp.voted = true) :
    (resp.term, c) ∈ raft.voteLog := by
  obtain ⟨h₁, h₂⟩ := h hvoted
  rw [h₂]
  exact (hv.current c).1 h₁

/-- What answering a vote request does: the replica stays sound, its protocol state only
grows, its rounds stay, and an answer granting another member the vote is the replica's
recorded vote for it in the answer's term. -/
theorem answer_spec (h : s.Inv) {q : VoteRequest} {p : Bool} {cs : List Call}
    {resp out : VoteResponse} (hs : s.answer q p cs resp = .ok (s', out)) :
    s'.Inv ∧ s.raft.Grows s'.raft ∧ s'.rounds = s.rounds ∧
      (out.voted = true → q.candidate ≠ s.raft.cluster.member →
        (out.term, q.candidate) ∈ s'.raft.voteLog) := by
  unfold answer at hs
  dsimp only at hs
  split_ifs at hs with hc hrec
  · refine ⟨h.vote hs, (vote_evolves hs).grows, vote_rounds hs, fun hv hne => ?_⟩
    rcases vote_eq_ok hs with ⟨-, rfl, hrec', h₁⟩ | ⟨-, -, rfl⟩
    · rw [(setRole_restarted h₁).1.raft]
      exact recorded_logged (ProtocolState.valid_calls
        (ProtocolState.valid_updateTermAndLeader h.raft _ _) _) hrec' hv
    · simp [hne] at hv
  · cases hs
    exact ⟨h.grow (ProtocolState.valid_calls h.raft _) (ProtocolState.grows_calls _ _),
      ProtocolState.grows_calls _ _, rfl,
      fun hv _ => recorded_logged (ProtocolState.valid_calls h.raft _) hrec hv⟩

/-- A step of the replica's own, not a peer's RPC returning, gives no producer a
response. -/
theorem step_responses {a : Action} (hs : s.step a = .ok s') (ha : a.replies = false)
    {k : Nat} {r' : Round} {m : MemberID} {resp : VoteResponse}
    (hr' : s'.rounds[k]? = some r') (hm : (r'.producers m).response = some resp) :
    ∃ r, s.rounds[k]? = some r ∧ (r.producers m).response = some resp := by
  rcases step_rounds hs with ⟨-, l, he, hl⟩ | ⟨j, r, r₂, -, hr, he, -, hk⟩
  · by_cases hk : k < s.rounds.length
    · rw [he, List.getElem?_append_left hk] at hr'
      exact ⟨r', hr', hm⟩
    · rw [he, List.getElem?_append_right (Nat.le_of_not_lt hk)] at hr'
      simp [hl r' (List.getElem?_mem hr') m, Producer.response] at hm
  · by_cases hjk : j = k
    · subst hjk
      rw [he, List.getElem?_set_self (List.getElem?_eq_some_iff.mp hr).1] at hr'
      cases hr'
      exact ⟨r, hr, hk ha m resp hm⟩
    · rw [he, List.getElem?_set_ne hjk] at hr'
      exact ⟨r', hr', hm⟩

/-- A peer's RPC returning sets only its producer. -/
theorem reply_step {k : Nat} {v : MemberID} {out : VoteResponse} {r : Round} {q : VoteRequest}
    (hr : s.rounds[k]? = some r) (hq : r.producers v = .requesting q)
    (hs : s.step (.reply k v out) = .ok s') :
    s'.raft = s.raft ∧ s'.rounds = s.rounds.set k (r.setProducer v (.replied q out)) := by
  obtain ⟨r₀, r', hr₀, hf, rfl⟩ := updateRound_eq_ok hs
  rw [hr] at hr₀
  cases hr₀
  simp only [Round.reply, hq, pure, Except.pure, Except.ok.injEq] at hf
  subst hf
  exact ⟨rfl, rfl⟩

/-- The term of the round whose tally switches the replica to leader in this action. -/
def leaderSwitch (s : Replica) : Action → Option Term
  | .tallyHandle k =>
    match s.rounds[k]? with
    | some r => if s.tallySwitch k = some .leader then some r.term else none
    | none => none
  | _ => none

/-- A tally step that makes the replica leader is the switch `tallySwitch` predicts. -/
theorem tallySwitch_of_leader {k : Nat} (hs : s.step (.tallyHandle k) = .ok s')
    (hl₀ : s.raft.role ≠ .leader) (hl : s'.raft.role = .leader) :
    s.tallySwitch k = some .leader := by
  obtain ⟨hsome, hnone⟩ := tallyHandle_switch hs
  cases hsw : s.tallySwitch k with
  | none => exact absurd ((hnone hsw).1 ▸ hl) hl₀
  | some role => rw [← (hsome role hsw).1, hl]

end Replica

/-- The actions a replica takes alone: all but answering a `VoteRequest` and a peer's RPC
returning, which the cluster pairs. -/
def Action.isLocal : Action → Bool
  | .vote .. | .reply .. => false
  | _ => true

theorem Action.replies_of_isLocal {a : Action} (h : a.isLocal = true) : a.replies = false := by
  cases a <;> simp_all [isLocal, replies]

/-- A cluster: its stable membership, each member's replica, and every switch to leader a
tally made so far, with the term of its round. -/
structure Net where
  members : List MemberID
  replicas : MemberID → Replica
  elected : List (MemberID × Term)

namespace Net

/-- The view of the membership member `m` starts with; a name outside it never runs. -/
def view (members : List MemberID) (nodup : members.Nodup) (m : MemberID) : Cluster :=
  if h : m ∈ members then ⟨m, members, nodup, h⟩
  else ⟨m, [m], List.nodup_singleton m, List.mem_singleton_self m⟩

/-- Every member restored its term and vote and runs as a follower; no tally has run. -/
def start (members : List MemberID) (nodup : members.Nodup) (term : MemberID → Term)
    (vote : MemberID → Option MemberID) : Net :=
  ⟨members, fun m => .init (view members nodup m) (term m) (vote m), []⟩

inductive Step : Net → Net → Prop
  /-- A member takes a step of its own; a tally's switch to leader is recorded. -/
  | own {n : Net} {m : MemberID} {a : Action} {s : Replica} (hm : m ∈ n.members)
      (ha : a.isLocal = true) (hs : (n.replicas m).step a = .ok s) :
      Step n ⟨n.members, Function.update n.replicas m s,
        n.elected ++ ((n.replicas m).leaderSwitch a).toList.map ((m, ·))⟩
  /-- A member answers a vote request whose answer is lost. -/
  | vote {n : Net} {v : MemberID} {q : VoteRequest} {p : Bool} {cs : List Call}
      {resp out : VoteResponse} {s : Replica} (hv : v ∈ n.members)
      (h : (n.replicas v).answer q p cs resp = .ok (s, out)) :
      Step n ⟨n.members, Function.update n.replicas v s, n.elected⟩
  /-- The peer goroutine of `v` in round `k` of `c` gets `v`'s answer to its request. -/
  | deliver {n : Net} {c v : MemberID} {k : Nat} {r : Round} {q : VoteRequest} {p : Bool}
      {cs : List Call} {resp out : VoteResponse} {sv sc : Replica} (hc : c ∈ n.members)
      (hv : v ∈ n.members) (hr : (n.replicas c).rounds[k]? = some r)
      (hq : r.producers v = .requesting q)
      (h : (n.replicas v).answer q p cs resp = .ok (sv, out))
      (hrep : (n.replicas c).step (.reply k v out) = .ok sc) :
      Step n ⟨n.members, Function.update (Function.update n.replicas v sv) c sc, n.elected⟩

inductive Reachable : Net → Prop
  | start (members : List MemberID) (nodup : members.Nodup) (term : MemberID → Term)
      (vote : MemberID → Option MemberID) : Reachable (start members nodup term vote)
  | step {n n' : Net} : Reachable n → Step n n' → Reachable n'

/-- One event of a cluster run, with the answering member's handler calls and answer. -/
inductive Event where
  | own (m : MemberID) (a : Action)
  | vote (v : MemberID) (q : VoteRequest) (persisted : Bool) (handled : List Call)
      (response : VoteResponse)
  | deliver (c v : MemberID) (k : Nat) (persisted : Bool) (handled : List Call)
      (response : VoteResponse)

/-- The cluster after an event, when the event can happen. -/
def next (n : Net) : Event → Option Net
  | .own m a =>
    if m ∈ n.members ∧ a.isLocal = true then
      match (n.replicas m).step a with
      | .ok s => some ⟨n.members, Function.update n.replicas m s,
          n.elected ++ ((n.replicas m).leaderSwitch a).toList.map ((m, ·))⟩
      | .error _ => none
    else none
  | .vote v q p cs resp =>
    if v ∈ n.members then
      match (n.replicas v).answer q p cs resp with
      | .ok (s, _) => some ⟨n.members, Function.update n.replicas v s, n.elected⟩
      | .error _ => none
    else none
  | .deliver c v k p cs resp =>
    if c ∈ n.members ∧ v ∈ n.members then
      match (n.replicas c).rounds[k]? with
      | some r =>
        match r.producers v with
        | .requesting q =>
          match (n.replicas v).answer q p cs resp with
          | .ok (sv, out) =>
            match (n.replicas c).step (.reply k v out) with
            | .ok sc =>
              some ⟨n.members, Function.update (Function.update n.replicas v sv) c sc, n.elected⟩
            | .error _ => none
          | .error _ => none
        | _ => none
      | none => none
    else none

def run (n : Net) : List Event → Option Net
  | [] => some n
  | e :: es => (n.next e).bind (run · es)

theorem step_of_next {n n' : Net} {e : Event} (h : n.next e = some n') : Step n n' := by
  cases e with
  | own m a =>
    simp only [next] at h
    split_ifs at h with hm
    split at h
    · cases h; exact .own hm.1 hm.2 ‹_›
    · cases h
  | vote v q p cs resp =>
    simp only [next] at h
    split_ifs at h with hv
    split at h
    · cases h; exact .vote hv ‹_›
    · cases h
  | deliver c v k p cs resp =>
    simp only [next] at h
    split_ifs at h with hm
    split at h <;> try cases h
    split at h <;> try cases h
    split at h <;> try cases h
    split at h <;> cases h
    exact .deliver hm.1 hm.2 ‹_› ‹_› ‹_› ‹_›

theorem Reachable.run {n n' : Net} {es : List Event} (hn : n.Reachable)
    (h : n.run es = some n') : n'.Reachable := by
  induction es generalizing n with
  | nil => exact Option.some.inj h ▸ hn
  | cons e es ih =>
    obtain ⟨n₁, h₁, h⟩ := Option.bind_eq_some.mp h
    exact ih (hn.step (step_of_next h₁)) h

/-- Every response a round holds that grants the vote is the voter's recorded vote for the
round's candidate in the response's term. -/
def Backed (n : Net) : Prop :=
  ∀ c ∈ n.members, ∀ (k : Nat) (r : Round) (v : MemberID) (resp : VoteResponse),
    (n.replicas c).rounds[k]? = some r →
    (r.producers v).response = some resp → resp.voted = true →
    (resp.term, c) ∈ (n.replicas v).raft.voteLog

/-- A quorum of members recorded their vote for `c` in term `t`. -/
def WonTerm (n : Net) (c : MemberID) (t : Term) : Prop :=
  ∃ Q : List MemberID, Q.Nodup ∧ quorum n.members.length ≤ Q.length ∧
    ∀ v ∈ Q, v ∈ n.members ∧ (t, c) ∈ (n.replicas v).raft.voteLog

/-- What the invariant asks of member `m`'s replica: it is sound, and it knows its own name
and the membership. -/
structure Fits (members : List MemberID) (m : MemberID) (s : Replica) : Prop where
  inv : s.Inv
  member : s.raft.cluster.member = m
  members : s.raft.cluster.members = members

/-- The invariant of a cluster. -/
structure Inv (n : Net) : Prop where
  nodup : n.members.Nodup
  fits : ∀ m ∈ n.members, Fits n.members m (n.replicas m)
  backed : n.Backed
  elected : ∀ c t, (c, t) ∈ n.elected → n.WonTerm c t

/-- The same membership, and every replica's protocol state only grew. -/
def Grown (n n' : Net) : Prop :=
  n'.members = n.members ∧ ∀ m, (n.replicas m).raft.Grows (n'.replicas m).raft

variable {n n' : Net}

theorem Fits.grow {L : List MemberID} {m : MemberID} {s s' : Replica} (h : Fits L m s)
    (hi : s'.Inv) (hg : s.raft.Grows s'.raft) : Fits L m s' :=
  ⟨hi, hg.cluster ▸ h.member, hg.cluster ▸ h.members⟩

theorem fits_update {L : List MemberID} {f : MemberID → Replica}
    (hf : ∀ m ∈ L, Fits L m (f m)) {m : MemberID} {s : Replica} (hs : Fits L m s) :
    ∀ m' ∈ L, Fits L m' (Function.update f m s m') := by
  intro m' hm'
  by_cases h : m' = m
  · subst h; simpa using hs
  · simpa [Function.update_noteq h] using hf m' hm'

theorem Grown.trans {n₁ n₂ n₃ : Net} (h₁ : Grown n₁ n₂) (h₂ : Grown n₂ n₃) : Grown n₁ n₃ :=
  ⟨h₂.1.trans h₁.1, fun m => (h₁.2 m).trans (h₂.2 m)⟩

theorem grown_update {m : MemberID} {s : Replica} (hg : (n.replicas m).raft.Grows s.raft)
    (e : List (MemberID × Term)) : Grown n ⟨n.members, Function.update n.replicas m s, e⟩ := by
  refine ⟨rfl, fun m' => ?_⟩
  by_cases h : m' = m
  · subst h; simpa using hg
  · simpa [Function.update_noteq h] using ProtocolState.Grows.refl _

theorem WonTerm.mono {c : MemberID} {t : Term} (h : n.WonTerm c t) (hg : Grown n n') :
    n'.WonTerm c t := by
  obtain ⟨Q, hnd, hlen, hQ⟩ := h
  refine ⟨Q, hnd, hg.1 ▸ hlen, fun v hv => ?_⟩
  obtain ⟨hm, hl⟩ := hQ v hv
  exact ⟨hg.1 ▸ hm, (hg.2 v).log _ hl⟩

/-- `Backed` carries over to a grown cluster in which every granting response a round holds
was held by the same round before, or is already recorded by its voter. -/
theorem Backed.mono (hb : n.Backed) (hg : Grown n n')
    (hr : ∀ c ∈ n'.members, ∀ (k : Nat) (r : Round) (v : MemberID) (resp : VoteResponse),
      (n'.replicas c).rounds[k]? = some r → (r.producers v).response = some resp →
      resp.voted = true → (∃ r₀, (n.replicas c).rounds[k]? = some r₀ ∧
        (r₀.producers v).response = some resp) ∨
      (resp.term, c) ∈ (n'.replicas v).raft.voteLog) : n'.Backed := by
  intro c hc k r v resp hr' hresp hvoted
  rcases hr c hc k r v resp hr' hresp hvoted with ⟨r₀, hr₀, hresp₀⟩ | h
  · exact (hg.2 v).log _ (hb c (hg.1 ▸ hc) k r₀ v resp hr₀ hresp₀ hvoted)
  · exact h

/-- A tally that switches its replica to leader holds a quorum of votes recorded for the
replica in its round's term. -/
theorem wonTerm_of_switch (hn : n.Inv) {m : MemberID} (hm : m ∈ n.members) {k : Nat}
    {r : Round} (hr : (n.replicas m).rounds[k]? = some r)
    (hsw : (n.replicas m).tallySwitch k = some .leader) : n.WonTerm m r.term := by
  have hf := hn.fits m hm
  have hs := hf.inv
  have hrs := hs.rounds r (List.getElem?_mem hr)
  have hvm : r.votingMembers = n.members := hrs.members.trans hf.members
  obtain ⟨b, hst⟩ : ∃ b, r.tally.state = .handling b := by
    simp only [Replica.tallySwitch, hr] at hsw
    split at hsw
    · exact ⟨_, ‹_›⟩
    · cases hsw
  obtain ⟨hg, -, -, -, hcount⟩ := (Replica.tallySwitch_leader hs hr hst).mp hsw
  have hsub : (r.tally.counted ++ [b]).Sublist r.ballots := by
    simp [Round.ballots, hst, TallyState.held]
  refine ⟨((r.tally.counted ++ [b]).filter (·.granted)).map (·.voter), ?_, ?_, ?_⟩
  · exact hrs.nodup.sublist (((List.filter_sublist _).trans hsub).map _)
  · simp [List.filter_append, hg, hcount, hvm]
  · simp only [List.mem_map, List.mem_filter]
    rintro v ⟨b', ⟨hb', hg'⟩, rfl⟩
    have hb'' := hsub.subset hb'
    refine ⟨hvm ▸ hrs.mem_of_ne_waiting fun hw => ?_, ?_⟩
    · have := hrs.finished b' hb''
      rw [hw] at this
      cases this
    · rcases hrs.granted b' hb'' hg' with hself | ⟨resp, hp, hvoted, hterm⟩
      · have := hrs.selfVote
        rw [hf.member] at hself this
        rwa [hself]
      · have := hn.backed m hm k r b'.voter resp hr (by simp [hp, Producer.response]) hvoted
        rwa [hterm] at this

theorem inv_start (members : List MemberID) (nodup : members.Nodup) (term : MemberID → Term)
    (vote : MemberID → Option MemberID) : (start members nodup term vote).Inv where
  nodup := nodup
  fits m hm := by
    have : m ∈ members := hm
    exact ⟨Replica.inv_init _ _ _, by simp [start, view, this, Replica.init,
      ProtocolState.restore], by simp [start, view, this, Replica.init, ProtocolState.restore]⟩
  backed _ _ _ _ _ _ hr := by simp [start, Replica.init] at hr
  elected _ _ h := by simp [start] at h

theorem Replica.leaderSwitch_eq_some {s : Replica} {a : Action} {t : Term}
    (h : s.leaderSwitch a = some t) :
    ∃ k r, s.rounds[k]? = some r ∧ s.tallySwitch k = some .leader ∧ t = r.term := by
  cases a <;> simp only [Replica.leaderSwitch, reduceCtorEq] at h
  rename_i k
  split at h
  · rename_i r hr
    split_ifs at h with hsw
    cases h
    exact ⟨k, r, hr, hsw, rfl⟩
  · cases h

/-- A member's own step keeps the invariant, and a switch to leader it records is backed by
a quorum. -/
theorem Inv.own (hn : n.Inv) {m : MemberID} {a : Action} {s : Replica} (hm : m ∈ n.members)
    (ha : a.isLocal = true) (hs : (n.replicas m).step a = .ok s) :
    Inv ⟨n.members, Function.update n.replicas m s,
      n.elected ++ ((n.replicas m).leaderSwitch a).toList.map ((m, ·))⟩ := by
  have hev := Replica.step_evolves hs
  have hg := grown_update (n := n) hev.grows
    (n.elected ++ ((n.replicas m).leaderSwitch a).toList.map ((m, ·)))
  have hf := hn.fits m hm
  refine ⟨hn.nodup, fits_update hn.fits (hf.grow (hf.inv.step hs) hev.grows), ?_, ?_⟩
  · refine hn.backed.mono hg fun c _ k r v resp hr hresp _ => .inl ?_
    by_cases h : c = m
    · subst h
      simp only [Function.update_same] at hr
      exact Replica.step_responses hs (Action.replies_of_isLocal ha) hr hresp
    · exact ⟨r, by simpa [Function.update_noteq h] using hr, hresp⟩
  · intro c t he
    rcases List.mem_append.mp he with he | he
    · exact (hn.elected c t he).mono hg
    · obtain ⟨t', ht', he⟩ := List.mem_map.mp he
      cases he
      obtain ⟨k, r, hr, hsw, rfl⟩ := Replica.leaderSwitch_eq_some (Option.mem_toList.mp ht')
      exact (wonTerm_of_switch hn hm hr hsw).mono hg

/-- A member answering a vote request whose answer is lost keeps the invariant. -/
theorem Inv.vote (hn : n.Inv) {v : MemberID} {q : VoteRequest} {p : Bool} {cs : List Call}
    {resp out : VoteResponse} {s : Replica} (hv : v ∈ n.members)
    (h : (n.replicas v).answer q p cs resp = .ok (s, out)) :
    Inv ⟨n.members, Function.update n.replicas v s, n.elected⟩ := by
  obtain ⟨hinv, hgrow, hrounds, -⟩ := Replica.answer_spec (hn.fits v hv).inv h
  have hg := grown_update (n := n) hgrow n.elected
  refine ⟨hn.nodup, fits_update hn.fits ((hn.fits v hv).grow hinv hgrow), ?_,
    fun c t he => (hn.elected c t he).mono hg⟩
  · refine hn.backed.mono hg fun c _ k r v' resp hr hresp _ => .inl ⟨r, ?_, hresp⟩
    by_cases h : c = v
    · subst h; simpa [hrounds] using hr
    · simpa [Function.update_noteq h] using hr

/-- A delivered answer keeps the invariant: an answer granting the vote is the voter's
recorded vote for the round's candidate. -/
theorem Inv.deliver (hn : n.Inv) {c v : MemberID} {k : Nat} {r : Round} {q : VoteRequest}
    {p : Bool} {cs : List Call} {resp out : VoteResponse} {sv sc : Replica}
    (hc : c ∈ n.members) (hv : v ∈ n.members) (hr : (n.replicas c).rounds[k]? = some r)
    (hq : r.producers v = .requesting q)
    (h : (n.replicas v).answer q p cs resp = .ok (sv, out))
    (hrep : (n.replicas c).step (.reply k v out) = .ok sc) :
    Inv ⟨n.members, Function.update (Function.update n.replicas v sv) c sc, n.elected⟩ := by
  have hfc := hn.fits c hc
  have hrs := hfc.inv.rounds r (List.getElem?_mem hr)
  obtain ⟨-, hcand, hne⟩ := hrs.requests v q (by simp [hq, Producer.request?])
  rw [hfc.member] at hcand hne
  obtain ⟨hinv, hgrow, hrounds, hlogged⟩ := Replica.answer_spec (hn.fits v hv).inv h
  obtain ⟨hraft, hrounds'⟩ := Replica.reply_step hr hq hrep
  have hcv : Function.update n.replicas v sv c = n.replicas c := Function.update_noteq hne.symm _ _
  have hg : Grown n ⟨n.members, Function.update (Function.update n.replicas v sv) c sc,
      n.elected⟩ :=
    (grown_update hgrow n.elected).trans
      (grown_update (by dsimp only; rw [hcv, hraft]; exact .refl _) _)
  refine ⟨hn.nodup, fits_update (fits_update hn.fits ((hn.fits v hv).grow hinv hgrow))
    (hfc.grow (hfc.inv.step hrep) (hraft ▸ .refl _)), ?_,
    fun c t he => (hn.elected c t he).mono hg⟩
  refine hn.backed.mono hg fun c' _ k' r' v' resp' hr' hresp hvoted => ?_
  dsimp only at hr' ⊢
  by_cases h₁ : c' = c
  · subst h₁
    rw [Function.update_same, hrounds'] at hr'
    by_cases hk : k' = k
    · subst hk
      rw [List.getElem?_set_self (List.getElem?_eq_some_iff.mp hr).1, Option.some.injEq] at hr'
      subst hr'
      by_cases hvv : v' = v
      · subst hvv
        simp only [Round.setProducer, if_pos, Producer.response, Option.some.injEq] at hresp
        subst hresp
        refine .inr ?_
        rw [Function.update_noteq hne, Function.update_same, ← hcand]
        exact hlogged hvoted (by rw [hcand, (hn.fits v' hv).member]; exact hne.symm)
      · exact .inl ⟨r, hr, by simpa [Round.setProducer, hvv] using hresp⟩
    · exact .inl ⟨r', by rwa [List.getElem?_set_ne (Ne.symm hk)] at hr', hresp⟩
  · refine .inl ⟨r', ?_, hresp⟩
    rw [Function.update_noteq h₁] at hr'
    by_cases h₂ : c' = v
    · subst h₂; rwa [Function.update_same, hrounds] at hr'
    · rwa [Function.update_noteq h₂] at hr'

theorem Reachable.inv (h : n.Reachable) : n.Inv := by
  induction h with
  | start members nodup term vote => exact inv_start members nodup term vote
  | step _ hs ih =>
    cases hs with
    | own hm ha hs => exact ih.own hm ha hs
    | vote hv h => exact ih.vote hv h
    | deliver hc hv hr hq h hrep => exact ih.deliver hc hv hr hq h hrep

/-- Two members that both hold a quorum of votes of one term are the same member: the two
quorums share a voter, who recorded one vote in the term. -/
theorem Inv.won_unique (hi : n.Inv) {c₁ c₂ : MemberID} {t : Term} (h₁ : n.WonTerm c₁ t)
    (h₂ : n.WonTerm c₂ t) : c₁ = c₂ := by
  obtain ⟨Q₁, hnd₁, hl₁, hQ₁⟩ := h₁
  obtain ⟨Q₂, hnd₂, hl₂, hQ₂⟩ := h₂
  obtain ⟨v, hv₁, hv₂⟩ := quorums_meet hnd₁ hnd₂ (fun v hv => (hQ₁ v hv).1)
    (fun v hv => (hQ₂ v hv).1) hl₁ hl₂
  exact (hi.fits v (hQ₁ v hv₁).1).inv.raft.unique t c₁ c₂ (hQ₁ v hv₁).2 (hQ₂ v hv₂).2

/-- Election safety: in every run of the cluster, whatever the interleaving of rounds,
timeouts, answers, lost answers, RPC failures and role changes, no two members are switched
to leader by a tally in the same term. -/
theorem election_safety {n : Net} (hn : n.Reachable) {c₁ c₂ : MemberID} {t : Term}
    (h₁ : (c₁, t) ∈ n.elected) (h₂ : (c₂, t) ∈ n.elected) : c₁ = c₂ :=
  hn.inv.won_unique (hn.inv.elected c₁ t h₁) (hn.inv.elected c₂ t h₂)

/-- The members `foo`, `bar` and `baz`, all in term 0 with no vote. -/
def trio : Net := start ["foo", "bar", "baz"] (by decide) (fun _ => 0) (fun _ => none)

/-- `foo`'s first election: it votes for itself, `bar` records its vote for `foo` in term 1
and grants it, and the tally switches `foo` to leader with these two votes. -/
def firstElection : List Event :=
  [.own "foo" (.setRole .candidate), .own "foo" (.sendVoteRequests 0 true true 0 0),
   .own "foo" (.requestVote 0), .own "foo" (.tallyReceive 0), .own "foo" (.tallyHandle 0),
   .own "foo" (.requestVote 0),
   .deliver "foo" "bar" 0 true [.setTerm 1 true, .setLastVotedFor "foo" true] ⟨.ok, 1, true⟩,
   .own "foo" (.receive 0 "bar" true), .own "foo" (.tallyReceive 0),
   .own "foo" (.tallyHandle 0)]

def fooElected : Net :=
  match trio.run firstElection with
  | some n => n
  | none => trio

theorem first_election_single_leader :
    trio.run firstElection = some fooElected ∧ ("foo", 1) ∈ fooElected.elected ∧
      ∀ c, (c, 1) ∈ fooElected.elected → c = "foo" := by
  have hrun : trio.run firstElection = some fooElected := rfl
  have hfoo : ("foo", 1) ∈ fooElected.elected := by decide
  exact ⟨hrun, hfoo, fun c hc => election_safety ((Reachable.start _ _ _ _).run hrun) hc hfoo⟩

/-- Every switch to leader a tally made stays backed, in every later state of the cluster, by
a quorum of members whose recorded vote in the round's term went to the new leader. -/
theorem elected_backed_by_quorum {n : Net} (hn : n.Reachable) {c : MemberID} {t : Term}
    (h : (c, t) ∈ n.elected) :
    ∃ Q : List MemberID, Q.Nodup ∧ quorum n.members.length ≤ Q.length ∧
      ∀ v ∈ Q, v ∈ n.members ∧ (t, c) ∈ (n.replicas v).raft.voteLog :=
  hn.inv.elected c t h

theorem first_election_backed :
    ∃ Q : List MemberID, Q.Nodup ∧ 2 ≤ Q.length ∧
      ∀ v ∈ Q, v ∈ fooElected.members ∧ (1, "foo") ∈ (fooElected.replicas v).raft.voteLog :=
  elected_backed_by_quorum ((Reachable.start _ _ _ _).run
    (show trio.run firstElection = some fooElected from rfl)) (by decide)

/-- Election safety for the role change itself. When a step of a member's tally makes the
member leader, the cluster step records that switch with the term of the tally's round, and
no other member was made leader by a tally in that term before. -/
theorem tally_leader_unique {n : Net} (hn : n.Reachable) {c : MemberID} {k : Nat} {r : Round}
    {s : Replica} (hc : c ∈ n.members) (hr : (n.replicas c).rounds[k]? = some r)
    (hs : (n.replicas c).step (.tallyHandle k) = .ok s)
    (hl₀ : (n.replicas c).raft.role ≠ .leader) (hl : s.raft.role = .leader) :
    Step n ⟨n.members, Function.update n.replicas c s, n.elected ++ [(c, r.term)]⟩ ∧
      ∀ c', (c', r.term) ∈ n.elected → c' = c := by
  have hsw := Replica.tallySwitch_of_leader hs hl₀ hl
  have hrec : (n.replicas c).leaderSwitch (.tallyHandle k) = some r.term := by
    simp [Replica.leaderSwitch, hr, hsw]
  refine ⟨?_, fun c' he => hn.inv.won_unique (hn.inv.elected c' r.term he)
    (wonTerm_of_switch hn.inv hc hr hsw)⟩
  simpa [hrec] using Step.own hc (show (Action.tallyHandle k).isLocal = true from rfl) hs

/-- `firstElection` up to the tally holding `bar`'s grant. -/
def fooAboutToWin : Net :=
  match trio.run (firstElection.take 9) with
  | some n => n
  | none => trio

theorem foo_tally_switch_recorded :
    ∃ r s, (fooAboutToWin.replicas "foo").rounds[0]? = some r ∧
      (fooAboutToWin.replicas "foo").step (.tallyHandle 0) = .ok s ∧ s.raft.role = .leader ∧
      Step fooAboutToWin ⟨fooAboutToWin.members, Function.update fooAboutToWin.replicas "foo" s,
        fooAboutToWin.elected ++ [("foo", r.term)]⟩ :=
  ⟨_, _, rfl, rfl, rfl, (tally_leader_unique ((Reachable.start _ _ _ _).run
    (show trio.run (firstElection.take 9) = some fooAboutToWin from rfl)) (c := "foo") (k := 0)
    (by decide) rfl rfl (by decide) rfl).1⟩

end Net

end AtomixRaft
