import AtomixRaft.Channel

/-!
# The candidate role

`CandidateRole` of `roles/candidate.go` and the goroutines it starts, as one state machine
per replica. The write lock makes each locked section one step. A step is a call or a role
change made by another part of the replica, `Vote`, a `sendVoteRequests` goroutine taking
the lock, one turn of the request loop, a peer goroutine's RPC returning or failing, its
response handled under the lock, its `close(votes)`, the tally receiving a ballot or
handling it under the lock, a timer firing, or the timer goroutine taking a select case.
-/

namespace AtomixRaft

/-- A candidate role instance: `active` of its `raftRole`, and its election timer. -/
structure CandidateRole where
  active : Bool
  electionTimer : Option Nat
  deriving DecidableEq, Repr

/-- The producer of one member's ballot in a round: the request loop's own vote, or the
goroutine the loop starts for a peer, with its local `request` and `response`. -/
inductive Producer where
  | waiting
  | requesting (request : VoteRequest)
  | replied (request : VoteRequest) (response : VoteResponse)
  | closing (response : VoteResponse)
  | done (response : Option VoteResponse)
  deriving DecidableEq, Repr

/-- A value on a round's `votes` channel. The code sends `granted`; `voter` names the
member whose producer sent it. -/
structure Ballot where
  voter : MemberID
  granted : Bool
  deriving DecidableEq, Repr

inductive TallyState where
  | receiving
  | handling (b : Ballot)
  | exited
  | won
  | lost
  | drained
  deriving DecidableEq, Repr

/-- The tally goroutine: its two counters, where it is, and the ballots it counted. -/
structure Tally where
  voteCount : Nat
  rejectCount : Nat
  state : TallyState
  counted : List Ballot
  deriving DecidableEq, Repr

/-- `int(math.Floor(float64(n)/2.0) + 1)`; the float arithmetic is exact for every list
length below `2^53`. -/
def quorum (n : Nat) : Nat := n / 2 + 1

/-- One election round: what `sendVoteRequests` captured, the request loop's remaining
members, each member's producer, the `votes` channel and the tally. -/
structure Round where
  role : Nat
  term : Term
  votingMembers : List MemberID
  lastIndex : Index
  lastTerm : Term
  pending : List MemberID
  producers : MemberID → Producer
  votes : Chan Ballot
  tally : Tally

/-- A replica: the protocol state, the candidate that is the current role if any, every
candidate instance made so far, the `sendVoteRequests` goroutines waiting for the lock,
the election timers and the rounds. -/
structure Replica where
  raft : ProtocolState
  current : Option Nat
  candidates : List CandidateRole
  calls : List Nat
  timers : List ElectionTimer
  rounds : List Round

namespace Round

def start (role : Nat) (term : Term) (members : List MemberID) (lastIndex : Index)
    (lastTerm : Term) : Round where
  role := role
  term := term
  votingMembers := members
  lastIndex := lastIndex
  lastTerm := lastTerm
  pending := members
  producers := fun _ => .waiting
  votes := Chan.make members.length
  tally := ⟨0, 0, .receiving, []⟩

def setProducer (r : Round) (m : MemberID) (p : Producer) : Round :=
  { r with producers := fun m' => if m' = m then p else r.producers m' }

/-- One turn of the request loop: the candidate's own vote goes on `votes`, and any other
member gets a goroutine requesting its vote. -/
def requestVote (r : Round) (self : MemberID) : Except Fault Round :=
  match r.pending with
  | [] => .error .notEnabled
  | m :: rest =>
    if m = self then do
      let votes ← r.votes.send ⟨m, true⟩
      pure ({ r with pending := rest, votes := votes }.setProducer m (.done none))
    else
      pure ({ r with pending := rest }.setProducer m
        (.requesting ⟨r.term, self, r.lastIndex, r.lastTerm⟩))

/-- The peer's Vote RPC returns a response. -/
def reply (r : Round) (m : MemberID) (response : VoteResponse) : Except Fault Round :=
  match r.producers m with
  | .requesting request => pure (r.setProducer m (.replied request response))
  | _ => .error .notEnabled

/-- The peer's Vote RPC fails: `votes <- false`, outside the lock. -/
def fail (r : Round) (m : MemberID) : Except Fault Round :=
  match r.producers m with
  | .requesting _ => do
    let votes ← r.votes.send ⟨m, false⟩
    pure ({ r with votes := votes }.setProducer m (.done none))
  | _ => .error .notEnabled

/-- `close(votes)`, after the peer goroutine released the lock. -/
def closeVotes (r : Round) (m : MemberID) : Except Fault Round :=
  match r.producers m with
  | .closing response => do
    let votes ← r.votes.close
    pure ({ r with votes := votes }.setProducer m (.done (some response)))
  | _ => .error .notEnabled

/-- The tally's `range votes` takes the next ballot, or ends on a closed empty channel. -/
def tallyReceive (r : Round) : Except Fault Round :=
  match r.tally.state, r.votes.buffer with
  | .receiving, b :: rest =>
    pure { r with votes := { r.votes with buffer := rest },
                  tally := { r.tally with state := .handling b } }
  | .receiving, [] =>
    if r.votes.closed then pure { r with tally := { r.tally with state := .drained } }
    else .error .notEnabled
  | _, _ => .error .notEnabled

end Round

/-- The value a peer goroutine sends for a response whose term is not above the
request's: `false` for a rejection and for a vote of a term other than the current one,
`true` otherwise. -/
def ballotValue (response : VoteResponse) (term : Term) : Bool :=
  if !response.voted then false
  else if response.term ≠ term then false
  else true

theorem ballotValue_eq_true {response : VoteResponse} {term : Term} :
    ballotValue response term = true ↔ response.voted = true ∧ response.term = term := by
  unfold ballotValue
  cases response.voted <;> simp

/-- The tally loop's body for ballot `b` under the write lock, given whether the role is
still active in the election term and the known leader: the tally after it, and the role
it switches to. -/
def Tally.handle (t : Tally) (b : Ballot) (current : Bool) (leader : Option MemberID)
    (quorum : Nat) : Tally × Option RoleType :=
  if !current then ({ t with state := .exited }, none)
  else if b.granted then
    let t := { t with voteCount := t.voteCount + 1, counted := t.counted ++ [b] }
    if leader = none ∧ t.voteCount = quorum then ({ t with state := .won }, some .leader)
    else ({ t with state := .receiving }, none)
  else
    let t := { t with rejectCount := t.rejectCount + 1, counted := t.counted ++ [b] }
    if t.rejectCount = quorum then ({ t with state := .lost }, some .follower)
    else ({ t with state := .receiving }, none)

namespace Replica

/-- `r.active` of candidate `i`. -/
def active (s : Replica) (i : Nat) : Bool :=
  match s.candidates[i]? with
  | some c => c.active
  | none => false

/-- `r.electionTimer != nil && r.electionTimer.Stop()` for candidate `i`, with the send on
`r.electionExpired` it guards in `Stop` and `resetElectionTimeout`. -/
def stopTimer (s : Replica) (i : Nat) : Except Fault (Bool × Replica) :=
  match s.candidates[i]? with
  | some ⟨_, some k⟩ =>
    match s.timers[k]? with
    | some t => do
      let (stopped, t) ← t.cancel
      pure (stopped, { s with timers := s.timers.set k t })
    | none => pure (false, s)
  | _ => pure (false, s)

/-- `CandidateRole.Stop`: cancel the election timer, then `raftRole.Stop` clears `active`. -/
def stop (s : Replica) (i : Nat) : Except Fault Replica := do
  let (_, s) ← s.stopTimer i
  pure { s with candidates := s.candidates.modify (fun c => { c with active := false }) i }

def stopRole (s : Replica) : Except Fault Replica :=
  match s.current with
  | some i => s.stop i
  | none => pure s

/-- `SetRole` to a follower or a leader. -/
def switchTo (s : Replica) (role : RoleType) : Except Fault Replica := do
  let s ← s.stopRole
  pure { s with raft := { s.raft with role := role }, current := none }

/-- `CandidateRole.Start` of candidate `i`: a one-member cluster switches to leader at once,
and otherwise `sendVoteRequests` starts in a goroutine. -/
def start (s : Replica) (i : Nat) : Except Fault Replica :=
  if s.raft.cluster.members.length = 1 then s.switchTo .leader
  else pure { s with calls := s.calls ++ [i] }

/-- `newCandidateRole`, made the current role: an active candidate without a timer. -/
def newCandidateRole (s : Replica) : Replica :=
  { s with raft := { s.raft with role := .candidate }, current := some s.candidates.length,
           candidates := s.candidates ++ [⟨true, none⟩] }

/-- Modelled from the spec: `SetRole` (§4.1) stops the current role, makes the new one and
starts it. -/
def setRole (s : Replica) : RoleType → Except Fault Replica
  | .candidate => do
    let s ← s.stopRole
    s.newCandidateRole.start s.candidates.length
  | role => s.switchTo role

/-- `CandidateRole.Vote`, with its response. A request of a greater term goes through
`updateTermAndLeader`, `handleVote` and `SetRole(Follower)`; `handleVote` is not in the
sources, so `handled` and `response` are the calls it made and its answer, which keep
`Recorded`. -/
def vote (s : Replica) (request : VoteRequest) (persisted : Bool) (handled : List Call)
    (response : VoteResponse) : Except Fault (Replica × VoteResponse) :=
  let (greater, raft) := s.raft.updateTermAndLeader request.term persisted
  if greater then
    let raft := raft.calls handled
    if response.Recorded raft request.candidate then do
      let s ← { s with raft := raft }.setRole .follower
      pure (s, response)
    else .error .notEnabled
  else if request.candidate = s.raft.cluster.member then
    pure (s, ⟨.ok, s.raft.term, true⟩)
  else pure (s, ⟨.ok, s.raft.term, false⟩)

/-- `resetElectionTimeout` of candidate `i`: a running timer is stopped and its goroutine
signalled, and otherwise a new timer is armed with a new `electionExpired` channel. -/
def resetElectionTimeout (s : Replica) (i : Nat) : Except Fault Replica := do
  let (stopped, s) ← s.stopTimer i
  if stopped then pure s
  else pure { s with
    timers := s.timers ++ [.start i]
    candidates := s.candidates.modify (fun c => { c with electionTimer := some s.timers.length }) i }

/-- A `sendVoteRequests` of candidate `i` holding the write lock. An inactive role returns;
an active one resets its timer, moves to the next term and votes for itself, switching to
follower when either setter fails, and starts the round. -/
def sendVoteRequests (s : Replica) (i : Nat) (termPersisted votePersisted : Bool)
    (lastIndex : Index) (lastTerm : Term) : Except Fault Replica :=
  if s.active i then do
    let s ← s.resetElectionTimeout i
    match s.raft.setTerm (s.raft.term + 1) termPersisted with
    | .error _ => s.setRole .follower
    | .ok raft =>
      match raft.setLastVotedFor raft.cluster.member votePersisted with
      | .error _ => setRole { s with raft := raft } .follower
      | .ok raft =>
        let r := Round.start i raft.term raft.cluster.members lastIndex lastTerm
        pure { s with raft := raft, rounds := s.rounds ++ [r] }
  else pure s

def updateRound (s : Replica) (k : Nat) (f : Round → Except Fault Round) :
    Except Fault Replica :=
  match s.rounds[k]? with
  | some r => do
    let r ← f r
    pure { s with rounds := s.rounds.set k r }
  | none => .error .notEnabled

/-- A peer goroutine handles its response under the write lock: a greater term is adopted
and the role switches to follower before `votes` is closed; otherwise a ballot is sent. -/
def receive (s : Replica) (k : Nat) (m : MemberID) (persisted : Bool) :
    Except Fault Replica :=
  match s.rounds[k]? with
  | some r =>
    match r.producers m with
    | .replied request response =>
      if request.term < response.term then do
        let s ← { s with raft := s.raft.call (.setTerm response.term persisted) }.setRole
          .follower
        pure { s with rounds := s.rounds.set k (r.setProducer m (.closing response)) }
      else do
        let votes ← r.votes.send ⟨m, ballotValue response s.raft.term⟩
        pure { s with rounds := s.rounds.set k ({ r with votes := votes }.setProducer m
          (.done (some response))) }
    | _ => .error .notEnabled
  | none => .error .notEnabled

/-- The tally handles the ballot it received, under the write lock. -/
def tallyHandle (s : Replica) (k : Nat) : Except Fault Replica :=
  match s.rounds[k]? with
  | some r =>
    match r.tally.state with
    | .handling b =>
      let current := s.active r.role && decide (s.raft.term = r.term)
      let (tally, role) := r.tally.handle b current s.raft.leader
        (quorum r.votingMembers.length)
      let s := { s with rounds := s.rounds.set k ({ r with tally := tally }) }
      match role with
      | some role => s.setRole role
      | none => pure s
    | _ => .error .notEnabled
  | none => .error .notEnabled

def fire (s : Replica) (k : Nat) : Except Fault Replica :=
  match s.timers[k]? with
  | some t =>
    if t.state = .running then pure { s with timers := s.timers.set k ({ t with state := .fired }) }
    else .error .notEnabled
  | none => .error .notEnabled

/-- The timer goroutine's first select case: under the read lock, an active role starts a
new `sendVoteRequests`. -/
def timeout (s : Replica) (k : Nat) : Except Fault Replica :=
  match s.timers[k]? with
  | some t =>
    if t.selecting ∧ t.state = .fired then
      let s := { s with timers := s.timers.set k ({ t with selecting := false }) }
      pure (if s.active t.role then { s with calls := s.calls ++ [t.role] } else s)
    else .error .notEnabled
  | none => .error .notEnabled

/-- The second select case: a value on `electionExpired` ends the goroutine. -/
def expire (s : Replica) (k : Nat) : Except Fault Replica :=
  match s.timers[k]? with
  | some t =>
    match t.selecting, t.expired.buffer with
    | true, _ :: rest =>
      let t := { t with selecting := false, expired := { t.expired with buffer := rest } }
      pure { s with timers := s.timers.set k t }
    | _, _ => .error .notEnabled
  | none => .error .notEnabled

end Replica

inductive Action where
  | call (c : Call)
  | setRole (role : RoleType)
  | vote (request : VoteRequest) (persisted : Bool) (handled : List Call)
      (response : VoteResponse)
  | sendVoteRequests (role : Nat) (termPersisted votePersisted : Bool) (lastIndex : Index)
      (lastTerm : Term)
  | requestVote (round : Nat)
  | reply (round : Nat) (member : MemberID) (response : VoteResponse)
  | fail (round : Nat) (member : MemberID)
  | receive (round : Nat) (member : MemberID) (persisted : Bool)
  | close (round : Nat) (member : MemberID)
  | tallyReceive (round : Nat)
  | tallyHandle (round : Nat)
  | fire (timer : Nat)
  | timeout (timer : Nat)
  | expire (timer : Nat)

namespace Replica

def step (s : Replica) : Action → Except Fault Replica
  | .call c => pure { s with raft := s.raft.call c }
  | .setRole role => s.setRole role
  | .vote request p handled response =>
    if s.current.isSome then (·.1) <$> s.vote request p handled response
    else .error .notEnabled
  | .sendVoteRequests i tp vp li lt =>
    if i ∈ s.calls then { s with calls := s.calls.erase i }.sendVoteRequests i tp vp li lt
    else .error .notEnabled
  | .requestVote k => s.updateRound k (·.requestVote s.raft.cluster.member)
  | .reply k m response => s.updateRound k (·.reply m response)
  | .fail k m => s.updateRound k (·.fail m)
  | .receive k m p => s.receive k m p
  | .close k m => s.updateRound k (·.closeVotes m)
  | .tallyReceive k => s.updateRound k Round.tallyReceive
  | .tallyHandle k => s.tallyHandle k
  | .fire k => s.fire k
  | .timeout k => s.timeout k
  | .expire k => s.expire k

def run (s : Replica) : List Action → Except Fault Replica
  | [] => pure s
  | a :: as => do
    let s ← s.step a
    run s as

/-- The replica after `Init`, with its term and vote restored from the metadata store and
the follower role current. -/
def init (cluster : Cluster) (term : Term) (vote : Option MemberID) : Replica :=
  ⟨.restore cluster term vote, none, [], [], [], []⟩

/-- The cluster of the protocol test, `foo` with peers `bar` and `baz`, in one of the orders
`Members` may list them in. -/
def testCluster : Cluster := ⟨"foo", ["bar", "foo", "baz"], by decide, by decide⟩

end Replica

inductive Reachable : Replica → Prop where
  | init (cluster : Cluster) (term : Term) (vote : Option MemberID) :
      Reachable (.init cluster term vote)
  | step {s s' : Replica} (a : Action) : Reachable s → s.step a = .ok s' → Reachable s'

/-- One step of the replica, whichever goroutine takes it. -/
def Replica.Next (s s' : Replica) : Prop := ∃ a, s.step a = .ok s'

theorem Reachable.run {s s' : Replica} {as : List Action} (hs : Reachable s)
    (h : s.run as = .ok s') : Reachable s' := by
  induction as generalizing s with
  | nil => exact (Except.ok.inj h) ▸ hs
  | cons a as ih =>
    simp only [Replica.run, bind, Except.bind] at h
    split at h
    · cases h
    · exact ih (.step a hs ‹_›) h

theorem Reachable.later {s s' : Replica} (hs : Reachable s)
    (h : Relation.ReflTransGen Replica.Next s s') : Reachable s' := by
  induction h with
  | refl => exact hs
  | tail _ hn ih => exact .step _ ih hn.choose_spec

end AtomixRaft
