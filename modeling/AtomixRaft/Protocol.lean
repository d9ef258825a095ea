import Mathlib.Data.List.Nodup

/-!
# The protocol state

The state the roles of a replica share (§3 and §4.1 of the spec): the term, the vote
recorded in it, the known leader and the current role. The protocol package is not among
the sources, so the state and its setters are modelled from the spec and from
`TestRaftProtocol`:

* `setTerm` never lowers the term, and a new term clears the vote and the leader;
* `setLastVotedFor` records one vote per term, and `voteLog` keeps every vote recorded;
* `Valid`: the vote of the current term is its logged vote, and a term has one logged
  vote at most (`valid_call`, over every call).
-/

namespace AtomixRaft

/-- A member id (`raft.MemberID`, a string). -/
abbrev MemberID := String

/-- A term (`raft.Term`, a `uint64`). -/
abbrev Term := UInt64

/-- A log index (`raft.Index`, a `uint64`). -/
abbrev Index := UInt64

theorem term_le_iff {a b : Term} : a ≤ b ↔ a.toNat ≤ b.toNat := Iff.rfl

theorem term_lt_iff {a b : Term} : a < b ↔ a.toNat < b.toNat := Iff.rfl

theorem term_eq_iff {a b : Term} : a = b ↔ a.toNat = b.toNat :=
  ⟨congrArg _, UInt64.toNat.inj⟩

theorem term_le_of_lt {a b : Term} (h : a < b) : a ≤ b :=
  term_le_iff.2 (Nat.le_of_lt (term_lt_iff.1 h))

theorem term_le_antisymm {a b : Term} (h₁ : a ≤ b) (h₂ : b ≤ a) : a = b :=
  term_eq_iff.2 (Nat.le_antisymm h₁ h₂)

/-- `Term() + 1` in `uint64`, which is `0` after `2^64 - 1`. -/
theorem term_succ_toNat (t : Term) : (t + 1).toNat = (t.toNat + 1) % UInt64.size := by
  simp [UInt64.toNat, UInt64.add_def, BitVec.toNat_add, UInt64.size]

theorem term_succ_ne (t : Term) : t + 1 ≠ t := by
  intro h
  have h₁ := congrArg UInt64.toNat h
  have h₂ := t.toNat_lt_size
  rw [term_succ_toNat] at h₁
  simp only [UInt64.size] at h₁ h₂
  omega

inductive RoleType where
  | follower
  | candidate
  | leader
  deriving DecidableEq, Repr

inductive ResponseStatus where
  | ok
  | error
  deriving DecidableEq, Repr

structure VoteRequest where
  term : Term
  candidate : MemberID
  lastLogIndex : Index
  lastLogTerm : Term
  deriving DecidableEq, Repr

structure VoteResponse where
  status : ResponseStatus
  term : Term
  voted : Bool
  deriving DecidableEq, Repr

/-- A replica's view of the stable membership: its own id and every member's id, each
once, since they are the keys of the cluster's member map. -/
structure Cluster where
  member : MemberID
  members : List MemberID
  nodup : members.Nodup
  member_mem : member ∈ members

/-- Modelled from the spec: the protocol state (§3, §4.1), absent from src. `voteLog` is
every vote the state recorded, with its term, newest first. -/
structure ProtocolState where
  cluster : Cluster
  term : Term
  lastVotedFor : Option MemberID
  leader : Option MemberID
  role : RoleType
  voteLog : List (Term × MemberID)

inductive ProtocolError where
  | termDecreased
  | alreadyVoted
  | invalidMember
  | leaderAlreadySet
  | storeFailed
  deriving DecidableEq, Repr

namespace ProtocolState

/-- Modelled from the spec: `SetTerm`. A lower term fails; a higher one is persisted,
which can fail, and clears the vote and the leader; the same term changes nothing. -/
def setTerm (s : ProtocolState) (term : Term) (persisted : Bool) :
    Except ProtocolError ProtocolState :=
  if term < s.term then .error .termDecreased
  else if s.term < term then
    if persisted then .ok { s with term := term, lastVotedFor := none, leader := none }
    else .error .storeFailed
  else .ok s

/-- Modelled from the spec: `SetLastVotedFor` fails once a vote is recorded in the term,
for an empty or unknown member, and when the store fails. -/
def setLastVotedFor (s : ProtocolState) (member : MemberID) (persisted : Bool) :
    Except ProtocolError ProtocolState :=
  if s.lastVotedFor.isSome then .error .alreadyVoted
  else if member = "" ∨ member ∉ s.cluster.members then .error .invalidMember
  else if persisted then
    .ok { s with lastVotedFor := some member, voteLog := (s.term, member) :: s.voteLog }
  else .error .storeFailed

/-- Modelled from the spec: `SetLeader` may clear the leader, and set it once per term. -/
def setLeader (s : ProtocolState) (leader : Option MemberID) :
    Except ProtocolError ProtocolState :=
  match leader, s.leader with
  | some l, some known => if l = known then .ok s else .error .leaderAlreadySet
  | _, _ => .ok { s with leader := leader }

end ProtocolState

/-- A call another part of the replica makes on the protocol state. -/
inductive Call where
  | setTerm (term : Term) (persisted : Bool)
  | setLastVotedFor (member : MemberID) (persisted : Bool)
  | setLeader (leader : Option MemberID)

namespace ProtocolState

def run (s : ProtocolState) : Call → Except ProtocolError ProtocolState
  | .setTerm t p => s.setTerm t p
  | .setLastVotedFor m p => s.setLastVotedFor m p
  | .setLeader l => s.setLeader l

/-- A call whose error the caller drops (`_ = r.raft.SetTerm(...)`): a failed call leaves
the state as it was. -/
def call (s : ProtocolState) (c : Call) : ProtocolState :=
  match s.run c with
  | .ok s' => s'
  | .error _ => s

/-- The calls of one handler, in order. -/
def calls (s : ProtocolState) (cs : List Call) : ProtocolState := cs.foldl call s

/-- Modelled from the spec: `updateTermAndLeader(term, nil)` of the passive role (§4.3),
absent from src. A greater term is adopted and the leader cleared; the result says whether
the term was greater. -/
def updateTermAndLeader (s : ProtocolState) (term : Term) (persisted : Bool) :
    Bool × ProtocolState :=
  if s.term < term then (true, ((s.call (.setTerm term persisted)).call (.setLeader none)))
  else (false, s)

/-- The state a replica restores from its metadata store at construction. -/
def restore (cluster : Cluster) (term : Term) (vote : Option MemberID) : ProtocolState where
  cluster := cluster
  term := term
  lastVotedFor := vote
  leader := none
  role := .follower
  voteLog := match vote with
    | some m => [(term, m)]
    | none => []

/-- What every setter keeps: logged votes are no newer than the term, the vote of the
current term is its logged one, and a term has one logged vote at most. -/
structure Valid (s : ProtocolState) : Prop where
  log_le : ∀ v ∈ s.voteLog, v.1 ≤ s.term
  current : ∀ m, s.lastVotedFor = some m ↔ (s.term, m) ∈ s.voteLog
  unique : ∀ t m m', (t, m) ∈ s.voteLog → (t, m') ∈ s.voteLog → m = m'

/-- How a state may change by calls: the term does not go down, the membership stays,
and the vote log only grows. -/
structure Grows (s s' : ProtocolState) : Prop where
  term_le : s.term ≤ s'.term
  cluster : s'.cluster = s.cluster
  log : ∀ v ∈ s.voteLog, v ∈ s'.voteLog

theorem Grows.refl (s : ProtocolState) : Grows s s :=
  ⟨UInt64.le_refl _, rfl, fun _ h => h⟩

theorem Grows.trans {s₁ s₂ s₃ : ProtocolState} (h₁ : Grows s₁ s₂) (h₂ : Grows s₂ s₃) :
    Grows s₁ s₃ :=
  ⟨UInt64.le_trans h₁.term_le h₂.term_le, h₂.cluster.trans h₁.cluster,
    fun v hv => h₂.log v (h₁.log v hv)⟩

theorem setTerm_eq_ok {s s' : ProtocolState} {t : Term} {p : Bool}
    (h : s.setTerm t p = .ok s') :
    (s.term < t ∧ s' = { s with term := t, lastVotedFor := none, leader := none }) ∨
      (t = s.term ∧ s' = s) := by
  simp only [setTerm] at h
  split_ifs at h with h₁ h₂
  · exact .inl ⟨h₂, (Except.ok.inj h).symm⟩
  · exact .inr ⟨term_le_antisymm (UInt64.not_lt.mp h₂) (UInt64.not_lt.mp h₁),
      (Except.ok.inj h).symm⟩

theorem setLastVotedFor_eq_ok {s s' : ProtocolState} {m : MemberID} {p : Bool}
    (h : s.setLastVotedFor m p = .ok s') :
    s.lastVotedFor = none ∧
      s' = { s with lastVotedFor := some m, voteLog := (s.term, m) :: s.voteLog } := by
  simp only [setLastVotedFor] at h
  split_ifs at h with h₁
  exact ⟨Option.not_isSome_iff_eq_none.mp h₁, (Except.ok.inj h).symm⟩

theorem setLeader_eq_ok {s s' : ProtocolState} {l : Option MemberID}
    (h : s.setLeader l = .ok s') : ∃ l', s' = { s with leader := l' } := by
  unfold setLeader at h
  split at h
  · split_ifs at h
    exact ⟨s.leader, by cases s; exact (Except.ok.inj h).symm⟩
  · exact ⟨_, (Except.ok.inj h).symm⟩

theorem call_eq_of_run {s s' : ProtocolState} {c : Call} (h : s.run c = .ok s') :
    s.call c = s' := by
  simp [call, h]

/-- Everything one call can do to the state. -/
theorem call_cases (s : ProtocolState) (c : Call) :
    s.call c = s ∨
    (∃ t, s.term < t ∧ s.call c = { s with term := t, lastVotedFor := none, leader := none }) ∨
    (s.lastVotedFor = none ∧ ∃ m, s.call c =
      { s with lastVotedFor := some m, voteLog := (s.term, m) :: s.voteLog }) ∨
    (∃ l, s.call c = { s with leader := l }) := by
  unfold call
  split
  · rename_i s' h
    cases c with
    | setTerm t p =>
      rcases setTerm_eq_ok h with ⟨ht, rfl⟩ | ⟨-, rfl⟩
      exacts [.inr (.inl ⟨t, ht, rfl⟩), .inl rfl]
    | setLastVotedFor m p =>
      obtain ⟨hn, rfl⟩ := setLastVotedFor_eq_ok h
      exact .inr (.inr (.inl ⟨hn, m, rfl⟩))
    | setLeader l =>
      obtain ⟨l', rfl⟩ := setLeader_eq_ok h
      exact .inr (.inr (.inr ⟨l', rfl⟩))
  · exact .inl rfl

/- The setter checks of `TestRaftProtocol`, in its order: the term does not go down, one vote
per term, the leader is set once per term, and a new term clears the vote and the leader. -/
example :
    let s₁ := (restore ⟨"foo", ["foo", "bar", "baz"], by decide, by decide⟩ 0 none).calls
      [.setTerm 1 true, .setTerm 3 true]
    let s₂ := s₁.call (.setLastVotedFor "foo" true)
    let s₃ := s₂.calls [.setTerm 4 true, .setLastVotedFor "bar" true]
    let s₄ := s₃.call (.setLeader (some "bar"))
    let s₅ := s₄.call (.setLeader none)
    s₁.term = 3 ∧ (s₁.setTerm 2 true).toBool = false ∧
    s₂.lastVotedFor = some "foo" ∧ (s₂.setLastVotedFor "bar" true).toBool = false ∧
    (s₂.call (.setTerm 4 true)).lastVotedFor = none ∧ (s₂.call (.setTerm 4 true)).leader = none ∧
    ((s₂.call (.setTerm 4 true)).setLastVotedFor "none" true).toBool = false ∧
    s₃.lastVotedFor = some "bar" ∧ (s₃.setLastVotedFor "" true).toBool = false ∧
    s₄.leader = some "bar" ∧ (s₄.setLeader (some "foo")).toBool = false ∧
    s₅.term = 4 ∧ s₅.leader = none ∧ s₅.lastVotedFor = some "bar" ∧
    (s₅.call (.setTerm 5 true)).lastVotedFor = none ∧
    (s₅.call (.setTerm 5 true)).leader = none := by
  decide

theorem valid_call {s : ProtocolState} (hs : s.Valid) (c : Call) : (s.call c).Valid := by
  rcases call_cases s c with h | ⟨t, ht, h⟩ | ⟨hn, m, h⟩ | ⟨l, h⟩ <;> rw [h]
  · exact hs
  · have old : ∀ v ∈ s.voteLog, v.1.toNat < t.toNat := fun v hv =>
      Nat.lt_of_le_of_lt (hs.log_le v hv) ht
    refine ⟨fun v hv => term_le_of_lt (old v hv), fun m => ?_, hs.unique⟩
    simp only [false_iff, reduceCtorEq]
    exact fun hm => Nat.lt_irrefl _ (old _ hm)
  · refine ⟨?_, fun m' => ?_, ?_⟩
    · simpa [UInt64.le_refl] using hs.log_le
    · have := hs.current m'
      simp only [Option.some.injEq, List.mem_cons, Prod.mk.injEq, true_and, hn,
        reduceCtorEq, false_iff] at this ⊢
      constructor
      · exact fun h => .inl h.symm
      · rintro (h | h)
        exacts [h.symm, absurd h this]
    · have hold : ∀ m', (s.term, m') ∉ s.voteLog := fun m' h' => by
        simpa [hn] using (hs.current m').2 h'
      simp only [List.mem_cons, Prod.mk.injEq]
      rintro t m₁ m₂ (⟨rfl, rfl⟩ | h₁) (⟨ht, rfl⟩ | h₂)
      · rfl
      · exact absurd h₂ (hold _)
      · exact absurd (ht ▸ h₁) (hold _)
      · exact hs.unique _ _ _ h₁ h₂
  · exact ⟨hs.log_le, hs.current, hs.unique⟩

theorem grows_call (s : ProtocolState) (c : Call) : Grows s (s.call c) := by
  rcases call_cases s c with h | ⟨t, ht, h⟩ | ⟨-, m, h⟩ | ⟨l, h⟩ <;> rw [h]
  · exact .refl s
  · exact ⟨term_le_of_lt ht, rfl, fun _ h => h⟩
  · exact ⟨UInt64.le_refl _, rfl, fun _ h => List.mem_cons_of_mem _ h⟩
  · exact ⟨UInt64.le_refl _, rfl, fun _ h => h⟩

theorem valid_calls {s : ProtocolState} (hs : s.Valid) (cs : List Call) :
    (s.calls cs).Valid := by
  induction cs generalizing s with
  | nil => exact hs
  | cons c cs ih => exact ih (valid_call hs c)

theorem grows_calls (s : ProtocolState) (cs : List Call) : Grows s (s.calls cs) := by
  induction cs generalizing s with
  | nil => exact .refl s
  | cons c cs ih => exact (grows_call s c).trans (ih _)

theorem valid_updateTermAndLeader {s : ProtocolState} (hs : s.Valid) (t : Term) (p : Bool) :
    (s.updateTermAndLeader t p).2.Valid := by
  unfold updateTermAndLeader
  split_ifs <;> dsimp only
  exacts [valid_call (valid_call hs _) _, hs]

theorem grows_updateTermAndLeader (s : ProtocolState) (t : Term) (p : Bool) :
    Grows s (s.updateTermAndLeader t p).2 := by
  unfold updateTermAndLeader
  split_ifs <;> dsimp only
  exacts [(grows_call _ _).trans (grows_call _ _), .refl s]

theorem grows_role (s : ProtocolState) (role : RoleType) : Grows s { s with role := role } :=
  ⟨UInt64.le_refl _, rfl, fun _ h => h⟩

theorem valid_role {s : ProtocolState} (hs : s.Valid) (role : RoleType) :
    ({ s with role := role } : ProtocolState).Valid :=
  ⟨hs.log_le, hs.current, hs.unique⟩

theorem valid_restore (cluster : Cluster) (term : Term) (vote : Option MemberID) :
    (restore cluster term vote).Valid := by
  cases vote with
  | none => exact ⟨by simp [restore], by simp [restore], by simp [restore]⟩
  | some v =>
    refine ⟨by simp [restore, UInt64.le_refl], by simp [restore, eq_comm], ?_⟩
    simp only [restore, List.mem_singleton, Prod.mk.injEq]
    rintro t m m' ⟨-, rfl⟩ ⟨-, rfl⟩
    rfl

end ProtocolState

/-- The contract a vote handler outside the sources keeps (`handleVote`, and the `Vote` of
the other roles): it grants a vote only to the member it has recorded as the vote of the
response's term. -/
def VoteResponse.Recorded (response : VoteResponse) (s : ProtocolState)
    (candidate : MemberID) : Prop :=
  response.voted = true → s.lastVotedFor = some candidate ∧ response.term = s.term

instance (response : VoteResponse) (s : ProtocolState) (candidate : MemberID) :
    Decidable (response.Recorded s candidate) :=
  inferInstanceAs (Decidable (_ → _ ∧ _))

end AtomixRaft
