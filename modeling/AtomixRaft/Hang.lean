import AtomixRaft.Invariant
import AtomixRaft.Frame

/-!
# A tally that waits forever

The tally's `range votes` ends only when it reaches a quorum, meets a stale term or an
inactive role, or finds `votes` closed, and only a peer seeing a greater term closes it.
When every producer of a round has sent and the ballots reached neither quorum, nothing is
left to wake the tally: it waits forever (`hung_run`). A two-member cluster whose peer
rejects gets there (`split_vote_leaves_tally_waiting`).
-/

namespace AtomixRaft

namespace Replica

/-- The tally of round `k` waits on an empty, open `votes` channel, and every producer of
the round has finished. -/
def Hung (s : Replica) (k : Nat) : Prop :=
  ∃ r, s.rounds[k]? = some r ∧ r.tally.state = .receiving ∧ r.votes.buffer = [] ∧
    r.votes.closed = false ∧ ∀ m ∈ r.votingMembers, (r.producers m).finished = true

variable {s s' : Replica} {k : Nat}

/-- No step of round `k` runs while it is hung: the loop has no member left, no producer is
in flight, and the tally has nothing to receive. -/
theorem Hung.not_round {a : Action} (hi : s.Inv) (h : s.Hung k) (hs : s.step a = .ok s') :
    a.round ≠ some k := by
  obtain ⟨r, hr, hst, hbuf, hcl, hfin⟩ := h
  have hrs := hi.rounds r (List.getElem?_mem hr)
  have busy : ∀ m, (r.producers m).finished = false → r.producers m ≠ .waiting → False :=
    fun m hf hw => by simp [hfin m (hrs.mem_of_ne_waiting hw)] at hf
  intro ha
  cases a with
  | requestVote j =>
    cases ha
    obtain ⟨r₀, _, hr₀, hf, -⟩ := updateRound_eq_ok hs
    rw [hr] at hr₀; cases hr₀
    unfold Round.requestVote at hf
    split at hf
    · cases hf
    · rename_i m rest hpm
      have hmem : m ∈ r.pending := hpm ▸ List.mem_cons_self _ _
      have := hfin m (hrs.pending.subset hmem)
      rw [(hrs.waiting m).2 (.inl hmem)] at this
      cases this
  | reply j m resp | fail j m | close j m =>
    cases ha
    obtain ⟨r₀, _, hr₀, hf, -⟩ := updateRound_eq_ok hs
    rw [hr] at hr₀; cases hr₀
    first | unfold Round.reply at hf | unfold Round.fail at hf | unfold Round.closeVotes at hf
    split at hf
    · rename_i hp
      exact busy m (by simp [hp, Producer.finished]) (by simp [hp])
    · cases hf
  | receive j m p =>
    cases ha
    obtain ⟨r₀, q, resp, hr₀, hq, -⟩ := receive_eq_ok hs
    rw [hr] at hr₀; cases hr₀
    exact busy m (by simp [hq, Producer.finished]) (by simp [hq])
  | tallyReceive j =>
    cases ha
    obtain ⟨r₀, _, hr₀, hf, -⟩ := updateRound_eq_ok hs
    rw [hr] at hr₀; cases hr₀
    unfold Round.tallyReceive at hf
    rw [hst, hbuf] at hf
    simp [hcl] at hf
  | tallyHandle j =>
    cases ha
    obtain ⟨r₀, b, hr₀, hb, -⟩ := tallyHandle_eq_ok hs
    rw [hr] at hr₀; cases hr₀
    rw [hst] at hb; cases hb
  | _ => cases ha

theorem Hung.step {a : Action} (hi : s.Inv) (h : s.Hung k) (hs : s.step a = .ok s') :
    s'.Hung k :=
  let ⟨r, hr, rest⟩ := h
  ⟨r, round_frame hs (h.not_round hi hs) hr, rest⟩

/-- A hung tally stays hung over every later run: its round never changes again. -/
theorem hung_run (hs : Reachable s) (h : s.Hung k) (hrun : Relation.ReflTransGen Next s s') :
    s'.Hung k := by
  induction hrun with
  | refl => exact h
  | tail hrun hn ih => exact ih.step (hs.later hrun).inv hn.choose_spec

/-- A cluster of two, `foo` and its peer `bar`. -/
def pairCluster : Cluster := ⟨"foo", ["foo", "bar"], by decide, by decide⟩

/-- The first election of `foo` in `pairCluster`: it votes for itself, the tally counts that,
`bar` rejects and the tally counts the rejection. One grant and one rejection reach neither
quorum of two. -/
def splitVote : List Action :=
  [.setRole .candidate, .sendVoteRequests 0 true true 0 0, .requestVote 0, .tallyReceive 0,
   .tallyHandle 0, .requestVote 0, .reply 0 "bar" ⟨.ok, 1, false⟩, .receive 0 "bar" true,
   .tallyReceive 0, .tallyHandle 0]

def splitVoteState : Replica :=
  match (init pairCluster 0 none).run splitVote with
  | .ok s => s
  | .error _ => init pairCluster 0 none

theorem split_vote_leaves_tally_waiting :
    (init pairCluster 0 none).run splitVote = .ok splitVoteState ∧
      ∀ s', Relation.ReflTransGen Next splitVoteState s' → s'.Hung 0 := by
  have hrun : (init pairCluster 0 none).run splitVote = .ok splitVoteState := rfl
  refine ⟨hrun, fun s' h => hung_run ((Reachable.init _ _ _).run hrun) ?_ h⟩
  exact ⟨_, rfl, rfl, rfl, rfl, by decide⟩

end Replica

end AtomixRaft
