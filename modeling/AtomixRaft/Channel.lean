import AtomixRaft.Protocol

/-!
# Channels and timers

The Go runtime objects the candidate works with: a buffered channel, and an election
timer with the `electionExpired` channel made next to it. A send on a full channel waits;
a send on a closed channel, and a second close, panic.
-/

namespace AtomixRaft

inductive GoPanic where
  | sendOnClosedChannel
  | closeOfClosedChannel
  deriving DecidableEq, Repr

/-- Why an action does not run: the goroutine it names is not at that point, a send finds
its channel full and waits, or the runtime panics, which ends the process. -/
inductive Fault where
  | notEnabled
  | blocks
  | panics (p : GoPanic)
  deriving DecidableEq, Repr

/-- A buffered channel, `make(chan α, capacity)`. -/
structure Chan (α : Type) where
  buffer : List α
  capacity : Nat
  closed : Bool
  deriving DecidableEq, Repr

namespace Chan

variable {α : Type}

def make (capacity : Nat) : Chan α := ⟨[], capacity, false⟩

def send (c : Chan α) (v : α) : Except Fault (Chan α) :=
  if c.closed then .error (.panics .sendOnClosedChannel)
  else if c.buffer.length < c.capacity then .ok { c with buffer := c.buffer ++ [v] }
  else .error .blocks

def close (c : Chan α) : Except Fault (Chan α) :=
  if c.closed then .error (.panics .closeOfClosedChannel) else .ok { c with closed := true }

theorem send_eq_ok {c c' : Chan α} {v : α} (h : c.send v = .ok c') :
    c.closed = false ∧ c.buffer.length < c.capacity ∧ c' = { c with buffer := c.buffer ++ [v] } := by
  unfold send at h
  split_ifs at h with h₁ h₂
  exact ⟨by simpa using h₁, h₂, (Except.ok.inj h).symm⟩

theorem close_eq_ok {c c' : Chan α} (h : c.close = .ok c') :
    c.closed = false ∧ c' = { c with closed := true } := by
  unfold close at h
  split_ifs at h with h₁
  exact ⟨by simpa using h₁, (Except.ok.inj h).symm⟩

/-- A send waits only on a full buffer. -/
theorem send_blocks {c : Chan α} {v : α} (h : c.send v = .error .blocks) :
    c.capacity ≤ c.buffer.length := by
  unfold send at h
  split_ifs at h with h₁ h₂
  · cases h
  · exact Nat.le_of_not_lt h₂

theorem close_ne_blocks (c : Chan α) : c.close ≠ .error .blocks := by
  unfold close; split_ifs <;> simp

end Chan

inductive TimerState where
  | running
  | fired
  | stopped
  deriving DecidableEq, Repr

/-- An election timer of candidate `role`, the `electionExpired` channel made with it
(capacity 1), and whether the goroutine that selects on the two still waits. -/
structure ElectionTimer where
  role : Nat
  state : TimerState
  expired : Chan Bool
  selecting : Bool
  deriving DecidableEq, Repr

namespace ElectionTimer

def start (role : Nat) : ElectionTimer := ⟨role, .running, Chan.make 1, true⟩

/-- `Timer.Stop` and the `electionExpired <- true` it guards in `Stop` and
`resetElectionTimeout`: true when it stopped a timer that had not fired. -/
def cancel (t : ElectionTimer) : Except Fault (Bool × ElectionTimer) :=
  if t.state = .running then do
    let expired ← t.expired.send true
    pure (true, { t with state := .stopped, expired })
  else pure (false, t)

end ElectionTimer

end AtomixRaft
