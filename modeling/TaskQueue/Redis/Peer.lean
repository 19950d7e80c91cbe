import TaskQueue.Redis.Consumer

/-!
# Scripted servers

A server that answers each command with the next of a list of replies, and with an error once there
are none left.

Results:

* `length_replies_run`: a script leaves no more replies than there were;
* `Consumer.receive_settles`: waiting for a delivery ends.
-/

namespace TaskQueue.Redis

open Engine Time

/-- Where a transport runs. -/
structure Peer where
  isOpen : Bool
  /-- Whether new connections can be made. -/
  reachable : Bool
  now : Instant
  /-- What the next commands are answered with. -/
  replies : List Reply
  /-- The commands sent so far. -/
  sent : List Command

namespace Peer

/-- The answer when nothing is left to answer with. -/
def speechless : Reply := .error ⟨"ERR", some "no scripted reply"⟩

/-- Answers one request. -/
def serve : (r : Request) → Peer → Answer r × Peer
  | .isOpen, p => (p.isOpen, p)
  | .now, p => (p.now, p)
  | .connect, p => (if p.reachable then .ok () else .error .noSocket, p)
  | .send c, p =>
    (p.replies.head?.getD speechless, { p with replies := p.replies.tail, sent := p.sent ++ [c] })

theorem length_replies_serve (r : Request) (p : Peer) :
    (serve r p).2.replies.length ≤ p.replies.length := by
  cases r <;> simp [serve]

theorem length_replies_run {α : Type} (s : Program α) (p : Peer) :
    (s.run serve p).2.replies.length ≤ p.replies.length := by
  induction s generalizing p with
  | done a => exact Nat.le_refl _
  | ask r next ih => exact Nat.le_trans (ih _ _) (length_replies_serve r p)

end Peer

namespace Consumer

/-- A read that settles nothing has used up a reply. -/
theorem length_replies_advance {c : Consumer} {wait : Span} {p : Peer}
    (h : ((c.advance wait).run Peer.serve p).1.2 = none) :
    ((c.advance wait).run Peer.serve p).2.replies.length < p.replies.length := by
  cases hc : c.cursor with
  | none => simp [advance, hc, Script.run_bind, Script.run] at h
  | some after =>
    simp only [advance, hc] at h ⊢
    cases hp : p.replies with
    | nil =>
      simp [recover, read, call, Script.run, Script.request, Peer.serve, hp, Peer.speechless] at h
    | cons r rs =>
      obtain ⟨next, hnext⟩ : ∃ next, c.recover after =
        .ask (.send (.read c.stream c.group c.config.consumer (.pending after))) next := ⟨_, rfl⟩
      rw [hnext, Script.run]
      refine Nat.lt_succ_of_le (Nat.le_trans (Peer.length_replies_run _ _) ?_)
      simp [Peer.serve, hp]

theorem advanceUpTo_settles (wait : Span) {reads : Nat} {c : Consumer} {p : Peer}
    (h : p.replies.length < reads) :
    ((advanceUpTo wait reads c).run Peer.serve p).1.2 ≠ none := by
  induction reads generalizing c p with
  | zero => omega
  | succ reads ih =>
    have hlen := @length_replies_advance c wait p
    simp only [advanceUpTo, Script.run_bind]
    rcases hrun : (c.advance wait).run Peer.serve p with ⟨⟨c', settled⟩, p'⟩
    rw [hrun] at hlen
    cases settled with
    | some r => simp [Script.run]
    | none =>
      have hlt : p'.replies.length < p.replies.length := hlen rfl
      exact ih (c := c') (p := p') (by omega)

/-- **Waiting for a delivery always ends** when as many reads are allowed as there are replies, and
one more. -/
theorem receive_settles (c : Consumer) (wait : Span) (p : Peer) :
    ((c.receive wait (p.replies.length + 1)).run Peer.serve p).1.2 ≠ none := by
  have hrun : (c.receive wait (p.replies.length + 1)).run Peer.serve p =
      (if p.isOpen then advanceUpTo wait (p.replies.length + 1) c
        else pure (c, some (.error .closed))).run Peer.serve p := rfl
  rw [hrun]
  split
  · exact advanceUpTo_settles wait (Nat.lt_succ_self _)
  · simp [Script.run]

end Consumer

end TaskQueue.Redis
