import ChangeFeed.Listeners
import ChangeFeed.LogEvent
import ChangeFeed.Mutation.Basic

/-!
# What a source works with

A source acts on a world `ω` in two ways: it reads the log of a server through a client, and it
calls its listeners.

* `LogClient`: the client, and `NextEvent`, what it answers when asked for the next event;
* `SourceAudience`: what the listeners do.
-/

namespace ChangeFeed

/-- What a client answers when asked for the next event. -/
inductive NextEvent where
  | event (e : LogEvent)
  /-- Nothing came in time. -/
  | nothing
  | failed (e : Error)
  | crashed

/-- A client of a server's log. -/
structure LogClient (ω : Type) where
  connect : LogPosition → ω → Except Error Unit × ω
  next : ω → NextEvent × ω
  /-- The end of a connection. Whether it went well does not matter. -/
  disconnect : ω → ω

/-- What the listeners of a source do. -/
structure SourceAudience (ι ω : Type) where
  onEvent : ι → LogEvent → ω → ω
  onMutations : ι → List Mutation → ω → Verdict × ω
  onError : ι → Error → ω → ω

end ChangeFeed
