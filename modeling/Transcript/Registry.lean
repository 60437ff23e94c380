import Transcript.Session

/-!
The sessions of a host, each under the number of its buffer.
-/
namespace Transcript

/-- Sessions under the numbers of their buffers. -/
structure Registry (α β : Type) where
  sessions : Table (Session α β) := .empty

namespace Registry

variable {α β : Type}

/-- The session of a buffer. -/
def get? (r : Registry α β) (buffer : Nat) : Option (Session α β) := r.sessions.get? buffer

/-- Registers a session, instead of the one that its buffer had. -/
def attach (r : Registry α β) (s : Session α β) : Option (Session α β) × Registry α β :=
  (r.get? s.buffer, ⟨r.sessions.insert s.buffer s⟩)

def detach (r : Registry α β) (buffer : Nat) : Option (Session α β) × Registry α β :=
  (r.get? buffer, ⟨r.sessions.erase buffer⟩)

/-- The buffers whose sessions are no longer alive. -/
def dead (r : Registry α β) (host : Host) : List Nat :=
  (r.sessions.filter fun _ s => !s.isAlive host).keys

/-- Releases the sessions that are no longer alive, and gives their buffers in ascending order. -/
def reap (r : Registry α β) (host : Host) : List Nat × Registry α β :=
  (r.dead host, ⟨r.sessions.filter fun _ s => s.isAlive host⟩)

/-- Changes the session of a buffer, if there is one. -/
def modify (r : Registry α β) (buffer : Nat) (f : Session α β → Session α β) : Registry α β :=
  ⟨r.sessions.modify buffer f⟩

def size (r : Registry α β) : Nat := r.sessions.size

end Registry

end Transcript
