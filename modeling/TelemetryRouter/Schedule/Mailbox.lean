import TelemetryRouter.Schedule.Gate

/-!
# A bounded mailbox

Messages are taken in the order in which they were put. There is room for a fixed number of them; senders that find no room wait
in the order in which they came, and as room appears it belongs to the first of them, whether or not they have used it yet.
-/

namespace TelemetryRouter

/-- The room, the messages, and the senders that wait. -/
structure Mailbox (β : Type) where
  capacity : Nat
  messages : List β
  senders : List TaskId
  deriving DecidableEq, Repr

namespace Mailbox

variable {β : Type}

/-- An empty mailbox. -/
def empty (capacity : Nat) : Mailbox β := ⟨capacity, [], []⟩

/-- The number of messages that can still be put. -/
def room (m : Mailbox β) : Nat := m.capacity - m.messages.length

/-- A sender comes. -/
def join (m : Mailbox β) (t : TaskId) : Mailbox β := { m with senders := m.senders ++ [t] }

/-- Whether one of the free places belongs to a sender. -/
def ready (m : Mailbox β) (t : TaskId) : Bool := (m.senders.take m.room).contains t

/-- A sender puts its message. -/
def put (m : Mailbox β) (t : TaskId) (message : β) : Mailbox β :=
  { m with messages := m.messages ++ [message], senders := m.senders.filter (· ≠ t) }

/-- A sender gives up. -/
def leave (m : Mailbox β) (t : TaskId) : Mailbox β := { m with senders := m.senders.filter (· ≠ t) }

/-- The first message, and the mailbox without it. -/
def take? (m : Mailbox β) : Option (β × Mailbox β) :=
  match m.messages with
  | [] => none
  | message :: rest => some (message, { m with messages := rest })

/-- All messages, and the mailbox without them. -/
def takeAll (m : Mailbox β) : List β × Mailbox β := (m.messages, { m with messages := [] })

end Mailbox

end TelemetryRouter
