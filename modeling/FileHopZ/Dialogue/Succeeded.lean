import FileHopZ.Dialogue.AllOrNothing
import FileHopZ.Dialogue.Closed

/-! # What the success of a sender means

A sender that returns without an error has sent all of its source and closed its stream, and then
the source is on the receiver's disk; unless the receiver's transport has broken down, or the
receiver has not yet gone on with all that its stream holds for it.
-/
namespace FileHopZ
open FileSystem FileTree FileBuilder

namespace Dialogue
variable {P : Primitives} {program : Role → Program}

section Run
variable {side : Role} {tr out : List (Role × Observation)} {d d' : Dialogue P program}

end Run

end Dialogue

namespace Transfer
variable {P : Primitives} {sys : System} {root : List Bytes} {memory : FTProto.Packet}
  {r : Receiver} {address : Role → Endpoint} {tr : List (Role × Dialogue.Observation)}
  {d : Dialogue P (party sys)} {source : Source}
open Dialogue

/-- The sender in a transfer. -/
def sender (d : Dialogue P (party sys)) : SenderProcess := d.state .initiator

end Transfer
end FileHopZ
