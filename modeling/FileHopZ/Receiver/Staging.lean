import FileHopZ.Receiver.Receiver

/-! # The staging directory of a receiver

The constructor of `File_builder` makes it; `cleanup` and a `commit` that succeeds remove
it.  `start_transfer` calls `cleanup` on every error of its loop.  The other ways out of
`start` do not: an announcement that does not come, a user who refuses, a `CONFIRM` that
is not sent and a `commit` that fails leave the directory where it is.
-/
namespace FileHopZ
open FileSystem

namespace FileBuilder
variable {b : FileBuilder} {disk : Disk} {staging : Location Bytes}

end FileBuilder

namespace Receiver

/-- `remove_all` does not fail. -/
def RemovesAll (_ : Receiver) : Event → Prop
  | .received arrival => arrival.removeAll = none ∧ arrival.commit.removeAll = none
  | _ => True

instance (r : Receiver) : (e : Event) → Decidable (RemovesAll r e)
  | .received arrival =>
      inferInstanceAs (Decidable (arrival.removeAll = none ∧ arrival.commit.removeAll = none))
  | .answered _ => isTrue trivial
  | .sent _ => isTrue trivial
  | .closed _ => isTrue trivial

/-- Where the staging directory is while every step releases it. -/
def Held (staging : Location Bytes) (r : Receiver) : Prop :=
  match r.frame with
  | .announcing | .asking | .confirming | .transferring =>
      r.fileBuilder.stagingRoot = some staging ∧ r.disk.node staging = some .directory
  | .refusing => False
  | .closing | .returned _ => r.disk.node staging = none

section Step
variable {r r' : Receiver} {staging : Location Bytes} {arrival : Arrival} {out : List Observation}

end Step

/-- A packet of the sender arrives, and no call of the system fails. -/
def sampleArrival (type : FTProto.PacketType) (payload : Bytes) : Arrival where
  result := .ok
    { size := FTProto.headerSize + payload.length
      data := some (samplePacket type 0 payload).asBytes }
  memory := samplePacket type 0 []

end Receiver
end FileHopZ
