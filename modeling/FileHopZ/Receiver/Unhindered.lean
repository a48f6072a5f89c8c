import FileHopZ.Receiver.Copying

/-! # Calls that succeed

A call of the system that has succeeded did what it does when nothing can fail.  So the packets
that a receiver has accepted, whatever could have failed, leave it as the same packets do where
nothing fails.
-/
namespace FileHopZ
open FileSystem

namespace FileBuilder

/-- `create_directories` has gone through. -/
theorem makeDirectories_unhindered {l : Location Bytes} {rest : List (Component Bytes)} :
    ∀ {fault : Fault} {disk disk' : Disk} {done : List (Component Bytes)},
      FileTree.makeDirectories l fault disk done rest = (disk', none) →
      FileTree.makeDirectories l none disk done rest = (disk', none) := by
  induction rest with
  | nil =>
      intro fault disk disk' done h
      rw [FileTree.makeDirectories] at h ⊢
      exact h
  | cons part rest ih =>
      intro fault disk disk' done h
      have hfault : ∀ e, fault ≠ some (0, e) := by
        rintro e rfl
        cases h
      cases part with
      | name n =>
          rw [FileTree.makeDirectories_cons hfault] at h
          rw [FileTree.makeDirectories_cons (by simp)]
          split at h
          · cases h
          · exact ih h
          · cases h
          · split at h
            · cases h
            · exact ih h
      | here | parent =>
          rw [FileTree.makeDirectories_skip hfault (by simp)] at h
          rw [FileTree.makeDirectories_skip (by simp) (by simp)]
          exact ih h

theorem attempt_unhindered {α : Type} {fault : Option Errno} {result : Except Errno α} {a : α}
    (h : attempt fault result = .ok a) : attempt none result = .ok a := by
  cases fault with
  | none => exact h
  | some e => cases h

section Calls
variable {b b' : FileBuilder} {disk disk' : Disk} {path : Bytes} {fileId : UInt32}

theorem createDirectory_unhindered {directories : Fault}
    (h : b.createDirectory directories path disk = (disk', none)) :
    b.createDirectory none path disk = (disk', none) := by
  unfold createDirectory at h ⊢
  split at h
  · cases h
  · obtain ⟨hdisk, hnone⟩ := Prod.mk.inj h
    have hmade := makeDirectories_unhindered (Prod.ext hdisk (Option.map_eq_none_iff.mp hnone))
    dsimp only [FileTree.createDirectories]
    rw [hmade]
    rfl

theorem createFile_unhindered {faults : FileFaults}
    (h : b.createFile faults path fileId disk = (b', disk', none)) :
    b.createFile { replaced := faults.replaced } path fileId disk = (b', disk', none) := by
  unfold createFile at h ⊢
  split at h
  · cases h
  split at h
  · cases h
  rename_i hmade
  dsimp only
  rw [FileTree.createDirectories, makeDirectories_unhindered hmade]
  dsimp only
  split at h
  · rename_i hopen _
    rw [hopen]
    exact h
  · cases h

theorem createSymlink_unhindered {faults : SymlinkFaults} {target : Bytes}
    (h : b.createSymlink faults path target disk = (disk', none)) :
    b.createSymlink {} path target disk = (disk', none) := by
  unfold createSymlink at h ⊢
  split at h
  · cases h
  split at h
  · cases h
  rename_i hmade
  dsimp only
  rw [FileTree.createDirectories, makeDirectories_unhindered hmade]
  dsimp only
  split at h
  · cases h
  · cases h
  rename_i hstatus
  rw [attempt_unhindered hstatus]
  dsimp only at h ⊢
  split at h
  · cases h
  rename_i hlink
  rw [attempt_unhindered hlink]
  exact h

theorem write_unhindered {count : Nat} {fault : Option Bytes} {data : Bytes}
    (h : b.write count fault data fileId disk = (b', disk', none)) :
    b.write count none data fileId disk = (b', disk', none) := by
  unfold write at h ⊢
  split at h
  · cases h
  · split_ifs at h with hfailed
    · cases h
    · rw [if_neg hfailed]
      cases fault with
      | none => exact h
      | some left => cases h

theorem closeFile_unhindered {fault : Option Nat}
    (h : b.closeFile fault fileId disk = (b', disk', none)) :
    b.closeFile none fileId disk = (b', disk', none) := by
  unfold closeFile at h ⊢
  split at h
  · cases h
  · rename_i file _
    cases fault with
    | none => exact h
    | some count =>
        have hfailed : (file.close (some count) disk).1.failed = true := Bool.or_true _
        dsimp only at h
        rw [hfailed] at h
        cases h

end Calls

end FileBuilder

namespace Receiver

/-- The same calls, and none of them fails. -/
def PacketFaults.cleared (faults : PacketFaults) : PacketFaults :=
  { put := faults.put, file := { replaced := faults.file.replaced } }

theorem PacketFaults.absent_cleared (faults : PacketFaults) : faults.cleared.Absent :=
  ⟨faults.put, faults.file.replaced, rfl⟩

/-- **A packet that is accepted** is handled as where nothing fails. -/
theorem handlePacket_unhindered {faults : PacketFaults} {beyond : Nat → UInt8}
    {packet : FTProto.Packet} {r r' : Receiver} {out : List Observation}
    (h : r.handlePacket faults beyond packet = (r', none, out)) :
    r.handlePacket faults.cleared beyond packet = (r', none, out) := by
  unfold handlePacket at h ⊢
  dsimp only [PacketFaults.cleared] at h ⊢
  split at h
  · obtain ⟨rfl, hnone⟩ := Prod.mk.inj h
    obtain ⟨hec, rfl⟩ := Prod.mk.inj hnone
    rw [FileBuilder.createDirectory_unhindered (Prod.ext rfl hec)]
  · obtain ⟨rfl, hnone⟩ := Prod.mk.inj h
    obtain ⟨hec, rfl⟩ := Prod.mk.inj hnone
    rw [FileBuilder.createFile_unhindered (Prod.ext rfl (Prod.ext rfl hec))]
  · split at h
    · cases h
    · obtain ⟨rfl, hnone⟩ := Prod.mk.inj h
      obtain ⟨hec, rfl⟩ := Prod.mk.inj hnone
      rw [FileBuilder.createSymlink_unhindered (Prod.ext rfl hec)]
  · split_ifs at h ⊢ with hfits
    · split at h
      · cases h
      · rename_i hwrite
        rw [FileBuilder.write_unhindered hwrite]
        exact h
    · cases h
  · obtain ⟨rfl, hnone⟩ := Prod.mk.inj h
    obtain ⟨hec, rfl⟩ := Prod.mk.inj hnone
    rw [FileBuilder.closeFile_unhindered (Prod.ext rfl (Prod.ext rfl hec))]
  · exact h
  · exact h

/-- The same arrival where nothing fails. -/
def Arrival.unhindered (arrival : Arrival) : Arrival :=
  { arrival with faults := arrival.faults.cleared }

theorem acceptArrival_unhindered {r r' : Receiver} {arrival : Arrival}
    (h : r.acceptArrival arrival = some r') : r.acceptArrival arrival.unhindered = some r' := by
  unfold acceptArrival accept at h ⊢
  dsimp only [Arrival.unhindered]
  split at h
  · cases h
  · dsimp only at h ⊢
    split at h
    · rename_i hhandled
      rw [handlePacket_unhindered hhandled]
      exact h
    · cases h

theorem accepted_unhindered {arrivals : List Arrival} {r r' : Receiver}
    (h : arrivals.foldlM acceptArrival r = some r') :
    (arrivals.map Arrival.unhindered).foldlM acceptArrival r = some r' := by
  induction arrivals generalizing r with
  | nil => exact h
  | cons arrival arrivals ih =>
      rw [List.foldlM_cons] at h
      obtain ⟨r₁, hfirst, hrest⟩ := Option.bind_eq_some_iff.mp h
      rw [List.map_cons, List.foldlM_cons, acceptArrival_unhindered hfirst]
      exact ih hrest

end Receiver
end FileHopZ
