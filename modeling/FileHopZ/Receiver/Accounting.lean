import FileHopZ.Receiver.Receiver

/-! # How `Receiver` counts

`bytes_remaining_` starts as the total that the user has approved, and goes down by what
`File_builder::write` has taken.  Whatever packets `handle_packet` is given, the bytes
written and the bytes remaining add up to that total.
-/
namespace FileHopZ
namespace Receiver

/-- A call of `handle_packet`. -/
structure Handling where
  packet : FTProto.Packet
  beyond : Nat → UInt8 := fun _ => 0
  faults : PacketFaults := {}

/-- One call after another, also after one that has failed. -/
def handleStep (r : Receiver) (h : Handling) : Option (Receiver × List Observation) :=
  let handled := r.handlePacket h.faults h.beyond h.packet
  some (handled.1, handled.2.2)

/-- The number of bytes given to the successful calls of `write`. -/
def written : List Observation → Nat
  | [] => 0
  | .wrote _ data :: rest => data.length + written rest
  | .sends _ :: rest => written rest

theorem written_append (tr out : List Observation) :
    written (tr ++ out) = written tr + written out := by
  induction tr with
  | nil => simp [written]
  | cons o tr ih =>
      cases o with
      | wrote fileId data => rw [List.cons_append, written, written, ih, Nat.add_assoc]
      | sends header => rw [List.cons_append, written, written, ih]

/-- What one call does to the counter and the flag. -/
structure Accounts (r r' : Receiver) (out : List Observation) : Prop where
  remaining : r'.bytesRemaining.toNat + written out = r.bytesRemaining.toNat
  flag : r'.endTransferFlag = true → r.endTransferFlag = true ∨ r'.bytesRemaining = 0
  total : r'.bytesToTransfer = r.bytesToTransfer

/-- A call that leaves both alone. -/
theorem accounts_of_same {r r' : Receiver} (hremaining : r'.bytesRemaining = r.bytesRemaining)
    (hflag : r'.endTransferFlag = r.endTransferFlag)
    (htotal : r'.bytesToTransfer = r.bytesToTransfer) : Accounts r r' [] :=
  ⟨by rw [hremaining]; rfl, fun h => Or.inl (hflag ▸ h), htotal⟩

/-- **The step lemma.** -/
theorem accounts_handlePacket (faults : PacketFaults) (beyond : Nat → UInt8)
    (packet : FTProto.Packet) (r : Receiver) :
    Accounts r (r.handlePacket faults beyond packet).1
      (r.handlePacket faults beyond packet).2.2 := by
  unfold handlePacket
  dsimp only
  split
  case h_1 => exact accounts_of_same rfl rfl rfl
  case h_2 => exact accounts_of_same rfl rfl rfl
  case h_3 =>
    split
    · exact accounts_of_same rfl rfl rfl
    · exact accounts_of_same rfl rfl rfl
  case h_4 =>
    split_ifs with hfits
    · split
      · exact accounts_of_same rfl rfl rfl
      · -- the payload was written: what was subtracted is its length
        have hsize : (UInt64.ofNat packet.getPayloadSize).toNat = packet.getPayloadSize :=
          UInt64.toNat_ofNat_of_lt' (lt_of_le_of_lt hfits r.bytesRemaining.toNat_lt)
        have hle : UInt64.ofNat packet.getPayloadSize ≤ r.bytesRemaining := by
          rw [UInt64.le_iff_toNat_le, hsize]
          exact hfits
        have hsub : (r.bytesRemaining - .ofNat packet.getPayloadSize).toNat =
            r.bytesRemaining.toNat - packet.getPayloadSize := by
          rw [UInt64.toNat_sub_of_le _ _ hle, hsize]
        refine ⟨?_, fun h => Or.inl h, rfl⟩
        simp only [written, FTProto.Packet.length_read, hsub]
        omega
    · exact accounts_of_same rfl rfl rfl
  case h_5 => exact accounts_of_same rfl rfl rfl
  case h_6 =>
    split_ifs with hremaining
    · exact accounts_of_same rfl rfl rfl
    · exact ⟨rfl, fun _ => Or.inr (not_not.mp hremaining), rfl⟩
  case h_7 => exact accounts_of_same rfl rfl rfl

/-- **The receiver's account.**  After any calls of `handle_packet`, on whatever packets,
from the announced total `N`: the bytes written are those that no longer remain, so
they never exceed `N`, and `end_transfer_flag_` is set only when they are `N`.  A packet
with more than what remains is refused, and nothing is written. -/
theorem receiver_accounting (r₀ : Receiver) (N : UInt64) {tr : List Observation} {r : Receiver}
    (hrun : Transition.Run handleStep Transition.Always
      { r₀ with bytesToTransfer := N, bytesRemaining := N, endTransferFlag := false } tr r) :
    written tr = N.toNat - r.bytesRemaining.toNat ∧ r.bytesRemaining.toNat ≤ N.toNat ∧
      written tr ≤ N.toNat ∧ (r.endTransferFlag = true → written tr = N.toNat) ∧
      ∀ faults beyond packet, packet.header.type = .fileData →
        r.bytesRemaining.toNat < packet.getPayloadSize →
          r.handlePacket faults beyond packet =
            (r, some (.filehopz .transferSizeExceeded), []) := by
  have h : r.bytesRemaining.toNat + written tr = N.toNat ∧
      (r.endTransferFlag = true → r.bytesRemaining = 0) := by
    refine hrun.invariant (I := fun tr r => r.bytesRemaining.toNat + written tr = N.toNat ∧
      (r.endTransferFlag = true → r.bytesRemaining = 0)) ⟨rfl, by simp⟩ ?_
    rintro tr r h r' out ⟨hsum, hflag⟩ - hs
    obtain ⟨rfl, rfl⟩ := Prod.mk.inj (Option.some.inj hs)
    have hstep := accounts_handlePacket h.faults h.beyond h.packet r
    have hremaining := hstep.remaining
    refine ⟨by rw [written_append]; omega, fun hend => ?_⟩
    rcases hstep.flag hend with hbefore | hzero
    · -- nothing remained before, so nothing can have been taken away
      rw [hflag hbefore] at hremaining
      exact UInt64.toNat_inj.mp (Nat.eq_zero_of_add_eq_zero_right hremaining)
    · exact hzero
  obtain ⟨hsum, hflag⟩ := h
  refine ⟨by omega, by omega, by omega, fun hend => ?_, ?_⟩
  · rw [hflag hend] at hsum
    exact (Nat.zero_add _).symm.trans hsum
  · intro faults beyond packet htype hmore
    rw [handlePacket, htype]
    exact if_neg (not_le.mpr hmore)

/-- A file of two bytes, and the end. -/
theorem receiver_accounting_two : ∃ tr r,
    Transition.Run handleStep Transition.Always
      { sampleReceiver with bytesToTransfer := 2, bytesRemaining := 2, endTransferFlag := false }
      tr r ∧ r.endTransferFlag = true ∧ written tr = 2 := by
  obtain ⟨tr, r, hrun, hp⟩ := Transition.exists_run handleStep Transition.Always
    { sampleReceiver with bytesToTransfer := 2, bytesRemaining := 2, endTransferFlag := false }
    [{ packet := samplePacket .createFile 7 [97] }, { packet := samplePacket .fileData 7 [1, 2] },
      { packet := samplePacket .endFile 7 [] }, { packet := samplePacket .endTransfer 0 [] }]
    (fun _ r => r.endTransferFlag) (fun _ _ => true) (fun _ _ _ => trivial) (by decide +kernel)
  exact ⟨tr, r, hrun, hp, (receiver_accounting sampleReceiver 2 hrun).2.2.2.1 hp⟩

end Receiver
end FileHopZ
