import FileHopZ.Library.Map
import FileHopZ.Protohopz.ProtoStream
import Mathlib.Order.Interval.Finset.Nat

/-! # The order that `receive_chunks_loop` keeps

Whatever packets arrive, the loop pushes packets numbered 1, 2, 3, ... without a
gap.  The reason is the window: only numbers from `expected_sequence` to
`SEQUENCE_WINDOW_SIZE` above it are buffered, so a buffer that holds
`MAX_PACKETS_BUFFER` packets holds all of them but the expected one, and the
packet that empties it is the expected one.  For the same reason
`expected_sequence` never wraps around: near the end of the 32-bit numbers the
upper end of the window does, and then the loop takes nothing at all.
-/
namespace FileHopZ
namespace ProtoStream
variable {P : Primitives}

/-- The loop does not skip the packet. -/
def Takes (expected : UInt32) (buffer : PacketsBuffer) (r : ReceivedPacket) : Prop :=
  r.packet.header.type = .data ∧ ¬ r.packet.header.sequence < expected ∧
    ¬ expected + sequenceWindowSize < r.packet.header.sequence ∧
    r.packet.header.sequence ∉ buffer

instance (expected : UInt32) (buffer : PacketsBuffer) (r : ReceivedPacket) :
    Decidable (Takes expected buffer r) :=
  inferInstanceAs (Decidable (_ ∧ _ ∧ _ ∧ _))

/-- The invariant of `expected_sequence` and `packets_buffer`. -/
structure InOrder (expected : UInt32) (buffer : PacketsBuffer) : Prop where
  pos : 1 ≤ expected.toNat
  data : ∀ k r, buffer.lookup k = some r → r.packet.header.type = .data
  number : ∀ k r, buffer.lookup k = some r → r.packet.header.sequence = k
  window : ∀ k ∈ buffer, expected.toNat < k.toNat ∧ k.toNat ≤ expected.toNat + maxPacketsBuffer

theorem inOrder_start : InOrder 1 ∅ where
  pos := by decide
  data _ _ h := by cases h
  number _ _ h := by cases h
  window k h := absurd h (Finmap.notMem_empty)

theorem receiveChunk_of_not_takes {expected : UInt32} {buffer : PacketsBuffer}
    {r : ReceivedPacket} (h : ¬ Takes expected buffer r) :
    receiveChunk expected buffer r = ([], expected, buffer) := by
  unfold receiveChunk
  dsimp only
  split_ifs with htype hlow hhigh hmem
  · rfl
  · rfl
  · rfl
  · rfl
  · exact absurd ⟨not_not.mp htype, hlow, hhigh, hmem⟩ h
  · exact absurd ⟨not_not.mp htype, hlow, hhigh, hmem⟩ h

/-- A packet taken lies in the window, which does not wrap around then. -/
theorem Takes.window {expected : UInt32} {buffer : PacketsBuffer} {r : ReceivedPacket}
    (h : Takes expected buffer r) : expected.toNat ≤ r.packet.header.sequence.toNat ∧
      r.packet.header.sequence.toNat ≤ expected.toNat + maxPacketsBuffer ∧
      expected.toNat + maxPacketsBuffer < 2 ^ 32 := by
  obtain ⟨-, hlow, hhigh, -⟩ := h
  rw [UInt32.lt_iff_toNat_lt, not_lt] at hlow hhigh
  rw [UInt32.toNat_add, show sequenceWindowSize.toNat = 65536 from rfl] at hhigh
  have := expected.toNat_lt
  unfold maxPacketsBuffer
  omega

/-- The buffer's numbers, all different, fit in the window. -/
theorem InOrder.card_le {expected : UInt32} {buffer : PacketsBuffer} (h : InOrder expected buffer) :
    buffer.keys.image UInt32.toNat ⊆
      Finset.Ioc expected.toNat (expected.toNat + maxPacketsBuffer) := by
  intro n hn
  obtain ⟨k, hk, rfl⟩ := Finset.mem_image.mp hn
  exact Finset.mem_Ioc.mpr (h.window k (Finmap.mem_keys.mp hk))

theorem card_image_toNat (keys : Finset UInt32) :
    (keys.image UInt32.toNat).card = keys.card :=
  Finset.card_image_of_injective keys fun _ _ h => UInt32.toNat_inj.mp h

/-- **A full buffer lacks nothing but the expected packet.** -/
theorem InOrder.eq_expected_of_full {expected : UInt32} {buffer : PacketsBuffer}
    {r : ReceivedPacket} (h : InOrder expected buffer) (ht : Takes expected buffer r)
    (hfull : maxPacketsBuffer ≤ buffer.keys.card) : r.packet.header.sequence = expected := by
  have hall : buffer.keys.image UInt32.toNat =
      Finset.Ioc expected.toNat (expected.toNat + maxPacketsBuffer) := by
    refine Finset.eq_of_subset_of_card_le h.card_le ?_
    rw [card_image_toNat, Nat.card_Ioc, Nat.add_sub_cancel_left]
    exact hfull
  obtain ⟨hlow, hhigh, -⟩ := ht.window
  by_contra hne
  have hmem : r.packet.header.sequence.toNat ∈ buffer.keys.image UInt32.toNat := by
    rw [hall, Finset.mem_Ioc]
    have : r.packet.header.sequence.toNat ≠ expected.toNat := fun h => hne (UInt32.toNat_inj.mp h)
    omega
  obtain ⟨k, hk, hkr⟩ := Finset.mem_image.mp hmem
  rw [UInt32.toNat_inj.mp hkr] at hk
  exact ht.2.2.2 (Finmap.mem_keys.mp hk)

/-- The buffer a packet is put in: empty if it was full. -/
def roomFor (buffer : PacketsBuffer) : PacketsBuffer :=
  if maxPacketsBuffer ≤ buffer.keys.card then ∅ else buffer

theorem lookup_roomFor {buffer : PacketsBuffer} {k : UInt32} {r : ReceivedPacket}
    (h : (roomFor buffer).lookup k = some r) : buffer.lookup k = some r := by
  unfold roomFor at h
  split_ifs at h
  · cases h
  · exact h

theorem card_roomFor (buffer : PacketsBuffer) : (roomFor buffer).keys.card < maxPacketsBuffer := by
  unfold roomFor
  split_ifs with h
  · decide
  · exact not_le.mp h

/-- What the loop does with a packet it takes. -/
theorem receiveChunk_of_takes {expected : UInt32} {buffer : PacketsBuffer} {r : ReceivedPacket}
    (h : InOrder expected buffer) (ht : Takes expected buffer r) :
    receiveChunk expected buffer r =
      Reorder.release (· + 1)
        ((roomFor buffer).insert r.packet.header.sequence r).keys.card expected
        ((roomFor buffer).insert r.packet.header.sequence r) := by
  obtain ⟨htype, hlow, hhigh, hmem⟩ := ht
  unfold receiveChunk
  dsimp only
  rw [if_neg (not_not.mpr htype), if_neg hlow, if_neg hhigh, if_neg hmem]
  unfold roomFor
  split_ifs with hfull
  · rw [h.eq_expected_of_full ⟨htype, hlow, hhigh, hmem⟩ hfull]
  · rfl

/-- Counting on from `expected`, without wrapping around. -/
theorem toNat_iterate {expected : UInt32} : ∀ {n : Nat}, expected.toNat + n < 2 ^ 32 →
    ((· + 1)^[n] expected).toNat = expected.toNat + n
  | 0, _ => rfl
  | n + 1, h => by
      rw [Function.iterate_succ_apply', UInt32.toNat_add, toNat_iterate (by omega)]
      exact Nat.mod_eq_of_lt h

/-- What one packet makes of the loop's variables. -/
structure ChunkSpec (expected : UInt32) (buffer : PacketsBuffer) (r : ReceivedPacket)
    (out : List ReceivedPacket × UInt32 × PacketsBuffer) : Prop where
  inOrder : InOrder out.2.1 out.2.2
  next : out.2.1.toNat = expected.toNat + out.1.length
  numbers : out.1.map (·.packet.header.sequence.toNat) =
    List.range' expected.toNat out.1.length
  source : ∀ q ∈ out.1, q = r ∧ Takes expected buffer r ∨ ∃ k, buffer.lookup k = some q
  kept : ∀ k q, out.2.2.lookup k = some q →
    q = r ∧ Takes expected buffer r ∨ buffer.lookup k = some q

/-- **The step lemma of `receive_chunks_loop`.**  It pushes the packets with the
numbers that are due, in order and without a gap. -/
theorem receiveChunk_spec {expected : UInt32} {buffer : PacketsBuffer} (h : InOrder expected buffer)
    (r : ReceivedPacket) : ChunkSpec expected buffer r (receiveChunk expected buffer r) := by
  by_cases ht : Takes expected buffer r
  swap
  · rw [receiveChunk_of_not_takes ht]
    exact ⟨h, rfl, rfl, fun q hq => absurd hq List.not_mem_nil, fun k q hk => Or.inr hk⟩
  rw [receiveChunk_of_takes h ht]
  obtain ⟨hlow, hhigh, hwrap⟩ := ht.window
  have hheld : ∀ k q, ((roomFor buffer).insert r.packet.header.sequence r).lookup k = some q →
      (q = r ∨ buffer.lookup k = some q) ∧ q.packet.header.sequence = k ∧
        q.packet.header.type = .data ∧ expected.toNat ≤ k.toNat ∧
        k.toNat ≤ expected.toNat + maxPacketsBuffer := by
    intro k q hk
    rcases FiniteMap.lookup_insert_cases hk with ⟨rfl, rfl⟩ | ⟨-, hk⟩
    · exact ⟨Or.inl rfl, rfl, ht.1, hlow, hhigh⟩
    · have hb := lookup_roomFor hk
      obtain ⟨hl, hu⟩ := h.window k (Finmap.mem_of_lookup_eq_some hb)
      exact ⟨Or.inr hb, h.number k q hb, h.data k q hb, hl.le, hu⟩
  have hcard : ((roomFor buffer).insert r.packet.header.sequence r).keys.card ≤
      maxPacketsBuffer := by
    rw [FiniteMap.keys_insert]
    exact (Finset.card_insert_le _ _).trans (card_roomFor buffer)
  generalize (roomFor buffer).insert r.packet.header.sequence r = held at hheld hcard
  have hlength := @Reorder.card_release _ _ _ (· + 1) held.keys.card expected held
  have hnext := @Reorder.release_next _ _ _ (· + 1) held.keys.card expected held
  have hlast := @Reorder.lookup_release_next _ _ _ (· + 1) _ expected held le_rfl
  have hreleased := @Reorder.lookup_of_released _ _ _ (· + 1) held.keys.card expected held
  have hkept := @Reorder.lookup_of_kept _ _ _ (· + 1) held.keys.card expected held
  have hother := @Reorder.ne_of_kept _ _ _ (· + 1) held.keys.card expected held
  generalize Reorder.release (· + 1) held.keys.card expected held = out at *
  have hiter : ∀ i ≤ out.1.length, ((· + 1)^[i] expected).toNat = expected.toNat + i :=
    fun i hi => toNat_iterate (by omega)
  have htoNat : out.2.1.toNat = expected.toNat + out.1.length := by
    rw [hnext, hiter _ (Nat.le_refl _)]
  refine ⟨⟨?_, ?_, ?_, ?_⟩, htoNat, ?_, ?_, ?_⟩
  · have := h.pos
    omega
  · exact fun k q hk => (hheld k q (hkept hk)).2.2.1
  · exact fun k q hk => (hheld k q (hkept hk)).2.1
  · intro k hk
    obtain ⟨q, hq⟩ := Finmap.mem_iff.mp hk
    obtain ⟨-, -, -, hl, hu⟩ := hheld k q (hkept hq)
    refine ⟨?_, by omega⟩
    by_contra hge
    by_cases heq : k.toNat = expected.toNat + out.1.length
    · rw [UInt32.toNat_inj.mp (heq.trans htoNat.symm), hlast] at hq
      cases hq
    · refine hother hq (i := k.toNat - expected.toNat) (by omega) (UInt32.toNat_inj.mp ?_)
      rw [hiter _ (by omega)]
      omega
  · refine List.ext_getElem (by simp) fun i hi _ => ?_
    simp only [List.length_map] at hi
    have hl := hreleased (List.getElem?_eq_getElem hi)
    rw [List.getElem_map, List.getElem_range', (hheld _ _ hl).2.1, hiter i hi.le]
    omega
  · intro q hq
    obtain ⟨i, hi, rfl⟩ := List.mem_iff_getElem.mp hq
    have hl := hreleased (List.getElem?_eq_getElem hi)
    exact (hheld _ _ hl).1.imp (fun h => ⟨h, ht⟩) fun h => ⟨_, h⟩
  · intro k q hq
    exact (hheld _ _ (hkept hq)).1.imp (fun h => ⟨h, ht⟩) id

/-- **Nothing taken is lost**, unless the buffer was full: what was buffered and the
packet taken are buffered or pushed. -/
theorem receiveChunk_keeps {expected : UInt32} {buffer : PacketsBuffer} {r : ReceivedPacket}
    (h : InOrder expected buffer) (ht : Takes expected buffer r)
    (hroom : buffer.keys.card < maxPacketsBuffer) {k : UInt32} {q : ReceivedPacket}
    (hq : k = r.packet.header.sequence ∧ q = r ∨ buffer.lookup k = some q) :
    (receiveChunk expected buffer r).2.2.lookup k = some q ∨
      q ∈ (receiveChunk expected buffer r).1 := by
  rw [receiveChunk_of_takes h ht, roomFor, if_neg (by omega)]
  have hlookup : (buffer.insert r.packet.header.sequence r).lookup k = some q := by
    rcases hq with ⟨rfl, rfl⟩ | hq
    · exact Finmap.lookup_insert _
    · rw [Finmap.lookup_insert_of_ne _ ?_]
      · exact hq
      · rintro rfl
        exact ht.2.2.2 (Finmap.mem_of_lookup_eq_some hq)
  refine (Reorder.kept_or_released hlookup).imp id ?_
  rintro ⟨i, -, hi⟩
  exact List.mem_of_getElem? hi

/-- A packet that is not due releases nothing. -/
theorem receiveChunk_of_ne {expected : UInt32} {buffer : PacketsBuffer}
    (h : InOrder expected buffer) {r : ReceivedPacket}
    (hne : r.packet.header.sequence ≠ expected) :
    (receiveChunk expected buffer r).1 = [] ∧ (receiveChunk expected buffer r).2.1 = expected := by
  have hspec := receiveChunk_spec h r
  have hnone : (receiveChunk expected buffer r).1 = [] := by
    by_contra hsome
    obtain ⟨q, rest, hq⟩ := List.exists_cons_of_ne_nil hsome
    -- the first packet released would carry the expected number
    have hfirst : q.packet.header.sequence.toNat = expected.toNat := by
      have := hspec.numbers
      rw [hq] at this
      exact (List.cons.inj this).1
    rcases hspec.source q (hq ▸ List.mem_cons_self) with ⟨rfl, -⟩ | ⟨k, hk⟩
    · exact hne (UInt32.toNat_inj.mp hfirst)
    · have := (h.window k (Finmap.mem_of_lookup_eq_some hk)).1
      rw [← h.number k q hk, hfirst] at this
      exact Nat.lt_irrefl _ this
  refine ⟨hnone, UInt32.toNat_inj.mp ?_⟩
  rw [hspec.next, hnone, List.length_nil, Nat.add_zero]

end ProtoStream
end FileHopZ
