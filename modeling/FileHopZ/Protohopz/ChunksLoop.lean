import FileHopZ.Library.Run
import FileHopZ.Protohopz.Ordering

/-! # `receive_chunks_loop` on arbitrary packets

The loop is a fold over the packets that `receive_packet` returns, whoever sent
them (`chunks_of_run`), and these can be any (`exists_run_returning`).  Three questions
about it:

* it flushes packets numbered 1, 2, 3, ... and skips none (`flushed_in_order`), and
  their payloads are the chunks of the session (`flushed_of_run`);
* it keeps what arrives in its window, as long as `packets_buffer` is not full:
  the window has one number more than the buffer has room for, so the packet that
  would empty a full buffer clears it instead (`kept_iff`);
* it goes on as long as the upper end of the window does not wrap around, which it
  does for the last 65536 values of `expected_sequence` (`progress_iff`).
-/
namespace FileHopZ
namespace ProtoStream
variable {P : Primitives}

/-- The packets pushed so far, and the variables of `receive_chunks_loop`. -/
structure ChunksLoop where
  pushed : List ReceivedPacket := []
  expected : UInt32 := 1
  buffer : PacketsBuffer := ∅

namespace ChunksLoop

/-- One iteration of the loop. -/
def next (s : ChunksLoop) (r : ReceivedPacket) : ChunksLoop where
  pushed := s.pushed ++ (receiveChunk s.expected s.buffer r).1
  expected := (receiveChunk s.expected s.buffer r).2.1
  buffer := (receiveChunk s.expected s.buffer r).2.2

/-- The loop after the packets `rs`. -/
def after (rs : List ReceivedPacket) : ChunksLoop := rs.foldl next {}

@[simp] theorem after_nil : after [] = {} := rfl

@[simp] theorem after_concat (rs : List ReceivedPacket) (r : ReceivedPacket) :
    after (rs ++ [r]) = (after rs).next r := by
  rw [after, List.foldl_append]
  rfl

/-- The number of a packet. -/
def number (r : ReceivedPacket) : Nat := r.packet.header.sequence.toNat

/-- The invariant of the loop after the packets `rs`. -/
structure Flushed (rs : List ReceivedPacket) (s : ChunksLoop) : Prop where
  inOrder : InOrder s.expected s.buffer
  numbers : s.pushed.map number = List.range' 1 s.pushed.length
  next : s.expected.toNat = 1 + s.pushed.length
  pushed : ∀ q ∈ s.pushed, q ∈ rs ∧ q.packet.header.type = .data
  buffered : ∀ k q, s.buffer.lookup k = some q → q ∈ rs

/-- **The step lemma.** -/
theorem Flushed.step {rs : List ReceivedPacket} {s : ChunksLoop} (h : Flushed rs s)
    (r : ReceivedPacket) : Flushed (rs ++ [r]) (s.next r) := by
  have hspec := receiveChunk_spec h.inOrder r
  have hself : r ∈ rs ++ [r] := List.mem_append_right _ List.mem_cons_self
  refine ⟨hspec.inOrder, ?_, ?_, fun q hq => ?_, fun k q hk => ?_⟩
  · show (s.pushed ++ (receiveChunk s.expected s.buffer r).1).map number =
      List.range' 1 (s.pushed ++ (receiveChunk s.expected s.buffer r).1).length
    have hnumbers : (receiveChunk s.expected s.buffer r).1.map number =
        List.range' s.expected.toNat (receiveChunk s.expected s.buffer r).1.length := hspec.numbers
    rw [List.map_append, h.numbers, hnumbers, h.next, List.length_append, List.range'_append_1]
  · show (receiveChunk s.expected s.buffer r).2.1.toNat =
      1 + (s.pushed ++ (receiveChunk s.expected s.buffer r).1).length
    rw [hspec.next, h.next, List.length_append, Nat.add_assoc]
  · rcases List.mem_append.mp hq with hq | hq
    · exact ⟨List.mem_append_left _ (h.pushed q hq).1, (h.pushed q hq).2⟩
    · rcases hspec.source q hq with ⟨rfl, ht⟩ | ⟨k, hk⟩
      · exact ⟨hself, ht.1⟩
      · exact ⟨List.mem_append_left _ (h.buffered k q hk), h.inOrder.data k q hk⟩
  · rcases hspec.kept k q hk with ⟨rfl, -⟩ | hk
    · exact hself
    · exact List.mem_append_left _ (h.buffered k q hk)

theorem flushed_after (rs : List ReceivedPacket) : Flushed rs (after rs) := by
  induction rs using List.reverseRecOn with
  | nil => exact ⟨inOrder_start, rfl, rfl, by simp, fun k q hk => by cases hk⟩
  | append_singleton rs r ih =>
      rw [after_concat]
      exact ih.step r

/-- A packet that was pushed lies below `expected_sequence`. -/
theorem Flushed.number_lt {rs : List ReceivedPacket} {s : ChunksLoop} (h : Flushed rs s)
    {q : ReceivedPacket} (hq : q ∈ s.pushed) : number q < s.expected.toNat := by
  have hmem : number q ∈ s.pushed.map number := List.mem_map_of_mem hq
  rw [h.numbers, List.mem_range'_1] at hmem
  have := h.next
  omega

/-- A packet in the buffer lies above `expected_sequence`. -/
theorem Flushed.lt_number {rs : List ReceivedPacket} {s : ChunksLoop} (h : Flushed rs s)
    {k : UInt32} {q : ReceivedPacket} (hk : s.buffer.lookup k = some q) :
    s.expected.toNat < number q := by
  rw [number, h.inOrder.number k q hk]
  exact (h.inOrder.window k (Finmap.mem_of_lookup_eq_some hk)).1

/-- **Gap-free flushing.**  Whatever packets `receive_packet` returns, the loop has
pushed `DATA` packets among them, numbered 1, 2, 3, ...; and when a packet finds
`packets_buffer` full it is the expected one, so that setting `expected_sequence` to
its number changes nothing. -/
theorem flushed_in_order (rs : List ReceivedPacket) :
    (after rs).pushed.map number = List.range' 1 (after rs).pushed.length ∧
      (∀ q ∈ (after rs).pushed, q ∈ rs ∧ q.packet.header.type = .data) ∧
      ∀ r, Takes (after rs).expected (after rs).buffer r →
        maxPacketsBuffer ≤ (after rs).buffer.keys.card →
        r.packet.header.sequence = (after rs).expected := by
  have h := flushed_after rs
  exact ⟨h.numbers, h.pushed, fun r ht hfull => h.inOrder.eq_expected_of_full ht hfull⟩

/-! ## The capacity of the buffer -/

/-- Distinct `DATA` packets, of which each lies in the window when it arrives. -/
inductive Arrivals : List ReceivedPacket → Prop
  | nil : Arrivals []
  | concat {rs : List ReceivedPacket} {r : ReceivedPacket} (h : Arrivals rs)
      (htype : r.packet.header.type = .data) (hnew : ∀ q ∈ rs, number q ≠ number r)
      (hlow : (after rs).expected.toNat ≤ number r)
      (hhigh : number r ≤ (after rs).expected.toNat + maxPacketsBuffer)
      (hwrap : (after rs).expected.toNat + maxPacketsBuffer < 2 ^ 32) : Arrivals (rs ++ [r])

/-- Every packet received has been pushed or is in the buffer; and once the numbers
up to `n` have arrived, their packets have been pushed. -/
def Kept (rs : List ReceivedPacket) : Prop :=
  (∀ r ∈ rs, r ∈ (after rs).pushed ∨ ∃ k, (after rs).buffer.lookup k = some r) ∧
    ∀ n, (∀ k, 1 ≤ k → k ≤ n → ∃ r ∈ rs, number r = k) →
      ∀ r ∈ rs, number r ≤ n → r ∈ (after rs).pushed

/-- No packet finds the buffer full. -/
def HasRoom (rs : List ReceivedPacket) : Prop :=
  ∀ before r, before ++ [r] <+: rs → (after before).buffer.keys.card < maxPacketsBuffer

/-- The loop takes a packet in the window that it has not got yet. -/
theorem takes_of_window {expected : UInt32} {buffer : PacketsBuffer} {r : ReceivedPacket}
    (htype : r.packet.header.type = .data) (hlow : expected.toNat ≤ number r)
    (hhigh : number r ≤ expected.toNat + maxPacketsBuffer)
    (hwrap : expected.toNat + maxPacketsBuffer < 2 ^ 32)
    (hnew : r.packet.header.sequence ∉ buffer) : Takes expected buffer r := by
  refine ⟨htype, ?_, ?_, hnew⟩
  · rw [UInt32.lt_iff_toNat_lt, not_lt]
    exact hlow
  · rw [UInt32.lt_iff_toNat_lt, not_lt, UInt32.toNat_add,
      show sequenceWindowSize.toNat = maxPacketsBuffer from rfl, Nat.mod_eq_of_lt hwrap]
    exact hhigh

/-- **A full buffer is lost**: of everything, only the packet that arrives is left. -/
theorem receiveChunk_of_full {expected : UInt32} {buffer : PacketsBuffer} {r : ReceivedPacket}
    (h : InOrder expected buffer) (ht : Takes expected buffer r)
    (hfull : maxPacketsBuffer ≤ buffer.keys.card) {q : ReceivedPacket}
    (hq : q ∈ (receiveChunk expected buffer r).1 ∨
      ∃ k, (receiveChunk expected buffer r).2.2.lookup k = some q) : q = r := by
  rw [receiveChunk_of_takes h ht, roomFor, if_pos hfull] at hq
  have honly : ∀ k, (Finmap.insert r.packet.header.sequence r ∅ : PacketsBuffer).lookup k =
      some q → q = r := by
    intro k hk
    rcases FiniteMap.lookup_insert_cases hk with ⟨-, rfl⟩ | ⟨-, hk⟩
    · rfl
    · cases hk
  rcases hq with hq | ⟨k, hk⟩
  · obtain ⟨i, hi, rfl⟩ := List.mem_iff_getElem.mp hq
    exact honly _ (Reorder.lookup_of_released (List.getElem?_eq_getElem hi))
  · exact honly k (Reorder.lookup_of_kept hk)

/-- Once everything is kept, a complete beginning has been pushed. -/
theorem pushed_of_kept {rs : List ReceivedPacket}
    (h : ∀ r ∈ rs, r ∈ (after rs).pushed ∨ ∃ k, (after rs).buffer.lookup k = some r) : Kept rs := by
  have hflushed := flushed_after rs
  refine ⟨h, fun n hall r hr hle => ?_⟩
  rcases h r hr with hpushed | ⟨k, hk⟩
  · exact hpushed
  -- the expected packet has arrived too, and is neither below nor above itself
  have hlt := hflushed.lt_number hk
  have hpos := hflushed.inOrder.pos
  obtain ⟨q, hq, hnumber⟩ := hall (after rs).expected.toNat hpos (by omega)
  rcases h q hq with hpushed | ⟨j, hj⟩
  · exact absurd (hflushed.number_lt hpushed) (by omega)
  · exact absurd (hflushed.lt_number hj) (by omega)

/-- What one more arrival does to what was kept. -/
theorem kept_concat_iff {rs : List ReceivedPacket} {r : ReceivedPacket} (h : Kept rs)
    (htype : r.packet.header.type = .data) (hnew : ∀ q ∈ rs, number q ≠ number r)
    (hlow : (after rs).expected.toNat ≤ number r)
    (hhigh : number r ≤ (after rs).expected.toNat + maxPacketsBuffer)
    (hwrap : (after rs).expected.toNat + maxPacketsBuffer < 2 ^ 32) :
    Kept (rs ++ [r]) ↔ (after rs).buffer.keys.card < maxPacketsBuffer := by
  have hflushed := flushed_after rs
  have hfresh : r.packet.header.sequence ∉ (after rs).buffer := by
    intro hmem
    obtain ⟨q, hq⟩ := Finmap.mem_iff.mp hmem
    exact hnew q (hflushed.buffered _ q hq)
      (congrArg UInt32.toNat (hflushed.inOrder.number _ q hq))
  have ht := takes_of_window htype hlow hhigh hwrap hfresh
  constructor
  · intro hkept
    by_contra hfull
    rw [not_lt] at hfull
    -- some packet was in the buffer; it is neither pushed now nor in the buffer any more
    obtain ⟨k, hk⟩ : (after rs).buffer.keys.Nonempty := by
      rw [← Finset.card_pos]
      exact Nat.lt_of_lt_of_le (by decide) hfull
    obtain ⟨q, hq⟩ := Finmap.mem_iff.mp (Finmap.mem_keys.mp hk)
    have hmem := hflushed.buffered k q hq
    have hne : q ≠ r := fun heq => hnew q hmem (congrArg number heq)
    have hlater := hkept.1 q (List.mem_append_left _ hmem)
    rw [after_concat] at hlater
    rcases hlater with hpushed | hbuffered
    · rcases List.mem_append.mp hpushed with hbefore | hnow
      · exact absurd (hflushed.number_lt hbefore) (by have := hflushed.lt_number hq; omega)
      · exact hne (receiveChunk_of_full hflushed.inOrder ht hfull (Or.inl hnow))
    · exact hne (receiveChunk_of_full hflushed.inOrder ht hfull (Or.inr hbuffered))
  · intro hroom
    refine pushed_of_kept fun q hq => ?_
    rw [after_concat]
    have hkeeps : ∀ k, k = r.packet.header.sequence ∧ q = r ∨ (after rs).buffer.lookup k = some q →
        q ∈ ((after rs).next r).pushed ∨ ∃ k, ((after rs).next r).buffer.lookup k = some q := by
      intro k hk
      rcases receiveChunk_keeps hflushed.inOrder ht hroom hk with hk | hk
      · exact Or.inr ⟨k, hk⟩
      · exact Or.inl (List.mem_append_right _ hk)
    rcases List.mem_append.mp hq with hq | hq
    · rcases h.1 q hq with hpushed | ⟨k, hk⟩
      · exact Or.inl (List.mem_append_left _ hpushed)
      · exact hkeeps k (Or.inr hk)
    · obtain rfl := List.mem_singleton.mp hq
      exact hkeeps _ (Or.inl ⟨rfl, rfl⟩)

/-- **The capacity of the reorder buffer.**  For distinct `DATA` packets, each in the
window when it arrives, nothing is discarded after any of them if and only if none
of them finds `packets_buffer` full. -/
theorem kept_iff {rs : List ReceivedPacket} (h : Arrivals rs) :
    (∀ before, before <+: rs → Kept before) ↔ HasRoom rs := by
  induction h with
  | nil =>
      constructor
      · intro _ before r hprefix
        have := hprefix.length_le
        simp at this
      · intro _ before hprefix
        obtain rfl := List.prefix_nil.mp hprefix
        exact pushed_of_kept fun r hr => absurd hr List.not_mem_nil
  | concat harrivals htype hnew hlow hhigh hwrap ih =>
      rename_i rs r
      constructor
      · intro hkept before q hprefix
        have hbefore := ih.mp fun before hb => hkept before (hb.trans (List.prefix_append _ _))
        rcases List.prefix_concat_iff.mp hprefix with heq | hprefix
        · obtain ⟨rfl, -⟩ := List.append_inj' heq rfl
          exact (kept_concat_iff (hkept before (List.prefix_append _ _)) htype hnew hlow hhigh
            hwrap).mp (hkept _ (List.prefix_refl _))
        · exact hbefore before q hprefix
      · intro hroom before hprefix
        have hkept := ih.mpr fun before q hb => hroom before q (hb.trans (List.prefix_append _ _))
        rcases List.prefix_concat_iff.mp hprefix with rfl | hprefix
        · exact (kept_concat_iff (hkept rs (List.prefix_refl _)) htype hnew hlow hhigh hwrap).mpr
            (hroom rs r (List.prefix_refl _))
        · exact hkept before hprefix

/-! ## The end of the numbers -/

/-- The expected packet is pushed, and `expected_sequence` moves past it; a packet up
to `SEQUENCE_WINDOW_SIZE` ahead of it, modulo 2^32, is buffered. -/
def Progress (s : ChunksLoop) : Prop :=
  (∀ r, r.packet.header.type = .data → r.packet.header.sequence = s.expected →
    ∃ rest, (s.next r).pushed = s.pushed ++ r :: rest ∧
      (s.next r).expected = s.expected + .ofNat (rest.length + 1)) ∧
    ∀ r d, r.packet.header.type = .data → 1 ≤ d → d ≤ sequenceWindowSize.toNat →
      r.packet.header.sequence = s.expected + .ofNat d →
      r.packet.header.sequence ∈ (s.next r).buffer

/-- A packet that is due releases itself first. -/
theorem released_of_takes {expected : UInt32} {buffer : PacketsBuffer} {r : ReceivedPacket}
    (h : InOrder expected buffer) (ht : Takes expected buffer r)
    (hroom : buffer.keys.card < maxPacketsBuffer) (hdue : r.packet.header.sequence = expected) :
    ∃ rest, (receiveChunk expected buffer r).1 = r :: rest := by
  have hspec := receiveChunk_spec h r
  have hmem : r ∈ (receiveChunk expected buffer r).1 := by
    rcases receiveChunk_keeps h ht hroom (Or.inl ⟨rfl, rfl⟩) with hk | hk
    · -- what stays in the buffer lies above the expected number
      have := (hspec.inOrder.window _ (Finmap.mem_of_lookup_eq_some hk)).1
      rw [hdue, hspec.next] at this
      omega
    · exact hk
  obtain ⟨q, rest, hq⟩ := List.exists_cons_of_ne_nil (List.ne_nil_of_mem hmem)
  have hfirst : q.packet.header.sequence.toNat = expected.toNat := by
    have := hspec.numbers
    rw [hq] at this
    exact (List.cons.inj this).1
  refine ⟨rest, ?_⟩
  rcases hspec.source q (hq ▸ List.mem_cons_self) with ⟨rfl, -⟩ | ⟨k, hk⟩
  · exact hq
  · have := (h.window k (Finmap.mem_of_lookup_eq_some hk)).1
    rw [← h.number k q hk, hfirst] at this
    exact absurd this (Nat.lt_irrefl _)

/-- **Progress.**  At every value that `expected_sequence` reaches, with room in the
buffer, the loop accepts the expected packet and those of the window if and only if
the upper end of the window does not wrap around. -/
theorem progress_iff (rs : List ReceivedPacket)
    (hroom : (after rs).buffer.keys.card < maxPacketsBuffer) :
    (after rs).Progress ↔ (after rs).expected.toNat + maxPacketsBuffer < 2 ^ 32 := by
  have hflushed := flushed_after rs
  generalize after rs = s at *
  have hbelow : s.expected ∉ s.buffer := fun hmem =>
    absurd (hflushed.inOrder.window _ hmem).1 (Nat.lt_irrefl _)
  constructor
  · intro hprogress
    by_contra hwrap
    -- the packet that is due is not taken
    let due : ReceivedPacket := ⟨(dataPacket [65]).withSequence s.expected, none⟩
    obtain ⟨rest, hpushed, -⟩ := hprogress.1 due rfl rfl
    have hnot : ¬ Takes s.expected s.buffer due := fun ht => hwrap ht.window.2.2
    have hnone : (receiveChunk s.expected s.buffer due).1 = [] := by
      rw [receiveChunk_of_not_takes hnot]
    rw [show (s.next due).pushed = s.pushed ++ (receiveChunk s.expected s.buffer due).1 from rfl,
      hnone] at hpushed
    have := congrArg List.length hpushed
    simp at this
  · intro hwrap
    refine ⟨fun r htype hdue => ?_, fun r d htype hone hd hahead => ?_⟩
    · have hnumber : number r = s.expected.toNat := congrArg UInt32.toNat hdue
      have ht : Takes s.expected s.buffer r :=
        takes_of_window htype hnumber.ge (by omega) hwrap (hdue ▸ hbelow)
      obtain ⟨rest, hrest⟩ := released_of_takes hflushed.inOrder ht hroom hdue
      refine ⟨rest, congrArg (s.pushed ++ ·) hrest, ?_⟩
      have hnext := (receiveChunk_spec hflushed.inOrder r).next
      have hbound := (receiveChunk s.expected s.buffer r).2.1.toNat_lt
      rw [hrest, List.length_cons] at hnext
      refine UInt32.toNat_inj.mp ?_
      rw [show (s.next r).expected = (receiveChunk s.expected s.buffer r).2.1 from rfl, hnext,
        UInt32.toNat_add, UInt32.toNat_ofNat_of_lt' (by unfold UInt32.size; omega),
        Nat.mod_eq_of_lt (by omega)]
    · rw [show sequenceWindowSize.toNat = maxPacketsBuffer from rfl] at hd
      have hnumber : number r = s.expected.toNat + d := by
        rw [number, hahead, UInt32.toNat_add,
          UInt32.toNat_ofNat_of_lt' (by unfold UInt32.size maxPacketsBuffer at *; omega),
          Nat.mod_eq_of_lt (by omega)]
      have hne : r.packet.header.sequence ≠ s.expected := fun heq => by
        have : number r = s.expected.toNat := congrArg UInt32.toNat heq
        omega
      by_cases hmem : r.packet.header.sequence ∈ s.buffer
      · have hnot : ¬ Takes s.expected s.buffer r := fun ht => ht.2.2.2 hmem
        rw [show (s.next r).buffer = (receiveChunk s.expected s.buffer r).2.2 from rfl,
          receiveChunk_of_not_takes hnot]
        exact hmem
      · have ht : Takes s.expected s.buffer r :=
          takes_of_window htype (by omega) (by omega) hwrap hmem
        rcases receiveChunk_keeps hflushed.inOrder ht hroom (Or.inl ⟨rfl, rfl⟩) with hk | hk
        · exact Finmap.mem_of_lookup_eq_some hk
        · rw [(receiveChunk_of_ne hflushed.inOrder hne).1] at hk
          cases hk

/-! ## Samples -/

/-- The `DATA` packet number `n`. -/
def numbered (n : Nat) : ReceivedPacket :=
  ⟨(dataPacket [65]).withSequence (.ofNat n), none⟩

theorem number_numbered {n : Nat} (h : n < 2 ^ 32) : number (numbered n) = n :=
  UInt32.toNat_ofNat_of_lt' h

/-- Packets 2, 3, ..., `n + 1`, which all wait for packet 1. -/
def early (n : Nat) : List ReceivedPacket := (List.range n).map fun i => numbered (i + 2)

theorem early_succ (n : Nat) : early (n + 1) = early n ++ [numbered (n + 2)] := by
  rw [early, List.range_succ, List.map_append]
  rfl

theorem number_of_mem_early {n : Nat} (hn : n ≤ maxPacketsBuffer) {q : ReceivedPacket}
    (hq : q ∈ early n) : 2 ≤ number q ∧ number q < n + 2 := by
  obtain ⟨i, hi, rfl⟩ := List.mem_map.mp hq
  rw [List.mem_range] at hi
  unfold maxPacketsBuffer at hn
  rw [number_numbered (by omega)]
  omega

/-- They are buffered. -/
theorem after_early {n : Nat} (hn : n ≤ maxPacketsBuffer) :
    (after (early n)).expected = 1 ∧ (after (early n)).buffer.keys.card = n ∧
      Arrivals (early n) := by
  induction n with
  | zero => exact ⟨rfl, rfl, .nil⟩
  | succ n ih =>
      obtain ⟨hexpected, hcard, harrivals⟩ := ih (by omega)
      have hflushed := flushed_after (early n)
      have hnumber : number (numbered (n + 2)) = n + 2 :=
        number_numbered (by unfold maxPacketsBuffer at hn; omega)
      have hnew : ∀ q ∈ early n, number q ≠ number (numbered (n + 2)) := fun q hq => by
        have := number_of_mem_early (by omega) hq
        omega
      have hone : (after (early n)).expected.toNat = 1 := by rw [hexpected]; rfl
      have hfresh : (numbered (n + 2)).packet.header.sequence ∉ (after (early n)).buffer := by
        intro hmem
        obtain ⟨q, hq⟩ := Finmap.mem_iff.mp hmem
        exact hnew q (hflushed.buffered _ q hq)
          (congrArg UInt32.toNat (hflushed.inOrder.number _ q hq))
      have ht : Takes (after (early n)).expected (after (early n)).buffer (numbered (n + 2)) :=
        takes_of_window rfl (by omega) (by omega) (by rw [hone]; decide) hfresh
      have hne : (numbered (n + 2)).packet.header.sequence ≠ (after (early n)).expected := by
        intro heq
        have : number (numbered (n + 2)) = (after (early n)).expected.toNat :=
          congrArg UInt32.toNat heq
        omega
      obtain ⟨hnone, hsame⟩ := receiveChunk_of_ne hflushed.inOrder hne
      rw [early_succ, after_concat]
      refine ⟨hsame.trans hexpected, ?_, .concat harrivals rfl hnew (by omega) (by omega)
        (by rw [hone]; decide)⟩
      show (receiveChunk _ _ _).2.2.keys.card = n + 1
      rw [receiveChunk_of_takes hflushed.inOrder ht, roomFor, if_neg (by omega)] at hnone ⊢
      have hkeys := @Reorder.card_release _ _ _ (· + 1)
        ((after (early n)).buffer.insert (numbered (n + 2)).packet.header.sequence
          (numbered (n + 2))).keys.card (after (early n)).expected
        ((after (early n)).buffer.insert (numbered (n + 2)).packet.header.sequence
          (numbered (n + 2)))
      rw [hnone, List.length_nil, Nat.add_zero] at hkeys
      rw [hkeys, FiniteMap.keys_insert, Finset.card_insert_of_notMem, hcard]
      rwa [Finmap.mem_keys]

/-- Packets 2, 3 and 1: nothing is discarded. -/
theorem kept_iff_three : Arrivals (early 2 ++ [numbered 1]) ∧
    ((∀ before, before <+: early 2 ++ [numbered 1] → Kept before) ↔
      HasRoom (early 2 ++ [numbered 1])) := by
  obtain ⟨hexpected, -, harrivals⟩ := after_early (n := 2) (by decide)
  have hone : (after (early 2)).expected.toNat = 1 := by rw [hexpected]; rfl
  have hnumber : number (numbered 1) = 1 := number_numbered (by decide)
  have h : Arrivals (early 2 ++ [numbered 1]) := by
    refine .concat harrivals rfl (fun q hq => ?_) (by omega) (by omega) (by rw [hone]; decide)
    have := number_of_mem_early (by decide) hq
    omega
  exact ⟨h, kept_iff h⟩

/-- **A full buffer of waiting packets is thrown away.**  Packets 2 to 65537 fill the
buffer; when packet 1 arrives it is cleared. -/
theorem buffer_discarded : ¬ ∀ rs, Arrivals rs → ∀ before, before <+: rs → Kept before := by
  intro hall
  obtain ⟨hexpected, hcard, harrivals⟩ := after_early (n := maxPacketsBuffer) le_rfl
  have hone : (after (early maxPacketsBuffer)).expected.toNat = 1 := by rw [hexpected]; rfl
  have hnumber : number (numbered 1) = 1 := number_numbered (by decide)
  have h : Arrivals (early maxPacketsBuffer ++ [numbered 1]) := by
    refine .concat harrivals rfl (fun q hq => ?_) (by omega) (by omega) (by rw [hone]; decide)
    have := number_of_mem_early le_rfl hq
    omega
  have hroom := (kept_iff h).mp (hall _ h) _ _ (List.prefix_refl _)
  omega

/-- Packets 1, 2, ..., `n` in order. -/
def inSequence (n : Nat) : List ReceivedPacket := (List.range n).map fun i => numbered (i + 1)

/-- They are pushed at once. -/
theorem after_inSequence {n : Nat} (hn : n + maxPacketsBuffer < 2 ^ 32) :
    (after (inSequence n)).expected.toNat = n + 1 ∧ (after (inSequence n)).buffer.keys = ∅ := by
  induction n with
  | zero => exact ⟨rfl, rfl⟩
  | succ n ih =>
      obtain ⟨hexpected, hempty⟩ := ih (by omega)
      have hflushed := flushed_after (inSequence n)
      have hsucc : inSequence (n + 1) = inSequence n ++ [numbered (n + 1)] := by
        rw [inSequence, List.range_succ, List.map_append]
        rfl
      have hnumber : number (numbered (n + 1)) = n + 1 := number_numbered (by omega)
      have hdue : (numbered (n + 1)).packet.header.sequence = (after (inSequence n)).expected :=
        UInt32.toNat_inj.mp (hnumber.trans hexpected.symm)
      have hfresh : (numbered (n + 1)).packet.header.sequence ∉ (after (inSequence n)).buffer := by
        rw [← Finmap.mem_keys, hempty]
        exact Finset.notMem_empty _
      have ht : Takes (after (inSequence n)).expected (after (inSequence n)).buffer
          (numbered (n + 1)) := takes_of_window rfl (by omega) (by omega) (by omega) hfresh
      have hroom : (after (inSequence n)).buffer.keys.card < maxPacketsBuffer := by
        rw [hempty]
        decide
      obtain ⟨rest, hrest⟩ := released_of_takes hflushed.inOrder ht hroom hdue
      have hspec := receiveChunk_spec hflushed.inOrder (numbered (n + 1))
      -- one packet went in, one came out
      have hcard := @Reorder.card_release _ _ _ (· + 1)
        ((after (inSequence n)).buffer.insert (numbered (n + 1)).packet.header.sequence
          (numbered (n + 1))).keys.card (after (inSequence n)).expected
        ((after (inSequence n)).buffer.insert (numbered (n + 1)).packet.header.sequence
          (numbered (n + 1)))
      rw [receiveChunk_of_takes hflushed.inOrder ht, roomFor, if_neg (by omega)] at hrest hspec
      rw [hsucc, after_concat, next, receiveChunk_of_takes hflushed.inOrder ht, roomFor,
        if_neg (by omega)]
      have hkeys : ((after (inSequence n)).buffer.insert
          (numbered (n + 1)).packet.header.sequence (numbered (n + 1))).keys.card = 1 := by
        rw [FiniteMap.keys_insert, hempty, insert_empty_eq, Finset.card_singleton]
      rw [hkeys] at hcard hrest hspec
      rw [hkeys]
      generalize Reorder.release (· + 1) 1 (after (inSequence n)).expected _ = out at *
      rw [hrest, List.length_cons] at hcard
      refine ⟨?_, Finset.card_eq_zero.mp (show out.2.2.keys.card = 0 by omega)⟩
      show out.2.1.toNat = n + 1 + 1
      rw [hspec.next, hexpected, hrest, List.length_cons]
      omega

/-- While packets 2 to 4 are in the buffer and wait for packet 1. -/
theorem progress_iff_early : (after (early 3)).buffer.keys.card = 3 ∧
    (after (early 3)).Progress := by
  obtain ⟨hexpected, hcard, -⟩ := after_early (n := 3) (by decide)
  refine ⟨hcard, (progress_iff (early 3) (by rw [hcard]; decide)).mpr ?_⟩
  rw [hexpected]
  decide

/-- **The stream stops** near the end of the numbers: after packets 1 to 4294901759,
the next one is dropped. -/
theorem progress_stops : ¬ ∀ rs, (after rs).buffer.keys.card < maxPacketsBuffer →
    (after rs).Progress := by
  intro hall
  obtain ⟨hexpected, hempty⟩ := after_inSequence (n := 4294901759) (by decide)
  have hroom : (after (inSequence 4294901759)).buffer.keys.card < maxPacketsBuffer := by
    rw [hempty]
    decide
  have hwrap := (progress_iff _ hroom).mp (hall _ hroom)
  rw [hexpected] at hwrap
  exact absurd hwrap (by decide)

end ChunksLoop

/-! ## In a session -/

/-- What `receive_packet` returns to `receive_chunks_loop`. -/
def returnedPackets (s : ProtoStream P) (e : Event P) : List ReceivedPacket :=
  match taken s e with
  | none => []
  | some r =>
      match s.transport.receivePacket r with
      | .error _ => []
      | .ok r => [r]

theorem returnedPackets_of_resume {s : ProtoStream P} {r : ReceivedPacket}
    {queue : AsyncQueue Consumer ReceivedPacket}
    (htake : s.transport.receivedPacketsQueue.resume .chunks = some (r, queue)) :
    (s.transport.loopError ≠ none → returnedPackets s .resumeReceiveChunks = []) ∧
      (s.transport.loopError = none → returnedPackets s .resumeReceiveChunks = [r]) := by
  rw [returnedPackets, taken, htake]
  dsimp only [Option.map_some]
  rw [ProtoHopZ.receivePacket]
  constructor
  · intro hfailed
    obtain ⟨ec, hec⟩ := Option.ne_none_iff_exists'.mp hfailed
    rw [hec]
  · intro hnone
    rw [hnone]

theorem returnedPackets_of_ne {s : ProtoStream P} {e : Event P} (h : e ≠ .resumeReceiveChunks) :
    returnedPackets s e = [] := by
  cases e with
  | resumeReceiveChunks => exact absurd rfl h
  | _ => rfl

/-- What `receive_chunks_loop` does when it gets a packet. -/
theorem chunk_step {s s' : ProtoStream P} {out : List Observation}
    (hs : s.step .resumeReceiveChunks = some (s', out)) : ∃ r queue,
      s.transport.receivedPacketsQueue.resume .chunks = some (r, queue) ∧
      (s.transport.loopError ≠ none ∧ out = [] ∧ s'.expectedSequence = s.expectedSequence ∧
          s'.packetsBuffer = s.packetsBuffer ∨
        s.transport.loopError = none ∧
          out = (receiveChunk s.expectedSequence s.packetsBuffer r).1.map .chunk ∧
          s'.expectedSequence = (receiveChunk s.expectedSequence s.packetsBuffer r).2.1 ∧
          s'.packetsBuffer = (receiveChunk s.expectedSequence s.packetsBuffer r).2.2) := by
  cases step_cases hs with
  | interrupted r queue ec _ htake herror =>
      exact ⟨r, queue, htake, Or.inl ⟨by simp [herror], rfl, rfl, rfl⟩⟩
  | chunk r queue _ htake herror | lastChunk r queue _ htake herror =>
      exact ⟨r, queue, htake, Or.inr ⟨herror, rfl, rfl, rfl⟩⟩

/-- **The loop of a session is this fold**: in every run from the start of the loop,
what has been put in order, `expected_sequence` and `packets_buffer` are those after
the packets that `receive_packet` has returned. -/
theorem chunks_of_run {ok : ProtoStream P → Event P → Prop} {s₀ s : ProtoStream P}
    {tr : List (ReceivedPacket ⊕ Observation)} (hexpected₀ : s₀.expectedSequence = 1)
    (hbuffer₀ : s₀.packetsBuffer = ∅)
    (hrun : Transition.Run (Transition.noting step returnedPackets) ok s₀ tr s) :
    ChunksLoop.after (Transition.notes tr) =
      ⟨ordered (Transition.shows tr), s.expectedSequence, s.packetsBuffer⟩ := by
  refine hrun.invariant (I := fun tr s => ChunksLoop.after (Transition.notes tr) =
    ⟨ordered (Transition.shows tr), s.expectedSequence, s.packetsBuffer⟩) ?_ ?_
  · rw [hexpected₀, hbuffer₀]
    rfl
  rintro tr s e s' out ih - hs
  obtain ⟨hs, hnotes⟩ := Transition.noting_eq hs
  rw [Transition.notes_append, Transition.shows_append, hnotes, ordered_append]
  have hsame : returnedPackets s e = [] → ordered (Transition.shows out) = [] →
      s'.expectedSequence = s.expectedSequence → s'.packetsBuffer = s.packetsBuffer →
      ChunksLoop.after (Transition.notes tr ++ returnedPackets s e) =
        ⟨ordered (Transition.shows tr) ++ ordered (Transition.shows out), s'.expectedSequence,
          s'.packetsBuffer⟩ := by
    intro hreturned hnone hexpected hbuffer
    rw [hreturned, hnone, List.append_nil, List.append_nil, ih, hexpected, hbuffer]
  -- no other step touches what the loop has
  by_cases he : e = .resumeReceiveChunks
  · subst he
    obtain ⟨r, queue, htake, hout⟩ := chunk_step hs
    obtain ⟨hfails, hreturns⟩ := returnedPackets_of_resume htake
    rcases hout with ⟨hfailed, hnone, hexpected, hbuffer⟩ | ⟨hok, hshown, hexpected, hbuffer⟩
    · exact hsame (hfails hfailed) (by rw [hnone]; rfl) hexpected hbuffer
    · rw [hreturns hok, ChunksLoop.after_concat, ih, hshown, ordered_chunks, hexpected, hbuffer]
      rfl
  · have hreturned := returnedPackets_of_ne (s := s) he
    cases moves_step hs with
    | chunk hresume => exact absurd hresume he
    | transport _ shown _ _ _ _ _ _ _ hexpected hbuffer hout =>
        rcases hout with hshown | ⟨-, hquiet⟩
        · exact hsame hreturned (hshown ▸ ordered_transport shown) hexpected hbuffer
        · exact hsame hreturned (ordered_quiet hquiet) hexpected hbuffer

/-- **Gap-free flushing in a session**, whatever its transport returns: in every run from the
start of the loop, the chunks pushed to `ready_chunks_`, but for the empty one of
`store_stream_error`, carry the payloads of `DATA` packets that `receive_packet` has returned in
that run, numbered 1, 2, 3, ... -/
theorem flushed_of_run {ok : ProtoStream P → Event P → Prop} {s₀ s : ProtoStream P}
    {tr : List Observation} (hexpected₀ : s₀.expectedSequence = 1) (hbuffer₀ : s₀.packetsBuffer = ∅)
    (hrun : Transition.Run step ok s₀ tr s) :
    ∃ noted, Transition.Run (Transition.noting step returnedPackets) ok s₀ noted s ∧
      Transition.shows noted = tr ∧ ∃ accepted : List ReceivedPacket,
        (chunks tr).filter (fun c => !c.empty) = accepted.map (Chunk.ofPacket ·.packet) ∧
        accepted.map ChunksLoop.number = List.range' 1 accepted.length ∧
        ∀ q ∈ accepted, q ∈ Transition.notes noted ∧ q.packet.header.type = .data := by
  obtain ⟨noted, hnoted, hshows⟩ := hrun.exists_noting returnedPackets
  have hflushed := ChunksLoop.flushed_after (Transition.notes noted)
  rw [chunks_of_run hexpected₀ hbuffer₀ hnoted, hshows] at hflushed
  refine ⟨noted, hnoted, hshows, ordered tr, ?_, hflushed.numbers, hflushed.pushed⟩
  -- the chunks of the packets in order are all but the empty ones
  refine hrun.invariant (I := fun tr _ => (chunks tr).filter (fun c => !c.empty) =
    (ordered tr).map (Chunk.ofPacket ·.packet)) rfl ?_
  rintro tr s e s' out ih - hs
  rw [chunks_append, ordered_append, List.filter_append, List.map_append, ih,
    (moves_step hs).chunks]

/-- The session whose loop is to be given the packets `rs`, one after the other. -/
structure Supplied (rs : List ReceivedPacket) (s : ProtoStream P) : Prop where
  running : s.receiveChunksLoop = .running
  cancelled : s.cancelled = false
  loopError : s.transport.loopError = none
  queue : s.transport.receivedPacketsQueue = ({ queue := rs } : AsyncQueue _ _).pop .chunks

/-- **Any packets** can be what `receive_packet` returns. -/
theorem exists_run_returning (rs : List ReceivedPacket) {s : ProtoStream P}
    (h : Supplied rs s) : ∃ tr s', Transition.Run (Transition.noting step returnedPackets)
      Transition.Always s tr s' ∧ Transition.notes tr = rs := by
  induction rs generalizing s with
  | nil => exact ⟨[], s, .start, rfl⟩
  | cons r rs ih =>
      have htake : s.transport.receivedPacketsQueue.resume .chunks = some (r, { queue := rs }) := by
        rw [h.queue]
        simp [AsyncQueue.pop, AsyncQueue.resume]
      have hreturned := (returnedPackets_of_resume htake).2 h.loopError
      have hs : s.step .resumeReceiveChunks =
          some ((s.putInOrder r { queue := rs }).awaitPacket,
            (receiveChunk s.expectedSequence s.packetsBuffer r).1.map .chunk) := by
        have hreceive : s.transport.receivePacket r = .ok r := by
          rw [ProtoHopZ.receivePacket, h.loopError]
        rw [step, resumeReceiveChunks, h.running, htake]
        dsimp only
        rw [hreceive]
        dsimp only
        rw [if_neg (by simp [h.cancelled]), ← h.running]
        rfl
      obtain ⟨tr, s'', hrun, hnotes⟩ := ih (s := (s.putInOrder r { queue := rs }).awaitPacket)
        ⟨h.running, h.cancelled, h.loopError, rfl⟩
      refine ⟨_, s'', (Transition.Run.single trivial
        (Transition.noting_some hs returnedPackets)).append hrun, ?_⟩
      rw [Transition.notes_append, Transition.notes_map, hreturned, hnotes]
      rfl

end ProtoStream
end FileHopZ
