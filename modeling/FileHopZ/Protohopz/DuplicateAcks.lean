import FileHopZ.Library.Map
import FileHopZ.Protohopz.ProtoHopZ
import Mathlib.Data.Finset.Card

/-! # Acknowledgements in any order

`ack_handler` on the numbers of two acknowledgements gives the same state in either order, and
on a number that has been handled it does nothing.  So a list of acknowledgements counts as
the set of its numbers.
-/
namespace FileHopZ

/-! ## Folding a set -/

section Fold
variable {σ α : Type*} {f : σ → α → σ}

/-- What has been handled and comes again can be handled now as well. -/
theorem foldl_absorb (hcomm : ∀ s a b, f (f s a) b = f (f s b) a)
    (hidem : ∀ s a, f (f s a) a = f s a) {a : α} :
    ∀ {l : List α} (s : σ), a ∈ l → l.foldl f (f s a) = l.foldl f s
  | [], s, h => absurd h List.not_mem_nil
  | b :: l, s, h => by
      rw [List.foldl_cons, List.foldl_cons]
      rcases List.mem_cons.mp h with rfl | h
      · rw [hidem]
      · rw [hcomm]
        exact foldl_absorb hcomm hidem (f s b) h

theorem foldl_dedup [DecidableEq α] (hcomm : ∀ s a b, f (f s a) b = f (f s b) a)
    (hidem : ∀ s a, f (f s a) a = f s a) (l : List α) (s : σ) :
    l.dedup.foldl f s = l.foldl f s := by
  induction l generalizing s with
  | nil => rfl
  | cons a l ih =>
      by_cases ha : a ∈ l
      · rw [List.dedup_cons_of_mem ha, ih, List.foldl_cons, foldl_absorb hcomm hidem s ha]
      · rw [List.dedup_cons_of_notMem ha, List.foldl_cons, List.foldl_cons, ih]

/-- **A commuting, idempotent step only sees which elements the list has.** -/
theorem foldl_of_same_elements [DecidableEq α] (hcomm : ∀ s a b, f (f s a) b = f (f s b) a)
    (hidem : ∀ s a, f (f s a) a = f s a) {l l' : List α} (h : ∀ a, a ∈ l ↔ a ∈ l') (s : σ) :
    l.foldl f s = l'.foldl f s := by
  have hperm : l.dedup.Perm l'.dedup := by
    apply (List.perm_ext_iff_of_nodup (List.nodup_dedup l) (List.nodup_dedup l')).mpr
    intro a
    rw [List.mem_dedup, List.mem_dedup, h]
  rw [← foldl_dedup hcomm hidem l, ← foldl_dedup hcomm hidem l']
  exact hperm.foldl_eq' (fun a _ b _ s => hcomm s a b) s

end Fold

namespace ProtoHopZ
variable {P : Primitives}

/-- The growth step of `ack_handler`, on the window. -/
def grownWindow (sshthresh cwnd : ℚ) : ℚ :=
  if cwnd < sshthresh then min (cwnd + 1) maxCwnd else min (cwnd + 1 / cwnd) maxCwnd

/-- `ack_handler` on one acknowledgement after the other. -/
def handleAcks (t : ProtoHopZ P) (sequences : List UInt32) : ProtoHopZ P :=
  sequences.foldl (fun t sequence => (t.ackHandler sequence).1) t

/-! ## One acknowledgement -/

theorem ackHandler_of_notMem {t : ProtoHopZ P} {s : UInt32} (h : s ∉ t.inFlight) :
    (t.ackHandler s).1 = t := by
  rw [ackHandler, if_neg h]

/-- The packet `s` is acknowledged, before anyone is told that nothing is left in flight. -/
def acknowledge (t : ProtoHopZ P) (s : UInt32) : ProtoHopZ P :=
  { t with inFlight := t.inFlight.erase s, cwnd := (t.cwnd.update t.nextCwnd).notifyOne }

theorem ackHandler_of_mem {t : ProtoHopZ P} {s : UInt32} (h : s ∈ t.inFlight) :
    (t.ackHandler s).1 = (t.acknowledge s).signalIfDrained := by
  rw [ackHandler, if_pos h]
  rfl

theorem signalIfDrained_of_mem {t : ProtoHopZ P} {s : UInt32} (h : s ∈ t.inFlight) :
    t.signalIfDrained = t := by
  refine if_neg fun hempty => ?_
  have hs := Finmap.mem_keys.mpr h
  rw [hempty] at hs
  exact Finset.notMem_empty s hs

@[simp] theorem inFlight_signalIfDrained (t : ProtoHopZ P) :
    t.signalIfDrained.inFlight = t.inFlight := by
  unfold signalIfDrained
  split <;> rfl

@[simp] theorem cwnd_signalIfDrained (t : ProtoHopZ P) : t.signalIfDrained.cwnd = t.cwnd := by
  unfold signalIfDrained
  split <;> rfl

@[simp] theorem sshthresh_signalIfDrained (t : ProtoHopZ P) :
    t.signalIfDrained.sshthresh = t.sshthresh := by
  unfold signalIfDrained
  split <;> rfl

/-- Two packets are acknowledged in either order. -/
theorem acknowledge_comm (t : ProtoHopZ P) (s s' : UInt32) :
    (t.acknowledge s).acknowledge s' = (t.acknowledge s').acknowledge s := by
  unfold acknowledge
  dsimp only
  rw [Finmap.erase_erase]
  rfl

/-- What `ack_handler` leaves of `in_flight_`. -/
theorem inFlight_ackHandler (t : ProtoHopZ P) (s : UInt32) :
    (t.ackHandler s).1.inFlight = t.inFlight.erase s := by
  by_cases h : s ∈ t.inFlight
  · rw [ackHandler_of_mem h, inFlight_signalIfDrained]
    rfl
  · rw [ackHandler_of_notMem h, FiniteMap.erase_of_notMem h]

/-- A second acknowledgement of a packet does nothing. -/
theorem ackHandler_idem (t : ProtoHopZ P) (s : UInt32) :
    ((t.ackHandler s).1.ackHandler s).1 = (t.ackHandler s).1 := by
  apply ackHandler_of_notMem
  rw [inFlight_ackHandler]
  exact Finmap.notMem_erase_self

/-- Two acknowledgements, of packets that are both in flight. -/
theorem ackHandler_of_mem_of_mem {t : ProtoHopZ P} {s s' : UInt32} (hne : s ≠ s')
    (hs : s ∈ t.inFlight) (hs' : s' ∈ t.inFlight) :
    ((t.ackHandler s).1.ackHandler s').1 = ((t.acknowledge s).acknowledge s').signalIfDrained := by
  have hleft : s' ∈ (t.acknowledge s).inFlight := Finmap.mem_erase.mpr ⟨Ne.symm hne, hs'⟩
  rw [ackHandler_of_mem hs, signalIfDrained_of_mem hleft, ackHandler_of_mem hleft]

theorem ackHandler_comm (t : ProtoHopZ P) (s s' : UInt32) :
    ((t.ackHandler s).1.ackHandler s').1 = ((t.ackHandler s').1.ackHandler s).1 := by
  by_cases hne : s = s'
  · rw [hne]
  -- An acknowledgement of a packet that is not in flight is not one afterwards either.
  have hkeep : ∀ {a b : UInt32}, a ∉ t.inFlight → a ∉ (t.ackHandler b).1.inFlight := by
    intro a b ha hmem
    rw [inFlight_ackHandler] at hmem
    exact ha (Finmap.mem_erase.mp hmem).2
  by_cases hs : s ∈ t.inFlight
  · by_cases hs' : s' ∈ t.inFlight
    · rw [ackHandler_of_mem_of_mem hne hs hs', ackHandler_of_mem_of_mem (Ne.symm hne) hs' hs,
        acknowledge_comm]
    · rw [ackHandler_of_notMem (hkeep hs'), ackHandler_of_notMem hs']
  · rw [ackHandler_of_notMem hs, ackHandler_of_notMem (hkeep hs)]

/-! ## A list of acknowledgements -/

theorem handleAcks_cons (t : ProtoHopZ P) (s : UInt32) (l : List UInt32) :
    t.handleAcks (s :: l) = (t.ackHandler s).1.handleAcks l := rfl

theorem keys_handleAcks (t : ProtoHopZ P) (l : List UInt32) :
    (t.handleAcks l).inFlight.keys = t.inFlight.keys.filter (· ∉ l) := by
  induction l generalizing t with
  | nil => simp [handleAcks]
  | cons s l ih =>
      rw [handleAcks_cons, ih, inFlight_ackHandler, Finmap.keys_erase]
      ext k
      simp only [Finset.mem_filter, Finset.mem_erase, List.mem_cons, not_or]
      tauto

theorem sshthresh_handleAcks (t : ProtoHopZ P) (l : List UInt32) :
    (t.handleAcks l).sshthresh = t.sshthresh := by
  induction l generalizing t with
  | nil => rfl
  | cons s l ih =>
      rw [handleAcks_cons, ih]
      by_cases h : s ∈ t.inFlight
      · rw [ackHandler_of_mem h, sshthresh_signalIfDrained]
        rfl
      · rw [ackHandler_of_notMem h]

/-- The packets of a list that are in flight, without its first number. -/
theorem card_filter_mem_cons {keys : Finset UInt32} {s : UInt32} (hs : s ∈ keys)
    (l : List UInt32) :
    (keys.filter (· ∈ s :: l)).card = ((keys.erase s).filter (· ∈ l)).card + 1 := by
  have hsplit : keys.filter (· ∈ s :: l) = insert s ((keys.erase s).filter (· ∈ l)) := by
    ext k
    simp only [Finset.mem_filter, Finset.mem_insert, Finset.mem_erase, List.mem_cons]
    by_cases hk : k = s
    · simp [hk, hs]
    · simp [hk]
  rw [hsplit]
  apply Finset.card_insert_of_notMem
  simp

/-- The window has grown once for each packet in flight that the list acknowledges. -/
theorem cwnd_handleAcks (t : ProtoHopZ P) (l : List UInt32) :
    (t.handleAcks l).cwnd.value =
      (grownWindow t.sshthresh)^[(t.inFlight.keys.filter (· ∈ l)).card] t.cwnd.value := by
  induction l generalizing t with
  | nil => simp [handleAcks]
  | cons s l ih =>
      rw [handleAcks_cons, ih]
      by_cases h : s ∈ t.inFlight
      · have hvalue : (t.ackHandler s).1.cwnd.value = grownWindow t.sshthresh t.cwnd.value := by
          rw [ackHandler_of_mem h, cwnd_signalIfDrained]
          exact AsyncValue.value_notifyOne _
        have hthresh : (t.ackHandler s).1.sshthresh = t.sshthresh := by
          rw [ackHandler_of_mem h, sshthresh_signalIfDrained]
          rfl
        rw [hvalue, hthresh, inFlight_ackHandler, Finmap.keys_erase,
          card_filter_mem_cons (Finmap.mem_keys.mpr h), Function.iterate_succ_apply]
      · have hsame : t.inFlight.keys.filter (· ∈ s :: l) = t.inFlight.keys.filter (· ∈ l) := by
          apply Finset.filter_congr
          intro k hk
          have hks : k ≠ s := fun hks => h (Finmap.mem_keys.mp (hks ▸ hk))
          simp [hks]
        rw [ackHandler_of_notMem h, hsame]

/-- **Order and repetition of acknowledgements do not matter**, and the window grows once for
each packet that they take out of flight. -/
theorem acks_of_same_numbers {l l' : List UInt32} (hsame : ∀ s, s ∈ l ↔ s ∈ l')
    (t : ProtoHopZ P) :
    t.handleAcks l = t.handleAcks l' ∧
      (t.handleAcks l).inFlight = (t.handleAcks l').inFlight ∧
      (t.handleAcks l).cwnd.value = (t.handleAcks l').cwnd.value ∧
      (t.handleAcks l).sshthresh = (t.handleAcks l').sshthresh ∧
      (t.handleAcks l).inFlight.keys = t.inFlight.keys.filter (· ∉ l) ∧
      (t.handleAcks l).sshthresh = t.sshthresh ∧
      (t.handleAcks l).cwnd.value =
        (grownWindow t.sshthresh)^[(t.inFlight.keys.filter (· ∈ l)).card] t.cwnd.value := by
  have hstate : t.handleAcks l = t.handleAcks l' :=
    foldl_of_same_elements ackHandler_comm ackHandler_idem hsame t
  refine ⟨hstate, by rw [hstate], by rw [hstate], by rw [hstate], ?_⟩
  exact ⟨t.keys_handleAcks l, t.sshthresh_handleAcks l, t.cwnd_handleAcks l⟩

/-- What is in flight under the number `sequence`. -/
def sampleInFlight (sequence : UInt32) : PacketLocal :=
  { sendTime := 0, packet := .blank { type := .data, size := 0, sequence } }

/-- A sender with packets 7 and 8 in flight. -/
def twoInFlight : ProtoHopZ Primitives.additive :=
  { construct Primitives.additive ⟨1, 9⟩ with
    inFlight := (Finmap.singleton 7 (sampleInFlight 7)).insert 8 (sampleInFlight 8) }

/-- They are acknowledged in one order and one of them twice, and in the other order. -/
theorem acks_of_same_numbers_repeated :
    twoInFlight.handleAcks [7, 8, 7] = twoInFlight.handleAcks [8, 7] ∧
      (twoInFlight.handleAcks [7, 8, 7]).inFlight.keys = ∅ ∧
      (twoInFlight.handleAcks [7, 8, 7]).cwnd.value =
        (grownWindow twoInFlight.sshthresh)^[2] twoInFlight.cwnd.value := by
  obtain ⟨hstate, -, -, -, hkeys, -, hcwnd⟩ :=
    @acks_of_same_numbers _ [7, 8, 7] [8, 7] (by simp) twoInFlight
  have hboth : (twoInFlight.inFlight.keys.filter (· ∈ [7, 8, 7])).card = 2 := by decide
  rw [hboth] at hcwnd
  exact ⟨hstate, hkeys.trans (by decide), hcwnd⟩

end ProtoHopZ
end FileHopZ
