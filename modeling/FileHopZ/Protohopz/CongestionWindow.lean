import FileHopZ.Library.Map
import FileHopZ.Protohopz.Effects
import Mathlib.Tactic.Linarith
import Mathlib.Tactic.Positivity
import Mathlib.Tactic.NormNum

/-! # The congestion window

`cwnd_` and `sshthresh_` are written in three places: `ack_handler` grows the
window, `timeout_loop` collapses it, and nothing else touches it.  `in_flight_`
grows only in `send_packet`, whose window check and insertion run without a
suspension in between.

`Resizes` says so for every step of the transport; the bounds on the three
(`Windowed`) follow from it, whatever the interleaving.
-/
namespace FileHopZ
namespace ProtoHopZ
variable {P : Primitives}

/-- What a step can do to the window and to the set of packets in flight. -/
inductive Resizes (t t' : ProtoHopZ P) (out : List Observation) : Prop
  | same (hcwnd : t'.cwnd.value = t.cwnd.value) (hsshthresh : t'.sshthresh = t.sshthresh)
      (hflight : t'.inFlight.keys ⊆ t.inFlight.keys)
      (hout : ∀ i packet plaintext, .registered i packet plaintext ∉ out)
  /-- `send_packet` has passed its window check and registers a packet. -/
  | registered (hopen : t.blocked = false) (hcwnd : t'.cwnd.value = t.cwnd.value)
      (hsshthresh : t'.sshthresh = t.sshthresh)
      (hflight : t'.inFlight.keys = insert t.sequenceCounter t.inFlight.keys)
  | acked (hcwnd : t'.cwnd.value = t.nextCwnd) (hsshthresh : t'.sshthresh = t.sshthresh)
      (hflight : t'.inFlight.keys ⊆ t.inFlight.keys)
      (hout : ∀ i packet plaintext, .registered i packet plaintext ∉ out)
  | timedOut (hcwnd : t'.cwnd.value = 1) (hsshthresh : t'.sshthresh = max (t.cwnd.value / 2) 2)
      (hflight : t'.inFlight.keys ⊆ t.inFlight.keys) (hout : out = [])

/-- Signalling that `in_flight_` is empty leaves the window alone. -/
theorem Resizes.signalIfDrained {t t' : ProtoHopZ P} {out : List Observation}
    (h : Resizes t t' out) : Resizes t t'.signalIfDrained out := by
  rw [signalIfDrained_eq]
  cases h with
  | same hcwnd hsshthresh hflight hout => exact .same hcwnd hsshthresh hflight hout
  | registered hopen hcwnd hsshthresh hflight => exact .registered hopen hcwnd hsshthresh hflight
  | acked hcwnd hsshthresh hflight hout => exact .acked hcwnd hsshthresh hflight hout
  | timedOut hcwnd hsshthresh hflight hout => exact .timedOut hcwnd hsshthresh hflight hout

theorem resizes_handleLoopResult {t u : ProtoHopZ P} (ec : Option Error) (hcwnd : u.cwnd = t.cwnd)
    (hsshthresh : u.sshthresh = t.sshthresh) (hflight : u.inFlight = t.inFlight) :
    Resizes t (u.handleLoopResult ec) [] := by
  unfold handleLoopResult
  split_ifs
  · exact .same (by rw [hcwnd]) hsshthresh (by rw [hflight]) (by simp)
  unfold storeLoopError
  split
  · exact .same (by simp [hcwnd]) hsshthresh (by simp [hflight]) (by simp)
  · exact .same (by rw [hcwnd]) hsshthresh (by rw [hflight]) (by simp)

theorem Resumes.value_eq {t : ProtoHopZ P} {i : Nat} {source : Packet} {cwnd : AsyncValue Nat ℚ}
    (h : t.Resumes i source cwnd) : cwnd.value = t.cwnd.value := by
  rcases h with ⟨-, rfl⟩ | ⟨-, -, rfl⟩
  · rfl
  · rfl

/-- **What a step can do to the window.** -/
theorem resizes_step {t t' : ProtoHopZ P} {e : Event P} {out : List Observation}
    (hs : t.step e = some (t', out)) : Resizes t t' out := by
  have hsame : ∀ (t' : ProtoHopZ P) (out : List Observation), t'.cwnd.value = t.cwnd.value →
      t'.sshthresh = t.sshthresh → t'.inFlight.keys = t.inFlight.keys →
      (∀ i packet plaintext, .registered i packet plaintext ∉ out) → Resizes t t' out :=
    fun t' out hcwnd hsshthresh hflight hout => .same hcwnd hsshthresh hflight.subset hout
  cases step_cases hs with
  | refused _ _ _ _ _ _ _ hcall | delayed _ _ _ _ _ _ hcall | unencrypted _ _ _ _ _ _ _ hcall =>
      exact hsame _ _ hcall.value_eq rfl rfl (by simp)
  | registered _ _ _ _ _ _ _ hcall _ hopen =>
      exact .registered hopen hcall.value_eq rfl (FiniteMap.keys_insert _ _ _)
  | unsent =>
      exact Resizes.signalIfDrained (.same (AsyncValue.value_notifyOne _) rfl
        (FiniteMap.keys_erase_subset _ _) (by simp))
  | acked =>
      exact Resizes.signalIfDrained (.acked (by simp) rfl (FiniteMap.keys_erase_subset _ _)
        (by simp))
  | repeated | undecrypted | accepted => exact hsame _ _ rfl rfl rfl (by simp [sendAck])
  | receiveLoopResult | timeoutLoopResult => exact resizes_handleLoopResult _ rfl rfl rfl
  | timedOut => exact .timedOut rfl rfl (Finset.Subset.refl _) rfl
  | resent => exact hsame _ _ rfl rfl (keys_touch _ _ _) (by simp)
  | resumeStop => exact .same rfl rfl (by simp [stopLoops]) (by simp)
  | shakes _ _ _ _ h => cases h <;> exact hsame _ _ rfl rfl rfl (by simp)
  | startLoops | sendPacket | transmitSend | sent | ignored | unread | tooLarge | receiveError
  | idled | checked | transmitResend | unresent | timer | awaitPacket | takePacket | cancelPacket
  | drain | resumeDrain | stop =>
      exact hsame _ _ rfl rfl rfl (by simp)

/-! ## The bounds -/

/-- The bounds on the window and on the number of packets in flight. -/
structure Windowed (t : ProtoHopZ P) : Prop where
  cwnd_pos : 1 ≤ t.cwnd.value
  cwnd_le : t.cwnd.value ≤ maxCwnd
  sshthresh : 2 ≤ t.sshthresh
  inFlight : t.inFlight.keys.card ≤ maxInFlight

theorem windowed_construct (peer : Endpoint) : (construct P peer).Windowed where
  cwnd_pos := by norm_num [construct, initialCwnd]
  cwnd_le := by norm_num [construct, initialCwnd, maxCwnd]
  sshthresh := by norm_num [construct]
  inFlight := Nat.zero_le _

/-- An open window has room for one more packet. -/
theorem card_lt_of_open {t : ProtoHopZ P} (h : t.blocked = false) :
    t.inFlight.keys.card < t.cwnd.value.floor.toNat ∧ t.inFlight.keys.card < maxInFlight := by
  rw [blocked, Bool.or_eq_false_iff, decide_eq_false_iff_not, decide_eq_false_iff_not] at h
  exact ⟨not_le.mp h.1, not_le.mp h.2⟩

/-- Growth keeps the window between 1 and `MAX_CWND`. -/
theorem Windowed.nextCwnd {t : ProtoHopZ P} (h : t.Windowed) :
    1 ≤ t.nextCwnd ∧ t.nextCwnd ≤ maxCwnd := by
  have hmax : (1 : ℚ) ≤ maxCwnd := by norm_num [maxCwnd]
  have hpos : 0 ≤ 1 / t.cwnd.value := by
    have := h.cwnd_pos
    positivity
  unfold ProtoHopZ.nextCwnd
  split_ifs
  · exact ⟨le_min (by linarith [h.cwnd_pos]) hmax, min_le_right _ _⟩
  · exact ⟨le_min (by linarith [h.cwnd_pos]) hmax, min_le_right _ _⟩

/-- **The step lemma**, with the bound that holds right after a registration. -/
theorem Windowed.step {t t' : ProtoHopZ P} {e : Event P} {out : List Observation} (h : t.Windowed)
    (hs : t.step e = some (t', out)) : t'.Windowed ∧
      ∀ i packet plaintext, .registered i packet plaintext ∈ out →
        t'.inFlight.keys.card ≤ t'.cwnd.value.floor.toNat := by
  cases resizes_step hs with
  | same hcwnd hsshthresh hflight hout =>
      refine ⟨⟨hcwnd ▸ h.cwnd_pos, hcwnd ▸ h.cwnd_le, hsshthresh ▸ h.sshthresh, ?_⟩,
        fun i p pl hmem => absurd hmem (hout i p pl)⟩
      exact (Finset.card_le_card hflight).trans h.inFlight
  | registered hopen hcwnd hsshthresh hflight =>
      obtain ⟨hwindow, hlimit⟩ := card_lt_of_open hopen
      have hcard : t'.inFlight.keys.card ≤ t.inFlight.keys.card + 1 := by
        rw [hflight]
        exact Finset.card_insert_le _ _
      refine ⟨⟨hcwnd ▸ h.cwnd_pos, hcwnd ▸ h.cwnd_le, hsshthresh ▸ h.sshthresh, by omega⟩, ?_⟩
      intro i p pl _
      rw [hcwnd]
      omega
  | acked hcwnd hsshthresh hflight hout =>
      refine ⟨⟨hcwnd ▸ h.nextCwnd.1, hcwnd ▸ h.nextCwnd.2, hsshthresh ▸ h.sshthresh, ?_⟩,
        fun i p pl hmem => absurd hmem (hout i p pl)⟩
      exact (Finset.card_le_card hflight).trans h.inFlight
  | timedOut hcwnd hsshthresh hflight hout =>
      refine ⟨⟨hcwnd.ge, ?_, ?_, (Finset.card_le_card hflight).trans h.inFlight⟩, ?_⟩
      · rw [hcwnd]
        norm_num [maxCwnd]
      · rw [hsshthresh]
        exact le_max_right _ _
      · intro i p pl hmem
        rw [hout] at hmem
        cases hmem

/-- A blocked call has something in flight. -/
theorem keys_ne_empty_of_blocked {t : ProtoHopZ P} (hc : 1 ≤ t.cwnd.value)
    (hb : t.blocked = true) : t.inFlight.keys ≠ ∅ := by
  intro he
  have hfloor : 1 ≤ t.cwnd.value.floor := Rat.le_floor_iff.mpr (by exact_mod_cast hc)
  rw [blocked, he] at hb
  simp [maxInFlight] at hb
  omega

/-- With nothing in flight the window is open. -/
theorem Windowed.not_blocked {t : ProtoHopZ P} (h : t.Windowed) (hempty : t.inFlight.keys = ∅) :
    t.blocked = false := by
  by_contra hb
  exact keys_ne_empty_of_blocked h.cwnd_pos (by simpa using hb) hempty

/-- **The congestion window.**  In every run, whatever the interleaving of sends,
datagrams, timeouts and errors: the window lies between 1 and `MAX_CWND`, the
threshold is at least 2, at most `MAX_IN_FLIGHT` packets are in flight, and no more
than the window right after a registration.  So `1.0 / cwnd_` is defined, and a
call that finds nothing in flight is not blocked. -/
theorem window_bounds {peer : Endpoint} {tr : List Observation} {t : ProtoHopZ P}
    (hrun : Transition.Run step Transition.Always (construct P peer) tr t) :
    (1 ≤ t.cwnd.value ∧ t.cwnd.value ≤ maxCwnd ∧ 2 ≤ t.sshthresh ∧
      t.inFlight.keys.card ≤ maxInFlight) ∧
    (∀ e t' out i packet plaintext, t.step e = some (t', out) →
      .registered i packet plaintext ∈ out →
        t'.inFlight.keys.card ≤ t'.cwnd.value.floor.toNat) ∧
    t.cwnd.value ≠ 0 ∧ (t.inFlight.keys = ∅ → t.blocked = false) := by
  have h : t.Windowed := hrun.invariant (I := fun _ t => t.Windowed) (windowed_construct peer)
    fun _ _ _ _ _ ih _ hs => (ih.step hs).1
  refine ⟨⟨h.cwnd_pos, h.cwnd_le, h.sshthresh, h.inFlight⟩, ?_, ?_, h.not_blocked⟩
  · intro e t' out i packet plaintext hs hmem
    exact (h.step hs).2 i packet plaintext hmem
  · have := h.cwnd_pos
    positivity

/-- A peer, a nonce and a packet for the runs below. -/
def samplePeer : Endpoint := ⟨1, 9⟩

def sampleNonce : Nonce := .zero

def samplePacket : Packet := .blank { type := .data, size := 4, sequence := 0 }

/-- Two packets are sent, one is acknowledged, the other times out. -/
theorem window_bounds_sent : ∃ tr t,
    Transition.Run step Transition.Always (construct .additive samplePeer) tr t ∧
      t.inFlight.keys.card = 1 ∧ t.cwnd.value = 1 ∧ 2 ≤ t.sshthresh := by
  obtain ⟨tr, t, hrun, hp⟩ := Transition.exists_run step Transition.Always
    (construct .additive samplePeer)
    [.startLoops 0, .sendPacket 0 samplePacket, .resumeSend 0 none sampleNonce 0, .transmitSend 0,
      .finishSend 0 none, .sendPacket 1 samplePacket, .resumeSend 1 none sampleNonce 0,
      .transmitSend 1, .finishSend 1 none,
      .datagram samplePeer samplePacket (ackPacket 0).datagram 1 none, .timeoutIteration 200 [1]]
    (fun _ t => decide (t.inFlight.keys.card = 1) && decide (t.cwnd.value = 1))
    (fun _ _ => true) (fun _ _ _ => trivial) (by decide +kernel)
  rw [Bool.and_eq_true, decide_eq_true_eq, decide_eq_true_eq] at hp
  exact ⟨tr, t, hrun, hp.1, hp.2, (window_bounds hrun).1.2.2.1⟩

end ProtoHopZ
end FileHopZ
