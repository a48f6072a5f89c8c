import FileHopZ.Dialogue.Transfer
import FileHopZ.Receiver.Abandoning

/-! # All or nothing

Until the receiver has accepted `END_TRANSFER`, nothing is different outside the staging directory,
whatever has failed; and from then on every file and link of the source is on the disk, where it was
staged or where it belongs.  A receiver that has given up leaves no trace but, at most, the empty
staging directory.
-/
namespace FileHopZ
open FileSystem FileTree FileBuilder

namespace Receiver
variable {start r r' : Receiver} {asked : List Bytes} {got : List Chunk}

/-- Outside the loop of `start_transfer`, `start` leaves the disk as it is. -/
theorem step_keeps {e : Event} (h : Step r e r') :
    (∃ arrival, e = .received arrival ∧ r.frame = .transferring ∧ r' = (r.transferred arrival).1) ∨
      r'.disk = r.disk ∧ r'.endTransferFlag = r.endTransferFlag ∧ r.frame ≠ .transferring ∧
        r'.frame ≠ .closing := by
  cases h with
  | announced arrival hframe =>
      obtain ⟨hdisk, hflag, ⟨chunk, -, hasking⟩ | ⟨ec, hreturned⟩⟩ := announced_frame r arrival
      · exact Or.inr ⟨hdisk, hflag, by simp [hframe], by simp [hasking]⟩
      · exact Or.inr ⟨hdisk, hflag, by simp [hframe], by simp [hreturned]⟩
  | answered line hframe =>
      refine Or.inr ?_
      unfold answered
      split_ifs
      · exact ⟨rfl, rfl, by simp [hframe], by simp⟩
      · exact ⟨rfl, rfl, by simp [hframe], by simp⟩
      · exact ⟨rfl, rfl, by simp [hframe], by simp [hframe]⟩
  | transferred arrival hframe => exact Or.inl ⟨arrival, rfl, hframe, rfl⟩
  | unconfirmed ec hframe => exact Or.inr ⟨rfl, rfl, by simp [hframe], by simp⟩
  | confirmed hframe => exact Or.inr ⟨rfl, rfl, by simp [hframe], by simp⟩
  | refused ec hframe => exact Or.inr ⟨rfl, rfl, by simp [hframe], by simp⟩
  | closed ec hframe => exact Or.inr ⟨rfl, rfl, by simp [hframe], by simp⟩

theorem finishTransfer_disk (r : Receiver) (arrival : Arrival) :
    (r.finishTransfer arrival).disk = (r.fileBuilder.commit arrival.commit r.disk).2.1 := by
  unfold finishTransfer
  split
  rename_i heq
  rw [heq]

/-- Nor has anything been built before it. -/
theorem Takes.unbuilt {frame : ReceiverFrame} (h : Takes start r frame asked got)
    (htransferring : frame ≠ .transferring) (hclosing : frame ≠ .closing)
    (hreturned : ∀ ec, frame ≠ .returned ec) : r.disk = start.disk := by
  cases h with
  | announcing hr => rw [hr]
  | announced arrival _ _ _ hr =>
      rw [hr]
      exact (announced_frame start arrival).1
  | transferring => exact absurd rfl htransferring
  | closing => exact absurd rfl hclosing
  | returned ec => exact absurd rfl (hreturned ec)

end Receiver

namespace Transfer
variable {P : Primitives} {sys : System} {root : List Bytes} {memory : FTProto.Packet}
  {r : Receiver} {address : Role → Endpoint} {tr : List (Role × Dialogue.Observation)}
  {d : Dialogue P (party sys)} {source : Source} {staging : Location Bytes}
open Dialogue

/-- `remove_all` does not fail. -/
def RemovesAll (_ : Dialogue P (party sys)) (e : Event P (party sys)) : Prop :=
  ∀ arrival, e = arrives P sys arrival → arrival.removeAll = none

/-- The iterator of `commit` goes through each staged entry once. -/
def Iterates (staging : Location Bytes) (d : Dialogue P (party sys)) (e : Event P (party sys)) :
    Prop :=
  ∀ arrival, e = arrives P sys arrival →
    ((receiver d).transferred arrival).1.endTransferFlag = true →
    Enumerates (receiver d).disk staging (arrival.commit.entries.map Prod.fst)

section Run
variable (hP : P.Lawful) (hshows : Shows sys root source) (hroom : Sender.AllHaveRoom source)
  (htotal : source.size < 2 ^ 64) (hframe : r.frame = .announcing)
  (hflag : r.endTransferFlag = false)

include hP hshows hroom htotal hframe hflag

/-! ## Nothing -/

/-- In the loop of `start_transfer`, what is built is inside; what is given up is taken away. -/
theorem untouched_arrives (hfresh : r.Fresh staging) (hne : staging ≠ [])
    (hrun : Transition.Run step (Fair address) (construct P sys root memory r address) tr d)
    {arrival : Receiver.Arrival} {d' : Dialogue P (party sys)}
    {out : List (Role × Dialogue.Observation)} (hs : d.step (arrives P sys arrival) = some (d', out))
    (hbefore : (receiver d).frame = .transferring)
    (hunended : ((receiver d).transferred arrival).1.endTransferFlag = false) :
    r.disk.SameOutside staging ((receiver d).transferred arrival).1.disk ∧
      (((receiver d).transferred arrival).1.frame = .transferring ∨
        (arrival.removeAll = none →
          ∀ q, staging <+: q → ((receiver d).transferred arrival).1.disk.node q = none)) := by
  obtain ⟨r₀, arrivals, chunks, rest, hway⟩ :=
    underway_run hP hshows hroom htotal hfresh hframe hflag hrun hbefore
  obtain ⟨hsame, hinside⟩ := Receiver.inside_accepted hroom hway.told hway.entries hway.accepted
    hway.took hway.first
  obtain ⟨hsame', hleft⟩ := Receiver.untouched_transferred hinside hne (fun chunk packet hresult
    hpacket => Receiver.staysInside_next hroom hway.told hway.entries hway.accepted hway.took
      (hway.next arrival d' out chunk hs hresult) hpacket arrival.faults arrival.beyond) hunended
  rw [hbefore] at hleft
  rw [hway.disk] at hsame
  exact ⟨hsame.trans hsame', hleft⟩

/-- What holds of a receiver that has not accepted `END_TRANSFER`; `removes` says that no
`remove_all` fails. -/
structure Untouched (staging : Location Bytes) (removes : Prop) (r r' : Receiver) : Prop where
  outside : r.disk.SameOutside staging r'.disk
  clean : ∀ ec, r'.frame = .returned ec → removes → ∀ q, q ≠ staging →
    r'.disk.node q = r.disk.node q

/-- **The run lemma.** -/
theorem untouched_run (hfresh : r.Fresh staging) (hne : staging ≠ []) (removes : Prop)
    (hrun : Transition.Run step (fun d e => Fair address d e ∧ (removes → RemovesAll d e))
      (construct P sys root memory r address) tr d) :
    ((receiver d).frame = .closing → (receiver d).endTransferFlag = true) ∧
      ((receiver d).endTransferFlag = false → Untouched staging removes r (receiver d)) := by
  induction hrun with
  | start =>
      have hself : receiver (construct P sys root memory r address) = r := rfl
      rw [hself]
      exact ⟨by simp [hframe], fun _ => ⟨.refl _ _, fun ec hreturned => by simp [hframe] at hreturned⟩⟩
  | @next tr d d' e out hrun hok hs ih =>
      have hfair : Transition.Run step (Fair address) (construct P sys root memory r address) tr d :=
        hrun.weaken fun _ _ h => h.1
      obtain hsame | ⟨e', rfl, hstep⟩ := receiver_step hs
      · rwa [hsame]
      obtain ⟨arrival, rfl, hbefore, heq⟩ | ⟨hdisk, hflag', hbefore, hclosing⟩ :=
        Receiver.step_keeps hstep
      · refine ⟨fun hclosing => ?_, fun hunended => ?_⟩
        · rw [heq] at hclosing ⊢
          exact Receiver.ended_of_closing hbefore hclosing
        · rw [heq] at hunended ⊢
          obtain ⟨hsame, hleft⟩ := untouched_arrives hP hshows hroom htotal hframe hflag hfresh hne
            hfair hs hbefore hunended
          refine ⟨hsame, fun ec hreturned hremoves q hq => ?_⟩
          rcases hleft with htransferring | hgone
          · rw [htransferring] at hreturned
            cases hreturned
          · by_cases hin : staging <+: q
            · obtain ⟨m, rfl⟩ := hin
              rw [hgone (hok.2 hremoves arrival rfl) _ (List.prefix_append _ _),
                hfresh.empty m (by simpa using hq)]
            · exact hsame q hin
      · refine ⟨fun h => absurd h hclosing, fun hunended => ?_⟩
        rw [hflag'] at hunended
        obtain ⟨hsame, hclean⟩ := ih.2 hunended
        refine ⟨fun q hq => by rw [hdisk, hsame q hq], fun ec hreturned hremoves q hq => ?_⟩
        rw [hdisk]
        by_cases hold : ∃ ec, (receiver d).frame = .returned ec
        · obtain ⟨ec', hold⟩ := hold
          exact hclean ec' hold hremoves q hq
        · obtain ⟨before, htakes, -⟩ := takes_run hframe hflag hfair
          rw [htakes.unbuilt hbefore (fun hclosing => ?_) fun ec h => hold ⟨ec, h⟩]
          rw [ih.1 hclosing] at hunended
          cases hunended

/-- **A receiver that gives up leaves no trace.**  If `start` has returned without having accepted
`END_TRANSFER`, and `remove_all` has not failed, then the disk is as it was when the receiver was
constructed, but for the staging directory, which is gone or still empty. -/
theorem abandoned_clean (hfresh : r.Fresh staging) (hne : staging ≠ [])
    (hrun : Transition.Run step (fun d e => Fair address d e ∧ RemovesAll d e)
      (construct P sys root memory r address) tr d) {ec : Option Error}
    (hreturned : (receiver d).frame = .returned ec)
    (hunended : (receiver d).endTransferFlag = false) :
    ∀ q, q ≠ staging → (receiver d).disk.node q = r.disk.node q := by
  have huntouched := (untouched_run hP hshows hroom htotal hframe hflag hfresh hne True
    (hrun.weaken fun _ _ h => ⟨h.1, fun _ => h.2⟩)).2 hunended
  exact huntouched.clean ec hreturned trivial

/-! ## All -/

/-- Every file and link of the source is on the disk: staged, with its place as it was, or in its
place.  What the source does not name is as it was. -/
structure Secured (source : Source) (staging root : Location Bytes) (before after : Disk) :
    Prop where
  leaves : ∀ m v, source.tree.node m = some v → v ≠ .directory →
    after.node (staging ++ m) = some v ∧ after.node (root ++ m) = before.node (root ++ m) ∨
      after.node (staging ++ m) = none ∧ after.node (root ++ m) = some v
  elsewhere : ∀ q, ¬ staging <+: q → (∀ m, q = root ++ m → source.tree.node m = none) →
    after.node q = before.node q

/-- Whatever `commit` returns. -/
theorem secured_of_ended {name : Bytes} (hfresh : r.Fresh (r.fileBuilder.root ++ [name]))
    (hname : source.tree.node [name] = none)
    (hrun : Transition.Run step (Fair address) (construct P sys root memory r address) tr d)
    {arrival : Receiver.Arrival} {d' : Dialogue P (party sys)}
    {out : List (Role × Dialogue.Observation)} (hs : d.step (arrives P sys arrival) = some (d', out))
    (hbefore : (receiver d).frame = .transferring)
    (hended : ((receiver d).transferred arrival).1.endTransferFlag = true)
    (hiterator : Enumerates (receiver d).disk (r.fileBuilder.root ++ [name])
      (arrival.commit.entries.map Prod.fst)) :
    Secured source (r.fileBuilder.root ++ [name]) r.fileBuilder.root r.disk
      ((receiver d).transferred arrival).1.disk := by
  obtain ⟨⟨ms, henum, hcopied⟩, hroot, hfinished⟩ :=
    copied_of_ended hP hshows hroom htotal hfresh hframe hflag hrun hs hbefore hended
  have hcopy := whole_copy henum hcopied
  have hstaged : (receiver d).fileBuilder.Staged (receiver d).disk name := by
    refine ⟨?_, ?_⟩
    · rw [hroot]
      exact hcopied.stagingRoot
    · rw [hroot]
      exact hcopied.there
  have hfree : (receiver d).disk.node ((receiver d).fileBuilder.root ++ [name] ++ [name]) = none := by
    rw [hroot, hcopy, hname]
  obtain ⟨hoverlaid, hconserved⟩ :=
    commit_unopened hstaged (by rwa [hroot]) hfree hcopied.openFiles
  rw [hroot] at hoverlaid hconserved hfree
  rw [hfinished, Receiver.finishTransfer_disk]
  dsimp only
  have hkept : ∀ m v, source.tree.node m = some v → v ≠ .directory →
      (receiver d).disk.node (r.fileBuilder.root ++ m) = r.disk.node (r.fileBuilder.root ++ m) := by
    intro m v hv hleaf
    refine hcopied.outside _ (not_below_staging hfree ?_ (by rw [hcopy, hv]; simp))
    rintro rfl
    rw [source.tree.root] at hv
    exact hleaf (Option.some.inj hv).symm
  have helsewhere : ∀ {u : Disk},
      SameElsewhere (r.fileBuilder.root ++ [name]) r.fileBuilder.root (receiver d).disk u →
      ∀ q, ¬ r.fileBuilder.root ++ [name] <+: q →
        (∀ m, q = r.fileBuilder.root ++ m → source.tree.node m = none) →
        u.node q = r.disk.node q := by
    intro u hsame q hq hnot
    rw [hsame q hq fun m hm => (hcopy m).trans (hnot m hm), hcopied.outside q hq]
  cases hec : ((receiver d).fileBuilder.commit arrival.commit (receiver d).disk).2.2 with
  | none =>
      have hover := hoverlaid hec
      refine ⟨fun m v hv hleaf => Or.inr ⟨hover.removed _ (List.prefix_append _ _), ?_⟩,
        helsewhere hover.elsewhere⟩
      rw [hover.staged m (by rw [hcopy, hv]; simp), hcopy, hv]
  | some ec =>
      have hcons := hconserved ec hec
      refine ⟨fun m v hv hleaf => ?_, helsewhere hcons.elsewhere⟩
      rw [← hkept m v hv hleaf]
      exact hcons.leaves m v ((hcopy m).trans hv) hleaf

/-- The run lemma. -/
theorem secured_run {name : Bytes} (hfresh : r.Fresh (r.fileBuilder.root ++ [name]))
    (hname : source.tree.node [name] = none)
    (hrun : Transition.Run step (fun d e => Fair address d e ∧
      Iterates (r.fileBuilder.root ++ [name]) d e) (construct P sys root memory r address) tr d)
    (hended : (receiver d).endTransferFlag = true) :
    Secured source (r.fileBuilder.root ++ [name]) r.fileBuilder.root r.disk (receiver d).disk := by
  induction hrun with
  | start =>
      rw [show r.endTransferFlag = true from hended] at hflag
      cases hflag
  | @next tr d d' e out hrun hok hs ih =>
      obtain hsame | ⟨e', rfl, hstep⟩ := receiver_step hs
      · rw [hsame] at hended ⊢
        exact ih hended
      obtain ⟨arrival, rfl, hbefore, heq⟩ | ⟨hdisk, hflag', -⟩ := Receiver.step_keeps hstep
      · rw [heq] at hended ⊢
        exact secured_of_ended hP hshows hroom htotal hframe hflag hfresh hname
          (hrun.weaken fun _ _ h => h.1) hs hbefore hended (hok.2 arrival rfl hended)
      · rw [hflag'] at hended
        obtain ⟨hleaves, helsewhere⟩ := ih hended
        rw [← hdisk] at hleaves helsewhere
        exact ⟨hleaves, helsewhere⟩

/-- **All or nothing.**  As long as the receiver has not accepted `END_TRANSFER`, nothing has changed
outside the staging directory.  Once it has, every file and link of the source is on the disk, staged
or in its place, and what the source does not name is as it was. -/
theorem all_or_nothing {name : Bytes} (hfresh : r.Fresh (r.fileBuilder.root ++ [name]))
    (hname : source.tree.node [name] = none)
    (hrun : Transition.Run step (fun d e => Fair address d e ∧
      Iterates (r.fileBuilder.root ++ [name]) d e) (construct P sys root memory r address) tr d) :
    ((receiver d).endTransferFlag = false →
        r.disk.SameOutside (r.fileBuilder.root ++ [name]) (receiver d).disk) ∧
      ((receiver d).endTransferFlag = true →
        Secured source (r.fileBuilder.root ++ [name]) r.fileBuilder.root r.disk
          (receiver d).disk) := by
  have huntouched := untouched_run hP hshows hroom htotal hframe hflag hfresh (by simp) False
    (hrun.weaken fun _ _ h => ⟨h.1, False.elim⟩)
  exact ⟨fun h => (huntouched.2 h).outside,
    secured_run hP hshows hroom htotal hframe hflag hfresh hname hrun⟩

end Run

/-! ## Transfers to run -/

/-- A transfer that does not end meets the conditions, if `remove_all` does not fail. -/
def unendedTest (d : Dialogue .additive (party sampleSystem)) :
    Event .additive (party sampleSystem) → Bool
  | .program .responder e =>
      match (show Receiver.Event from e) with
      | .received arrival => arrival.removeAll.isNone &&
          !((receiver d).transferred arrival).1.endTransferFlag
      | _ => true
  | _ => true

theorem unended_of_test {d : Dialogue .additive (party sampleSystem)}
    {e : Event .additive (party sampleSystem)} (h : unendedTest d e = true) :
    RemovesAll d e ∧ ∀ staging, Iterates staging d e := by
  refine ⟨fun arrival he => ?_, fun staging arrival he hended => ?_⟩
  · subst he
    exact Option.isNone_iff_eq_none.mp (Bool.and_eq_true_iff.mp h).1
  · subst he
    have hunended := (Bool.and_eq_true_iff.mp h).2
    rw [hended] at hunended
    cases hunended

/-- The link cannot be made: what has been staged is removed. -/
def sampleFailed : Receiver.Arrival :=
  { sampleArrival sampleLink with faults := { symlink := { symlink := some .noEntry } } }

theorem abandoned_clean_failed : ∃ tr d,
    Transition.Run step (fun d e => Fair Session.sampleAddress d e ∧ RemovesAll d e) sampleStart tr d ∧
      (receiver d).frame = .returned (some (toBoostError .noEntry)) ∧
      ∀ q, q ≠ [[111], [115]] → (receiver d).disk.node q = Receiver.sampleDisk.node q := by
  obtain ⟨tr, d, hrun, hp⟩ := Transition.exists_run step
    (fun d e => Fair Session.sampleAddress d e ∧ RemovesAll d e) sampleStart
    (sampleAsked ++ (sampleConfirmed ++ sampleReceives (.received sampleFailed)))
    (fun _ d => decide ((receiver d).frame = .returned (some (toBoostError .noEntry))) &&
      !(receiver d).endTransferFlag)
    (fun d e => decide (Fair Session.sampleAddress d e) && unendedTest d e)
    (fun _ _ h => ⟨of_decide_eq_true (Bool.and_eq_true_iff.mp h).1,
      (unended_of_test (Bool.and_eq_true_iff.mp h).2).1⟩) (by decide +kernel)
  rw [Bool.and_eq_true, Bool.not_eq_true'] at hp
  have hreturned := of_decide_eq_true hp.1
  exact ⟨tr, d, hrun, hreturned, abandoned_clean Primitives.additive_lawful sampleSource_shown
    sampleSource_room (by decide) rfl rfl (Receiver.sampleReceiver_fresh 0) (by simp) hrun hreturned
    hp.2⟩

/-- `commit` goes through what has been staged when the last packet comes. -/
theorem iterates_sampleLast {tr : List (Role × Dialogue.Observation)}
    {d d' : Dialogue .additive (party sampleSystem)} {out : List (Role × Dialogue.Observation)}
    (hrun : Transition.Run step (Fair Session.sampleAddress) sampleStart tr d)
    (hs : d.step (arrives .additive sampleSystem sampleLast) = some (d', out))
    (hbefore : (receiver d).frame = .transferring)
    (hended : ((receiver d).transferred sampleLast).1.endTransferFlag = true) :
    Iterates [[111], [115]] d (arrives .additive sampleSystem sampleLast) := by
  obtain ⟨⟨ms, henum, hcopied⟩, -⟩ := copied_of_ended Primitives.additive_lawful
    sampleSource_shown sampleSource_room (by decide) (Receiver.sampleReceiver_fresh 0) rfl rfl hrun hs
    hbefore hended
  rintro arrival he -
  obtain rfl : sampleLast = arrival := by
    cases he
    rfl
  exact enumerates_copy sampleSource.enumerates (whole_copy henum hcopied)

/-- The transfer has ended, and the directory and the link have been committed. -/
theorem all_or_nothing_ended : ∃ tr d,
    Transition.Run step (fun d e => Fair Session.sampleAddress d e ∧ Iterates [[111], [115]] d e)
        sampleStart tr d ∧
      (receiver d).endTransferFlag = true ∧
      Secured sampleSource [[111], [115]] [[111]] Receiver.sampleDisk (receiver d).disk := by
  obtain ⟨tr, d, hrun, hp⟩ := Transition.exists_run step
    (fun d e => Fair Session.sampleAddress d e ∧ Iterates [[111], [115]] d e) sampleStart
    (sampleAsked ++ sampleTransferred)
    (fun _ d => decide ((receiver d).frame = .transferring) &&
      ((receiver d).transferred sampleLast).1.endTransferFlag &&
      (d.step (arrives .additive sampleSystem sampleLast)).isSome)
    (fun d e => decide (Fair Session.sampleAddress d e) && unendedTest d e)
    (fun _ _ h => ⟨of_decide_eq_true (Bool.and_eq_true_iff.mp h).1,
      (unended_of_test (Bool.and_eq_true_iff.mp h).2).2 _⟩) (by decide +kernel)
  simp only [Bool.and_eq_true] at hp
  obtain ⟨⟨hbefore, hended⟩, hs⟩ := hp
  obtain ⟨⟨d', out⟩, hs⟩ := Option.isSome_iff_exists.mp hs
  have hbefore := of_decide_eq_true hbefore
  have hiterates := iterates_sampleLast (hrun.weaken fun _ _ h => h.1) hs hbefore hended
  have hok : Fair Session.sampleAddress d (arrives .additive sampleSystem sampleLast) ∧
      Iterates [[111], [115]] d (arrives .additive sampleSystem sampleLast) := ⟨trivial, hiterates⟩
  have hrun' := hrun.next hok hs
  have hended' : (receiver d').endTransferFlag = true := by
    rw [receiver_arrives hs hbefore, hended]
  exact ⟨_, d', hrun', hended', (all_or_nothing Primitives.additive_lawful sampleSource_shown
    sampleSource_room (by decide) rfl rfl (Receiver.sampleReceiver_fresh 0) (by decide) hrun').2
    hended'⟩

end Transfer
end FileHopZ
