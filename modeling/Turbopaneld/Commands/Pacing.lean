/-
# Resends stay inside the frame budget

Whatever is kept, opened, attached, repeated or acknowledged, and however the awaits of the
outbox interleave, what `sendKept` sends on one socket is at most sixty frames in any sixty
seconds.  The window of the outbox starts anew with a socket, and no socket becomes the session
socket twice: only the newest one drives the daemon.
-/

import Turbopaneld.Commands.Outbox
import Turbopaneld.Sequences.Windows

namespace Turbopaneld.Commands

open Programs Machines
open Sequences (countIn Paced paced_nil)

/-- When `sendKept` sent on a socket, the newest first. -/
def keptTimes (ws : SocketId) (frames : List Frame) : List ℕ :=
  (frames.filter fun frame => frame.kept && frame.socket == ws).map Frame.sentAt

/-! ## The invariant -/

/-- What pacing depends on. -/
structure View where
  currentSocket : Option SocketId
  burstWindow : BurstWindow
  clock : ℕ
  frames : List Frame
  sockets : ℕ
  loopSocket : Option SocketId
  clientSocket : Option SocketId

def Outbox.view (s : Outbox) : View :=
  ⟨s.currentSocket, s.burstWindow, s.clock, s.frames, s.sockets, s.loopSocket, s.clientSocket⟩

/-- A socket that may become the session socket. -/
def View.Live (v : View) (ws : SocketId) : Prop :=
  v.loopSocket = some ws ∨ v.clientSocket = some ws

structure View.InBudget (v : View) : Prop where
  current : ∀ ws ∈ v.currentSocket, ws < v.sockets ∧ v.burstWindow.start ≤ v.clock ∧
    ∃ sent ≤ v.burstWindow.used,
      Paced resendIntervalMs outcomeBurstMax v.burstWindow.start sent v.clock
        (keptTimes ws v.frames)
  bounded : ∀ ws k low, countIn low (low + k * resendIntervalMs) (keptTimes ws v.frames) ≤
    (k + 1) * outcomeBurstMax
  unused : ∀ ws, v.sockets ≤ ws → keptTimes ws v.frames = []
  live : ∀ ws, v.Live ws → ws + 1 = v.sockets ∧
    (keptTimes ws v.frames ≠ [] → v.currentSocket = some ws)

/-- One more frame of the window is used up. -/
def View.used (v : View) : View :=
  { v with burstWindow := { v.burstWindow with used := v.burstWindow.used + 1 } }

theorem View.InBudget.used {v : View} (h : v.InBudget) : v.used.InBudget where
  current ws hws := by
    obtain ⟨hsocket, hstart, sent, hsent, hpaced⟩ := h.current ws hws
    exact ⟨hsocket, hstart, sent, hsent.trans (Nat.le_succ _), hpaced⟩
  bounded := h.bounded
  unused := h.unused
  live := h.live

/-- Time passes. -/
theorem View.InBudget.later {v : View} (h : v.InBudget) {clock : ℕ} (hclock : v.clock ≤ clock) :
    View.InBudget { v with clock } where
  current ws hws := by
    obtain ⟨hsocket, hstart, sent, hsent, hpaced⟩ := h.current ws hws
    exact ⟨hsocket, hstart.trans hclock, sent, hsent, hpaced.mono hclock⟩
  bounded := h.bounded
  unused := h.unused
  live := h.live

/-- A window begins when the one before is over. -/
theorem View.InBudget.reset {v : View} (h : v.InBudget)
    (hover : v.burstWindow.start + resendIntervalMs ≤ v.clock) :
    View.InBudget { v with burstWindow := ⟨v.clock, 0⟩ } where
  current ws hws := by
    obtain ⟨hsocket, -, sent, -, hpaced⟩ := h.current ws hws
    exact ⟨hsocket, le_rfl, 0, le_rfl, hpaced.reset (by decide) hover le_rfl⟩
  bounded := h.bounded
  unused := h.unused
  live := h.live

/-- Another socket becomes the session socket.  Nothing has been sent on it yet. -/
theorem View.InBudget.switch {v : View} (h : v.InBudget) {ws : SocketId} (hlive : v.Live ws)
    (hother : v.currentSocket ≠ some ws) :
    View.InBudget { v with currentSocket := some ws, burstWindow := ⟨v.clock, 0⟩ } where
  current other hother' := by
    obtain rfl := Option.mem_some_iff.mp hother'
    obtain ⟨hnewest, hempty⟩ := h.live ws hlive
    have hnone : keptTimes ws v.frames = [] := by
      by_contra hne
      exact hother (hempty hne)
    refine ⟨Nat.lt_of_succ_le hnewest.le, le_rfl, 0, le_rfl, ?_⟩
    rw [hnone]
    exact paced_nil _ _ _ _
  bounded := h.bounded
  unused := h.unused
  live other hlive' := by
    obtain ⟨hnewest, -⟩ := h.live ws hlive
    obtain ⟨hnewest', -⟩ := h.live other hlive'
    have hsame : other = ws := Nat.succ.inj (hnewest'.trans hnewest.symm)
    exact ⟨hnewest', fun _ => congrArg some hsame.symm⟩

theorem keptTimes_cons_of_not_kept {frame : Frame} (h : frame.kept = false) (ws : SocketId)
    (frames : List Frame) : keptTimes ws (frame :: frames) = keptTimes ws frames := by
  rw [keptTimes, List.filter_cons_of_neg (by simp [h])]
  rfl

/-- A frame that is not a resend goes out. -/
theorem View.InBudget.sendOther {v : View} (h : v.InBudget) {frame : Frame}
    (hkept : frame.kept = false) : View.InBudget { v with frames := frame :: v.frames } where
  current ws hws := by
    rw [keptTimes_cons_of_not_kept hkept]
    exact h.current ws hws
  bounded ws k low := by
    rw [keptTimes_cons_of_not_kept hkept]
    exact h.bounded ws k low
  unused ws hws := by
    rw [keptTimes_cons_of_not_kept hkept]
    exact h.unused ws hws
  live ws hws := by
    rw [keptTimes_cons_of_not_kept hkept]
    exact h.live ws hws

theorem keptTimes_cons_of_kept {frame : Frame} (h : frame.kept = true) (frames : List Frame) :
    keptTimes frame.socket (frame :: frames) = frame.sentAt :: keptTimes frame.socket frames := by
  rw [keptTimes, List.filter_cons_of_pos (by simp [h])]
  rfl

theorem keptTimes_cons_of_ne {frame : Frame} {ws : SocketId} (h : frame.socket ≠ ws)
    (frames : List Frame) : keptTimes ws (frame :: frames) = keptTimes ws frames := by
  rw [keptTimes, List.filter_cons_of_neg (by simp [h])]
  rfl

/-- A resend goes out on the session socket while the window has room. -/
theorem View.InBudget.sendKept {v : View} (h : v.InBudget) {frame : Frame}
    (hkept : frame.kept = true) (hsocket : v.currentSocket = some frame.socket)
    (hroom : v.burstWindow.used < outcomeBurstMax) (htime : frame.sentAt = v.clock) :
    View.InBudget (View.used { v with frames := frame :: v.frames }) := by
  obtain ⟨hknown, hstart, sent, hsent, hpaced⟩ := h.current frame.socket hsocket
  have hsend : Paced resendIntervalMs outcomeBurstMax v.burstWindow.start (sent + 1) v.clock
      (keptTimes frame.socket (frame :: v.frames)) := by
    rw [keptTimes_cons_of_kept hkept, htime]
    exact hpaced.send (by omega) le_rfl hstart
  constructor
  case current =>
    intro ws hws
    have hsame : frame.socket = ws := Option.some.inj (hsocket.symm.trans hws)
    subst hsame
    exact ⟨hknown, hstart, sent + 1, Nat.succ_le_succ hsent, hsend⟩
  case bounded =>
    intro ws k low
    by_cases hsame : frame.socket = ws
    · subst hsame
      exact hsend.bounded k low
    · change countIn _ _ (keptTimes ws (frame :: v.frames)) ≤ _
      rw [keptTimes_cons_of_ne hsame]
      exact h.bounded ws k low
  case unused =>
    intro ws hws
    have hne : frame.socket ≠ ws := by
      rintro rfl
      exact absurd hws (Nat.not_le_of_lt hknown)
    change keptTimes ws (frame :: v.frames) = []
    rw [keptTimes_cons_of_ne hne]
    exact h.unused ws hws
  case live =>
    intro ws hws
    obtain ⟨hnewest, hcurrent⟩ := h.live ws hws
    refine ⟨hnewest, fun hne => ?_⟩
    by_cases hsame : frame.socket = ws
    · exact hsocket.trans (congrArg some hsame)
    · change keptTimes ws (frame :: v.frames) ≠ [] at hne
      rw [keptTimes_cons_of_ne hsame] at hne
      exact hcurrent hne

/-! ## Blocks -/

/-- The block keeps the invariant. -/
def Keeps {α : Type} (block : Block α) : Prop :=
  Triple (fun s => s.view.InBudget) block (fun _ s => s.view.InBudget) fun e _ => e.elim

section

variable {α β : Type}

theorem Keeps.pure (a : α) : Keeps (Pure.pure a) := Triple.pure a fun _ h => h

theorem Keeps.bind {block : Block α} {next : α → Block β} (h : Keeps block)
    (hnext : ∀ a, Keeps (next a)) : Keeps (block >>= next) := Triple.bind h hnext

theorem Keeps.read {next : Outbox → Block α} (h : ∀ s, Keeps (next s)) :
    Keeps (Prog.current >>= next) := fun s hs => h s s hs

/-- An update of what pacing does not depend on. -/
theorem Keeps.update {f : Outbox → Outbox} (h : ∀ s, (f s).view = s.view) :
    Keeps (Prog.update f) := fun s hs => by
  show ((f s).view).InBudget
  rw [h s]
  exact hs

theorem Keeps.ite {p : Prop} [Decidable p] {yes no : Block α} (hyes : Keeps yes) (hno : Keeps no) :
    Keeps (if p then yes else no) := by
  split
  · exact hyes
  · exact hno

theorem Keeps.whileEach {block : α → Block Bool} (h : ∀ item, Keeps (block item))
    (items : List α) : Keeps (Commands.whileEach block items) := by
  induction items with
  | nil => exact .pure ()
  | cons item rest ih => exact (h item).bind fun goesOn => .ite ih (.pure ())

theorem Keeps.eachOf {block : α → Block β} (h : ∀ item, Keeps (block item))
    (items : List α) : Keeps (Commands.eachOf block items) := by
  induction items with
  | nil => exact .pure []
  | cons item rest ih => exact (h item).bind fun _ => ih.bind fun _ => .pure _

theorem Keeps.discard {block : Block α} (h : Keeps block) : Keeps (discard block) :=
  h.bind fun _ => .pure _

end

theorem keeps_readClock : Keeps readClock := by
  refine Keeps.bind (fun s hs => ?_) fun _ => .read fun s => .pure _
  exact View.InBudget.later hs (Nat.le_add_right _ _)

/-- A socket becomes the session socket only when it may. -/
theorem useSocket_keeps (ws : SocketId) :
    Triple (fun s => s.view.InBudget ∧ s.view.Live ws) (useSocket ws)
      (fun _ s => s.view.InBudget) fun e _ => e.elim := by
  rintro s ⟨hs, hlive⟩
  rw [useSocket, Prog.bind_apply_of_ok (Prog.current_apply s)]
  by_cases hsame : s.currentSocket = some ws
  · rw [if_pos hsame]
    exact hs
  · rw [if_neg hsame]
    exact (hs.later (Nat.le_add_right s.clock (s.ticks 0))).switch hlive hsame

theorem burstLeft_spec :
    Triple (fun s => s.view.InBudget) burstLeft
      (fun left s => s.view.InBudget ∧ left = (outcomeBurstMax : ℤ) - s.burstWindow.used)
      fun e _ => e.elim := by
  intro s hs
  have hlater := hs.later (Nat.le_add_right s.clock (s.ticks 0))
  rw [burstLeft, Prog.bind_apply_of_ok (show readClock s = (.ok _, _) from rfl),
    Prog.bind_apply_of_ok (Prog.current_apply _)]
  by_cases hover : resendIntervalMs ≤ s.clock + s.ticks 0 - s.burstWindow.start
  · rw [if_pos hover]
    have hpassed : s.burstWindow.start + resendIntervalMs ≤ s.clock + s.ticks 0 := by
      rw [resendIntervalMs] at hover ⊢
      omega
    exact ⟨hlater.reset hpassed, rfl⟩
  · rw [if_neg hover]
    exact ⟨hlater, rfl⟩

theorem noteSent_spec (id : String) :
    Triple (fun s => s.view.used.InBudget) (noteSent id) (fun _ s => s.view.InBudget)
      fun e _ => e.elim := fun s hs =>
  View.InBudget.later hs (Nat.le_add_right s.clock (s.ticks 0))

theorem keeps_noteSent (id : String) : Keeps (noteSent id) :=
  (noteSent_spec id).conseq (fun _ hs => hs.used) (fun _ _ h => h) fun _ _ h => h

/-- What `trySend` does on a socket. -/
theorem trySend_some (socket : SocketId) (kept : Bool) (content : FrameContent) (s : Outbox) :
    trySend (some socket) kept content s =
      if !s.isOpen socket || s.sendFails socket then (.ok false, s)
      else (.ok true, { (readClock s).2 with
        frames := ⟨socket, s.clock + s.ticks 0, kept, content⟩ :: s.frames }) := by
  rw [trySend.eq_def]
  dsimp only
  rw [Prog.bind_apply_of_ok (Prog.current_apply s), Prog.bind_apply_of_ok (Prog.current_apply s)]
  by_cases h : (!s.isOpen socket || s.sendFails socket) = true
  · rw [if_pos h, if_pos h]
    rfl
  · rw [if_neg h, if_neg h]
    rfl

/-- A frame that is not a resend changes nothing. -/
theorem keeps_trySend (ws : Option SocketId) (content : FrameContent) :
    Keeps (trySend ws false content) := by
  intro s hs
  cases ws with
  | none => exact hs
  | some socket =>
    rw [trySend_some]
    split
    · exact hs
    · have hkept : (⟨socket, s.clock + s.ticks 0, false, content⟩ : Frame).kept = false := rfl
      exact (hs.later (Nat.le_add_right s.clock (s.ticks 0))).sendOther hkept

/-- A resend takes one of what the window has left. -/
theorem trySend_kept_spec (ws : Option SocketId) (content : FrameContent) :
    Triple (fun s => s.view.InBudget ∧ s.currentSocket = ws ∧
        s.burstWindow.used < outcomeBurstMax)
      (trySend ws true content)
      (fun sent s => if sent then s.view.used.InBudget else s.view.InBudget) fun e _ => e.elim := by
  rintro s ⟨hs, hsocket, hroom⟩
  cases ws with
  | none => exact hs
  | some socket =>
    rw [trySend_some]
    split
    · exact hs
    · have hkept : (⟨socket, s.clock + s.ticks 0, true, content⟩ : Frame).kept = true := rfl
      exact (hs.later (Nat.le_add_right s.clock (s.ticks 0))).sendKept hkept hsocket hroom rfl

theorem keeps_sendLive (ws : Option SocketId) (outcome : OutcomeMessage) :
    Keeps (sendLive ws outcome) :=
  .read fun _ => (keeps_trySend _ _).bind fun _ =>
    .ite ((keeps_noteSent _).bind fun _ => .pure _) (keeps_trySend _ _)

theorem keeps_sendOutcome (ws : Option SocketId) (outcome : OutcomeMessage) :
    Keeps (sendOutcome ws outcome) := keeps_readClock.bind fun _ => keeps_sendLive _ _

theorem keeps_sendCommandFrame (ws : SocketId) (id : String) : Keeps (sendCommandFrame ws id) :=
  .read fun _ => (keeps_trySend _ _).bind fun _ => .ite (.pure _) (keeps_trySend _ _)

theorem keeps_sendKept (outcome : OutcomeMessage) : Keeps (sendKept outcome) := by
  refine Triple.bind burstLeft_spec fun left => ?_
  by_cases hleft : left ≤ 0
  · rw [if_pos hleft]
    exact Triple.pure _ fun s hs => hs.1
  · rw [if_neg hleft]
    have hclock : Triple
        (fun s => s.view.InBudget ∧ left = (outcomeBurstMax : ℤ) - s.burstWindow.used) readClock
        (fun _ s => s.view.InBudget ∧ s.burstWindow.used < outcomeBurstMax)
        (fun e _ => e.elim) := by
      rintro s ⟨hs, hused⟩
      refine ⟨hs.later (Nat.le_add_right s.clock (s.ticks 0)), ?_⟩
      show s.burstWindow.used < outcomeBurstMax
      omega
    refine Triple.bind hclock fun now => ?_
    rintro s ⟨hs, hroom⟩
    have hsend := trySend_kept_spec s.currentSocket
      (.outcome { outcome with atMs := some now })
    refine (Triple.bind hsend fun sent => ?_) s ⟨hs, rfl, hroom⟩
    cases sent with
    | true => exact Triple.bind (noteSent_spec outcome.id) fun _ => Triple.pure _ fun _ h => h
    | false => exact Triple.pure _ fun _ h => h

theorem keeps_addJob (job : Job) : Keeps (addJob job) :=
  .read fun _ => Keeps.bind (.update fun _ => rfl) fun _ => .pure _

theorem keeps_queueWrite (id : String) (work : Work) : Keeps (queueWrite id work) :=
  .read fun _ => (keeps_addJob _).bind fun _ => Keeps.bind (.update fun _ => rfl) fun _ => .pure _

theorem keeps_removeJournal (id : String) : Keeps (removeJournal id) := keeps_addJob _

theorem keeps_entryFor (id : String) (progress : Option CommandProgress)
    (outcome : Option OutcomeMessage) (journaledAt : Option ℕ) :
    Keeps (entryFor id progress outcome journaledAt) := by
  refine .read fun s => ?_
  split
  · exact .pure _
  · exact keeps_readClock.bind fun _ => .pure _

theorem keeps_setPhase (ticket : ℕ) (phase : JobPhase) : Keeps (startJob.setPhase ticket phase) :=
  .update fun _ => rfl

theorem keeps_startJob (ticket : ℕ) : Keeps (startJob ticket) := by
  refine .read fun s => ?_
  split
  · exact .pure _
  · split
    · exact keeps_setPhase _ _
    · exact (keeps_entryFor _ _ _ _).bind fun _ => keeps_setPhase _ _
    · exact .ite ((keeps_entryFor _ _ _ _).bind fun _ => keeps_setPhase _ _) (keeps_setPhase _ _)
    · exact keeps_readClock.bind fun _ => (keeps_entryFor _ _ _ _).bind fun _ => keeps_setPhase _ _
    · exact (keeps_setPhase _ _).bind fun _ => .update fun _ => rfl

theorem keeps_finishJob (ticket : ℕ) (succeeds : Bool) : Keeps (finishJob ticket succeeds) := by
  refine .read fun s => ?_
  split
  · exact .update fun _ => rfl
  · exact .pure _

theorem keeps_scheduleResend : Keeps scheduleResend :=
  .read fun _ => .ite (.pure _) (.update fun _ => rfl)

theorem keeps_resendUnacked (minAgeMs : Option ℕ) : Keeps (resendUnacked minAgeMs) :=
  .read fun _ => .ite
    (keeps_readClock.bind fun _ => .read fun _ => .whileEach keeps_sendKept _) (.pure _)

theorem keeps_flushOne (entry : String × OutcomeMessage) : Keeps (flushOne entry) := by
  refine .read fun s => .ite (Keeps.bind (.pure _) fun goesOn => ?_)
    (Keeps.bind (keeps_sendKept _) fun goesOn => ?_)
  all_goals exact .ite (Keeps.bind (.update fun _ => rfl) fun _ => .pure _) (.pure _)

theorem keeps_flushHeld : Keeps flushHeld :=
  .read fun _ => .ite (Keeps.bind (.update fun _ => rfl) fun _ => .pure _)
    ((Keeps.whileEach keeps_flushOne _).bind fun _ => .read fun _ =>
      .eachOf keeps_removeJournal _)

theorem keeps_releaseForOlderPeer : Keeps releaseForOlderPeer :=
  .read fun _ => .ite (.pure _) (.update fun _ => rfl)

theorem keeps_noteCommandProgress (id : String) (progress : CommandProgress) :
    Keeps (noteCommandProgress id progress) := by
  refine .read fun s => .ite (keeps_readClock.bind fun now => .read fun s => .ite ?_ ?_) (.pure _)
  · exact Keeps.bind (.update fun _ => rfl) fun _ => (keeps_queueWrite _ _).discard
  · split
    · exact .pure _
    · exact .update fun _ => rfl

theorem keeps_onResendTimer : Keeps onResendTimer :=
  Keeps.bind (.update fun _ => rfl) fun _ => (keeps_resendUnacked _).bind fun _ =>
    .read fun _ => .ite keeps_scheduleResend
      (Keeps.bind keeps_flushHeld.discard fun _ => keeps_scheduleResend)

/-! ## Calls on a socket that may become the session socket -/

/-- The block keeps the invariant where `ws` may become the session socket. -/
def KeepsLive {α : Type} (ws : SocketId) (block : Block α) : Prop :=
  Triple (fun s => s.view.InBudget ∧ s.view.Live ws) block (fun _ s => s.view.InBudget)
    fun e _ => e.elim

/-- What an open socket is answered. -/
theorem keeps_repeatedAnswer (ws : SocketId) (id : String) :
    Keeps (Prog.current >>= fun s : Outbox =>
      (if s.running.contains id then do
        if hasEntry id s.lastProgress then discard (sendCommandFrame ws id) else pure ()
        return true
      else
        match (s.held.lookup id).or (s.unacked.lookup id) with
        | none => return false
        | some kept => do
          discard (sendOutcome (some ws) kept)
          return true : Block Bool)) := by
  refine .read fun s => .ite ?_ ?_
  · exact .ite (Keeps.bind (keeps_sendCommandFrame _ _).discard fun _ => .pure _) (.pure _)
  · split
    · exact .pure _
    · exact (keeps_sendOutcome _ _).discard.bind fun _ => .pure _

theorem keepsLive_answerRepeatedDispatch (ws : SocketId) (id : String) :
    KeepsLive ws (answerRepeatedDispatch ws id) := by
  have hanswer := keeps_repeatedAnswer ws id
  rintro s ⟨hs, hlive⟩
  rw [answerRepeatedDispatch, Prog.bind_apply_of_ok (Prog.current_apply s)]
  by_cases hopen : s.isOpen ws = true
  · rw [if_pos hopen]
    exact (Triple.bind (useSocket_keeps ws) fun _ => hanswer) s ⟨hs, hlive⟩
  · rw [if_neg hopen]
    exact hanswer s hs

theorem keepsLive_noteSessionOpen (ws : SocketId) (peer : Option ℕ) :
    KeepsLive ws (noteSessionOpen ws peer) := by
  rintro s ⟨hs, hlive⟩
  rw [noteSessionOpen, Prog.bind_apply_of_ok (Prog.update_apply _ s),
    Prog.bind_apply_of_ok (Prog.current_apply _)]
  by_cases hopen : s.isOpen ws = true
  · rw [if_pos hopen]
    exact (Triple.bind (useSocket_keeps ws) fun _ => Keeps.read fun _ =>
      (Keeps.whileEach keeps_sendKept _).bind fun _ => keeps_scheduleResend) _ ⟨hs, hlive⟩
  · rw [if_neg hopen]
    exact hs

theorem keeps_accept (id : String) : Keeps (accept id) :=
  keeps_readClock.bind fun _ => Keeps.bind (.update fun _ => rfl) fun _ =>
    (keeps_queueWrite _ _).bind fun _ => .pure _

theorem keepsLive_dispatch (ws : SocketId) (id : String) :
    KeepsLive ws (do if ← answerRepeatedDispatch ws id then return [] else accept id) :=
  Triple.bind (keepsLive_answerRepeatedDispatch ws id) fun _ =>
    Keeps.ite (.pure _) (keeps_accept id)

theorem keeps_acknowledgeNow (id : String) : Keeps (acknowledgeNow id) :=
  .read fun _ => .ite (.pure _) (Keeps.bind (.update fun _ => rfl) fun _ =>
    (keeps_removeJournal _).bind fun _ => .pure _)

theorem keeps_orphanReply (id : String) (entry : Option JournalEntry) :
    Keeps (orphanReply id entry) := by
  refine keeps_readClock.bind fun now => ?_
  split
  · exact .pure _
  · exact .pure _

theorem keeps_answerOrphan (keep : Bool) (orphan : String × Option JournalEntry) :
    Keeps (answerOrphan keep orphan) := by
  have hreply : Keeps (orphanReply orphan.1 orphan.2 >>= fun reply => Prog.update fun s =>
      if keep then { s with unacked := setEntry orphan.1 reply s.unacked }
      else { s with held := setEntry orphan.1 reply s.held }) :=
    (keeps_orphanReply _ _).bind fun _ => .update fun s => by cases keep <;> rfl
  rw [answerOrphan]
  split
  · exact Keeps.bind (.update fun _ => rfl) fun _ => hreply
  · exact hreply

theorem keeps_journalAnswer (orphan : String × Option JournalEntry) :
    Keeps (journalAnswer orphan) := by
  refine .read fun s => ?_
  split
  · exact .pure _
  · exact .ite (.pure _) ((keeps_queueWrite _ _).bind fun _ => .pure _)

theorem keepsLive_attach (ws : SocketId) (peer : Option ℕ) :
    KeepsLive ws (do
      useSocket ws
      Prog.update fun s => { s with currentPeer := peer.or s.currentPeer }
      releaseForOlderPeer
      flushHeld) :=
  Triple.bind (useSocket_keeps ws) fun _ => Keeps.bind (.update fun _ => rfl) fun _ =>
    keeps_releaseForOlderPeer.bind fun _ => keeps_flushHeld

/-! ## The host -/

/-- The connect loop makes a new socket, which has the next number. -/
theorem View.InBudget.connect {v : View} (h : v.InBudget) :
    View.InBudget { v with sockets := v.sockets + 1, loopSocket := some v.sockets,
                           clientSocket := some v.sockets } where
  current ws hws := by
    obtain ⟨hsocket, hrest⟩ := h.current ws hws
    exact ⟨Nat.lt_succ_of_lt hsocket, hrest⟩
  bounded := h.bounded
  unused ws hws := h.unused ws (Nat.le_of_succ_le hws)
  live ws hlive := by
    have hnewest : v.sockets = ws := by
      rcases hlive with h | h
      · exact Option.some.inj h
      · exact Option.some.inj h
    subst hnewest
    exact ⟨rfl, fun hne => absurd (h.unused v.sockets le_rfl) hne⟩

/-- The client lets go of its socket. -/
theorem View.InBudget.disconnect {v : View} (h : v.InBudget) :
    View.InBudget { v with clientSocket := none } where
  current := h.current
  bounded := h.bounded
  unused := h.unused
  live ws hlive := h.live ws (.inl (hlive.resolve_right nofun))

/-- A daemon that has just started has no session socket. -/
theorem inBudget_boot {s : Outbox} (h : s.view.InBudget) : (boot s).view.InBudget where
  current _ hws := nomatch hws
  bounded := h.bounded
  unused := h.unused
  live _ hlive := by rcases hlive with h | h <;> cases h

theorem inBudget_firstBoot (host : Outbox) : (firstBoot host).view.InBudget where
  current _ hws := nomatch hws
  bounded _ _ _ := Nat.zero_le _
  unused _ _ := rfl
  live _ hlive := by rcases hlive with h | h <;> cases h

/-! ## Runs -/

/-- The value and the state that a block leaves. -/
theorem Block.run_spec {α : Type} {P : Outbox → Prop} {Q : α → Outbox → Prop}
    {block : Block α} (h : Triple P block Q fun e _ => e.elim) {s : Outbox} (hs : P s) :
    Q (Block.run block s).1 (Block.run block s).2 := by
  have hends := h s hs
  rw [Block.run]
  rcases hrun : block s with ⟨value, s'⟩
  rw [hrun] at hends
  cases value with
  | ok a => exact hends
  | error e => exact e.elim

/-- Every program in flight keeps the invariant, whatever the others do. -/
def pacing : Contract Unit OutboxCall Outbox where
  inv s := s.view.InBudget
  rely _ _ := True
  pre _ _ c _ :=
    match c with
    | .run block => Keeps block
    | .settled _ => True
  effect _ _ c s b s' := perform c s = (b, s')
  rely_refl _ := trivial
  rely_trans _ _ := trivial
  pre_stable _ h := h
  keeps {_ _ c s b s'} hinv hpre heffect := by
    refine ⟨?_, trivial⟩
    cases c with
    | run block =>
      have hkept := Block.run_spec hpre hinv
      rw [show Block.run block s = (b, s') from heffect] at hkept
      exact hkept
    | settled ticket =>
      obtain rfl : s = s' := congrArg Prod.snd heffect
      exact hinv

/-- The program keeps the invariant from any state. -/
def KeepsOn {α : Type} (program : Async OutboxCall α) : Prop :=
  ∀ s, program.Safe pacing () (fun _ _ => True) s

section

variable {α β : Type}

theorem KeepsOn.pure (a : α) : KeepsOn (Pure.pure a) := fun _ => trivial

theorem KeepsOn.bind {program : Async OutboxCall α} {next : α → Async OutboxCall β}
    (h : KeepsOn program) (hnext : ∀ a, KeepsOn (next a)) : KeepsOn (program >>= next) :=
  fun s => (h s).bind fun a s' _ => hnext a s'

theorem keepsOn_run {block : Block α} (h : Keeps block) : KeepsOn (run block) :=
  fun _ => Async.Safe.perform h fun _ _ _ _ _ _ _ _ => trivial

theorem keepsOn_awaitAll (tickets : List ℕ) : KeepsOn (awaitAll tickets) :=
  fun _ => Async.Safe.forEach (F := fun _ => True)
    (fun _ _ _ _ => Async.Safe.perform trivial fun _ _ _ _ _ _ _ _ => trivial) trivial

end

theorem keepsOn_readEntries (ids : List String) : KeepsOn (readEntries ids) := by
  induction ids with
  | nil => exact .pure _
  | cons id rest ih =>
    exact (keepsOn_run (.read fun _ => .pure _)).bind fun _ => ih.bind fun _ => .pure _

theorem keepsOn_answerOrphans : KeepsOn answerOrphans := by
  have hids : KeepsOn orphanedIds :=
    (keepsOn_run (.read fun _ => .pure _)).bind fun _ => keepsOn_run (.read fun _ => .pure _)
  refine hids.bind fun ids => (keepsOn_readEntries ids).bind fun orphans => ?_
  refine (keepsOn_run (.read fun s => ?_)).bind keepsOn_awaitAll
  exact (Keeps.eachOf (keeps_answerOrphan _) _).discard.bind fun _ =>
    .ite ((Keeps.eachOf keeps_journalAnswer _).bind fun _ => .pure _) keeps_flushHeld

theorem keepsOn_pruneUnacked : KeepsOn pruneUnacked :=
  (keepsOn_run (keeps_readClock.bind fun _ => .read fun _ =>
    (Keeps.eachOf keeps_acknowledgeNow _).bind fun _ => .pure _)).bind keepsOn_awaitAll

/-- A call whose first block keeps the invariant where it starts. -/
theorem begin_spec {α : Type} {P : Outbox → Prop} {block : Block α}
    {next : α → Async OutboxCall Unit} (hblock : Triple P block (fun _ s => s.view.InBudget)
      fun e _ => e.elim) (hnext : ∀ a, KeepsOn (next a)) {s : Outbox} (hs : P s) :
    (begin (run block >>= next) s).1.view.InBudget ∧ KeepsOn (begin (run block >>= next) s).2 :=
  ⟨Block.run_spec hblock hs, hnext _⟩

theorem begin_call {call : Call} {s : Outbox} (hs : s.view.InBudget)
    (hframe : ∀ ws ∈ call.frameSocket, s.clientSocket = some ws) :
    (begin call.program s).1.view.InBudget ∧ KeepsOn (begin call.program s).2 := by
  cases call with
  | dispatch ws id =>
    exact begin_spec (keepsLive_dispatch ws id) keepsOn_awaitAll ⟨hs, .inr (hframe ws rfl)⟩
  | deliver ws outcome =>
    have hjournal : Keeps (do
        Prog.update fun s =>
          { s with running := s.running.erase outcome.id
                   lastProgress := deleteEntry outcome.id s.lastProgress }
        let now ← readClock
        let entry ← entryFor outcome.id none (some outcome) (some now)
        queueWrite outcome.id (.entry entry)) :=
      Keeps.bind (.update fun _ => rfl) fun _ => keeps_readClock.bind fun _ =>
        (keeps_entryFor _ _ _ _).bind fun _ => keeps_queueWrite _ _
    refine begin_spec hjournal (fun ticket => ?_) hs
    refine (keepsOn_awaitAll _).bind fun _ => (keepsOn_run ?_).bind keepsOn_awaitAll
    refine Keeps.bind (.update fun _ => rfl) fun _ => (keeps_sendLive _ _).bind fun sent =>
      .read fun _ => .ite ?_ (.ite ?_ ?_)
    · exact Keeps.bind (.update fun _ => rfl) fun _ => keeps_scheduleResend.bind fun _ => .pure _
    · exact (keeps_removeJournal _).bind fun _ => .pure _
    · exact Keeps.bind (.update fun _ => rfl) fun _ => .pure _
  | acknowledge id => exact begin_spec (keeps_acknowledgeNow id) keepsOn_awaitAll hs
  | attach ws peer =>
    refine begin_spec (keepsLive_attach ws peer) (fun removals => ?_) ⟨hs, .inr (hframe ws rfl)⟩
    refine (keepsOn_awaitAll removals).bind fun _ =>
      (keepsOn_run (.read fun _ => .pure _)).bind fun isOpen => ?_
    cases isOpen with
    | false => exact .pure _
    | true =>
      exact keepsOn_answerOrphans.bind fun _ => keepsOn_pruneUnacked.bind fun _ =>
        keepsOn_run ((keeps_resendUnacked _).bind fun _ => keeps_scheduleResend)

/-- What happens to the daemon from outside keeps the invariant. -/
theorem inBudget_act {action : Act} {s s' : Outbox} (hs : s.view.InBudget)
    (hact : act action s = some s') : s'.view.InBudget := by
  cases action with
  | sessionOpen peer =>
    obtain ⟨ws, hws, rfl⟩ := Option.map_eq_some_iff.mp hact
    exact Block.run_spec (keepsLive_noteSessionOpen ws peer) ⟨hs, .inl hws⟩
  | repeated ws id =>
    obtain ⟨hws, hact⟩ := Option.ite_none_right_eq_some.mp hact
    obtain rfl := Option.some.inj hact
    exact Block.run_spec (keepsLive_answerRepeatedDispatch ws id) ⟨hs, .inr hws⟩
  | progress id progress =>
    obtain rfl := Option.some.inj hact
    exact Block.run_spec (keeps_noteCommandProgress id progress) hs
  | timer =>
    obtain ⟨-, hact⟩ := Option.ite_none_right_eq_some.mp hact
    obtain rfl := Option.some.inj hact
    exact Block.run_spec keeps_onResendTimer hs
  | startJob ticket =>
    obtain ⟨-, hact⟩ := Option.ite_none_right_eq_some.mp hact
    obtain rfl := Option.some.inj hact
    exact Block.run_spec (keeps_startJob ticket) hs
  | finishJob ticket succeeds =>
    obtain rfl := Option.some.inj hact
    exact Block.run_spec (keeps_finishJob ticket succeeds) hs
  | connect =>
    obtain rfl := Option.some.inj hact
    exact hs.connect
  | disconnect =>
    obtain rfl := Option.some.inj hact
    exact hs.disconnect
  | advance ms =>
    obtain rfl := Option.some.inj hact
    exact hs.later (Nat.le_add_right _ _)
  | setOpen | setFails | setPeers | setUnreadable =>
    obtain rfl := Option.some.inj hact
    exact hs

/-- In every state of every run, what was sent on any socket is paced. -/
theorem inBudget_of_reaches {host : Outbox} {s : Pool Unit OutboxCall Outbox}
    (h : Reaches outboxProcess.step outboxAllowed.event (Pool.idle (firstBoot host)) s) :
    s.shared.view.InBudget := by
  have hsound : s.Sound pacing := by
    refine Process.sound_of_reaches ?_ ?_ ?_ (fun s hs _ => inBudget_boot hs)
      (inBudget_firstBoot host) h
    case refine_1 =>
      rintro t β c s b s' ⟨reply, -, rfl, rfl⟩
      rfl
    case refine_2 =>
      intro call s s' thread hs hspawn
      obtain ⟨hframe, hspawn⟩ := Option.ite_none_right_eq_some.mp hspawn
      obtain ⟨rfl, rfl⟩ := Prod.mk.inj (Option.some.inj hspawn)
      have hcall := begin_call hs fun ws hws => by
        have hallowed := (Option.all_eq_true _ _).mp hframe ws hws
        exact of_decide_eq_true hallowed
      exact ⟨hcall.1, trivial, hcall.2 _⟩
    case refine_3 =>
      intro action s s' hs _ hact
      exact ⟨inBudget_act hs hact, trivial⟩
  exact hsound.inv

/-- On any socket `sendKept` sends at most 60 frames in any 60 seconds. -/
theorem sendKept_within_budget {host : Outbox} {s : Pool Unit OutboxCall Outbox}
    (h : Reaches outboxProcess.step outboxAllowed.event (Pool.idle (firstBoot host)) s)
    (ws : SocketId) (low : ℕ) :
    countIn low (low + 60000) (keptTimes ws s.shared.frames) ≤ 60 :=
  (inBudget_of_reaches h).bounded ws 2 low

/-- A host whose first socket does not open. -/
def quietHost : Outbox :=
  firstBoot
    { held := [], unacked := [], running := [], acceptedAt := [], lastProgress := []
      writeChains := [], currentSocket := none, currentPeer := none, resendTimer := none
      sentOnSocket := [], burstWindow := ⟨0, 0⟩, keptSince := [], jobs := [], journal := []
      clock := 1000, ticks := fun _ => 1, unreadable := fun _ => false, isOpen := fun _ => false
      sendFails := fun _ => false, peers := fun _ => ⟨true, true⟩, sockets := 0
      loopSocket := none, clientSocket := none, frames := [] }

/-- A command ends while no socket is open; its outcome goes out on the next one. -/
def resentRun : List (Event Unit Call Act) :=
  [.spawn 0 (.deliver 0 ⟨"c1", true, none, none, none, none⟩), .act (.startJob 0),
    .act (.finishJob 0 true), .answer 0 (), .answer 0 (), .act .connect,
    .act (.setOpen fun _ => true), .act (.sessionOpen none)]

theorem sendKept_within_budget_resentRun :
    ∃ s, Reaches outboxProcess.step outboxAllowed.event (Pool.idle quietHost) s ∧
      keptTimes 0 s.shared.frames = [1006] ∧
      countIn 1000 61000 (keptTimes 0 s.shared.frames) ≤ 60 := by
  have hends : (runFrom (fun s event => if waitsNoMore s event then outboxProcess.step s event
      else none) (Pool.idle quietHost) resentRun).map (fun s => keptTimes 0 s.shared.frames) =
      some [1006] := by
    decide +kernel
  obtain ⟨s, hrun, htimes⟩ := Option.map_eq_some_iff.mp hends
  have hreaches : Reaches outboxProcess.step outboxAllowed.event (Pool.idle quietHost) s :=
    Reaches.refl.of_checked allowed_of_waitsNoMore hrun
  exact ⟨s, hreaches, htimes, sendKept_within_budget hreaches 0 1000⟩

end Turbopaneld.Commands
