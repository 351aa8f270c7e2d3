/-
# No result is lost

Whatever runs, ticks, answers, disconnects and restarts go on at the same time: a result that a
run has put in place stays in the spool until the control plane answers for it, or is parked
because it may not be sent; a report carries what the run of its id wrote; and no reader finds a
part of a file.
-/

import Turbopaneld.Backups.ResultSpool

namespace Turbopaneld.Backups.Results

open DockerGate (Json)
open JavaScript Machines Programs

/-! ## Names -/

theorem resultFile_inj {a b : String} (h : resultFile a = resultFile b) : a = b := by
  have hchars := congrArg String.toList h
  rw [resultFile, resultFile, String.toList_append, String.toList_append,
    List.append_cancel_right_eq] at hchars
  exact String.toList_inj.mp hchars

theorem tmpFile_inj {a b : String} (h : tmpFile a = tmpFile b) : a = b := by
  have hchars := congrArg String.toList h
  rw [tmpFile, tmpFile, String.toList_append, String.toList_append, String.toList_append,
    String.toList_append, List.append_cancel_right_eq, List.append_cancel_left_eq] at hchars
  exact String.toList_inj.mp hchars

theorem invalidFile_inj {a b : String} (h : invalidFile a = invalidFile b) : a = b := by
  have hchars := congrArg String.toList h
  rw [invalidFile, invalidFile, String.toList_append, String.toList_append,
    String.toList_append, String.toList_append, List.append_cancel_right_eq,
    List.append_cancel_left_eq] at hchars
  exact String.toList_inj.mp hchars

/-- The parts of a run id have no dot. -/
theorem head_ne_dot {runId : String} (h : RUN_TOKEN_RE.test runId = true) :
    (resultFile runId).toList.head? ≠ some '.' := by
  obtain ⟨c, rest, hid, hc, -⟩ := test_seq_upTo.mp h
  rw [resultFile, String.toList_append, hid]
  intro hdot
  obtain rfl := Option.some.inj hdot
  exact absurd hc (by decide)

theorem tmpFile_ne_resultFile {a b : String} (h : RUN_TOKEN_RE.test b = true) :
    tmpFile a ≠ resultFile b := by
  intro heq
  apply head_ne_dot h
  rw [← heq, tmpFile, String.toList_append, String.toList_append]
  rfl

theorem invalidFile_ne_resultFile {a b : String} (h : RUN_TOKEN_RE.test b = true) :
    invalidFile a ≠ resultFile b := by
  intro heq
  apply head_ne_dot h
  rw [← heq, invalidFile, String.toList_append, String.toList_append]
  rfl

theorem tmpFile_ne_invalidFile (a b : String) : tmpFile a ≠ invalidFile b := by
  intro heq
  have hlast := congrArg (fun name : String => name.toList.getLast?) heq
  have htmp : ".json.tmp".toList.getLast? = some 'p' := rfl
  have hinvalid : ".json.invalid".toList.getLast? = some 'd' := rfl
  rw [tmpFile, invalidFile, String.toList_append, String.toList_append (s := "." ++ b),
    List.getLast?_append, List.getLast?_append, htmp, hinvalid] at hlast
  cases hlast

/-! ## What holds -/

/-- The run with this id has put its result in place. -/
def Placed (s : Spool) (runId : String) (result : BackupRunResult) : Prop :=
  s.writers runId = some ⟨result, .placed⟩

/-- The file under this name has the whole of the result. -/
def Holds (s : Spool) (name : String) (result : BackupRunResult) : Prop :=
  ∃ file, s.files name = some file ∧ file.text = some result.spooled

/-- What holds of the spool in every run. -/
structure Kept (parseDate : String → Option ℚ) (s : Spool) : Prop where
  own : ∀ runId writer, s.writers runId = some writer →
    writer.result.runId = runId ∧ (writer.phase ≠ .failed → RUN_TOKEN_RE.test runId = true)
  staged : ∀ runId writer, s.writers runId = some writer →
    writer.phase.isStaged = true → Holds s (tmpFile runId) writer.result
  /-- What is read under a run's name is all of what the run wrote. -/
  whole : ∀ runId file, RUN_TOKEN_RE.test runId = true → s.files (resultFile runId) = some file →
    ∃ result, Placed s runId result ∧ file.text = some result.spooled
  /-- A result in place stays there until it is answered for, or is parked. -/
  kept : ∀ runId result, Placed s runId result →
    Holds s (resultFile runId) result ∨
      (¬result.Sendable parseDate ∧ Holds s (invalidFile runId) result) ∨ runId ∈ s.answered
  /-- A report carries what the run of its id wrote. -/
  sent : ∀ frame ∈ s.frames,
    Placed s frame.id frame.result ∧ frame.result.Sendable parseDate

/-- What the others in flight leave as it is. -/
structure Grows (s s' : Spool) : Prop where
  placed : ∀ runId result, Placed s runId result → Placed s' runId result
  answered : ∀ id ∈ s.answered, id ∈ s'.answered

/-- What the daemon has seen to before a call. -/
def Ready (parseDate : String → Option ℚ) (s : Spool) : ∀ {β : Type}, SpoolCall β → Prop
  | _, .rename before after => ∃ runId result, before = resultFile runId ∧
      after = invalidFile runId ∧ RUN_TOKEN_RE.test runId = true ∧ Placed s runId result ∧
      ¬result.Sendable parseDate
  | _, .remove name => ∃ runId ∈ s.answered, name = resultFile runId ∧
      RUN_TOKEN_RE.test runId = true
  | _, .send message => Placed s message.id message.result ∧ message.result.Sendable parseDate
  | _, _ => True

variable {parseDate : String → Option ℚ} {s s' : Spool}

theorem Grows.refl (s : Spool) : Grows s s := ⟨fun _ _ h => h, fun _ h => h⟩

theorem Grows.trans {s₁ : Spool} (h : Grows s s₁) (h' : Grows s₁ s') : Grows s s' :=
  ⟨fun runId result hplaced => h'.placed runId result (h.placed runId result hplaced),
    fun id hid => h'.answered id (h.answered id hid)⟩

theorem Ready.grows {β : Type} {c : SpoolCall β} (hgrows : Grows s s') (h : Ready parseDate s c) :
    Ready parseDate s' c := by
  cases c with
  | rename before after =>
    obtain ⟨runId, result, hbefore, hafter, htoken, hplaced, hunsendable⟩ := h
    exact ⟨runId, result, hbefore, hafter, htoken, hgrows.placed _ _ hplaced, hunsendable⟩
  | remove name =>
    obtain ⟨runId, hanswered, hname, htoken⟩ := h
    exact ⟨runId, hgrows.answered _ hanswered, hname, htoken⟩
  | send message => exact ⟨hgrows.placed _ _ h.1, h.2⟩
  | readDir => trivial
  | stat name => trivial
  | readTextFile name => trivial
  | readNextRun policyId => trivial
  | endTick => trivial

theorem Placed.unique {runId : String} {a b : BackupRunResult} (ha : Placed s runId a)
    (hb : Placed s runId b) : a = b :=
  congrArg Writer.result (Option.some.inj (ha.symm.trans hb))

/-! ## The calls of the daemon -/

/-- Only files of the spool are taken away, each parked or answered for. -/
theorem Kept.of_files (h : Kept parseDate s) (s' : Spool) (hs' : s' = { s with files := s'.files })
    (htmp : ∀ runId, s'.files (tmpFile runId) = s.files (tmpFile runId))
    (hresult : ∀ runId, RUN_TOKEN_RE.test runId = true →
      s'.files (resultFile runId) = s.files (resultFile runId) ∨
        s'.files (resultFile runId) = none)
    (hkept : ∀ runId result, RUN_TOKEN_RE.test runId = true → Placed s runId result →
      Holds s' (resultFile runId) result ∨
        (¬result.Sendable parseDate ∧ Holds s' (invalidFile runId) result) ∨
          runId ∈ s.answered) :
    Kept parseDate s' ∧ Grows s s' := by
  generalize s'.files = files at hs' htmp hresult
  subst hs'
  refine ⟨⟨h.own, ?staged, ?whole, ?kept, h.sent⟩, fun _ _ hplaced => hplaced, fun _ hid => hid⟩
  case staged =>
    intro runId writer hwriter hphase
    obtain ⟨file, hfile, htext⟩ := h.staged runId writer hwriter hphase
    exact ⟨file, (htmp runId).trans hfile, htext⟩
  case whole =>
    intro runId file htoken hfile
    rcases hresult runId htoken with hsame | hnone
    · exact h.whole runId file htoken (hsame.symm.trans hfile)
    · cases hnone.symm.trans hfile
  case kept =>
    intro runId result hplaced
    exact hkept runId result ((h.own runId _ hplaced).2 WriterPhase.noConfusion) hplaced

/-- Parking a result that may not be sent. -/
theorem Kept.park (h : Kept parseDate s) {runId : String} {result : BackupRunResult}
    {file : SpooledFile} (htoken : RUN_TOKEN_RE.test runId = true) (hplaced : Placed s runId result)
    (hunsendable : ¬result.Sendable parseDate)
    (hfile : s.files (resultFile runId) = some file) :
    Kept parseDate ((s.setFile (resultFile runId) none).setFile (invalidFile runId) (some file)) ∧
      Grows s ((s.setFile (resultFile runId) none).setFile (invalidFile runId) (some file)) := by
  have hother {name : String} (hresult : name ≠ resultFile runId)
      (hinvalid : name ≠ invalidFile runId) :
      ((s.setFile (resultFile runId) none).setFile (invalidFile runId) (some file)).files name =
        s.files name := by
    rw [Spool.files_setFile_of_ne _ _ hinvalid, Spool.files_setFile_of_ne _ _ hresult]
  have hparked : ((s.setFile (resultFile runId) none).setFile (invalidFile runId)
      (some file)).files (invalidFile runId) = some file := Spool.files_setFile_self ..
  obtain ⟨found, hfound, htext⟩ := h.whole runId file htoken hfile
  obtain rfl := hfound.unique hplaced
  refine h.of_files ((s.setFile (resultFile runId) none).setFile (invalidFile runId) (some file))
    rfl ?_ ?_ ?_
  · intro other
    exact hother (tmpFile_ne_resultFile htoken) (tmpFile_ne_invalidFile _ _)
  · intro other hother'
    by_cases heq : other = runId
    · right
      rw [heq, Spool.files_setFile_of_ne _ _ (invalidFile_ne_resultFile htoken).symm,
        Spool.files_setFile_self]
    · exact Or.inl (hother (fun hname => heq (resultFile_inj hname))
        (invalidFile_ne_resultFile hother').symm)
  · intro other placed hother' hplaced'
    by_cases heq : other = runId
    · subst heq
      obtain rfl := hplaced'.unique hplaced
      exact Or.inr (Or.inl ⟨hunsendable, file, hparked, htext⟩)
    · have hresult := hother (fun hname => heq (resultFile_inj hname))
        (invalidFile_ne_resultFile (a := runId) hother').symm
      have hinvalid : ((s.setFile (resultFile runId) none).setFile (invalidFile runId)
          (some file)).files (invalidFile other) = s.files (invalidFile other) :=
        hother (invalidFile_ne_resultFile htoken) fun hname => heq (invalidFile_inj hname)
      rw [Holds, hresult, Holds, hinvalid]
      exact h.kept other placed hplaced'

/-- Removing a result that was answered for. -/
theorem Kept.remove (h : Kept parseDate s) {runId : String}
    (htoken : RUN_TOKEN_RE.test runId = true) (hanswered : runId ∈ s.answered) :
    Kept parseDate (s.setFile (resultFile runId) none) ∧
      Grows s (s.setFile (resultFile runId) none) := by
  have hother {name : String} (hresult : name ≠ resultFile runId) :
      (s.setFile (resultFile runId) none).files name = s.files name :=
    Spool.files_setFile_of_ne _ _ hresult
  refine h.of_files (s.setFile (resultFile runId) none) rfl ?_ ?_ ?_
  · exact fun other => hother (tmpFile_ne_resultFile htoken)
  · intro other _
    by_cases heq : other = runId
    · rw [heq]
      exact Or.inr (Spool.files_setFile_self ..)
    · exact Or.inl (hother fun hname => heq (resultFile_inj hname))
  · intro other placed _ hplaced'
    by_cases heq : other = runId
    · rw [heq]
      exact Or.inr (Or.inr hanswered)
    · rw [Holds, hother fun hname => heq (resultFile_inj hname), Holds,
        hother (invalidFile_ne_resultFile htoken)]
      exact h.kept other placed hplaced'

theorem Kept.perform {β : Type} {c : SpoolCall β} (h : Kept parseDate s)
    (hready : Ready parseDate s c) (reply : Reply) :
    Kept parseDate (perform c reply s).2 ∧ Grows s (perform c reply s).2 := by
  cases c with
  | readDir =>
    rw [Results.perform]
    split <;> exact ⟨h, Grows.refl s⟩
  | stat name => exact ⟨h, Grows.refl s⟩
  | readTextFile name => exact ⟨h, Grows.refl s⟩
  | readNextRun policyId => exact ⟨h, Grows.refl s⟩
  | endTick =>
    exact ⟨⟨h.own, h.staged, h.whole, h.kept, h.sent⟩, fun _ _ hp => hp, fun _ hid => hid⟩
  | rename before after =>
    obtain ⟨runId, result, rfl, rfl, htoken, hplaced, hunsendable⟩ := hready
    rw [Results.perform, Reply.file]
    split
    case h_1 => exact ⟨h, Grows.refl s⟩
    case h_2 file hfile =>
      split at hfile
      case h_3 found _ hfound =>
        obtain rfl := Except.ok.inj hfile
        exact h.park htoken hplaced hunsendable hfound
      all_goals cases hfile
  | remove name =>
    obtain ⟨runId, hanswered, rfl, htoken⟩ := hready
    rw [Results.perform]
    split
    · exact ⟨h, Grows.refl s⟩
    · exact h.remove htoken hanswered
  | send message =>
    rw [Results.perform]
    split
    case isFalse => exact ⟨h, Grows.refl s⟩
    case isTrue =>
      refine ⟨⟨h.own, h.staged, h.whole, h.kept, ?_⟩, fun _ _ hp => hp, fun _ hid => hid⟩
      intro frame hframe
      rcases List.mem_cons.mp hframe with rfl | hold
      · exact hready
      · exact h.sent frame hold

/-! ## The steps of a run -/

section

variable {writer : Writer} {phase : WriterPhase}

/-- A run that has not put its result in place goes on under its first name. -/
theorem Kept.advance (h : Kept parseDate s) (s' : Spool)
    (hs' : s' = { s with files := s'.files }.setWriter writer phase)
    (hother : ∀ name, name ≠ tmpFile writer.result.runId → s'.files name = s.files name)
    (hbefore : ∀ result, ¬Placed s writer.result.runId result) (hphase : phase ≠ .placed)
    (htoken : phase ≠ .failed → RUN_TOKEN_RE.test writer.result.runId = true)
    (hstaged : phase.isStaged = true →
      Holds s' (tmpFile writer.result.runId) writer.result) :
    Kept parseDate s' ∧ Grows s s' := by
  have hself : s'.writers writer.result.runId = some { writer with phase } := by
    rw [hs']
    exact Spool.writers_setWriter_self ..
  have hwriters {runId : String} (hne : runId ≠ writer.result.runId) :
      s'.writers runId = s.writers runId := by
    rw [hs']
    exact Spool.writers_setWriter_of_ne _ _ _ hne
  have hframes : s'.frames = s.frames := by
    rw [hs']
    rfl
  have hanswered : s'.answered = s.answered := by
    rw [hs']
    rfl
  have hplaced {runId : String} {result : BackupRunResult} (hplaced : Placed s runId result) :
      Placed s' runId result := by
    have hne : runId ≠ writer.result.runId := fun heq => hbefore result (heq ▸ hplaced)
    exact (hwriters hne).trans hplaced
  refine ⟨⟨?own, ?staged, ?whole, ?kept, ?sent⟩, fun _ _ => hplaced, ?answered⟩
  case own =>
    intro runId found hfound
    by_cases heq : runId = writer.result.runId
    · subst heq
      obtain rfl := Option.some.inj (hself.symm.trans hfound)
      exact ⟨rfl, htoken⟩
    · exact h.own runId found ((hwriters heq).symm.trans hfound)
  case staged =>
    intro runId found hfound hstage
    by_cases heq : runId = writer.result.runId
    · subst heq
      obtain rfl := Option.some.inj (hself.symm.trans hfound)
      exact hstaged hstage
    · obtain ⟨file, hfile, htext⟩ := h.staged runId found ((hwriters heq).symm.trans hfound) hstage
      exact ⟨file, (hother _ fun hname => heq (tmpFile_inj hname)).trans hfile, htext⟩
  case whole =>
    intro runId file hrun hfile
    rw [hother _ (tmpFile_ne_resultFile hrun).symm] at hfile
    obtain ⟨result, hresult, htext⟩ := h.whole runId file hrun hfile
    exact ⟨result, hplaced hresult, htext⟩
  case kept =>
    intro runId result hresult
    have hne : runId ≠ writer.result.runId := by
      rintro rfl
      exact hphase (congrArg Writer.phase (Option.some.inj (hself.symm.trans hresult)))
    have hbefore : Placed s runId result := (hwriters hne).symm.trans hresult
    have hrun := (h.own runId _ hbefore).2 WriterPhase.noConfusion
    rw [Holds, hother _ (tmpFile_ne_resultFile hrun).symm, Holds,
      hother _ (tmpFile_ne_invalidFile _ _).symm, hanswered]
    exact h.kept runId result hbefore
  case sent =>
    rw [hframes]
    exact fun frame hframe => ⟨hplaced (h.sent frame hframe).1, (h.sent frame hframe).2⟩
  case answered =>
    rw [hanswered]
    exact fun _ hid => hid

/-- A run renames its file into place. -/
theorem Kept.place (h : Kept parseDate s)
    (hwriter : s.writers writer.result.runId = some writer) (hphase : writer.phase = .placing)
    {file : SpooledFile} (hfile : s.files (tmpFile writer.result.runId) = some file) :
    Kept parseDate (((s.setFile (tmpFile writer.result.runId) none).setFile
        (resultFile writer.result.runId) (some file)).setWriter writer .placed) ∧
      Grows s (((s.setFile (tmpFile writer.result.runId) none).setFile
        (resultFile writer.result.runId) (some file)).setWriter writer .placed) := by
  generalize hs' : ((s.setFile (tmpFile writer.result.runId) none).setFile
    (resultFile writer.result.runId) (some file)).setWriter writer .placed = s'
  have hself : s'.writers writer.result.runId = some { writer with phase := .placed } := by
    rw [← hs']
    exact Spool.writers_setWriter_self ..
  have hwriters {runId : String} (hne : runId ≠ writer.result.runId) :
      s'.writers runId = s.writers runId := by
    rw [← hs', Spool.writers_setWriter_of_ne _ _ _ hne]
    rfl
  have htoken : RUN_TOKEN_RE.test writer.result.runId = true := by
    apply (h.own _ writer hwriter).2
    rw [hphase]
    exact WriterPhase.noConfusion
  have hother {name : String} (htmp : name ≠ tmpFile writer.result.runId)
      (hresult : name ≠ resultFile writer.result.runId) : s'.files name = s.files name := by
    rw [← hs', Spool.files_setWriter, Spool.files_setFile_of_ne _ _ hresult,
      Spool.files_setFile_of_ne _ _ htmp]
  have hthere : s'.files (resultFile writer.result.runId) = some file := by
    rw [← hs', Spool.files_setWriter, Spool.files_setFile_self]
  have htext : file.text = some writer.result.spooled := by
    obtain ⟨found, hfound, htext⟩ := h.staged _ writer hwriter (hphase ▸ rfl)
    obtain rfl := Option.some.inj (hfile.symm.trans hfound)
    exact htext
  have hplaced {runId : String} {result : BackupRunResult} (hplaced : Placed s runId result) :
      runId ≠ writer.result.runId ∧ Placed s' runId result := by
    have hne : runId ≠ writer.result.runId := by
      rintro rfl
      have hsame := congrArg Writer.phase (Option.some.inj (hplaced.symm.trans hwriter))
      cases hsame.trans hphase
    exact ⟨hne, (hwriters hne).trans hplaced⟩
  have hframes : s'.frames = s.frames := by
    rw [← hs']
    rfl
  have hanswered : s'.answered = s.answered := by
    rw [← hs']
    rfl
  refine ⟨⟨?own, ?staged, ?whole, ?kept, ?sent⟩, fun _ _ hp => (hplaced hp).2, ?answered⟩
  case own =>
    intro runId found hfound
    by_cases heq : runId = writer.result.runId
    · subst heq
      obtain rfl := Option.some.inj (hself.symm.trans hfound)
      exact ⟨rfl, fun _ => htoken⟩
    · exact h.own runId found ((hwriters heq).symm.trans hfound)
  case staged =>
    intro runId found hfound hstage
    by_cases heq : runId = writer.result.runId
    · subst heq
      obtain rfl := Option.some.inj (hself.symm.trans hfound)
      cases hstage
    · obtain ⟨other, hfound', htext'⟩ :=
        h.staged runId found ((hwriters heq).symm.trans hfound) hstage
      exact ⟨other, (hother (fun hname => heq (tmpFile_inj hname))
        (tmpFile_ne_resultFile htoken)).trans hfound', htext'⟩
  case whole =>
    intro runId found hrun hfound
    by_cases heq : runId = writer.result.runId
    · subst heq
      obtain rfl := Option.some.inj (hthere.symm.trans hfound)
      exact ⟨writer.result, hself, htext⟩
    · rw [hother (tmpFile_ne_resultFile hrun).symm fun hname => heq (resultFile_inj hname)]
        at hfound
      obtain ⟨result, hresult, htext'⟩ := h.whole runId found hrun hfound
      exact ⟨result, (hplaced hresult).2, htext'⟩
  case kept =>
    intro runId result hresult
    by_cases heq : runId = writer.result.runId
    · subst heq
      have hsame : writer.result = result :=
        congrArg Writer.result (Option.some.inj (hself.symm.trans hresult))
      exact Or.inl ⟨file, hthere, hsame ▸ htext⟩
    · have hbefore : Placed s runId result := (hwriters heq).symm.trans hresult
      have hrun := (h.own runId _ hbefore).2 WriterPhase.noConfusion
      rw [Holds, hother (tmpFile_ne_resultFile hrun).symm fun hname => heq (resultFile_inj hname),
        Holds, hother (tmpFile_ne_invalidFile _ _).symm (invalidFile_ne_resultFile htoken),
        hanswered]
      exact h.kept runId result hbefore
  case sent =>
    rw [hframes]
    exact fun frame hframe => ⟨(hplaced (h.sent frame hframe).1).2, (h.sent frame hframe).2⟩
  case answered =>
    rw [hanswered]
    exact fun _ hid => hid

theorem Kept.afterCall (h : Kept parseDate s)
    (hwriter : s.writers writer.result.runId = some writer) {ok : Bool}
    (hstep : s.afterCall writer ok = some s') : Kept parseDate s' ∧ Grows s s' := by
  have hunplaced (hphase : writer.phase ≠ .placed) (result : BackupRunResult) :
      ¬Placed s writer.result.runId result := fun hplaced =>
    hphase (congrArg Writer.phase (Option.some.inj (hwriter.symm.trans hplaced)))
  have htoken (hphase : writer.phase ≠ .failed) : RUN_TOKEN_RE.test writer.result.runId = true :=
    (h.own _ writer hwriter).2 hphase
  have hquiet (phase : WriterPhase) (hbefore : writer.phase ≠ .placed)
      (hfailed : writer.phase ≠ .failed) (hphase : phase ≠ .placed)
      (hstaged : phase.isStaged = true → Holds s (tmpFile writer.result.runId) writer.result) :
      Kept parseDate (s.setWriter writer phase) ∧ Grows s (s.setWriter writer phase) :=
    h.advance (s.setWriter writer phase) rfl (fun _ _ => rfl) (hunplaced hbefore) hphase
      (fun _ => htoken hfailed) hstaged
  have hfile (file : Option SpooledFile) (phase : WriterPhase) (hbefore : writer.phase ≠ .placed)
      (hfailed : writer.phase ≠ .failed) (hphase : phase ≠ .placed)
      (hstaged : phase.isStaged = true →
        ∃ found, file = some found ∧ found.text = some writer.result.spooled) :
      Kept parseDate ((s.setFile (tmpFile writer.result.runId) file).setWriter writer phase) ∧
        Grows s ((s.setFile (tmpFile writer.result.runId) file).setWriter writer phase) := by
    refine h.advance _ rfl (fun _ hname => Spool.files_setFile_of_ne _ _ hname) (hunplaced hbefore)
      hphase (fun _ => htoken hfailed) fun hstage => ?_
    obtain ⟨found, rfl, htext⟩ := hstaged hstage
    exact ⟨found, Spool.files_setFile_self .., htext⟩
  have hunstaged {phase : WriterPhase} {P : Prop} (hphase : phase.isStaged = false)
      (hstage : phase.isStaged = true) : P :=
    absurd (hphase.symm.trans hstage) Bool.false_ne_true
  unfold Spool.afterCall at hstep
  rcases hphase : writer.phase with _ | _ | _ | _ | _ | _ | _ | _ <;>
    rw [hphase] at hquiet hfile hstep <;> cases ok
  case making.false | making.true | creating.false | filling.false | changingMode.false |
      placing.false | removing.false =>
    exact Option.some.inj hstep ▸
      hquiet _ (by decide) (by decide) (by decide) (hunstaged (by decide))
  case creating.true =>
    dsimp only at hstep
    split at hstep
    · exact Option.some.inj hstep ▸
        hquiet _ (by decide) (by decide) (by decide) (hunstaged (by decide))
    · exact Option.some.inj hstep ▸
        hfile _ _ (by decide) (by decide) (by decide) (hunstaged (by decide))
  case filling.true =>
    exact Option.some.inj hstep ▸
      hfile _ _ (by decide) (by decide) (by decide) fun _ => ⟨_, rfl, rfl⟩
  case changingMode.true =>
    exact Option.some.inj hstep ▸ hquiet _ (by decide) (by decide) (by decide)
      fun _ => h.staged _ writer hwriter (hphase ▸ rfl)
  case placing.true =>
    dsimp only at hstep
    split at hstep
    case h_1 =>
      exact Option.some.inj hstep ▸
        hquiet _ (by decide) (by decide) (by decide) (hunstaged (by decide))
    case h_2 file hthere => exact Option.some.inj hstep ▸ h.place hwriter hphase hthere
  case removing.true =>
    exact Option.some.inj hstep ▸
      hfile _ _ (by decide) (by decide) (by decide) (hunstaged (by decide))
  all_goals cases hstep

theorem Kept.beginWrite {result : BackupRunResult} (h : Kept parseDate s)
    (hstep : beginWrite result s = some s') : Kept parseDate s' ∧ Grows s s' := by
  rw [Results.beginWrite] at hstep
  split at hstep
  case isTrue => cases hstep
  case isFalse hnew =>
    rw [← Option.some.inj hstep]
    have hunplaced (placed : BackupRunResult) : ¬Placed s result.runId placed := by
      intro hplaced
      rw [Placed] at hplaced
      rw [hplaced] at hnew
      exact hnew rfl
    refine h.advance _ rfl (fun _ _ => rfl) hunplaced ?_ ?_ ?_ <;> split
    case refine_2.isTrue htoken => exact fun _ => htoken
    case refine_2.isFalse => exact fun hfailed => absurd rfl hfailed
    case refine_1.isTrue => decide
    case refine_1.isFalse => decide
    all_goals exact fun hstage => absurd hstage Bool.false_ne_true

end

theorem Kept.act {action : Act} (h : Kept parseDate s) (hact : act action s = some s') :
    Kept parseDate s' ∧ Grows s s' := by
  cases action with
  | beginWrite result => exact h.beginWrite hact
  | afterCall runId ok =>
    obtain ⟨writer, hwriter, hstep⟩ := Option.bind_eq_some_iff.mp hact
    have hid := (h.own runId writer hwriter).1
    subst hid
    exact h.afterCall hwriter hstep
  | setOpen socketOpen =>
    obtain rfl := Option.some.inj hact
    exact ⟨⟨h.own, h.staged, h.whole, h.kept, h.sent⟩, fun _ _ hp => hp, fun _ hid => hid⟩
  | advance ms =>
    obtain rfl := Option.some.inj hact
    exact ⟨⟨h.own, h.staged, h.whole, h.kept, h.sent⟩, fun _ _ hp => hp, fun _ hid => hid⟩

/-! ## The functions of the daemon -/

/-- What the daemon's functions promise each other. -/
def contract (parseDate : String → Option ℚ) : Contract Kind SpoolCall Spool where
  inv := Kept parseDate
  rely := Grows
  pre _ _ c s := Ready parseDate s c
  effect _ _ c s b s' := ∃ reply, b = (perform c reply s).1 ∧ s' = (perform c reply s).2
  rely_refl := Grows.refl
  rely_trans := Grows.trans
  pre_stable := Ready.grows
  keeps := by
    rintro t β c s b s' hinv hpre ⟨reply, -, rfl⟩
    exact hinv.perform hpre reply

section

variable {t : Kind} {localeCompare : String → String → ℤ}

theorem resultFileId_token {name runId : String} (h : resultFileId name = some runId) :
    RUN_TOKEN_RE.test runId = true :=
  (Option.filter_eq_some_iff.mp h).2

theorem statAll_safe (runIds : List String) (s : Spool) :
    (statAll runIds).Safe (contract parseDate) t
      (fun stamped _ => ∀ entries, stamped = .ok entries → entries.map Prod.fst = runIds) s := by
  induction runIds generalizing s with
  | nil =>
    intro entries hentries
    obtain rfl := Except.ok.inj hentries
    rfl
  | cons runId rest ih =>
    refine Async.Safe.perform_bind trivial ?_
    intro _ _ _ answer s' _ _ _
    cases answer with
    | error error =>
      intro entries hentries
      cases hentries
    | ok mtime =>
      refine (ih s').bind ?_
      intro others s'' hothers entries hentries
      cases others with
      | error error => cases hentries
      | ok others =>
        obtain rfl := Except.ok.inj hentries
        rw [List.map_cons, hothers others rfl]

theorem listSpooledRunIds_safe (s : Spool) :
    (listSpooledRunIds localeCompare).Safe (contract parseDate) t
      (fun listed _ => ∀ runIds, listed = .ok runIds →
        runIds.length ≤ MAX_REPORTS_PER_TICK ∧ ∀ runId ∈ runIds, RUN_TOKEN_RE.test runId = true)
      s := by
  refine Async.Safe.perform_bind trivial ?_
  intro _ _ _ answer s' _ _ _
  cases answer with
  | error error =>
    cases error with
    | notFound =>
      intro runIds hrunIds
      obtain rfl := Except.ok.inj hrunIds
      exact ⟨Nat.zero_le _, fun _ hmem => absurd hmem List.not_mem_nil⟩
    | other =>
      intro runIds hrunIds
      cases hrunIds
  | ok names =>
    refine (statAll_safe _ s').bind ?_
    intro stamped s'' hstamped runIds hrunIds
    cases stamped with
    | error error => cases hrunIds
    | ok stamped =>
      obtain rfl := Except.ok.inj hrunIds
      constructor
      · rw [oldest, List.length_map, List.length_take]
        exact Nat.min_le_left _ _
      · intro runId hrunId
        obtain ⟨entry, hentry, rfl⟩ := List.mem_map.mp hrunId
        have hmem : entry.1 ∈ stamped.map Prod.fst :=
          List.mem_map_of_mem ((List.mergeSort_perm ..).mem_iff.mp (List.mem_of_mem_take hentry))
        rw [hstamped stamped rfl] at hmem
        obtain ⟨name, -, hname⟩ := List.mem_filterMap.mp hmem
        exact resultFileId_token hname

/-- What is read is all of what a run wrote. -/
theorem placed_of_read {runId : String} {text : Option Json} {reply : Reply}
    (htoken : RUN_TOKEN_RE.test runId = true) (h : Kept parseDate s)
    (hread : .ok text = (perform (.readTextFile (resultFile runId)) reply s).1) :
    ∃ result, result.runId = runId ∧ Placed s runId result ∧ text = some result.spooled := by
  rw [perform, Reply.file] at hread
  dsimp only at hread
  split at hread
  case h_3 file _ hfile =>
    obtain ⟨result, hplaced, htext⟩ := h.whole runId file htoken hfile
    exact ⟨result, (h.own runId _ hplaced).1, hplaced, (Except.ok.inj hread).trans htext⟩
  all_goals cases hread

/-- A result is sent as it was written, or parked if it may not be sent. -/
theorem report_safe {runId : String} (htoken : RUN_TOKEN_RE.test runId = true) (s : Spool) :
    (report parseDate runId).Safe (contract parseDate) t (fun _ _ => True) s := by
  refine Async.Safe.perform_bind trivial ?_
  rintro before - hkept answer s' ⟨reply, hanswer, hs'⟩ - -
  cases answer with
  | error error => cases error <;> trivial
  | ok text =>
    obtain ⟨result, rfl, hplaced, rfl⟩ := placed_of_read htoken hkept hanswer
    have hplaced' : Placed s' result.runId result := hs' ▸ hplaced
    by_cases hsendable : result.Sendable parseDate
    · dsimp only
      rw [parseSpooledBackupRunResult_of_sendable parseDate result hsendable]
      refine Async.Safe.perform_bind trivial ?_
      intro _ _ _ nextRunAt s'' _ hgrows _
      refine Async.Safe.perform_bind ⟨hgrows.placed _ _ hplaced', hsendable⟩ ?_
      intro _ _ _ _ _ _ _ _
      trivial
    · obtain ⟨issue, hissue⟩ :=
        parseSpooledBackupRunResult_of_not_sendable parseDate result hsendable
      dsimp only
      rw [hissue]
      exact Async.Safe.perform_bind ⟨result.runId, result, rfl, rfl, htoken, hplaced', hsendable⟩
        fun _ _ _ _ _ _ _ _ => trivial

theorem firstSequential_safe {runIds : List String}
    (h : ∀ runId ∈ runIds, RUN_TOKEN_RE.test runId = true) (s : Spool) :
    (firstSequential (report parseDate) runIds).Safe (contract parseDate) t (fun _ _ => True)
      s := by
  induction runIds generalizing s with
  | nil => trivial
  | cons runId rest ih =>
    obtain ⟨htoken, hrest⟩ := List.forall_mem_cons.mp h
    refine (report_safe htoken s).bind ?_
    intro stop s' _
    cases stop with
    | error error => trivial
    | ok stop =>
      cases stop with
      | true => trivial
      | false => exact ih hrest s'

theorem tick_safe (s : Spool) :
    (tick parseDate localeCompare).Safe (contract parseDate) t (fun _ _ => True) s := by
  refine (listSpooledRunIds_safe s).bind ?_
  intro listed s' hlisted
  have hend (s : Spool) : (Async.perform SpoolCall.endTick).Safe (contract parseDate) t
      (fun _ _ => True) s := Async.Safe.perform trivial fun _ _ _ _ _ _ _ _ => trivial
  cases listed with
  | error error => exact hend s'
  | ok runIds => exact (firstSequential_safe (hlisted runIds rfl).2 s').bind fun _ s'' _ => hend s''

theorem handleResult_safe {id : String} (h : id ∈ s.answered) :
    (handleResult id).Safe (contract parseDate) t (fun _ _ => True) s := by
  rw [handleResult]
  split
  case isTrue => trivial
  case isFalse htoken =>
    rw [Bool.not_eq_true', Bool.not_eq_false] at htoken
    exact Async.Safe.perform_bind ⟨id, h, rfl, htoken⟩ fun _ _ _ _ _ _ _ _ => trivial

end

/-! ## Runs -/

theorem kept_fresh : Kept parseDate Spool.fresh := by
  refine ⟨?_, ?_, ?_, ?_, ?_⟩
  case refine_3 =>
    intro _ _ _ hfile
    cases hfile
  case refine_5 => exact fun _ hframe => absurd hframe List.not_mem_nil
  all_goals
    intro _ _ hwriter
    cases hwriter

/-- Whatever goes on at the same time, no result that is in place is lost, and reports carry what
the runs wrote. -/
theorem kept_of_reaches {localeCompare : String → String → ℤ} {pool : Pool Kind SpoolCall Spool}
    (h : Reaches (reporter parseDate localeCompare).step (fun _ _ => True) (Pool.idle Spool.fresh)
      pool) : Kept parseDate pool.shared := by
  have hany : Reaches (reporter parseDate localeCompare).step Allowed.any.event
      (Pool.idle Spool.fresh) pool := h.mono fun pool event _ => Allowed.event_any pool event
  have hsound : pool.Sound (contract parseDate) := by
    refine Process.sound_of_reaches ?_ ?_ ?_ ?_ kept_fresh hany
    · rintro t β c s b s' ⟨reply, -, hb, hs'⟩
      exact ⟨reply, hb, hs'⟩
    · intro kind s s' thread hkept hspawn
      cases kind with
      | tick =>
        dsimp only [reporter] at hspawn
        split at hspawn
        case isTrue =>
          obtain ⟨rfl, rfl⟩ := Prod.mk.inj (Option.some.inj hspawn)
          exact ⟨hkept, Grows.refl _, trivial⟩
        case isFalse =>
          obtain ⟨rfl, rfl⟩ := Prod.mk.inj (Option.some.inj hspawn)
          exact ⟨⟨hkept.own, hkept.staged, hkept.whole, hkept.kept, hkept.sent⟩,
            ⟨fun _ _ hp => hp, fun _ hid => hid⟩, tick_safe _⟩
      | handleResult id =>
        obtain ⟨rfl, rfl⟩ := Prod.mk.inj (Option.some.inj hspawn)
        refine ⟨⟨hkept.own, hkept.staged, hkept.whole, ?_, hkept.sent⟩,
          ⟨fun _ _ hp => hp, fun _ hid => List.mem_cons_of_mem _ hid⟩,
          handleResult_safe List.mem_cons_self⟩
        intro runId result hplaced
        rcases hkept.kept runId result hplaced with hthere | hparked | hanswered
        · exact Or.inl hthere
        · exact Or.inr (Or.inl hparked)
        · exact Or.inr (Or.inr (List.mem_cons_of_mem _ hanswered))
    · intro action s s' hkept _ hact
      exact hkept.act hact
    · intro s hkept _
      exact ⟨hkept.own, hkept.staged, hkept.whole, hkept.kept, hkept.sent⟩
  exact hsound.inv

/-- A run that puts its result in place while a tick begins, and an answer for it. -/
def answeredRun : List (Event Reply Kind Act) :=
  let result : BackupRunResult :=
    ⟨"policy", "run_1", "", "", .failed, none, none, none, none, none, none, none⟩
  let goesOn : Event Reply Kind Act := .act (.afterCall "run_1" true)
  [.act (.beginWrite result), goesOn, goesOn, .spawn 0 .tick, goesOn, goesOn, goesOn,
    .answer 0 ⟨none, ["run_1.json"], none⟩, .spawn 1 (.handleResult "run_1"),
    .answer 1 ⟨none, [], none⟩]

theorem kept_of_answered : ∃ pool,
    runFrom (reporter (fun _ => none) fun _ _ => 0).step (Pool.idle Spool.fresh) answeredRun =
        some pool ∧ ((pool.shared.writers "run_1").map Writer.phase = some .placed ∧
        (pool.shared.files "run_1.json").isNone = true) ∧ Kept (fun _ => none) pool.shared := by
  have hends : (runFrom (reporter (fun _ => none) fun _ _ => 0).step (Pool.idle Spool.fresh)
      answeredRun).map (fun pool => ((pool.shared.writers "run_1").map Writer.phase,
        (pool.shared.files "run_1.json").isNone)) = some (some .placed, true) := by
    decide
  obtain ⟨pool, hrun, hvalue⟩ := Option.map_eq_some_iff.mp hends
  exact ⟨pool, hrun, Prod.mk.inj hvalue, kept_of_reaches (Reaches.refl.of_runFrom hrun)⟩

end Turbopaneld.Backups.Results
