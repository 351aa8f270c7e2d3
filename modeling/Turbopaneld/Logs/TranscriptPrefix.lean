/-
# What the control plane holds of a transcript

The control plane holds the first chunks that were taken from the spool, and behind them the
truncation marker only where they and the next chunk exceed the bound.  The daemon counts a
chunk again when it is sent again, so this is kept as long as no chunk is answered with an
earlier number.
-/

import Mathlib.Algebra.Ring.Nat
import Turbopaneld.Logs.Transcript

namespace Turbopaneld.Logs

open Machines (Reaches)

/-- The bytes of the first `count` chunks. -/
def total (chunks : List PendingChunk) (count : ℕ) : ℕ :=
  ((chunks.take count).map fun chunk => chunk.bytes.length).sum

theorem total_succ {chunks : List PendingChunk} {i : ℕ} {chunk : PendingChunk}
    (hchunk : chunks[i]? = some chunk) :
    total chunks (i + 1) = total chunks i + chunk.bytes.length := by
  rw [total, total, List.take_add_one, hchunk]
  simp

theorem total_append {chunks : List PendingChunk} {count : ℕ} (hcount : count ≤ chunks.length)
    (more : List PendingChunk) : total (chunks ++ more) count = total chunks count := by
  rw [total, total, List.take_append_of_le_length hcount]

theorem getElem?_append_of_some {chunks : List PendingChunk} {i : ℕ} {chunk : PendingChunk}
    (more : List PendingChunk) (hchunk : chunks[i]? = some chunk) :
    (chunks ++ more)[i]? = some chunk ∧ i < chunks.length := by
  obtain ⟨hi, -⟩ := List.getElem?_eq_some_iff.mp hchunk
  exact ⟨by rw [List.getElem?_append_left hi, hchunk], hi⟩

/-- The first chunks, in order and each once, and the marker only where the next chunk exceeds
the bound. -/
def HoldsPrefix (maxBytes : ℕ) (chunks : List PendingChunk) (held : List Units) : Prop :=
  ∃ count ≤ chunks.length, held = (chunks.take count).map PendingChunk.bytes ∨
    held = (chunks.take count).map PendingChunk.bytes ++ [truncationMarker] ∧
      ∃ next, chunks[count]? = some next ∧ total chunks count + next.bytes.length > maxBytes

theorem HoldsPrefix.append {maxBytes : ℕ} {chunks : List PendingChunk} {held : List Units}
    (h : HoldsPrefix maxBytes chunks held) (more : List PendingChunk) :
    HoldsPrefix maxBytes (chunks ++ more) held := by
  obtain ⟨count, hcount, hheld⟩ := h
  refine ⟨count, by rw [List.length_append]; omega, ?_⟩
  rw [List.take_append_of_le_length hcount, total_append hcount]
  refine hheld.imp_right fun ⟨heq, next, hnext, hover⟩ => ⟨heq, next, ?_, hover⟩
  exact (getElem?_append_of_some _ hnext).1

/-- A control plane that forgets the last chunks holds the first ones. -/
theorem HoldsPrefix.take {maxBytes : ℕ} {chunks : List PendingChunk} {held : List Units}
    (h : HoldsPrefix maxBytes chunks held) (left : ℕ) :
    HoldsPrefix maxBytes chunks (held.take left) := by
  obtain ⟨count, hcount, hheld⟩ := h
  have hchunks : ((chunks.take count).map PendingChunk.bytes).take left =
      (chunks.take (min left count)).map PendingChunk.bytes := by
    rw [← List.map_take, List.take_take]
  obtain rfl | ⟨rfl, hmarked⟩ := hheld
  · exact ⟨min left count, by omega, Or.inl hchunks⟩
  · have hlength : ((chunks.take count).map PendingChunk.bytes).length = count := by
      rw [List.length_map, List.length_take]
      omega
    by_cases hleft : left ≤ count
    · refine ⟨min left count, by omega, Or.inl ?_⟩
      rw [List.take_append_of_le_length (by rwa [hlength]), hchunks]
    · refine ⟨count, hcount, Or.inr ⟨?_, hmarked⟩⟩
      rw [List.take_of_length_le]
      rw [List.length_append, hlength, List.length_singleton]
      omega

/-- A request as the sink sends it: a chunk that fits behind those before it, or the marker in
place of the first that does not. -/
structure Fits (maxBytes : ℕ) (chunks : List PendingChunk) (request : Request) : Prop where
  before : total chunks request.seq ≤ maxBytes
  bytes : ∃ chunk, chunks[request.seq]? = some chunk ∧
    (total chunks request.seq + chunk.bytes.length ≤ maxBytes ∧ request.bytes = chunk.bytes ∨
      total chunks request.seq + chunk.bytes.length > maxBytes ∧ request.bytes = truncationMarker)

theorem Fits.append {maxBytes : ℕ} {chunks : List PendingChunk} {request : Request}
    (h : Fits maxBytes chunks request) (more : List PendingChunk) :
    Fits maxBytes (chunks ++ more) request := by
  obtain ⟨hbefore, chunk, hchunk, hbytes⟩ := h
  obtain ⟨happend, hlt⟩ := getElem?_append_of_some more hchunk
  have htotal := total_append hlt.le more
  exact ⟨htotal ▸ hbefore, chunk, happend, by rwa [htotal]⟩

/-- Such a request leaves the control plane with the first chunks. -/
theorem HoldsPrefix.takeRequest {maxBytes : ℕ} {chunks : List PendingChunk} {held : List Units}
    (h : HoldsPrefix maxBytes chunks held) {request : Request}
    (hrequest : Fits maxBytes chunks request) :
    HoldsPrefix maxBytes chunks (takeRequest held request).2 := by
  by_cases hseq : request.seq = held.length
  · have hnew : (Logs.takeRequest held request).2 = held ++ [request.bytes] := by
      rw [Logs.takeRequest, if_pos hseq]
    rw [hnew]
    obtain ⟨hbefore, chunk, hchunk, hbytes⟩ := hrequest
    obtain ⟨count, hcount, hheld⟩ := h
    have hlength : ((chunks.take count).map PendingChunk.bytes).length = count := by
      rw [List.length_map, List.length_take]
      omega
    obtain rfl | ⟨rfl, next, hnext, hover⟩ := hheld
    · rw [hlength] at hseq
      rw [hseq] at hchunk hbytes
      obtain ⟨hfits, hsame⟩ | ⟨hover, hmarker⟩ := hbytes
      · obtain ⟨hlt, -⟩ := List.getElem?_eq_some_iff.mp hchunk
        refine ⟨count + 1, hlt, Or.inl ?_⟩
        rw [List.take_add_one, hchunk, hsame]
        simp
      · exact ⟨count, hcount, Or.inr ⟨by rw [hmarker], chunk, hchunk, hover⟩⟩
    · -- behind the marker nothing fits any more
      rw [List.length_append, hlength, List.length_singleton] at hseq
      rw [hseq, total_succ hnext] at hbefore
      omega
  · have hsame : (Logs.takeRequest held request).2 = held := by
      rw [Logs.takeRequest, if_neg hseq]
      split <;> rfl
    rw [hsame]
    exact h

/-! ## The sink -/

/-- The upload a task is about. -/
def Stage.upload? : Stage → Option Upload
  | .sending upload _ _ => some upload
  | .backoff upload _ _ => some upload
  | _ => none

namespace CommandOutputSink

/-- The chunks are numbered, none was answered with an earlier number, and each that was
acknowledged is counted once. -/
structure Counts (options : SinkOptions) (s : CommandOutputSink) : Prop where
  seqs : ∀ (i : ℕ) (chunk : PendingChunk), s.chunks[i]? = some chunk → chunk.seq = i
  chunkSeq : s.spool.chunkSeq = s.chunks.length
  conflict : s.uploader.conflictNextSeq = none
  counted : s.uploader.stopped = false → s.uploader.uploadedBytes = total s.chunks s.nextIndex
  within : s.uploader.stopped = false → s.uploader.uploadedBytes ≤ options.maxBytes
  nextIndex : s.nextIndex ≤ s.chunks.length

/-- The upload is that of the next chunk. -/
structure IsNext (options : SinkOptions) (s : CommandOutputSink) (upload : Upload) : Prop where
  stopped : s.uploader.stopped = false
  chunk : s.chunks[s.nextIndex]? = some upload.chunk
  truncates : upload.truncates = true ↔
    s.uploader.uploadedBytes + upload.chunk.bytes.length > options.maxBytes

structure Sound (options : SinkOptions) (s : CommandOutputSink) : Prop where
  counts : Counts options s
  isNext : ∀ upload, s.stage.upload? = some upload → IsNext options s upload

variable {options : SinkOptions} {s : CommandOutputSink}

/-- Only some fields matter to that. -/
theorem Counts.congr {s' : CommandOutputSink} (h : Counts options s)
    (hsame : s' = { s' with spool := { s'.spool with chunkSeq := s.spool.chunkSeq }
                            uploader := { s'.uploader with
                              conflictNextSeq := s.uploader.conflictNextSeq
                              stopped := s.uploader.stopped
                              uploadedBytes := s.uploader.uploadedBytes }
                            chunks := s.chunks, nextIndex := s.nextIndex }) :
    Counts options s' := by
  rw [hsame]
  exact ⟨h.seqs, h.chunkSeq, h.conflict, h.counted, h.within, h.nextIndex⟩

theorem IsNext.congr {s' : CommandOutputSink} {upload : Upload} (h : IsNext options s upload)
    (hsame : s' = { s' with uploader := { s'.uploader with
                              stopped := s.uploader.stopped
                              uploadedBytes := s.uploader.uploadedBytes }
                            chunks := s.chunks, nextIndex := s.nextIndex }) :
    IsNext options s' upload := by
  rw [hsame]
  exact ⟨h.stopped, h.chunk, h.truncates⟩

/-- The request of the next upload fits. -/
theorem IsNext.fits {upload : Upload} (h : IsNext options s upload) (hcounts : Counts options s) :
    Fits options.maxBytes s.chunks upload.request := by
  have hseq : upload.request.seq = s.nextIndex := hcounts.seqs _ _ h.chunk
  have htotal := hcounts.counted h.stopped
  have hwithin := hcounts.within h.stopped
  have htruncates := h.truncates
  rw [htotal] at hwithin htruncates
  refine ⟨by rwa [hseq], upload.chunk, by rw [hseq]; exact h.chunk, ?_⟩
  rw [hseq]
  cases hcase : upload.truncates with
  | true =>
    rw [hcase] at htruncates
    exact Or.inr ⟨htruncates.mp rfl, by rw [Upload.request, if_pos hcase]⟩
  | false =>
    rw [hcase] at htruncates
    refine Or.inl ⟨?_, by rw [Upload.request, hcase, if_neg Bool.false_ne_true]⟩
    by_contra hover
    exact Bool.false_ne_true (htruncates.mpr (by omega))

/-- A sink that keeps its chunks. -/
structure Keeps (options : SinkOptions) (s s' : CommandOutputSink) : Prop where
  sound : Sound options s'
  chunks : s'.chunks = s.chunks

theorem afterDrain_keeps (h : Counts options s) (caller : Caller) :
    Keeps options s (s.afterDrain caller) := by
  cases caller with
  | flush =>
    have hchunks : (s.afterDrain .flush).chunks = s.chunks := by
      simp only [afterDrain, scheduleRetry]
      split <;> [split; skip] <;> rfl
    refine ⟨⟨h.congr ?_, fun upload hupload => nomatch hupload⟩, hchunks⟩
    simp only [afterDrain, scheduleRetry]
    split <;> [split; skip] <;> rfl
  | settleQueue rounds =>
    refine ⟨⟨h.congr rfl, fun upload hupload => ?_⟩, rfl⟩
    simp only [afterDrain] at hupload
    split at hupload <;> cases hupload

theorem notAcked_keeps (h : Counts options s) (caller : Caller) :
    Keeps options s (s.notAcked caller) := by
  have hresync : resyncOnConflict { s with allAcked := false } = { s with allAcked := false } := by
    rw [resyncOnConflict, h.conflict]
  have hcounts : Counts options { s with allAcked := false } := h.congr rfl
  obtain ⟨hsound, hchunks⟩ := afterDrain_keeps hcounts caller
  rw [notAcked, hresync]
  exact ⟨hsound, hchunks⟩

theorem sendWithRetry_keeps {upload : Upload} (h : Counts options s)
    (hupload : IsNext options s upload) (attempt : ℕ) (caller : Caller) :
    Keeps options s (s.sendWithRetry options upload attempt caller) := by
  rw [sendWithRetry]
  split
  · exact notAcked_keeps h caller
  · refine ⟨⟨h.congr rfl, ?_⟩, rfl⟩
    rintro _ ⟨⟩
    exact hupload.congr rfl

theorem drain_keeps (h : Counts options s) (caller : Caller) :
    Keeps options s (s.drain options caller) := by
  rw [drain]
  split
  · exact afterDrain_keeps h caller
  · split
    · exact afterDrain_keeps h caller
    · rename_i chunk hchunk
      split
      · exact notAcked_keeps h caller
      · rename_i hstopped
        refine sendWithRetry_keeps h ⟨?_, hchunk, ?_⟩ 1 caller
        · simpa using hstopped
        · simp

theorem acked_counts {upload : Upload} (h : Counts options s) (hupload : IsNext options s upload) :
    Counts options
      { s with uploader := noteSent upload s.uploader, nextIndex := s.nextIndex + 1 } := by
  obtain ⟨hlt, -⟩ := List.getElem?_eq_some_iff.mp hupload.chunk
  have hcounted := h.counted hupload.stopped
  refine ⟨h.seqs, h.chunkSeq, ?_, fun hstopped => ?_, fun hstopped => ?_, hlt⟩
  · rw [noteSent]
    split <;> exact h.conflict
  · simp only [noteSent] at hstopped ⊢
    split at hstopped
    · cases hstopped
    · rename_i hfits
      rw [if_neg hfits, total_succ hupload.chunk, ← hcounted]
  · simp only [noteSent] at hstopped ⊢
    split at hstopped
    · cases hstopped
    · rename_i hfits
      rw [if_neg hfits]
      by_contra hover
      exact hfits (hupload.truncates.mpr (by dsimp only at hover; omega))

/-- An answer without an earlier number. -/
theorem answered_keeps {upload : Upload} {attempt : ℕ} {caller : Caller} {answer : Answer}
    (h : Counts options s) (hupload : IsNext options s upload)
    (hanswer : ∀ nextSeq, answer ≠ .conflict nextSeq) :
    Keeps options s (s.answered options upload attempt caller answer) := by
  cases answer with
  | acked =>
    have hcounts : Counts options { s with
        uploader := noteSent upload s.uploader, nextIndex := s.nextIndex + 1
        allAcked := s.allAcked || allSent { s with
          uploader := noteSent upload s.uploader, nextIndex := s.nextIndex + 1 } } :=
      (acked_counts h hupload).congr rfl
    obtain ⟨hsound, hchunks⟩ := drain_keeps hcounts caller
    exact ⟨hsound, hchunks⟩
  | conflict nextSeq => exact absurd rfl (hanswer nextSeq)
  | refused =>
    have hcounts : Counts options { s with uploader := { s.uploader with refused := true } } :=
      h.congr rfl
    obtain ⟨hsound, hchunks⟩ := notAcked_keeps hcounts caller
    exact ⟨hsound, hchunks⟩
  | failed =>
    rw [answered]
    split
    · exact notAcked_keeps h caller
    · refine ⟨⟨h.congr rfl, ?_⟩, rfl⟩
      rintro _ ⟨⟩
      exact hupload.congr rfl

theorem settleQueue_keeps (h : Counts options s) (rounds : ℕ) :
    Keeps options s (s.settleQueue options rounds) := by
  rw [settleQueue]
  split
  · exact ⟨⟨h.congr rfl, fun upload hupload => nomatch hupload⟩, rfl⟩
  · exact drain_keeps h _

/-- The first part of a task takes at most one chunk more. -/
theorem begin_sound (h : Counts options s) (task : Task) :
    Sound options (s.begin options task) ∧
      ∃ more, (s.begin options task).chunks = s.chunks ++ more := by
  cases task with
  | flush =>
    by_cases hbuffer : s.spool.buffer = []
    · have hbegin : s.begin options .flush = s.drain options .flush := by
        rw [begin, CommandLogSpool.takePendingChunk, if_pos hbuffer]
      obtain ⟨hsound, hchunks⟩ := drain_keeps h .flush
      rw [hbegin]
      exact ⟨hsound, [], by rw [List.append_nil, hchunks]⟩
    · set chunk : PendingChunk := ⟨s.spool.chunkSeq, s.spool.buffer.flatten⟩ with hchunk
      have hcounts : Counts options { s with
          spool := { s.spool with
            chunkSeq := s.spool.chunkSeq + 1, buffer := [], bufferBytes := 0 }
          chunks := s.chunks ++ [chunk]
          backlogBytes := s.backlogBytes + chunk.bytes.length } := by
        refine ⟨fun i other hother => ?_, ?_, h.conflict, fun hstopped => ?_, h.within, ?_⟩
        · by_cases hi : i < s.chunks.length
          · rw [List.getElem?_append_left hi] at hother
            exact h.seqs i other hother
          · obtain ⟨hlt, -⟩ := List.getElem?_eq_some_iff.mp hother
            rw [List.length_append, List.length_singleton] at hlt
            have hlast : i = s.chunks.length := by omega
            rw [hlast, List.getElem?_concat_length] at hother
            rw [← Option.some.inj hother, hlast]
            exact h.chunkSeq
        · rw [List.length_append, List.length_singleton]
          exact congrArg (· + 1) h.chunkSeq
        · rw [total_append h.nextIndex]
          exact h.counted hstopped
        · rw [List.length_append]
          exact Nat.le_add_right_of_le h.nextIndex
      obtain ⟨hsound, hchunks⟩ := drain_keeps hcounts .flush
      rw [begin, CommandLogSpool.takePendingChunk, if_neg hbuffer]
      exact ⟨hsound, [chunk], hchunks⟩
  | settleQueue =>
    obtain ⟨hsound, hchunks⟩ := settleQueue_keeps h logFinalizeRetryRounds
    exact ⟨hsound, [], by rw [List.append_nil]; exact hchunks⟩
  | settleSpool =>
    refine ⟨⟨h.congr rfl, fun upload hupload => ?_⟩, [], (List.append_nil _).symm⟩
    simp only [begin] at hupload
    split at hupload <;> cases hupload

theorem onLine_keeps (h : Sound options s) (line : Option Units) (written elapsed : Bool) :
    Keeps options s (s.onLine options line written elapsed) := by
  unfold onLine
  split
  · exact ⟨h, rfl⟩
  · split
    · exact ⟨h, rfl⟩
    · cases line with
      | none => exact ⟨h, rfl⟩
      | some line =>
        dsimp only
        split <;> exact ⟨⟨h.counts.congr rfl, fun upload hupload =>
          (h.isNext upload hupload).congr rfl⟩, rfl⟩

theorem onRetryTimer_keeps (h : Sound options s) : Keeps options s s.onRetryTimer := by
  unfold onRetryTimer
  dsimp only
  split <;> exact ⟨⟨h.counts.congr rfl, fun upload hupload =>
    (h.isNext upload hupload).congr rfl⟩, rfl⟩

theorem finalize_keeps (h : Sound options s) : Keeps options s s.finalize := by
  unfold finalize
  split
  · exact ⟨h, rfl⟩
  · exact ⟨⟨h.counts.congr rfl, fun upload hupload => (h.isNext upload hupload).congr rfl⟩, rfl⟩

end CommandOutputSink

namespace Transcript

variable {options : SinkOptions} {s : Transcript}

structure Sound (options : SinkOptions) (s : Transcript) : Prop where
  sink : s.sink.Sound options
  held : HoldsPrefix options.maxBytes s.sink.chunks s.held
  late : ∀ request ∈ s.late, Fits options.maxBytes s.sink.chunks request

/-- The control plane answers no chunk with an earlier number. -/
def NotSentBack (s : Transcript) : TranscriptAction → Prop
  | .request .answered => ∀ upload, s.sink.stage.upload? = some upload →
      upload.request.seq ≤ s.held.length
  | _ => True

/-- A step of the sink that keeps its chunks. -/
theorem Sound.of_keeps {sink : CommandOutputSink} (h : Sound options s)
    (hkeeps : CommandOutputSink.Keeps options s.sink sink) : Sound options { s with sink } := by
  refine ⟨hkeeps.sound, ?_, ?_⟩
  · rw [hkeeps.chunks]
    exact h.held
  · rw [hkeeps.chunks]
    exact h.late

theorem takeRequest_ne_conflict {held : List Units} {request : Request}
    (hseq : request.seq ≤ held.length) (nextSeq : ℕ) :
    (takeRequest held request).1 ≠ .conflict nextSeq := by
  rw [takeRequest]
  split
  · exact nofun
  · rw [if_pos (by omega)]
    exact nofun

/-- The request of the running task, whatever becomes of it. -/
theorem meet_sound {upload : Upload} {attempt : ℕ} {caller : Caller} (h : Sound options s)
    (hstage : s.sink.stage = .sending upload attempt caller) (fate : RequestFate)
    (hback : NotSentBack s (.request fate)) :
    Sound options (s.meet options upload attempt caller fate) := by
  have hupload := h.sink.isNext upload (by rw [hstage]; rfl)
  have hfits := hupload.fits h.sink.counts
  have hkeeps : ∀ answer, (∀ nextSeq, answer ≠ .conflict nextSeq) → CommandOutputSink.Keeps options
      s.sink (s.sink.answered options upload attempt caller answer) := fun answer hanswer =>
    CommandOutputSink.answered_keeps h.sink.counts hupload hanswer
  cases fate with
  | answered =>
    have hseq := hback upload (by rw [hstage]; rfl)
    have hsound := h.of_keeps (hkeeps _ (takeRequest_ne_conflict hseq))
    refine ⟨hsound.sink, ?_, hsound.late⟩
    exact hsound.held.takeRequest ((hkeeps _ (takeRequest_ne_conflict hseq)).chunks ▸ hfits)
  | answerLost =>
    have hsound := h.of_keeps (hkeeps .failed nofun)
    refine ⟨hsound.sink, ?_, hsound.late⟩
    exact hsound.held.takeRequest ((hkeeps .failed nofun).chunks ▸ hfits)
  | requestLost =>
    have hsound := h.of_keeps (hkeeps .failed nofun)
    refine ⟨hsound.sink, hsound.held, fun request hrequest => ?_⟩
    obtain hold | hnew := List.mem_append.mp hrequest
    · exact hsound.late request hold
    · rw [List.mem_singleton.mp hnew]
      exact (hkeeps .failed nofun).chunks ▸ hfits
  | refused => exact h.of_keeps (hkeeps .refused nofun)

/-- Every step keeps it that no answer sends back. -/
theorem step_sound {s' : Transcript} {a : TranscriptAction} (h : Sound options s)
    (hback : NotSentBack s a) (hstep : s.step options a = some s') : Sound options s' := by
  cases a with
  | line line written elapsed =>
    obtain rfl := Option.some.inj hstep
    exact h.of_keeps (CommandOutputSink.onLine_keeps h.sink line written elapsed)
  | retryTimer =>
    rw [step] at hstep
    split at hstep
    · obtain rfl := Option.some.inj hstep
      exact h.of_keeps (CommandOutputSink.onRetryTimer_keeps h.sink)
    · cases hstep
  | finalize =>
    obtain rfl := Option.some.inj hstep
    exact h.of_keeps (CommandOutputSink.finalize_keeps h.sink)
  | next =>
    rw [step] at hstep
    split at hstep
    · rename_i task chain _ _
      obtain rfl := Option.some.inj hstep
      have hcounts : CommandOutputSink.Counts options { s.sink with chain } :=
        h.sink.counts.congr rfl
      obtain ⟨hsink, more, hchunks⟩ := CommandOutputSink.begin_sound hcounts task
      refine ⟨hsink, ?_, fun request hrequest => ?_⟩
      · rw [hchunks]
        exact h.held.append more
      · rw [hchunks]
        exact (h.late request hrequest).append more
    · cases hstep
  | wake =>
    rw [step] at hstep
    split at hstep
    · rename_i upload attempt caller hstage
      obtain rfl := Option.some.inj hstep
      have hupload := h.sink.isNext upload (by rw [hstage]; rfl)
      exact h.of_keeps
        (CommandOutputSink.sendWithRetry_keeps h.sink.counts hupload attempt caller)
    · obtain rfl := Option.some.inj hstep
      exact h.of_keeps (CommandOutputSink.settleQueue_keeps h.sink.counts _)
    · cases hstep
  | request fate =>
    rw [step] at hstep
    split at hstep
    · rename_i upload attempt caller hstage
      obtain rfl := Option.some.inj hstep
      exact meet_sound h hstage fate hback
    · cases hstep
  | fileRemoved done =>
    rw [step] at hstep
    split at hstep
    · obtain rfl := Option.some.inj hstep
      exact h.of_keeps ⟨⟨h.sink.counts.congr rfl, fun upload hupload => nomatch hupload⟩, rfl⟩
    · cases hstep
  | arrive i =>
    obtain ⟨request, hrequest, rfl⟩ := Option.map_eq_some_iff.mp hstep
    refine ⟨h.sink, ?_, fun other hother => h.late other (List.mem_of_mem_eraseIdx hother)⟩
    exact h.held.takeRequest (h.late request (List.mem_of_getElem? hrequest))
  | forget count =>
    obtain rfl := Option.some.inj hstep
    exact ⟨h.sink, h.held.take count, h.late⟩

theorem sound_start (options : SinkOptions) : Sound options {} := by
  refine ⟨⟨⟨nofun, rfl, rfl, fun _ => rfl, fun _ => Nat.zero_le _, le_rfl⟩, nofun⟩, ?_, nofun⟩
  exact ⟨0, le_rfl, Or.inl rfl⟩

/-- Whatever is lost or forgotten, the control plane holds the first chunks, and the marker only
behind what fits, as long as it answers no chunk with an earlier number. -/
theorem holdsPrefix_of_reaches (options : SinkOptions)
    (h : Reaches (Transcript.step options) NotSentBack {} s) :
    HoldsPrefix options.maxBytes s.sink.chunks s.held :=
  (h.invariant (sound_start options) fun _ _ _ hsound hback hstep =>
    step_sound hsound hback hstep).held

/-- One line, sent and acknowledged. -/
theorem holdsPrefix_of_one_line :
    HoldsPrefix 10 [⟨0, [97, 10]⟩] [[97, 10]] :=
  holdsPrefix_of_reaches ⟨1, 10, 3⟩ (((Reaches.refl.tail (a := .line (some [97, 10]) true false)
    trivial rfl).tail (a := .next) trivial rfl).tail (a := .request .answered)
    (by rintro _ ⟨⟩; exact le_rfl) rfl)

/-- Two chunks of four bytes are acknowledged and forgotten, and the answer to a third sends the
sink back to the first.  It is counted once more, and the marker is sent in its place. -/
theorem not_holdsPrefix_of_sentBack :
    ∃ s, Reaches (Transcript.step ⟨1, 10, 3⟩) (fun _ _ => True) {} s ∧
      ¬ HoldsPrefix 10 s.sink.chunks s.held := by
  have hrun : ∃ s, Machines.runFrom (Transcript.step ⟨1, 10, 3⟩) {}
      [.line (some [97, 97, 97, 10]) true false, .next, .request .answered,
        .line (some [98, 98, 98, 10]) true false, .next, .request .answered, .forget 0,
        .line (some [99, 10]) true false, .next, .request .answered, .retryTimer, .next,
        .request .answered] = some s ∧
      s.sink.chunks = [⟨0, [97, 97, 97, 10]⟩, ⟨1, [98, 98, 98, 10]⟩, ⟨2, [99, 10]⟩] ∧
      s.held = [truncationMarker] := ⟨_, rfl, rfl, rfl⟩
  obtain ⟨s, hrun, hchunks, hheld⟩ := hrun
  refine ⟨s, Reaches.refl.of_runFrom hrun, ?_⟩
  rintro ⟨count, -, hprefix⟩
  rw [hchunks, hheld] at hprefix
  obtain hsame | ⟨hsame, next, hnext, hover⟩ := hprefix
  · have hfirst := congrArg List.head? hsame
    cases count with
    | zero => cases hfirst
    | succ count =>
      have hbytes : some truncationMarker = some [97, 97, 97, 10] := hfirst
      exact absurd hbytes (by decide)
  · have hcount : count = 0 := by
      have hlength := congrArg List.length hsame
      simp only [List.length_append, List.length_map, List.length_take, List.length_cons,
        List.length_nil] at hlength
      omega
    subst hcount
    obtain rfl := Option.some.inj hnext
    exact absurd hover (by decide)

end Transcript

end Turbopaneld.Logs
