/-
# A copy is exact across restarts

However often an attempt is cut off, and whatever arrives late, a part that the storage has of
an upload is the range of the file that the upload was begun for, and an upload is completed by
an attempt on that file with all its parts in order.
-/

import Mathlib.Data.List.Range
import Turbopaneld.Backups.MultipartCopy
import Turbopaneld.Programs.Fallible

namespace Turbopaneld.Backups

open Machines (Process Pool Reaches Allowed)
open Programs

/-! ## The ranges of the parts -/

theorem le_ceilDiv_mul (a : ℕ) {b : ℕ} (hb : 0 < b) : a ≤ ceilDiv a b * b := by
  have hdiv := Nat.div_add_mod (a + b - 1) b
  have hmod := Nat.mod_lt (a + b - 1) hb
  rw [Nat.mul_comm] at hdiv
  rw [ceilDiv]
  omega

theorem ceilDiv_le {a b count : ℕ} (hb : 0 < b) (h : a ≤ count * b) : ceilDiv a b ≤ count := by
  rw [ceilDiv, Nat.div_le_iff_le_mul_add_pred hb]
  rw [Nat.mul_comm] at h
  omega

/-- A source as `uploadBackupFile` makes one for an upload in parts. -/
structure Source.InParts (source : Source) : Prop where
  pos : 0 < source.partBytes
  least : ceilDiv source.version.size maxParts ≤ source.partBytes

theorem Source.InParts.total_le {source : Source} (h : source.InParts) :
    source.total ≤ maxParts := by
  have hsize := le_ceilDiv_mul source.version.size (b := maxParts) (by decide)
  refine ceilDiv_le h.pos (hsize.trans ?_)
  rw [Nat.mul_comm]
  exact Nat.mul_le_mul_left maxParts h.least

theorem inParts_of_lt {key : String} {preferred : ℕ} {version : FileVersion}
    (h : ¬ version.size ≤ partSizeFor version.size preferred) :
    Source.InParts ⟨key, partSizeFor version.size preferred, version⟩ := by
  refine ⟨?_, Nat.le_max_right _ _⟩
  have hleast : ceilDiv version.size maxParts ≤ partSizeFor version.size preferred :=
    Nat.le_max_right _ _
  have hsize := le_ceilDiv_mul version.size (b := maxParts) (by decide)
  by_contra hzero
  have hnone : ceilDiv version.size maxParts = 0 := by
    dsimp only at hzero
    omega
  rw [hnone, Nat.zero_mul] at hsize
  omega

variable {files : FileHistory}

/-- The first parts are the first bytes. -/
theorem flatMap_part_eq_take (source : Source) (count : ℕ) :
    (List.range' 1 count).flatMap (files.part source) =
      (files.content source.version).take (count * source.partBytes) := by
  induction count with
  | zero => simp
  | succ count ih =>
    have hoffset : source.offset (1 + count) = count * source.partBytes := by
      rw [Source.offset, Nat.add_sub_cancel_left]
    rw [List.range'_1_concat, List.flatMap_append, List.flatMap_singleton, ih, FileHistory.part,
      FileHistory.range, Source.length, hoffset, Nat.succ_mul, List.take_add]
    congr 1
    obtain hle | hlt := Nat.le_total source.partBytes
      (source.version.size - count * source.partBytes)
    · rw [Nat.min_eq_left hle]
    · rw [Nat.min_eq_right hlt, List.take_of_length_le, List.take_of_length_le]
      · rw [List.length_drop, files.length_content]
        exact hlt
      · rw [List.length_drop, files.length_content]

/-- The parts are the file, each byte once and in order. -/
theorem flatMap_part_eq_content {source : Source} (h : source.InParts) :
    (List.range' 1 source.total).flatMap (files.part source) = files.content source.version := by
  rw [flatMap_part_eq_take, List.take_of_length_le]
  rw [files.length_content]
  exact le_ceilDiv_mul _ h.pos

/-! ## What is kept -/

/-- All parts of the attempt's own file were completed, in order, each taken under the attempt's
own key, part size and file. -/
structure Completion.IsExact (files : FileHistory) (completion : Completion) : Prop where
  numbers : completion.parts.map Prod.fst = List.range' 1 completion.attempt.total
  atMost : completion.attempt.total ≤ maxParts
  source : ∀ part ∈ completion.parts, part.2.source = completion.attempt
  range : ∀ part ∈ completion.parts, part.2.bytes = files.part completion.attempt part.1
  content : (completion.parts.flatMap fun part => part.2.bytes) =
    files.content completion.attempt.version

/-- Where the file is unchanged, the object is the file. -/
def Returned.IsExact (files : FileHistory) (returned : Returned) : Prop :=
  (∀ version, (returned.key, version) ∈ returned.copied → version = returned.version) →
    returned.object = some (files.content returned.version)

/-- A state that may be resumed: its upload was begun for what it names. -/
structure Tracks (w : World) (state : UploadState) : Prop where
  begun : w.begun state.uploadId =
    some ⟨state.key, state.partBytes, ⟨state.size, state.mtimeMs⟩⟩
  nodup : (state.parts.map PartTag.n).Nodup
  numbers : ∀ n ∈ state.parts.map PartTag.n, n ∈ List.range' 1 (ceilDiv state.size state.partBytes)

/-- A request as an attempt makes it. -/
def Proper (files : FileHistory) (w : World) : StorageRequest → Prop
  | .put key body => ∃ version, (key, version) ∈ w.copied ∧ body = files.content version
  | .create _ => True
  | .uploadPart id n body source => w.begun id = some source ∧ body = files.part source n
  | .complete id tags attempt => w.begun id = some attempt ∧ attempt.InParts ∧
      (attempt.key, attempt.version) ∈ w.copied ∧
      (tags.insertionSort byNumber).map PartTag.n = List.range' 1 attempt.total
  | .abort _ _ => True

/-- An upload whose parts are those of the file it was begun for. -/
structure StoredUpload.IsOf (files : FileHistory) (upload : StoredUpload) (source : Source) :
    Prop where
  key : upload.key = source.key
  parts : ∀ n part, upload.parts n = some part →
    part.source = source ∧ part.bytes = files.part source n

structure Kept (files : FileHistory) (w : World) : Prop where
  stateFile : ∀ state, w.stateFile = some state → Tracks w state
  tmp : ∀ state, w.tmp = some state → Tracks w state
  objects : ∀ key body, w.objects key = some body →
    ∃ version, (key, version) ∈ w.copied ∧ body = files.content version
  uploads : ∀ id upload, w.uploads id = some upload →
    ∃ source, w.begun id = some source ∧ upload.IsOf files source
  fresh : ∀ id, w.nextId ≤ id → w.uploads id = none ∧ w.begun id = none
  sent : ∀ request ∈ w.sent, Proper files w request
  completed : ∀ completion ∈ w.completed, completion.IsExact files
  returned : ∀ returned ∈ w.returned, returned.IsExact files

/-- What no step takes back. -/
structure Grows (w w' : World) : Prop where
  begun : ∀ id source, w.begun id = some source → w'.begun id = some source
  copied : ∀ entry ∈ w.copied, entry ∈ w'.copied
  objects : ∀ key, (w.objects key).isSome = true → (w'.objects key).isSome = true

theorem Grows.refl (w : World) : Grows w w :=
  ⟨fun _ _ h => h, fun _ h => h, fun _ h => h⟩

theorem Grows.trans {w w₁ w₂ : World} (h : Grows w w₁) (h' : Grows w₁ w₂) : Grows w w₂ :=
  ⟨fun id source hid => h'.begun id source (h.begun id source hid),
    fun entry hentry => h'.copied entry (h.copied entry hentry),
    fun key hkey => h'.objects key (h.objects key hkey)⟩

theorem Tracks.grow {w w' : World} {state : UploadState} (h : Tracks w state) (hgrows : Grows w w') :
    Tracks w' state :=
  ⟨hgrows.begun _ _ h.begun, h.nodup, h.numbers⟩

theorem Proper.grow {w w' : World} {request : StorageRequest} (h : Proper files w request)
    (hgrows : Grows w w') : Proper files w' request := by
  cases request with
  | put key body =>
    obtain ⟨version, hcopied, hbody⟩ := h
    exact ⟨version, hgrows.copied _ hcopied, hbody⟩
  | create source => trivial
  | uploadPart id n body source => exact ⟨hgrows.begun _ _ h.1, h.2⟩
  | complete id tags attempt =>
    obtain ⟨hbegun, hparts, hcopied, hnumbers⟩ := h
    exact ⟨hgrows.begun _ _ hbegun, hparts, hgrows.copied _ hcopied, hnumbers⟩
  | abort key id => trivial

/-- Only the storage's side changes. -/
structure SameFiles (w w' : World) : Prop where
  stateFile : w'.stateFile = w.stateFile
  tmp : w'.tmp = w.tmp
  sent : w'.sent = w.sent
  returned : w'.returned = w.returned

/-- What the storage changed is enough to keep the rest. -/
theorem Kept.of_storage {w w' : World} (h : Kept files w) (hsame : SameFiles w w')
    (hgrows : Grows w w')
    (hobjects : ∀ key body, w'.objects key = some body →
      ∃ version, (key, version) ∈ w'.copied ∧ body = files.content version)
    (huploads : ∀ id upload, w'.uploads id = some upload →
      ∃ source, w'.begun id = some source ∧ upload.IsOf files source)
    (hfresh : ∀ id, w'.nextId ≤ id → w'.uploads id = none ∧ w'.begun id = none)
    (hcompleted : ∀ completion ∈ w'.completed, completion.IsExact files) : Kept files w' where
  stateFile state hstate := (h.stateFile state (hsame.stateFile ▸ hstate)).grow hgrows
  tmp state hstate := (h.tmp state (hsame.tmp ▸ hstate)).grow hgrows
  objects := hobjects
  uploads := huploads
  fresh := hfresh
  sent request hrequest := (h.sent request (hsame.sent ▸ hrequest)).grow hgrows
  completed := hcompleted
  returned returned hreturned := h.returned returned (hsame.returned ▸ hreturned)

/-- Only the daemon's side changes. -/
structure SameStorage (w w' : World) : Prop where
  objects : w'.objects = w.objects
  uploads : w'.uploads = w.uploads
  nextId : w'.nextId = w.nextId
  begun : w'.begun = w.begun
  completed : w'.completed = w.completed
  copied : ∀ entry ∈ w.copied, entry ∈ w'.copied

theorem SameStorage.grows {w w' : World} (h : SameStorage w w') : Grows w w' :=
  ⟨fun id source hid => by rwa [h.begun], h.copied, fun key hkey => by rwa [h.objects]⟩

/-- What the daemon changed is enough to keep the rest. -/
theorem Kept.of_daemon {w w' : World} (h : Kept files w) (hsame : SameStorage w w')
    (hstateFile : ∀ state, w'.stateFile = some state → Tracks w state)
    (htmp : ∀ state, w'.tmp = some state → Tracks w state)
    (hsent : ∀ request ∈ w'.sent, Proper files w request)
    (hreturned : ∀ returned ∈ w'.returned, returned.IsExact files) :
    Kept files w' ∧ Grows w w' := by
  have hgrows := hsame.grows
  refine ⟨⟨fun state hstate => (hstateFile state hstate).grow hgrows,
    fun state hstate => (htmp state hstate).grow hgrows, fun key body hbody => ?_,
    fun id upload hupload => ?_, fun id hid => ?_,
    fun request hrequest => (hsent request hrequest).grow hgrows, ?_, hreturned⟩, hgrows⟩
  · rw [hsame.objects] at hbody
    obtain ⟨version, hcopied, hcontent⟩ := h.objects key body hbody
    exact ⟨version, hsame.copied _ hcopied, hcontent⟩
  · rw [hsame.uploads] at hupload
    rw [hsame.begun]
    exact h.uploads id upload hupload
  · rw [hsame.nextId] at hid
    rw [hsame.uploads, hsame.begun]
    exact h.fresh id hid
  · rw [hsame.completed]
    exact h.completed

/-! ## Requests at the storage -/

theorem put_kept {w : World} {key : String} {body : Bytes} (h : Kept files w)
    (hproper : Proper files w (.put key body)) :
    Kept files (w.put key body) ∧ Grows w (w.put key body) := by
  have hgrows : Grows w (w.put key body) := by
    refine ⟨fun _ _ h => h, fun _ h => h, fun other hother => ?_⟩
    rw [World.objects_put]
    by_cases hkey : other = key
    · rw [hkey, Function.update_self]
      rfl
    · rwa [Function.update_of_ne hkey]
  refine ⟨h.of_storage ⟨rfl, rfl, rfl, rfl⟩ hgrows (fun other body' hbody => ?_) h.uploads h.fresh
    h.completed, hgrows⟩
  rw [World.objects_put] at hbody
  by_cases hkey : other = key
  · rw [hkey, Function.update_self] at hbody
    obtain rfl := Option.some.inj hbody
    rw [hkey]
    exact hproper
  · rw [Function.update_of_ne hkey] at hbody
    exact h.objects other body' hbody

theorem create_kept {w : World} (source : Source) (h : Kept files w) :
    Kept files (w.create source).2 ∧ Grows w (w.create source).2 ∧
      (w.create source).2.begun (w.create source).1 = some source := by
  have hold : ∀ id upload, w.uploads id = some upload → id ≠ w.nextId := by
    rintro id upload hid rfl
    rw [(h.fresh w.nextId le_rfl).1] at hid
    cases hid
  have hgrows : Grows w (w.create source).2 := by
    refine ⟨fun id other hid => ?_, fun _ h => h, fun _ h => h⟩
    have hne : id ≠ w.nextId := by
      rintro rfl
      rw [(h.fresh w.nextId le_rfl).2] at hid
      cases hid
    rwa [World.begun_create, Function.update_of_ne hne]
  refine ⟨h.of_storage ⟨rfl, rfl, rfl, rfl⟩ hgrows h.objects (fun id upload hupload => ?_)
    (fun id hid => ?_) h.completed, hgrows, Function.update_self ..⟩
  · rw [World.uploads_create] at hupload
    by_cases hnew : id = w.nextId
    · rw [hnew, Function.update_self] at hupload
      obtain rfl := Option.some.inj hupload
      exact ⟨source, by rw [World.begun_create, hnew, Function.update_self], rfl, nofun⟩
    · rw [Function.update_of_ne hnew] at hupload
      obtain ⟨other, hbegun, hupload⟩ := h.uploads id upload hupload
      exact ⟨other, hgrows.begun id other hbegun, hupload⟩
  · have hnext : w.nextId + 1 ≤ id := hid
    have hne : id ≠ w.nextId := by omega
    rw [World.uploads_create, World.begun_create, Function.update_of_ne hne,
      Function.update_of_ne hne]
    exact h.fresh id (by omega)

theorem uploadPart_kept {w : World} {id n : ℕ} {body : Bytes} {source : Source} (h : Kept files w)
    (hproper : Proper files w (.uploadPart id n body source)) (etag : String) :
    Kept files (w.uploadPart id n body source etag).2 ∧
      Grows w (w.uploadPart id n body source etag).2 := by
  rw [World.uploadPart]
  split
  · exact ⟨h, Grows.refl w⟩
  · rename_i upload hupload
    split
    · exact ⟨h, Grows.refl w⟩
    · have hgrows : Grows w { w with uploads := Function.update w.uploads id (some { upload with
          parts := Function.update upload.parts n (some ⟨etag, body, source⟩) }) } :=
        ⟨fun _ _ h => h, fun _ h => h, fun _ h => h⟩
      obtain ⟨begun, hbegun, hof⟩ := h.uploads id upload hupload
      obtain rfl : begun = source := Option.some.inj (hbegun.symm.trans hproper.1)
      refine ⟨h.of_storage ⟨rfl, rfl, rfl, rfl⟩ hgrows h.objects (fun other upload' hother => ?_)
        (fun other hother => ?_) h.completed, hgrows⟩
      · dsimp only at hother
        by_cases hid : other = id
        · rw [hid, Function.update_self] at hother
          obtain rfl := Option.some.inj hother
          rw [hid]
          refine ⟨begun, hbegun, hof.key, fun m part hpart => ?_⟩
          dsimp only at hpart
          by_cases hm : m = n
          · rw [hm, Function.update_self] at hpart
            obtain rfl := Option.some.inj hpart
            rw [hm]
            exact ⟨rfl, hproper.2⟩
          · rw [Function.update_of_ne hm] at hpart
            exact hof.parts m part hpart
        · rw [Function.update_of_ne hid] at hother
          exact h.uploads other upload' hother
      · have hne : other ≠ id := by
          rintro rfl
          rw [(h.fresh other hother).1] at hupload
          cases hupload
        dsimp only
        rw [Function.update_of_ne hne]
        exact h.fresh other hother

theorem uploads_removed {w : World} {id other : ℕ} {upload : StoredUpload}
    (h : Function.update w.uploads id none other = some upload) :
    w.uploads other = some upload := by
  by_cases hid : other = id
  · rw [hid, Function.update_self] at h
    cases h
  · rwa [Function.update_of_ne hid] at h

theorem uploads_removed_none {w : World} {id other : ℕ} (h : w.uploads other = none) :
    Function.update w.uploads id none other = none := by
  by_cases hid : other = id
  · rw [hid, Function.update_self]
  · rwa [Function.update_of_ne hid]

/-- The parts that are listed are those of the upload, in the order of their numbers. -/
theorem listed_spec {upload : StoredUpload} {tags : List PartTag} {parts : List (ℕ × StoredPart)}
    (h : World.listed upload tags = some parts) :
    parts.map Prod.fst = (tags.insertionSort byNumber).map PartTag.n ∧
      ∀ part ∈ parts, upload.parts part.1 = some part.2 := by
  have hfound := mapM_eq_some_iff.mp h
  clear h
  generalize tags.insertionSort byNumber = sorted at hfound ⊢
  induction hfound with
  | nil => exact ⟨rfl, nofun⟩
  | cons hfirst _ ih =>
    obtain ⟨stored, hstored, hsame⟩ := Option.bind_eq_some_iff.mp hfirst
    split at hsame
    · obtain rfl := Option.some.inj hsame
      exact ⟨by rw [List.map_cons, List.map_cons, ih.1], List.forall_mem_cons.mpr ⟨hstored, ih.2⟩⟩
    · cases hsame

/-- The parts that complete an upload. -/
theorem isExact_of_listed {upload : StoredUpload} {tags : List PartTag} {attempt : Source}
    {parts : List (ℕ × StoredPart)} (hof : upload.IsOf files attempt) (hparts : attempt.InParts)
    (hnumbers : (tags.insertionSort byNumber).map PartTag.n = List.range' 1 attempt.total)
    (hlisted : World.listed upload tags = some parts) :
    Completion.IsExact files ⟨attempt, parts⟩ := by
  obtain ⟨hmap, hstored⟩ := listed_spec hlisted
  rw [hnumbers] at hmap
  refine ⟨hmap, hparts.total_le, fun part hmem => (hof.parts _ _ (hstored part hmem)).1,
    fun part hmem => (hof.parts _ _ (hstored part hmem)).2, ?_⟩
  calc (parts.flatMap fun part => part.2.bytes)
      = parts.flatMap fun part => files.part attempt part.1 :=
        List.flatMap_congr fun part hmem => (hof.parts _ _ (hstored part hmem)).2
    _ = (parts.map Prod.fst).flatMap (files.part attempt) := by rw [List.flatMap_map]
    _ = files.content attempt.version := by rw [hmap, flatMap_part_eq_content hparts]

theorem complete_kept {w : World} {id : ℕ} {tags : List PartTag} {attempt : Source}
    (h : Kept files w) (hproper : Proper files w (.complete id tags attempt)) :
    Kept files (w.complete id tags attempt).2 ∧ Grows w (w.complete id tags attempt).2 := by
  obtain ⟨hbegun, hparts, hcopied, hnumbers⟩ := hproper
  rw [World.complete]
  split
  · exact ⟨h, Grows.refl w⟩
  · rename_i upload hupload
    split
    · exact ⟨h, Grows.refl w⟩
    · split
      · exact ⟨h, Grows.refl w⟩
      · rename_i parts hlisted
        obtain ⟨source, hsource, hof⟩ := h.uploads id upload hupload
        obtain rfl : source = attempt := Option.some.inj (hsource.symm.trans hbegun)
        have hexact := isExact_of_listed hof hparts hnumbers hlisted
        have hgrows : Grows w { w with
            objects := Function.update w.objects source.key
              (some (parts.flatMap fun part => part.2.bytes))
            uploads := Function.update w.uploads id none
            completed := w.completed ++ [⟨source, parts⟩] } := by
          refine ⟨fun _ _ h => h, fun _ h => h, fun key hkey => ?_⟩
          dsimp only
          by_cases hsame : key = source.key
          · rw [hsame, Function.update_self]
            rfl
          · rwa [Function.update_of_ne hsame]
        refine ⟨h.of_storage ⟨rfl, rfl, rfl, rfl⟩ hgrows (fun key body hbody => ?_)
          (fun other upload' hother => h.uploads other upload' (uploads_removed hother))
          (fun other hother => ⟨uploads_removed_none (h.fresh other hother).1,
            (h.fresh other hother).2⟩) (fun completion hmem => ?_), hgrows⟩
        · dsimp only at hbody
          by_cases hsame : key = source.key
          · rw [hsame, Function.update_self] at hbody
            obtain rfl := Option.some.inj hbody
            rw [hsame]
            exact ⟨source.version, hcopied, hexact.content⟩
          · rw [Function.update_of_ne hsame] at hbody
            exact h.objects key body hbody
        · obtain hold | hnew := List.mem_append.mp hmem
          · exact h.completed completion hold
          · rw [List.mem_singleton.mp hnew]
            exact hexact

theorem abort_kept {w : World} (key : String) (id : ℕ) (h : Kept files w) :
    Kept files (w.abort key id) ∧ Grows w (w.abort key id) := by
  rw [World.abort]
  split
  · exact ⟨h, Grows.refl w⟩
  · split
    · exact ⟨h, Grows.refl w⟩
    · have hgrows : Grows w { w with uploads := Function.update w.uploads id none } :=
        ⟨fun _ _ h => h, fun _ h => h, fun _ h => h⟩
      exact ⟨h.of_storage ⟨rfl, rfl, rfl, rfl⟩ hgrows h.objects
        (fun other upload hother => h.uploads other upload (uploads_removed hother))
        (fun other hother => ⟨uploads_removed_none (h.fresh other hother).1,
          (h.fresh other hother).2⟩) h.completed, hgrows⟩

/-- A proper request may arrive at any time. -/
theorem arrive_kept {w : World} {request : StorageRequest} (h : Kept files w)
    (hproper : Proper files w request) (etag : String) :
    Kept files (w.arrive etag request) ∧ Grows w (w.arrive etag request) := by
  cases request with
  | put key body => exact put_kept h hproper
  | create source => exact ⟨(create_kept source h).1, (create_kept source h).2.1⟩
  | uploadPart id n body source => exact uploadPart_kept h hproper etag
  | complete id tags attempt => exact complete_kept h hproper
  | abort key id => exact abort_kept key id h

/-! ## What attempts see to -/

/-- What has to hold before a call. -/
def Ready (files : FileHistory) (w : World) : ∀ {β : Type}, Call β → Prop
  | _, .writeTmp state => Tracks w state
  | _, .put key body => Proper files w (.put key body)
  | _, .uploadPart id n body source => Proper files w (.uploadPart id n body source)
  | _, .complete id tags attempt => Proper files w (.complete id tags attempt)
  | _, .return key version => (key, version) ∈ w.copied ∧ (w.objects key).isSome = true
  | _, _ => True

theorem Ready.grow {w w' : World} {β : Type} {c : Call β} (h : Ready files w c)
    (hgrows : Grows w w') : Ready files w' c := by
  cases c with
  | writeTmp state => exact Tracks.grow h hgrows
  | put key body =>
    have hproper : Proper files w (.put key body) := h
    exact hproper.grow hgrows
  | uploadPart id n body source =>
    have hproper : Proper files w (.uploadPart id n body source) := h
    exact hproper.grow hgrows
  | complete id tags attempt =>
    have hproper : Proper files w (.complete id tags attempt) := h
    exact hproper.grow hgrows
  | «return» key version => exact ⟨hgrows.copied _ h.1, hgrows.objects _ h.2⟩
  | _ => trivial

/-- A request and whatever it answers. -/
theorem request_kept {α : Type} {w : World} (request : StorageRequest) (h : Kept files w)
    (hproper : Proper files w request) {answer : String → World → Except Failure α × World}
    (hanswer : ∀ etag w, Kept files w → Proper files w request →
      Kept files (answer etag w).2 ∧ Grows w (answer etag w).2) (reply : Reply) :
    Kept files (w.request request reply answer).2 ∧ Grows w (w.request request reply answer).2 := by
  have hkept : Kept files { w with sent := w.sent ++ [request] } ∧
      Grows w { w with sent := w.sent ++ [request] } := by
    refine h.of_daemon ⟨rfl, rfl, rfl, rfl, rfl, fun _ h => h⟩ h.stateFile h.tmp
      (fun other hother => ?_) h.returned
    obtain hold | hnew := List.mem_append.mp hother
    · exact h.sent other hold
    · rw [List.mem_singleton.mp hnew]
      exact hproper
  obtain ⟨hsent, hgrows⟩ := hkept
  have hproper' := hproper.grow hgrows
  cases reply with
  | done etag =>
    obtain ⟨hend, hgrows'⟩ := hanswer etag _ hsent hproper'
    exact ⟨hend, hgrows.trans hgrows'⟩
  | failed arrived failure =>
    rw [World.request]
    dsimp only
    split
    · obtain ⟨hend, hgrows'⟩ := arrive_kept hsent hproper' ""
      exact ⟨hend, hgrows.trans hgrows'⟩
    · exact ⟨hsent, hgrows⟩

theorem locally_kept {w after : World} (h : Kept files w)
    (hafter : Kept files after ∧ Grows w after) (reply : Reply) :
    Kept files (w.locally after reply).2 ∧ Grows w (w.locally after reply).2 := by
  cases reply with
  | done etag => exact hafter
  | failed arrived failure =>
    rw [World.locally]
    dsimp only
    split
    · exact hafter
    · exact ⟨h, Grows.refl w⟩

/-- Every call keeps it. -/
theorem perform_kept {w : World} {β : Type} {c : Call β} (h : Kept files w)
    (hready : Ready files w c) (reply : Reply) :
    Kept files (perform files c reply w).2 ∧ Grows w (perform files c reply w).2 := by
  have hsame : Kept files w ∧ Grows w w := ⟨h, Grows.refl w⟩
  cases c with
  | stat => exact locally_kept h hsame reply
  | openFile => exact locally_kept h hsame reply
  | readRange version offset length => cases reply <;> exact hsame
  | readState => cases reply <;> exact hsame
  | writeTmp state =>
    cases reply with
    | done etag =>
      refine h.of_daemon ⟨rfl, rfl, rfl, rfl, rfl, fun _ h => h⟩ h.stateFile ?_ h.sent h.returned
      rintro _ ⟨⟩
      exact hready
    | failed arrived failure =>
      exact h.of_daemon ⟨rfl, rfl, rfl, rfl, rfl, fun _ h => h⟩ h.stateFile nofun h.sent h.returned
  | renameTmp =>
    have hrenamed : Kept files { w with stateFile := w.tmp, tmp := none } ∧
        Grows w { w with stateFile := w.tmp, tmp := none } :=
      h.of_daemon ⟨rfl, rfl, rfl, rfl, rfl, fun _ h => h⟩ h.tmp (fun _ hnone => nomatch hnone)
        h.sent h.returned
    exact locally_kept h hrenamed reply
  | removeState =>
    have hremoved : Kept files { w with stateFile := none } ∧
        Grows w { w with stateFile := none } :=
      h.of_daemon ⟨rfl, rfl, rfl, rfl, rfl, fun _ h => h⟩ (fun _ hnone => nomatch hnone) h.tmp
        h.sent h.returned
    exact locally_kept h hremoved reply
  | put key body =>
    exact request_kept (.put key body) h hready (fun _ _ h hproper => put_kept h hproper) reply
  | create source =>
    exact request_kept (.create source) h trivial
      (fun _ _ h _ => ⟨(create_kept source h).1, (create_kept source h).2.1⟩) reply
  | uploadPart id n body source =>
    exact request_kept (.uploadPart id n body source) h hready
      (fun etag _ h hproper => uploadPart_kept h hproper etag) reply
  | complete id tags attempt =>
    exact request_kept (.complete id tags attempt) h hready
      (fun _ _ h hproper => complete_kept h hproper) reply
  | abort key id =>
    exact request_kept (.abort key id) h trivial (fun _ _ h _ => abort_kept key id h) reply
  | head key => cases reply <;> exact hsame
  | «return» key version =>
    refine h.of_daemon ⟨rfl, rfl, rfl, rfl, rfl, fun _ h => h⟩ h.stateFile h.tmp h.sent
      fun returned hreturned => ?_
    obtain hold | hnew := List.mem_append.mp hreturned
    · exact h.returned returned hold
    · rw [List.mem_singleton.mp hnew]
      intro hunchanged
      obtain ⟨body, hbody⟩ := Option.isSome_iff_exists.mp hready.2
      obtain ⟨other, hcopied, rfl⟩ := h.objects key body hbody
      obtain rfl := hunchanged other hcopied
      exact hbody

/-- What the attempts promise each other. -/
def contract (files : FileHistory) : Contract Unit Call World where
  inv := Kept files
  rely := Grows
  pre _ _ c w := Ready files w c
  effect _ _ c w b w' := ∃ reply, b = (perform files c reply w).1 ∧ w' = (perform files c reply w).2
  rely_refl := Grows.refl
  rely_trans := Grows.trans
  pre_stable := fun hgrows hready => hready.grow hgrows
  keeps := by
    rintro t β c w b w' h hready ⟨reply, -, rfl⟩
    exact perform_kept h hready reply

/-! ## The attempts -/

/-- Whatever the others do, the program returns with `post`. -/
abbrev Ensures {α : Type} (files : FileHistory) (post : α → World → Prop) (x : Program α)
    (w : World) : Prop :=
  Throwing.Ensures (contract files) () post x w

variable {w : World}

/-- A call of which nothing is needed but that it was made. -/
theorem perform_ensures {α : Type} {c : Call (Except Failure α)} (hready : Ready files w c) :
    Ensures files (fun _ w' => Grows w w') (Throwing.perform c) w :=
  Throwing.Ensures.perform hready fun _ _ _ _ _ _ hgrows _ => hgrows

theorem ask_ensures {α : Type} {c : Call α} (hready : Ready files w c) :
    Ensures files (fun _ w' => Grows w w') (Throwing.ask c) w :=
  Throwing.Ensures.ask hready fun _ _ _ _ _ _ hgrows _ => hgrows

theorem discard_ensures {α : Type} {x : Program α}
    (h : Ensures files (fun _ w' => Grows w w') x w) :
    Ensures files (fun _ w' => Grows w w') (discard x) w :=
  Throwing.Ensures.bind h fun _ _ hgrows => Throwing.Ensures.pure hgrows

theorem writeState_ensures {state : UploadState} (h : Tracks w state) :
    Ensures files (fun _ w' => Grows w w') (writeState state) w := by
  refine Throwing.Ensures.bind (perform_ensures (c := .writeTmp state) h) ?_
  intro _ w₁ hgrows
  exact (perform_ensures (c := .renameTmp) trivial).conseq fun _ _ => hgrows.trans

/-- The state of an upload that was begun for the attempt's key, part size and file. -/
structure IsFor (source : Source) (state : UploadState) (w : World) : Prop where
  tracks : Tracks w state
  source_eq : ⟨state.key, state.partBytes, ⟨state.size, state.mtimeMs⟩⟩ = source

theorem IsFor.grow {source : Source} {state : UploadState} {w' : World} (h : IsFor source state w)
    (hgrows : Grows w w') : IsFor source state w' := ⟨h.tracks.grow hgrows, h.source_eq⟩

/-- The storage begins an upload for what it was asked to. -/
theorem create_ensures (source : Source) :
    Ensures files (fun id w' => Grows w w' ∧ w'.begun id = some source)
      (Throwing.perform (.create source)) w := by
  refine Throwing.Ensures.perform trivial ?_
  rintro w₁ - hkept id w' ⟨reply, hid, rfl⟩ hgrows -
  refine ⟨hgrows, ?_⟩
  cases reply with
  | done etag =>
    obtain rfl := Except.ok.inj hid
    exact Function.update_self ..
  | failed arrived failure => cases hid

theorem abortOld_ensures (old : Option UploadState) :
    Ensures files (fun _ w' => Grows w w') (abortOld old) w := by
  cases old with
  | none => exact Throwing.Ensures.pure (Grows.refl w)
  | some old => exact discard_ensures (ask_ensures trivial)

theorem freshState_ensures (old : Option UploadState) (source : Source) :
    Ensures files (fun state w' => Grows w w' ∧ IsFor source state w') (freshState old source)
      w := by
  refine Throwing.Ensures.bind (abortOld_ensures old) ?_
  intro _ w₁ hgrows₁
  refine Throwing.Ensures.bind (create_ensures source) ?_
  rintro id w₂ ⟨hgrows₂, hbegun⟩
  have hfor : IsFor source ⟨source.key, id, source.partBytes, source.version.size,
      source.version.mtimeMs, []⟩ w₂ := ⟨⟨hbegun, List.nodup_nil, nofun⟩, rfl⟩
  refine Throwing.Ensures.bind (writeState_ensures hfor.tracks) ?_
  intro _ w₃ hgrows₃
  exact Throwing.Ensures.pure ⟨(hgrows₁.trans hgrows₂).trans hgrows₃, hfor.grow hgrows₃⟩

theorem readState_ensures :
    Ensures files (fun old w' => Grows w w' ∧ ∀ state, old = some state → Tracks w' state)
      (Throwing.ask .readState) w := by
  refine Throwing.Ensures.ask trivial ?_
  rintro w₁ - hkept old w' ⟨reply, rfl, rfl⟩ hgrows -
  refine ⟨hgrows, fun state hstate => ?_⟩
  cases reply with
  | done etag => exact hkept.stateFile state hstate
  | failed arrived failure => cases hstate

theorem resumableState_ensures (source : Source) :
    Ensures files (fun state w' => Grows w w' ∧ IsFor source state w') (resumableState source)
      w := by
  refine Throwing.Ensures.bind readState_ensures ?_
  rintro old w₁ ⟨hgrows, htracks⟩
  have hfresh : ∀ old, Ensures files (fun state w' => Grows w w' ∧ IsFor source state w')
      (freshState old source) w₁ := fun old =>
    (freshState_ensures old source).conseq fun _ _ hend => ⟨hgrows.trans hend.1, hend.2⟩
  cases old with
  | none => exact hfresh none
  | some old =>
    dsimp only
    split
    · rename_i hsame
      obtain ⟨hkey, hsize, hmtime, hpart⟩ := hsame
      refine Throwing.Ensures.pure ⟨hgrows, htracks old rfl, ?_⟩
      rw [hkey, hsize, hmtime, hpart]
    · exact hfresh (some old)

/-- The numbers of the parts a state lists. -/
def numbers (state : UploadState) : List ℕ := state.parts.map PartTag.n

/-- A round adds the tag of its part. -/
theorem uploadOne_ensures {source : Source} {state : UploadState} {n : ℕ}
    (h : IsFor source state w) (hn : n ∈ List.range' 1 source.total) (hnew : n ∉ numbers state) :
    Ensures files (fun state' w' => Grows w w' ∧ IsFor source state' w' ∧
      numbers state' = numbers state ++ [n]) (uploadOne source.key source.version state n) w := by
  obtain ⟨htracks, rfl⟩ := h
  have hread : Ensures files (fun body w' => Grows w w' ∧ body = files.part
      ⟨state.key, state.partBytes, ⟨state.size, state.mtimeMs⟩⟩ n)
      (Throwing.perform (.readRange ⟨state.size, state.mtimeMs⟩ ((n - 1) * state.partBytes)
        (min state.partBytes (state.size - (n - 1) * state.partBytes)))) w := by
    refine Throwing.Ensures.perform trivial ?_
    rintro w₁ - - body w' ⟨reply, hbody, rfl⟩ hgrows -
    refine ⟨hgrows, ?_⟩
    cases reply with
    | done etag => exact Except.ok.inj hbody
    | failed arrived failure => cases hbody
  refine Throwing.Ensures.bind hread ?_
  rintro body w₁ ⟨hgrows₁, rfl⟩
  refine Throwing.Ensures.bind (perform_ensures ⟨hgrows₁.begun _ _ htracks.begun, rfl⟩) ?_
  intro etag w₂ hgrows₂
  have hgrows := hgrows₁.trans hgrows₂
  have hadded : Tracks w₂ { state with parts := state.parts ++ [⟨n, etag⟩] } := by
    refine ⟨hgrows.begun _ _ htracks.begun, ?_, ?_⟩
    · rw [List.map_append]
      exact htracks.nodup.append (List.nodup_singleton n)
        (List.disjoint_singleton.mpr hnew)
    · intro m hm
      rw [List.map_append, List.mem_append] at hm
      obtain hold | hlast := hm
      · exact htracks.numbers m hold
      · rw [List.mem_singleton.mp hlast]
        exact hn
  refine Throwing.Ensures.bind (writeState_ensures hadded) ?_
  intro _ w₃ hgrows₃
  refine Throwing.Ensures.pure ⟨hgrows.trans hgrows₃, ⟨hadded.grow hgrows₃, rfl⟩, ?_⟩
  exact List.map_append

/-- The loop ends with a tag for every part. -/
theorem uploadParts_ensures {source : Source} {state : UploadState} (h : IsFor source state w) :
    Ensures files (fun state' w' => Grows w w' ∧ IsFor source state' w' ∧
      (numbers state').Perm (List.range' 1 source.total))
      (uploadParts source.key source.version state) w := by
  set pending := (List.range' 1 source.total).filter (· ∉ numbers state) with hpending
  have hdone : (numbers state ++ pending).Perm (List.range' 1 source.total) := by
    have hnodup : (numbers state ++ pending).Nodup := by
      refine h.tracks.nodup.append ((List.nodup_range' 1).filter _) ?_
      intro n hn hmem
      exact of_decide_eq_true (List.mem_filter.mp hmem).2 hn
    refine (List.perm_ext_iff_of_nodup hnodup List.nodup_range').mpr fun n => ?_
    rw [List.mem_append, hpending, List.mem_filter]
    have hin : n ∈ numbers state → n ∈ List.range' 1 source.total := by
      intro hn
      rw [← h.source_eq]
      exact h.tracks.numbers n hn
    by_cases hn : n ∈ numbers state <;> simp [hn, hin]
  have hloop : Ensures files (fun state' w' => Grows w w' ∧ IsFor source state' w' ∧
      numbers state' = numbers state ++ pending)
      (pending.foldlM (uploadOne source.key source.version) state) w := by
    refine Throwing.Ensures.foldlM (fun done state' w' => Grows w w' ∧
      IsFor source state' w' ∧ numbers state' = numbers state ++ done) ?_
      ⟨Grows.refl w, h, (List.append_nil _).symm⟩
    rintro done n rest hitems state' w' ⟨hgrows, hfor, hnumbers⟩
    have hnodup : pending.Nodup := (List.nodup_range' 1).filter _
    have hmem : n ∈ pending := hitems ▸ List.mem_append_right _ List.mem_cons_self
    have hnew : n ∉ numbers state' := by
      rw [hnumbers, List.mem_append, not_or]
      refine ⟨of_decide_eq_true (List.mem_filter.mp hmem).2, ?_⟩
      rw [hitems] at hnodup
      exact fun hn => List.disjoint_of_nodup_append hnodup hn List.mem_cons_self
    refine (uploadOne_ensures hfor (List.mem_filter.mp hmem).1 hnew).conseq ?_
    rintro state'' w'' ⟨hgrows', hfor', hnumbers'⟩
    refine ⟨hgrows.trans hgrows', hfor', ?_⟩
    rw [hnumbers', hnumbers, List.append_assoc]
  have hsame : uploadParts source.key source.version state =
      pending.foldlM (uploadOne source.key source.version) state := by
    rw [hpending, ← h.source_eq]
    rfl
  rw [hsame]
  exact hloop.conseq fun state' w' hend => ⟨hend.1, hend.2.1, hend.2.2 ▸ hdone⟩

/-- Sorted by their numbers, tags for every part have the numbers in order. -/
theorem map_insertionSort_byNumber {tags : List PartTag} {total : ℕ}
    (h : (tags.map PartTag.n).Perm (List.range' 1 total)) :
    (tags.insertionSort byNumber).map PartTag.n = List.range' 1 total := by
  rw [List.map_insertionSort byNumber (· ≤ ·) PartTag.n tags fun _ _ _ _ => Iff.rfl]
  exact List.Perm.eq_of_pairwise' (List.pairwise_insertionSort (· ≤ ·) _)
    ((List.pairwise_lt_range' 1).imp Nat.le_of_lt) ((List.perm_insertionSort _ _).trans h)

/-- An attempt that goes on has an object at its key. -/
abbrev HasObject (w : World) (key : String) (w' : World) : Prop :=
  Grows w w' ∧ (w'.objects key).isSome = true

theorem forgetUpload_ensures (failure : Failure) :
    Ensures files (fun _ w' => Grows w w') (forgetUpload failure) w := by
  rw [forgetUpload]
  split
  · exact ask_ensures trivial
  · exact Throwing.Ensures.pure (Grows.refl w)

theorem isSome_of_complete {w : World} {id : ℕ} {tags : List PartTag} {attempt : Source}
    {answer : Unit} : (w.complete id tags attempt).1 = .ok answer →
      ((w.complete id tags attempt).2.objects attempt.key).isSome = true := by
  rw [World.complete]
  split
  · exact nofun
  · split
    · exact nofun
    · split
      · exact nofun
      · intro _
        dsimp only
        rw [Function.update_self]
        rfl

/-- An upload that was completed leaves an object. -/
theorem complete_ensures {id : ℕ} {tags : List PartTag} {attempt : Source}
    (hproper : Proper files w (.complete id tags attempt)) :
    Ensures files (fun _ w' => HasObject w attempt.key w')
      (Throwing.perform (.complete id tags attempt)) w := by
  refine Throwing.Ensures.perform hproper ?_
  rintro w₁ - - answer w' ⟨reply, hanswer, rfl⟩ hgrows -
  refine ⟨hgrows, ?_⟩
  cases reply with
  | failed arrived failure => cases hanswer
  | done etag =>
    exact isSome_of_complete hanswer.symm

theorem uploadInParts_ensures {source : Source} (hparts : source.InParts)
    (hcopied : (source.key, source.version) ∈ w.copied) :
    Ensures files (fun _ w' => HasObject w source.key w') (uploadInParts source) w := by
  refine Throwing.Ensures.bind (resumableState_ensures source) ?_
  rintro state w₁ ⟨hgrows₁, hfor⟩
  refine Throwing.Ensures.tryCatch ?_ ?_
  · refine Throwing.Ensures.bind (uploadParts_ensures hfor) ?_
    rintro state' w₂ ⟨hgrows₂, hfor', hnumbers⟩
    have hgrows := hgrows₁.trans hgrows₂
    have hbegun : w₂.begun state'.uploadId = some source := by
      rw [hfor'.tracks.begun, hfor'.source_eq]
    have htags := map_insertionSort_byNumber hnumbers
    have hsorted : (state'.parts.insertionSort byNumber).insertionSort byNumber =
        state'.parts.insertionSort byNumber :=
      (List.pairwise_insertionSort byNumber state'.parts).insertionSort_eq
    refine (complete_ensures ⟨hbegun, hparts, hgrows.copied _ hcopied, ?_⟩).conseq
      fun _ w' hend => ⟨hgrows.trans hend.1, hend.2⟩
    rw [hsorted]
    exact htags
  · intro failure w₂
    exact Throwing.Ensures.bind (forgetUpload_ensures failure) fun _ _ _ =>
      Throwing.Ensures.throw failure

theorem sendFile_ensures {key : String} {preferred : ℕ} {version : FileVersion}
    (hcopied : (key, version) ∈ w.copied) :
    Ensures files (fun _ w' => HasObject w key w')
      (sendFile ⟨key, partSizeFor version.size preferred, version⟩) w := by
  rw [sendFile]
  split
  · have hread : Ensures files (fun body w' => Grows w w' ∧ body = files.content version)
        (Throwing.perform (.readRange version 0 version.size)) w := by
      refine Throwing.Ensures.perform trivial ?_
      rintro w₁ - - body w' ⟨reply, hbody, rfl⟩ hgrows -
      refine ⟨hgrows, ?_⟩
      cases reply with
      | failed arrived failure => cases hbody
      | done etag =>
        obtain rfl := Except.ok.inj hbody
        rw [FileHistory.range, List.drop_zero, List.take_of_length_le]
        exact (files.length_content version).le
    refine Throwing.Ensures.bind hread ?_
    rintro body w₁ ⟨hgrows₁, hbody⟩
    refine Throwing.Ensures.perform ⟨version, hgrows₁.copied _ hcopied, hbody⟩ ?_
    rintro w₂ - - answer w' ⟨reply, hanswer, rfl⟩ hgrows -
    refine ⟨hgrows₁.trans hgrows, ?_⟩
    cases reply with
    | failed arrived failure => cases hanswer
    | done etag =>
      change (Function.update w₂.objects key (some body) key).isSome = true
      rw [Function.update_self]
      rfl
  · rename_i hlarge
    exact uploadInParts_ensures (inParts_of_lt hlarge) hcopied

/-- An attempt sees to what its calls need. -/
theorem uploadBackupFile_ensures {key : String} {preferred : ℕ} {version : FileVersion}
    (hcopied : (key, version) ∈ w.copied) :
    Ensures files (fun _ _ => True) (uploadBackupFile key preferred version) w := by
  refine Throwing.Ensures.bind (perform_ensures (c := .stat) trivial) ?_
  intro _ w₁ hgrows₁
  refine Throwing.Ensures.bind (perform_ensures (c := .openFile) trivial) ?_
  intro _ w₂ hgrows₂
  have hcopied₂ := hgrows₂.copied _ (hgrows₁.copied _ hcopied)
  refine Throwing.Ensures.bind (sendFile_ensures hcopied₂) ?_
  rintro _ w₃ ⟨hgrows₃, hobject⟩
  refine Throwing.Ensures.bind (ask_ensures (c := .removeState) trivial) ?_
  intro _ w₄ hgrows₄
  refine Throwing.Ensures.bind (perform_ensures (c := .head key) trivial) ?_
  intro head w₅ hgrows₅
  have hgrows := (hgrows₃.trans hgrows₄).trans hgrows₅
  have hready : Ready files w₅ (.return key version) :=
    ⟨hgrows.copied _ hcopied₂, (hgrows₄.trans hgrows₅).objects key hobject⟩
  split
  · exact Throwing.Ensures.throw _
  · exact (ask_ensures hready).conseq fun _ _ _ => trivial

theorem abandonUpload_ensures : Ensures files (fun _ _ => True) abandonUpload w := by
  refine Throwing.Ensures.bind readState_ensures ?_
  intro old w₁ _
  refine Throwing.Ensures.bind (abortOld_ensures old) ?_
  intro _ w₂ _
  exact (ask_ensures (c := .removeState) trivial).conseq fun _ _ _ => trivial

/-! ## Runs -/

/-- Attempts that were completed or returned. -/
structure CopiesExactly (files : FileHistory) (w : World) : Prop where
  completed : ∀ completion ∈ w.completed, completion.IsExact files
  returned : ∀ returned ∈ w.returned, returned.IsExact files

theorem kept_start : Kept files {} :=
  ⟨nofun, nofun, nofun, nofun, fun _ _ => ⟨rfl, rfl⟩, nofun, nofun, nofun⟩

theorem spawn_safe {kind : Kind} {w w' : World} {thread : Machines.Thread Unit Call}
    (h : Kept files w) (hspawn : (copier files).spawn kind w = some (w', thread)) :
    Kept files w' ∧ Grows w w' ∧
      thread.program.Safe (contract files) thread.tag (fun _ _ => True) w' := by
  cases kind with
  | abandon =>
    obtain ⟨rfl, rfl⟩ := Prod.mk.inj (Option.some.inj hspawn)
    refine ⟨h, Grows.refl _, ?_⟩
    exact Async.Safe.bind (Async.Safe.conseq abandonUpload_ensures fun _ _ _ => trivial)
      fun _ _ _ => Async.Safe.pure trivial
  | upload key preferred version =>
    obtain ⟨rfl, rfl⟩ := Prod.mk.inj (Option.some.inj hspawn)
    obtain ⟨hkept, hgrows⟩ : Kept files { w with copied := w.copied ++ [(key, version)] } ∧
        Grows w { w with copied := w.copied ++ [(key, version)] } :=
      h.of_daemon ⟨rfl, rfl, rfl, rfl, rfl, fun _ hentry => List.mem_append_left _ hentry⟩
        h.stateFile h.tmp h.sent h.returned
    refine ⟨hkept, hgrows, ?_⟩
    refine Async.Safe.bind (Async.Safe.conseq (uploadBackupFile_ensures ?_)
      fun _ _ _ => trivial) fun _ _ _ => Async.Safe.pure trivial
    exact List.mem_append_right _ (List.mem_singleton_self _)

/-- However attempts are cut off and requests arrive, what an attempt completes is the file in
its parts, and where the file is unchanged, an attempt returns with the file stored. -/
theorem copiesExactly_of_reaches (files : FileHistory) {s : Pool Unit Call World}
    (h : Reaches (copier files).step (fun _ _ => True) (Pool.idle {}) s) :
    CopiesExactly files s.shared := by
  have hany : Reaches (copier files).step Allowed.any.event (Pool.idle {}) s :=
    h.mono fun s event _ => Allowed.event_any s event
  have hsound : s.Sound (contract files) := by
    refine Process.sound_of_reaches ?_ ?_ ?_ (fun w hkept _ => hkept) kept_start hany
    · rintro t β c w b w' ⟨reply, -, hb, hw⟩
      exact ⟨reply, hb, hw⟩
    · intro kind w w' thread hkept hspawn
      exact spawn_safe hkept hspawn
    · intro late w w' hkept _ hact
      obtain ⟨request, hrequest, rfl⟩ := Option.map_eq_some_iff.mp hact
      exact arrive_kept hkept (hkept.sent request (List.mem_of_getElem? hrequest)) late.etag
  exact ⟨hsound.inv.completed, hsound.inv.returned⟩

/-- A file of three bytes, uploaded in parts of two.  The first attempt is cut off behind the
first part, and the second one completes the upload. -/
theorem copiesExactly_of_cut_attempt :
    let files : FileHistory :=
      ⟨fun version => (List.range version.size).map UInt8.ofNat, fun version => by simp⟩
    let attempt : Machines.Event Reply Kind LateArrival := .spawn 0 (.upload "copy" 2 ⟨3, 0⟩)
    let answered : Machines.Event Reply Kind LateArrival := .answer 0 (.done "tag")
    ∃ s, Machines.runFrom (copier files).step (Pool.idle {})
        (attempt :: List.replicate 10 answered ++ .restart :: attempt ::
          List.replicate 11 answered) = some s ∧
      s.shared.returned.length = 1 ∧ s.shared.completed.length = 1 ∧
      CopiesExactly files s.shared := by
  intro files attempt answered
  have hends : (Machines.runFrom (copier files).step (Pool.idle {})
      (attempt :: List.replicate 10 answered ++ .restart :: attempt ::
        List.replicate 11 answered)).map
      (fun s => (s.shared.returned.length, s.shared.completed.length)) = some (1, 1) := rfl
  obtain ⟨s, hrun, hlengths⟩ := Option.map_eq_some_iff.mp hends
  obtain ⟨hreturned, hcompleted⟩ := Prod.mk.inj hlengths
  exact ⟨s, hrun, hreturned, hcompleted, copiesExactly_of_reaches files
    (Reaches.refl.of_runFrom hrun)⟩

end Turbopaneld.Backups
