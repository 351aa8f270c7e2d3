/-
# What the daemon renders is read back

The rendered file is a comment and one quoted entry for each variable.  The checker's scan
takes it apart into these entries, however many lines a value has, and so systemd reads
the names and values it was rendered from.
-/

import Turbopaneld.NativeApp.EnvReaders

namespace Turbopaneld.NativeApp

open Shell

variable {quote : Quote} {raw value : List Char} {s : Scan} {entry : Delimited}

/-! ## The scan over a quotable text -/

theorem goOn_of_quotable (h : Quotable entry.quote raw value) :
    s.goOn entry raw = some { s with opened := some { entry with raw := entry.raw ++ raw } } ∧
      s.goOn entry (raw ++ [entry.quote.char]) =
        some ⟨s.entries ++ [{ entry with raw := entry.raw ++ raw }], none⟩ := by
  rw [Scan.goOn, Scan.goOn, (scanValue_of_quotable h).1, (scanValue_of_quotable h).2]
  exact ⟨rfl, rfl⟩

/-- The scan takes a quotable text up to its closing quote, line by line.  The front of the
first line may be anything. -/
def ClosesWith (s : Scan) (entry : Delimited) (raw rest : List Char) : Prop :=
  ∃ line more,
    (∀ front, '\n' ∉ front →
      records (front ++ (raw ++ entry.quote.char :: '\n' :: rest)) = (front ++ line) :: more) ∧
    ((s.goOn entry line).bind fun s' => more.foldlM scanLine s') =
      (records rest).foldlM scanLine
        ⟨s.entries ++ [{ entry with raw := entry.raw ++ raw }], none⟩

theorem closesWith_of_line (h : Quotable entry.quote raw value) (hraw : '\n' ∉ raw)
    (rest : List Char) : ClosesWith s entry raw rest := by
  refine ⟨raw ++ [entry.quote.char], records rest, fun front hfront => ?_, ?_⟩
  · have hwhole : '\n' ∉ front ++ (raw ++ [entry.quote.char]) := by
      have hquote : '\n' ≠ entry.quote.char := by cases entry.quote <;> decide
      simp [hfront, hraw, hquote]
    rw [← records_append hwhole]
    simp
  · rw [(goOn_of_quotable h).2]
    rfl

theorem closesWith_of_quotable (h : Quotable entry.quote raw value) (rest : List Char) :
    ClosesWith s entry raw rest := by
  induction raw using lines_induction generalizing s entry value with
  | empty => exact closesWith_of_line h List.not_mem_nil rest
  | last line hline hne => exact closesWith_of_line h hline rest
  | more line later hline ih =>
    obtain ⟨front, back, hfront, hback, rfl⟩ := h.of_lines
    have hlast : Quotable (Delimited.quote { entry with raw := entry.raw ++ line ++ ['\n'] })
      later back := hback
    obtain ⟨next, more, hrecords, hfold⟩ := ih
      (s := { s with opened := some { entry with raw := entry.raw ++ line } }) hlast
    refine ⟨line, next :: more, fun front hfront => ?_, ?_⟩
    · have hwhole : '\n' ∉ front ++ line := by simp [hfront, hline]
      have hlater := hrecords [] List.not_mem_nil
      rw [List.nil_append, List.nil_append] at hlater
      rw [List.append_assoc, List.cons_append, ← List.append_assoc, records_append hwhole, hlater]
    · rw [(goOn_of_quotable hfront).1, Option.bind_some, List.foldlM_cons, scanLine]
      refine hfold.trans ?_
      simp

/-- A name, `=` and a quoted text are an entry. -/
theorem scan_entry {name : List Char} (hopened : s.opened = none)
    (hstart : name.head?.any isNameStart = true) (hword : ∀ c ∈ name, JavaScript.isWord c = true)
    (hlength : name.length ≤ 255) (hnew : name ∉ s.entries.map Delimited.name)
    (h : Quotable quote raw value) (rest : List Char) :
    (records (name ++ '=' :: quote.char :: (raw ++ quote.char :: '\n' :: rest))).foldlM scanLine s =
      (records rest).foldlM scanLine ⟨s.entries ++ [⟨name, quote, raw⟩], none⟩ := by
  have hfeed : '\n' ∉ name ++ ['=', quote.char] := by
    have hquote : '\n' ≠ quote.char := by cases quote <;> decide
    have hname : '\n' ∉ name := fun hmem => absurd (hword _ hmem) (by decide)
    simp [hname, hquote]
  have hopen : Quotable (Delimited.quote ⟨name, quote, []⟩) raw value := h
  obtain ⟨line, more, hrecords, hfold⟩ := closesWith_of_quotable (s := s) hopen rest
  have hline : s.startLine (name ++ '=' :: quote.char :: line) = s.goOn ⟨name, quote, []⟩ line := by
    have hentry : (name ++ '=' :: quote.char :: line).takeWhile JavaScript.isWord = name := by
      rw [List.takeWhile_append_of_pos hword, List.takeWhile_cons_of_neg (by decide),
        List.append_nil]
    have hcomment : ((name ++ '=' :: quote.char :: line).isEmpty ||
        (name ++ '=' :: quote.char :: line).head? == some '#' ||
          (name ++ '=' :: quote.char :: line).head? == some ';') = false := by
      cases name with
      | nil => cases hstart
      | cons c rest =>
        have hc := (List.forall_mem_cons.mp hword).1
        have hplain : c ≠ '#' ∧ c ≠ ';' := by
          refine ⟨?_, ?_⟩ <;>
            · rintro rfl
              exact absurd hc (by decide)
        simp [hplain.1, hplain.2]
    rw [Scan.startLine, hcomment, if_neg Bool.false_ne_true]
    dsimp only
    rw [hentry, hstart, List.drop_left]
    simp only [Bool.not_true, Bool.false_eq_true, if_false, if_neg (Nat.not_lt.mpr hlength),
      if_neg hnew]
    cases quote <;> rfl
  have hsplit : name ++ '=' :: quote.char :: (raw ++ quote.char :: '\n' :: rest) =
      (name ++ ['=', quote.char]) ++ (raw ++ quote.char :: '\n' :: rest) := by simp
  rw [hsplit, hrecords _ hfeed, List.foldlM_cons, scanLine, hopened]
  dsimp only
  rw [List.append_assoc, List.cons_append, List.singleton_append, hline]
  exact hfold

/-! ## The rendered file -/

theorem isSpecial_ascii {c : Char} (hc : isSpecial c = true) : c.toNat < 128 := by
  simp only [isSpecial, Bool.or_eq_true, beq_iff_eq] at hc
  obtain ((rfl | rfl) | rfl) | rfl := hc <;> decide

/-- Escaping the characters of a text escapes its bytes. -/
theorem word_escapeSpecials (text : String) :
    word (String.ofList (escapeSpecials text.toList)) = escapeSpecials (word text) := by
  rw [word, word, String.toList_ofList, escapeSpecials, escapeSpecials, List.flatMap_assoc,
    List.flatMap_assoc]
  congr 1
  funext c
  by_cases hascii : c.toNat < 128
  · rw [bytesOf_ascii hascii]
    split_ifs with hspecial
    · have hslash : bytesOf '\\' = ['\\'] := bytesOf_ascii (by decide)
      simp [hspecial, hslash, bytesOf_ascii hascii]
    · simp [hspecial, bytesOf_ascii hascii]
  · have hplain : ∀ d, 128 ≤ d.toNat → isSpecial d = false := by
      intro d hd
      rw [← Bool.not_eq_true]
      exact fun hspecial => absurd (isSpecial_ascii hspecial) (Nat.not_lt.mpr hd)
    have hbytes : ∀ byte ∈ bytesOf c, isSpecial byte = false :=
      fun byte hbyte => hplain byte (toNat_of_mem_bytesOf (Nat.not_lt.mp hascii) hbyte)
    rw [hplain c (Nat.not_lt.mp hascii), if_neg Bool.false_ne_true, List.flatMap_singleton]
    generalize bytesOf c = bytes at hbytes
    induction bytes with
    | nil => rfl
    | cons byte rest ih =>
      obtain ⟨hbyte, hrest⟩ := List.forall_mem_cons.mp hbytes
      rw [List.flatMap_cons, hbyte, if_neg Bool.false_ne_true, ← ih hrest, List.singleton_append]

/-- The quote of a rendered value, and what stands between its quotes. -/
def delimitedOf (e : NativeAppEnvEntry) : Delimited :=
  if '\'' ∉ e.value.toList then ⟨word e.name, .single, word e.value⟩
  else ⟨word e.name, .double, escapeSpecials (word e.value)⟩

/-- The bytes of a rendered line. -/
theorem word_renderNativeAppEnvLine (e : NativeAppEnvEntry) :
    word (renderNativeAppEnvLine e) =
      (delimitedOf e).name ++ '=' :: (delimitedOf e).quote.char ::
        ((delimitedOf e).raw ++ [(delimitedOf e).quote.char]) := by
  have hsingle : word "='" = ['=', '\''] ∧ word "'" = ['\''] := by decide
  have hdouble : word "=\"" = ['=', '"'] ∧ word "\"" = ['"'] := by decide
  unfold renderNativeAppEnvLine delimitedOf
  split_ifs
  · simp only [word_append, hdouble.1, hdouble.2, word_escapeSpecials, Quote.char,
      List.append_assoc, List.cons_append, List.nil_append]
  · simp only [word_append, hsingle.1, hsingle.2, Quote.char, List.append_assoc, List.cons_append,
      List.nil_append]

theorem quotable_single {text : List Char} (htext : '\'' ∉ text) : Quotable .single text text := by
  induction text with
  | nil => exact .nil
  | cons c rest ih =>
    rw [List.mem_cons, not_or] at htext
    exact .single (Ne.symm htext.1) (ih htext.2)

theorem quotable_double (text : List Char) : Quotable .double (escapeSpecials text) text := by
  induction text with
  | nil => exact .nil
  | cons c rest ih =>
    rw [escapeSpecials, List.flatMap_cons]
    split_ifs with hspecial
    · exact .escape hspecial ih
    · exact .double (by simpa using hspecial) ih

theorem quotable_delimitedOf (e : NativeAppEnvEntry) :
    Quotable (delimitedOf e).quote (delimitedOf e).raw (word e.value) := by
  unfold delimitedOf
  split_ifs with hquote
  · exact quotable_double _
  · exact quotable_single (mt (mem_word_iff (by decide)).mp hquote)

/-- Lines joined by line feeds, with an empty text at the end: each line has its own. -/
theorem word_intercalate (first : String) (rest : List String) :
    word ("\n".intercalate (first :: rest ++ [""])) =
      word first ++ '\n' :: rest.flatMap fun line => word line ++ ['\n'] := by
  have hfeed : bytesOf '\n' = ['\n'] := bytesOf_ascii (by decide)
  have hchars : ("\n".intercalate (first :: rest ++ [""])).toList =
      first.toList ++ '\n' :: rest.flatMap fun line => line.toList ++ ['\n'] := by
    rw [String.toList_intercalate]
    induction rest generalizing first with
    | nil => simp [List.intercalate_cons_cons]
    | cons next rest ih =>
      rw [List.cons_append, List.map_cons, List.cons_append, List.map_cons,
        List.intercalate_cons_cons]
      have hrest := ih next
      rw [List.cons_append, List.map_cons] at hrest
      rw [hrest, List.flatMap_cons]
      simp
  rw [word, hchars, List.flatMap_append, List.flatMap_cons, hfeed, List.flatMap_assoc]
  simp [word, hfeed]

theorem word_renderNativeAppEnvFile (entries : List NativeAppEnvEntry) :
    word (renderNativeAppEnvFile entries) =
      word envFileHeader ++ '\n' ::
        entries.flatMap fun e => word (renderNativeAppEnvLine e) ++ ['\n'] := by
  rw [renderNativeAppEnvFile, word_intercalate, List.flatMap_map]

/-- An entry the claim is about: a name systemd takes, and a value a line can carry. -/
structure NativeAppEnvEntry.Carried (e : NativeAppEnvEntry) : Prop where
  start : e.name.toList.head?.any isNameStart = true
  chars : ∀ c ∈ e.name.toList, JavaScript.isWord c = true
  length : e.name.length ≤ 255
  noReturn : '\r' ∉ e.value.toList
  noNul : '\x00' ∉ e.value.toList

/-- A value the daemon could normalise is one a line can carry. -/
theorem plain_of_normalized {composeServiceName name value normalized : String}
    (h : normalizeNativeAppEnvValue composeServiceName name value = .ok normalized) :
    '\r' ∉ normalized.toList ∧ '\x00' ∉ normalized.toList := by
  unfold normalizeNativeAppEnvValue at h
  dsimp only at h
  split_ifs at h with hreturn hnul
  obtain rfl := Except.ok.inj h
  rw [String.toList_ofList]
  exact ⟨hreturn, hnul⟩

theorem ascii_of_isWord {c : Char} (hc : JavaScript.isWord c = true) : c.toNat < 128 := by
  simp only [JavaScript.isWord, JavaScript.isLetter, JavaScript.isLower, JavaScript.isDigit,
    Bool.or_eq_true, Bool.and_eq_true, decide_eq_true_eq, beq_iff_eq, Char.le_def,
    UInt32.le_iff_toNat_le] at hc
  show c.val.toNat < 128
  obtain ((hc | hc) | hc) | rfl := hc
  · exact lt_of_le_of_lt hc.2 (by decide)
  · exact lt_of_le_of_lt hc.2 (by decide)
  · exact lt_of_le_of_lt hc.2 (by decide)
  · decide

theorem scan_rendered {entries : List NativeAppEnvEntry} {seen : List Delimited}
    (hcarried : ∀ e ∈ entries, e.Carried) (hdistinct : (entries.map NativeAppEnvEntry.name).Nodup)
    (hnew : ∀ e ∈ entries, word e.name ∉ seen.map Delimited.name) :
    (records (entries.flatMap fun e => word (renderNativeAppEnvLine e) ++ ['\n'])).foldlM scanLine
      ⟨seen, none⟩ = some ⟨seen ++ entries.map delimitedOf, none⟩ := by
  induction entries generalizing seen with
  | nil =>
    rw [List.map_nil, List.append_nil]
    rfl
  | cons e rest ih =>
    obtain ⟨he, hrest⟩ := List.forall_mem_cons.mp hcarried
    obtain ⟨hfresh, hlater⟩ := List.forall_mem_cons.mp hnew
    rw [List.map_cons, List.nodup_cons] at hdistinct
    have hname : word e.name = e.name.toList := word_ascii fun c hc => ascii_of_isWord (he.chars c hc)
    have hdelimited : (delimitedOf e).name = e.name.toList := by
      rw [← hname]
      unfold delimitedOf
      split_ifs <;> rfl
    rw [List.flatMap_cons, word_renderNativeAppEnvLine]
    have hshape : (delimitedOf e).name ++ '=' :: (delimitedOf e).quote.char ::
        ((delimitedOf e).raw ++ [(delimitedOf e).quote.char]) ++ ['\n'] ++
          (rest.flatMap fun e => word (renderNativeAppEnvLine e) ++ ['\n']) =
        e.name.toList ++ '=' :: (delimitedOf e).quote.char ::
          ((delimitedOf e).raw ++ (delimitedOf e).quote.char :: '\n' ::
            rest.flatMap fun e => word (renderNativeAppEnvLine e) ++ ['\n']) := by
      simp [hdelimited]
    rw [hshape, scan_entry rfl he.start he.chars he.length (hname ▸ hfresh) (quotable_delimitedOf e)]
    have hentry : (⟨e.name.toList, (delimitedOf e).quote, (delimitedOf e).raw⟩ : Delimited) =
        delimitedOf e := by
      rw [← hdelimited]
    rw [hentry, ih hrest hdistinct.2]
    · simp
    · intro later hmem
      rw [List.map_append, List.mem_append, not_or, List.map_singleton, List.mem_singleton,
        hdelimited]
      refine ⟨hlater later hmem, fun heq => hdistinct.1 ?_⟩
      have hsame : later.name = e.name := by
        rw [← String.toList_inj, ← heq]
        exact (word_ascii fun c hc => ascii_of_isWord ((hrest later hmem).chars c hc)).symm
      exact hsame ▸ List.mem_map_of_mem hmem

/-- A character that no entry and no line of the file has is not in the file. -/
theorem notMem_rendered {entries : List NativeAppEnvEntry} {c : Char} (hascii : c.toNat < 128)
    (hword : JavaScript.isWord c = false) (hplain : c ∉ ['=', '\'', '"', '\\', '\n'])
    (hheader : c ∉ envFileHeader.toList)
    (hentries : ∀ e ∈ entries, (∀ d ∈ e.name.toList, JavaScript.isWord d = true) ∧
      c ∉ e.value.toList) : c ∉ word (renderNativeAppEnvFile entries) := by
  simp only [List.mem_cons, List.not_mem_nil, or_false, not_or] at hplain
  rw [word_renderNativeAppEnvFile, List.mem_append, List.mem_cons, List.mem_flatMap]
  rintro (hmem | hmem | ⟨e, he, hmem⟩)
  · exact hheader ((mem_word_iff hascii).mp hmem)
  · exact hplain.2.2.2.2 hmem
  · obtain ⟨hname, hvalue⟩ := hentries e he
    have hnotName : c ∉ word e.name := by
      rw [mem_word_iff hascii]
      intro hc
      rw [hname c hc] at hword
      cases hword
    have hnotValue : c ∉ word e.value := by
      rwa [mem_word_iff hascii]
    have hnotEscaped : c ∉ escapeSpecials (word e.value) := by
      rw [escapeSpecials, List.mem_flatMap]
      rintro ⟨d, hd, hc⟩
      split_ifs at hc
      · obtain rfl | rfl := by simpa using hc
        · exact hplain.2.2.2.1 rfl
        · exact hnotValue hd
      · obtain rfl := List.mem_singleton.mp hc
        exact hnotValue hd
    rw [word_renderNativeAppEnvLine] at hmem
    unfold delimitedOf at hmem
    split_ifs at hmem <;> simp_all [Quote.char]

/-- What the daemon renders is accepted, and taken apart into the entries it was made
from. -/
theorem rendered_accepted {entries : List NativeAppEnvEntry}
    (hcarried : ∀ e ∈ entries, e.Carried) (hdistinct : (entries.map NativeAppEnvEntry.name).Nodup) :
    tpAppenvContentOk (word (renderNativeAppEnvFile entries)) = true ∧
      scanned (word (renderNativeAppEnvFile entries)) = some (entries.map delimitedOf) := by
  have hheader : '\n' ∉ word envFileHeader := by
    rw [mem_word_iff (by decide)]
    decide
  have hcomment : scanLine ⟨[], none⟩ (word envFileHeader) = some ⟨[], none⟩ := by
    have hfirst : (word envFileHeader).head? = some '#' := by
      have hbytes : bytesOf '#' = ['#'] := bytesOf_ascii (by decide)
      have hchars : envFileHeader.toList = '#' :: envFileHeader.toList.tail := rfl
      rw [word, hchars, List.flatMap_cons, hbytes]
      rfl
    show Scan.startLine _ _ = _
    rw [Scan.startLine, hfirst]
    simp
  have hscanned : scanned (word (renderNativeAppEnvFile entries)) =
      some (entries.map delimitedOf) := by
    rw [scanned, word_renderNativeAppEnvFile, records_append hheader, List.foldlM_cons, hcomment]
    have hnone : ∀ e ∈ entries, word e.name ∉ ([] : List Delimited).map Delimited.name :=
      fun e _ => List.not_mem_nil
    have hrest := scan_rendered hcarried hdistinct hnone
    rw [List.nil_append] at hrest
    rw [Option.bind_eq_bind, Option.bind_some, hrest]
  refine ⟨?_, hscanned⟩
  have hreturn : '\r' ∉ word (renderNativeAppEnvFile entries) :=
    notMem_rendered (by decide) (by decide) (by decide) (by decide)
      fun e he => ⟨(hcarried e he).chars, (hcarried e he).noReturn⟩
  have hnul : '\x00' ∉ word (renderNativeAppEnvFile entries) :=
    notMem_rendered (by decide) (by decide) (by decide) (by decide)
      fun e he => ⟨(hcarried e he).chars, (hcarried e he).noNul⟩
  rw [tpAppenvContentOk, hscanned, tpContentPlain]
  simp [hreturn, hnul]

/-- The three readers agree: what is rendered is accepted and systemd reads its names and
values, and from whatever is accepted systemd reads what the checker's scan delimits. -/
theorem three_readers_agree :
    (∀ entries : List NativeAppEnvEntry, (∀ e ∈ entries, e.Carried) →
      (entries.map NativeAppEnvEntry.name).Nodup →
        tpAppenvContentOk (word (renderNativeAppEnvFile entries)) = true ∧
          EnvironmentFile.assignments (word (renderNativeAppEnvFile entries)) =
            entries.map fun e => (word e.name, word e.value)) ∧
      ∀ text, tpAppenvContentOk text = true →
        ∃ delimited, scanned text = some delimited ∧
          EnvironmentFile.assignments text = delimited.map Delimited.assignment := by
  refine ⟨?_, fun text => assignments_of_contentOk⟩
  intro entries hcarried hdistinct
  obtain ⟨hok, hscanned⟩ := rendered_accepted hcarried hdistinct
  obtain ⟨delimited, hdelimited, hread⟩ := assignments_of_contentOk hok
  obtain rfl := Option.some.inj (hscanned.symm.trans hdelimited)
  refine ⟨hok, ?_⟩
  rw [hread, List.map_map]
  apply List.map_congr_left
  intro e _
  have hname : (delimitedOf e).name = word e.name := by
    unfold delimitedOf
    split_ifs <;> rfl
  exact Prod.ext hname ((quotable_delimitedOf e).value_eq _)

/-- A value with both quotes, a `$`, a backslash and a line feed. -/
theorem three_readers_agree_awkward :
    EnvironmentFile.assignments (word (renderNativeAppEnvFile [⟨"KEY", "it's \"$5\\\n"⟩])) =
      [(word "KEY", word "it's \"$5\\\n")] := by
  have hcarried : ∀ e ∈ [(⟨"KEY", "it's \"$5\\\n"⟩ : NativeAppEnvEntry)], e.Carried := by
    rw [List.forall_mem_singleton]
    exact ⟨by decide, List.all_eq_true.mp (by decide), by decide, by decide, by decide⟩
  have hdistinct : ([(⟨"KEY", "it's \"$5\\\n"⟩ : NativeAppEnvEntry)].map
      NativeAppEnvEntry.name).Nodup := List.pairwise_singleton _ _
  have hread := (three_readers_agree.1 _ hcarried hdistinct).2
  rwa [List.map_singleton] at hread

end Turbopaneld.NativeApp
