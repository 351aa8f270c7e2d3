/-
# What trimming a snippet leaves

Trimming leaves every item but the blocks that lose all their addresses and a blank line behind
each; the other blocks keep their bodies.  The trimmed text is read as what was left just where
the new first lines are read as the addresses they were written from and each new block still
ends where it did.
-/

import Mathlib.Data.String.Basic
import Turbopaneld.Deploy.SnippetHeader
import Turbopaneld.Deploy.SnippetItems

namespace Turbopaneld.Deploy.Caddy

open JavaScript
open Sequences (Collator)

/-! ## What is left -/

/-- A block without its named addresses. -/
def trimmedSite (named : String → Bool) (addresses lines : List String) : SnippetItem :=
  let remaining := addresses.filter (!named ·)
  .site remaining
    (if remaining.length < addresses.length then siteHeader remaining :: lines.tail else lines)

/-- The items without the named addresses, where a block that had no others is gone, with a
blank line behind it. -/
def keptItems (named : String → Bool) : Bool → List SnippetItem → List SnippetItem
  | _, [] => []
  | afterDropped, .other meaningful lines :: rest =>
    if afterDropped && !meaningful && trim (lines.headD "") == "" then keptItems named false rest
    else .other meaningful lines :: keptItems named false rest
  | _, .site addresses lines :: rest =>
    if addresses.filter (!named ·) = [] then keptItems named true rest
    else trimmedSite named addresses lines :: keptItems named false rest

variable {named : String → Bool} {items : List SnippetItem}

/-- The items of the text that is left: the empty text is one empty line. -/
def leftItems (items : List SnippetItem) : List SnippetItem :=
  if items = [] then [.other false [""]] else items

def SnippetItem.addresses : SnippetItem → List String
  | .site addresses _ => addresses
  | .other _ _ => []

/-- The addresses of the site blocks. -/
def siteAddresses (contents : String) : List String :=
  (parseSnippet contents).items.flatMap SnippetItem.addresses

section

variable (toLowerCase : String → String) (names : List String) (collator : Collator String)

/-- The trimmed text is read as what is to be left, and trimming it again changes nothing. -/
structure TrimsExactly (contents : String) : Prop where
  placed : (parseSnippet
    (trimSnippetSites toLowerCase names collator contents).contents).uninterpretable = false
  items : (parseSnippet (trimSnippetSites toLowerCase names collator contents).contents).items =
    leftItems (keptItems (isNamed toLowerCase names) false (parseSnippet contents).items)
  addresses : siteAddresses (trimSnippetSites toLowerCase names collator contents).contents =
    (siteAddresses contents).filter (!isNamed toLowerCase names ·)
  again : (trimSnippetSites toLowerCase names collator
      (trimSnippetSites toLowerCase names collator contents).contents).contents =
    (trimSnippetSites toLowerCase names collator contents).contents

end

/-- The new first line of each block that loses some addresses and keeps others is read as those
it keeps, and the block still ends at its last line. -/
def KeepsBlocks (named : String → Bool) (items : List SnippetItem) : Prop :=
  ∀ addresses lines, .site addresses lines ∈ items →
    let remaining := addresses.filter (!named ·)
    remaining ≠ [] → remaining.length < addresses.length →
      HeaderKept remaining ∧ takeBlock 0 (siteHeader remaining :: lines.tail) =
        (siteHeader remaining :: lines.tail, true)

/-- The loop pushes the lines of what is left. -/
theorem out_foldl_trimItem {toLowerCase : String → String} {names : List String} (s : TrimState)
    (items : List SnippetItem) :
    (items.foldl (trimItem toLowerCase names) s).out =
      s.out ++ (keptItems (isNamed toLowerCase names) s.afterDropped items).flatMap (·.lines) := by
  induction items generalizing s with
  | nil =>
    rw [List.foldl_nil, keptItems, List.flatMap_nil, List.append_nil]
  | cons item items ih =>
    rw [List.foldl_cons, ih]
    cases item with
    | other meaningful lines =>
      rw [keptItems, trimItem]
      split
      · rfl
      · rw [List.flatMap_cons, ← List.append_assoc]
        rfl
    | site addresses lines =>
      rw [keptItems, trimItem]
      split
      · rfl
      · rw [List.flatMap_cons, ← List.append_assoc]
        rfl

theorem contents_trimSnippetSites (toLowerCase : String → String) (names : List String)
    (collator : Collator String) (contents : String) :
    (trimSnippetSites toLowerCase names collator contents).contents =
      "\n".intercalate ((keptItems (isNamed toLowerCase names) false
        (parseSnippet contents).items).flatMap (·.lines)) := by
  rw [trimSnippetSites]
  dsimp only
  rw [out_foldl_trimItem]
  rfl

/-- Every item that is left is one that was there, or a block without its named addresses. -/
theorem mem_keptItems {afterDropped : Bool} {item : SnippetItem}
    (h : item ∈ keptItems named afterDropped items) :
    (∃ meaningful lines, item = .other meaningful lines ∧ item ∈ items) ∨
      ∃ addresses lines, .site addresses lines ∈ items ∧ addresses.filter (!named ·) ≠ [] ∧
        item = trimmedSite named addresses lines := by
  have hlater : ∀ {first : SnippetItem} {rest : List SnippetItem},
      ((∃ meaningful lines, item = .other meaningful lines ∧ item ∈ rest) ∨
        ∃ addresses lines, .site addresses lines ∈ rest ∧ addresses.filter (!named ·) ≠ [] ∧
          item = trimmedSite named addresses lines) →
      (∃ meaningful lines, item = .other meaningful lines ∧ item ∈ first :: rest) ∨
        ∃ addresses lines, .site addresses lines ∈ first :: rest ∧
          addresses.filter (!named ·) ≠ [] ∧ item = trimmedSite named addresses lines := by
    rintro first rest (⟨meaningful, lines, heq, hmem⟩ | ⟨addresses, lines, hmem, hrest⟩)
    · exact Or.inl ⟨meaningful, lines, heq, List.mem_cons_of_mem _ hmem⟩
    · exact Or.inr ⟨addresses, lines, List.mem_cons_of_mem _ hmem, hrest⟩
  fun_induction keptItems with
  | case1 => cases h
  | case2 _ _ _ _ _ ih => exact hlater (ih h)
  | case3 _ meaningful lines rest _ ih =>
    obtain rfl | hrest := List.mem_cons.mp h
    · exact Or.inl ⟨meaningful, lines, rfl, List.mem_cons_self ..⟩
    · exact hlater (ih hrest)
  | case4 _ _ _ _ _ ih => exact hlater (ih h)
  | case5 _ addresses lines rest hkept ih =>
    obtain rfl | hrest := List.mem_cons.mp h
    · exact Or.inr ⟨addresses, lines, List.mem_cons_self .., hkept, rfl⟩
    · exact hlater (ih hrest)

theorem trimmedSite_mem_keptItems {afterDropped : Bool} {addresses lines : List String}
    (h : .site addresses lines ∈ items) (hkept : addresses.filter (!named ·) ≠ []) :
    trimmedSite named addresses lines ∈ keptItems named afterDropped items := by
  fun_induction keptItems with
  | case1 => cases h
  | case2 _ _ _ _ _ ih =>
    exact ih ((List.mem_cons.mp h).resolve_left nofun)
  | case3 _ _ _ _ _ ih =>
    exact List.mem_cons_of_mem _ (ih ((List.mem_cons.mp h).resolve_left nofun))
  | case4 _ _ _ _ hnone ih =>
    obtain heq | hrest := List.mem_cons.mp h
    · obtain ⟨rfl, rfl⟩ := SnippetItem.site.inj heq
      exact absurd hnone hkept
    · exact ih hrest
  | case5 _ _ _ _ _ ih =>
    obtain heq | hrest := List.mem_cons.mp h
    · obtain ⟨rfl, rfl⟩ := SnippetItem.site.inj heq
      exact List.mem_cons_self ..
    · exact List.mem_cons_of_mem _ (ih hrest)

/-- The addresses that are left. -/
theorem addresses_keptItems (afterDropped : Bool) (items : List SnippetItem) :
    (keptItems named afterDropped items).flatMap SnippetItem.addresses =
      (items.flatMap SnippetItem.addresses).filter (!named ·) := by
  fun_induction keptItems with
  | case1 => rfl
  | case2 _ _ _ _ _ ih => exact ih
  | case3 _ _ _ _ _ ih => exact ih
  | case4 _ addresses _ _ hnone ih =>
    rw [List.flatMap_cons, List.filter_append, ← ih]
    exact (congrArg (· ++ _) hnone).symm
  | case5 _ addresses _ _ _ ih =>
    rw [List.flatMap_cons, List.flatMap_cons, List.filter_append, ← ih]
    rfl

/-- Items without named addresses are left as they are. -/
theorem keptItems_eq_self (hnamed : ∀ item ∈ items, ∀ token ∈ item.addresses, named token = false)
    (hne : ∀ addresses lines, .site addresses lines ∈ items → addresses ≠ []) :
    keptItems named false items = items := by
  induction items with
  | nil => rfl
  | cons item items ih =>
    obtain ⟨hitem, hitems⟩ := List.forall_mem_cons.mp hnamed
    have hrest := ih hitems fun addresses lines hmem =>
      hne addresses lines (List.mem_cons_of_mem _ hmem)
    cases item with
    | other meaningful lines =>
      rw [keptItems, hrest]
      rfl
    | site addresses lines =>
      have hall : addresses.filter (!named ·) = addresses :=
        List.filter_eq_self.mpr fun token htoken => by rw [hitem token htoken]; rfl
      rw [keptItems, hall, if_neg (hne addresses lines (List.mem_cons_self ..)), hrest, trimmedSite,
        hall, if_neg (Nat.lt_irrefl _)]

/-! ## Reading what is left -/

theorem siteBlock_read {addresses lines : List String}
    (h : (SnippetItem.site addresses lines).Read) :
    addresses ≠ [] ∧ ∀ token ∈ addresses, token.toList ≠ [] := by
  obtain ⟨line, body, -, -, htop⟩ := h.first
  exact ne_nil_of_topLevel htop

theorem lines_ne_nil (item : SnippetItem) (h : item.Read) : item.lines ≠ [] := by
  have hblock : ∀ {site lines}, BlockRead site lines → lines ≠ [] := by
    rintro site lines ⟨⟨line, body, rfl, -⟩, -⟩
    exact List.cons_ne_nil _ _
  match item, h with
  | .site _ _, h => exact hblock h
  | .other false _, ⟨line, rfl, _⟩ => exact List.cons_ne_nil _ _
  | .other true _, .inl ⟨line, rfl, _⟩ => exact List.cons_ne_nil _ _
  | .other true _, .inr h => exact hblock h

/-- A block without its named addresses is read back where it kept all, or its header and its
braces are read as they were. -/
theorem trimmedSite_read_iff {addresses lines : List String}
    (h : (SnippetItem.site addresses lines).Read) (hkept : addresses.filter (!named ·) ≠ []) :
    (trimmedSite named addresses lines).Read ↔
      ((addresses.filter (!named ·)).length < addresses.length →
        HeaderKept (addresses.filter (!named ·)) ∧
          takeBlock 0 (siteHeader (addresses.filter (!named ·)) :: lines.tail) =
            (siteHeader (addresses.filter (!named ·)) :: lines.tail, true)) := by
  rw [trimmedSite]
  split
  · rename_i hless
    have hne : ∀ token ∈ addresses.filter (!named ·), token.toList ≠ [] :=
      fun token htoken => (siteBlock_read h).2 token (List.mem_of_mem_filter htoken)
    constructor
    · rintro ⟨⟨line, body, heq, hneutral, htop⟩, hclosed⟩ -
      obtain ⟨rfl, -⟩ := List.cons.inj heq
      exact ⟨(headerKept_iff hne hkept).mp ⟨hneutral, htop⟩, hclosed⟩
    · intro hblock
      obtain ⟨hheader, hclosed⟩ := hblock hless
      obtain ⟨hneutral, htop⟩ := (headerKept_iff hne hkept).mpr hheader
      exact ⟨⟨_, _, rfl, hneutral, htop⟩, hclosed⟩
  · rename_i hless
    have hall : addresses.filter (!named ·) = addresses := by
      refine List.filter_eq_self.mpr (List.length_filter_eq_length_iff.mp ?_)
      exact Nat.le_antisymm (List.length_filter_le _ _) (Nat.not_lt.mp hless)
    rw [hall]
    exact ⟨fun _ hlt => absurd hlt (Nat.lt_irrefl _), fun _ => h⟩

/-- All that is left is read back just where the changed blocks are. -/
theorem keptItems_read_iff (h : ∀ item ∈ items, item.Read) :
    (∀ item ∈ keptItems named false items, item.Read) ↔ KeepsBlocks named items := by
  constructor
  · intro hread addresses lines hmem remaining hkept
    exact (trimmedSite_read_iff (h _ hmem) hkept).mp
      (hread _ (trimmedSite_mem_keptItems hmem hkept))
  · intro hblocks item hitem
    obtain ⟨_, _, -, hmem⟩ | ⟨addresses, lines, hmem, hkept, rfl⟩ := mem_keptItems hitem
    · exact h item hmem
    · exact (trimmedSite_read_iff (h _ hmem) hkept).mpr (hblocks addresses lines hmem hkept)

/-- The new lines hold no line feed either. -/
theorem notMem_lines_keptItems (h : ∀ item ∈ items, item.Read)
    (hlines : ∀ line ∈ items.flatMap (·.lines), '\n' ∉ line.toList) :
    ∀ line ∈ (keptItems named false items).flatMap (·.lines), '\n' ∉ line.toList := by
  intro line hline
  obtain ⟨item, hitem, hline⟩ := List.mem_flatMap.mp hline
  obtain ⟨_, _, -, hmem⟩ | ⟨addresses, lines, hmem, hkept, rfl⟩ := mem_keptItems hitem
  · exact hlines line (List.mem_flatMap.mpr ⟨item, hmem, hline⟩)
  · have hbody : ∀ line ∈ lines, '\n' ∉ line.toList := fun line hline =>
      hlines line (List.mem_flatMap.mpr ⟨_, hmem, hline⟩)
    obtain ⟨⟨first, body, rfl, -, htop⟩, -⟩ := h _ hmem
    rw [trimmedSite] at hline
    dsimp only [SnippetItem.lines] at hline
    split at hline
    · obtain rfl | hline := List.mem_cons.mp hline
      · rw [siteHeader, String.toList_append, List.mem_append, not_or]
        refine ⟨fun hnew => ?_, by decide⟩
        have hcomma : ∀ c ∈ ", ".toList, c ≠ '\n' :=
          fun c hc hc' => absurd (hc' ▸ hc) (by decide)
        refine forall_mem_intercalate hcomma ?_ _ hnew rfl
        intro token htoken c hc
        rintro rfl
        exact hbody first (List.mem_cons_self ..)
          (mem_line_of_mem_address htop (List.mem_of_mem_filter htoken) hc)
      · exact hbody line (List.mem_cons_of_mem _ hline)
    · exact hbody line hline

/-- The lines of the text that is left. -/
theorem split_keptItems {kept : List SnippetItem} (hread : kept ≠ [] → kept.flatMap (·.lines) ≠ [])
    (hlines : ∀ line ∈ kept.flatMap (·.lines), '\n' ∉ line.toList) :
    split '\n' ("\n".intercalate (kept.flatMap (·.lines))) = (leftItems kept).flatMap (·.lines) := by
  rw [leftItems]
  split
  · rename_i hnil
    rw [hnil]
    exact split_of_notMem (by decide)
  · rename_i hne
    exact split_intercalate hlines (hread hne)

theorem leftItems_read {kept : List SnippetItem} (h : ∀ item ∈ kept, item.Read) :
    ∀ item ∈ leftItems kept, item.Read := by
  rw [leftItems]
  split
  · exact List.forall_mem_singleton.mpr ⟨"", rfl, by decide⟩
  · exact h

theorem addresses_leftItems (kept : List SnippetItem) :
    (leftItems kept).flatMap SnippetItem.addresses = kept.flatMap SnippetItem.addresses := by
  rw [leftItems]
  split
  · rename_i hnil
    rw [hnil]
    rfl
  · rfl

theorem flatMap_leftItems (kept : List SnippetItem) :
    "\n".intercalate ((leftItems kept).flatMap (·.lines)) =
      "\n".intercalate (kept.flatMap (·.lines)) := by
  rw [leftItems]
  split
  · rename_i hnil
    rw [hnil]
    rfl
  · rfl

/-! ## The trimmed text -/

/-- Joining the items' lines gives the text back. -/
theorem intercalate_parseSnippet (contents : String) :
    "\n".intercalate ((parseSnippet contents).items.flatMap (·.lines)) = contents := by
  rw [parseSnippet, (parseLines_spec _).1]
  exact intercalate_split '\n' contents

theorem flatMap_keptItems_ne_nil (h : ∀ item ∈ items, item.Read)
    (hne : keptItems named false items ≠ []) :
    (keptItems named false items).flatMap (·.lines) ≠ [] := by
  obtain ⟨item, rest, hcons⟩ := List.exists_cons_of_ne_nil hne
  have hitem : item ∈ keptItems named false items := hcons ▸ List.mem_cons_self ..
  have hlines : item.lines ≠ [] := by
    obtain ⟨_, _, -, hmem⟩ | ⟨addresses, lines, hmem, -, rfl⟩ := mem_keptItems hitem
    · exact lines_ne_nil _ (h item hmem)
    · rw [trimmedSite]
      dsimp only [SnippetItem.lines]
      split
      · exact List.cons_ne_nil _ _
      · exact lines_ne_nil _ (h _ hmem)
  rw [hcons, List.flatMap_cons]
  exact List.append_ne_nil_of_left_ne_nil hlines _

/-- The lines of the trimmed text are those of what is left. -/
theorem parseSnippet_trimmed {toLowerCase : String → String} {names : List String}
    {collator : Collator String} {contents : String}
    (hplaced : (parseSnippet contents).uninterpretable = false) :
    parseSnippet (trimSnippetSites toLowerCase names collator contents).contents =
      parseLines ((leftItems (keptItems (isNamed toLowerCase names) false
        (parseSnippet contents).items)).flatMap (·.lines)) := by
  obtain ⟨hlines, hread⟩ := parseLines_spec (split '\n' contents)
  have hfeeds : ∀ line ∈ (parseSnippet contents).items.flatMap (·.lines), '\n' ∉ line.toList := by
    rw [parseSnippet, hlines]
    exact fun line hline => notMem_of_mem_split hline
  have hread : ∀ item ∈ (parseSnippet contents).items, item.Read := hread hplaced
  rw [contents_trimSnippetSites, ← split_keptItems (flatMap_keptItems_ne_nil hread)
    (notMem_lines_keptItems hread hfeeds)]
  rfl

theorem trimsExactly_iff {toLowerCase : String → String} {names : List String}
    {collator : Collator String} {contents : String}
    (hplaced : (parseSnippet contents).uninterpretable = false) :
    TrimsExactly toLowerCase names collator contents ↔
      KeepsBlocks (isNamed toLowerCase names) (parseSnippet contents).items := by
  have hread : ∀ item ∈ (parseSnippet contents).items, item.Read :=
    (parseLines_spec (split '\n' contents)).2 hplaced
  rw [← keptItems_read_iff hread]
  constructor
  · intro h item hitem
    have hparsed := (parseLines_spec (split '\n'
      (trimSnippetSites toLowerCase names collator contents).contents)).2 h.placed
    refine hparsed item ?_
    rw [← parseSnippet, h.items, leftItems, if_neg (List.ne_nil_of_mem hitem)]
    exact hitem
  · intro hkept
    have hleft := leftItems_read hkept
    have hparsed : parseSnippet (trimSnippetSites toLowerCase names collator contents).contents =
        ⟨leftItems (keptItems (isNamed toLowerCase names) false (parseSnippet contents).items),
          false⟩ := by
      rw [parseSnippet_trimmed hplaced, parseLines_flatMap hleft]
    have haddresses : siteAddresses (trimSnippetSites toLowerCase names collator contents).contents =
        (siteAddresses contents).filter (!isNamed toLowerCase names ·) := by
      rw [siteAddresses, hparsed, addresses_leftItems, addresses_keptItems]
      rfl
    constructor
    case placed => rw [hparsed]
    case items => rw [hparsed]
    case addresses => exact haddresses
    case again =>
      rw [contents_trimSnippetSites _ _ _ (trimSnippetSites _ _ _ _).contents, hparsed,
        keptItems_eq_self, flatMap_leftItems, contents_trimSnippetSites]
      · intro item hitem token htoken
        have hmem : token ∈ (siteAddresses contents).filter (!isNamed toLowerCase names ·) := by
          rw [← haddresses, siteAddresses, hparsed]
          exact List.mem_flatMap.mpr ⟨item, hitem, htoken⟩
        simpa using (List.mem_filter.mp hmem).2
      · exact fun addresses lines hmem => (siteBlock_read (hleft _ hmem)).1

/-- The items hold the text, and trimming is exact just where the changed blocks are read as
they were written. -/
theorem trimSnippet_iff (toLowerCase : String → String) (collator : Collator String) :
    (∀ contents, "\n".intercalate ((parseSnippet contents).items.flatMap (·.lines)) = contents) ∧
    ∀ names contents, (parseSnippet contents).uninterpretable = false →
      (TrimsExactly toLowerCase names collator contents ↔
        KeepsBlocks (isNamed toLowerCase names) (parseSnippet contents).items) :=
  ⟨intercalate_parseSnippet, fun _ _ hplaced => trimsExactly_iff hplaced⟩

theorem parseSnippet_block {addresses lines : List String} (hread : BlockRead (some addresses) lines)
    (hlines : ∀ line ∈ lines, '\n' ∉ line.toList) :
    parseSnippet ("\n".intercalate lines) = ⟨[.site addresses lines], false⟩ := by
  have hitems : ∀ item ∈ [SnippetItem.site addresses lines], item.Read :=
    List.forall_mem_singleton.mpr hread
  have hne : lines ≠ [] := lines_ne_nil (.site addresses lines) hread
  have hparsed := parseLines_flatMap hitems
  rw [List.flatMap_singleton] at hparsed
  exact (congrArg parseLines (split_intercalate hlines hne)).trans hparsed

/-- Two hosts that share a block. -/
def sharedBlock : List String := ["a.com, b.com \x7b", "\trespond ok", "\x7d"]

theorem sharedBlock_read : BlockRead (some ["a.com", "b.com"]) sharedBlock :=
  ⟨⟨_, _, rfl, by decide +kernel, by decide +kernel⟩, by decide +kernel⟩

theorem trimSnippet_iff_shared :
    TrimsExactly toLowerCase ["b.com"] (.ofLinearOrder String) ("\n".intercalate sharedBlock) := by
  have hparsed : parseSnippet ("\n".intercalate sharedBlock) =
      ⟨[.site ["a.com", "b.com"] sharedBlock], false⟩ :=
    parseSnippet_block sharedBlock_read (by decide)
  refine ((trimSnippet_iff toLowerCase (.ofLinearOrder String)).2 ["b.com"] _
    (by rw [hparsed])).mpr ?_
  rw [hparsed]
  rintro addresses lines hmem remaining - -
  obtain ⟨rfl, rfl⟩ := SnippetItem.site.inj (List.mem_singleton.mp hmem)
  have hremaining : remaining = ["a.com"] := by decide +kernel
  rw [hremaining]
  have hplain : ((["a.com"] : List String).all fun token => token.toList.all isPlain) = true := by
    decide +kernel
  simp only [List.all_eq_true] at hplain
  refine ⟨⟨hplain, by decide +kernel, by decide, ?_⟩, by decide +kernel⟩
  rintro token h
  rw [← List.singleton_inj.mp h]
  decide

/-- A quoted address with a blank is written back without its quotes. -/
def quotedBlock : List String := ["\"a b\", c.com \x7b", "\x7d"]

theorem not_trimsExactly_quoted :
    ¬∀ names contents, (parseSnippet contents).uninterpretable = false →
      TrimsExactly toLowerCase names (.ofLinearOrder String) contents := by
  intro h
  have hread : BlockRead (some ["a b", "c.com"]) quotedBlock :=
    ⟨⟨_, _, rfl, by decide +kernel, by decide +kernel⟩, by decide +kernel⟩
  have hparsed : parseSnippet ("\n".intercalate quotedBlock) =
      ⟨[.site ["a b", "c.com"] quotedBlock], false⟩ := parseSnippet_block hread (by decide)
  have hplaced : (parseSnippet ("\n".intercalate quotedBlock)).uninterpretable = false := by
    rw [hparsed]
  have hblocks := (trimsExactly_iff hplaced).mp (h ["c.com"] _ hplaced)
  rw [hparsed] at hblocks
  obtain ⟨hheader, -⟩ := hblocks ["a b", "c.com"] quotedBlock (List.mem_singleton_self _)
    (by decide +kernel) (by decide +kernel)
  have hblank := hheader.plain "a b" (by decide +kernel) ' ' (by decide)
  exact absurd hblank (by decide)

end Turbopaneld.Deploy.Caddy
