/-
# Reading and trimming a Caddy snippet

A snippet is read line by line into items: site blocks, and other pieces, which are blank
lines, comments, imports and blocks that are no sites.  A block ends where its braces balance.
Trimming takes the named addresses out of the site blocks: a block that keeps some of them gets
a new first line, one that keeps none goes, and so does a blank line behind it.
-/

import Mathlib.Data.List.DropRight
import Turbopaneld.JavaScript.Text
import Turbopaneld.Sequences.StableSort

namespace Turbopaneld.Deploy.Caddy

open JavaScript
open Sequences (Collator sortBy)

/-! ## Items -/

/-- `SnippetItem`. -/
inductive SnippetItem
  | site (addresses : List String) (lines : List String)
  | other (meaningful : Bool) (lines : List String)
deriving DecidableEq, Repr

def SnippetItem.lines : SnippetItem → List String
  | .site _ lines => lines
  | .other _ lines => lines

structure ParsedSnippet where
  items : List SnippetItem
  uninterpretable : Bool
deriving DecidableEq, Repr

/-! ## A line -/

/-- The quotes of a line. -/
def isLineQuote (c : Char) : Bool := c == '"' || c == '\'' || c == '`'

/-- `withoutComment` from inside of a quote or outside, where `fresh` says whether a comment may
start. -/
def uncommented (quote : Option Char) (fresh : Bool) : List Char → List Char
  | [] => []
  | c :: rest =>
    match quote with
    | some q =>
      if c = '\\' ∧ q ≠ '`' then
        match rest with
        | [] => [c]
        | d :: behind => c :: d :: uncommented quote (isSpace d) behind
      else if c = q then c :: uncommented none (isSpace c) rest
      else c :: uncommented quote (isSpace c) rest
    | none =>
      if isLineQuote c then c :: uncommented (some c) (isSpace c) rest
      else if c = '#' ∧ fresh then []
      else c :: uncommented none (isSpace c) rest

def withoutComment (line : List Char) : List Char := uncommented none true line

/-- The loop of `braceBalance`. -/
def balanceFrom (quote : Option Char) : List Char → ℤ
  | [] => 0
  | c :: rest =>
    match quote with
    | some q =>
      if c = '\\' ∧ q ≠ '`' then
        match rest with
        | [] => 0
        | _ :: behind => balanceFrom quote behind
      else if c = q then balanceFrom none rest
      else balanceFrom quote rest
    | none =>
      if isLineQuote c then balanceFrom (some c) rest
      else if c = '{' then 1 + balanceFrom none rest
      else if c = '}' then -1 + balanceFrom none rest
      else balanceFrom none rest

def braceBalance (line : String) : ℤ := balanceFrom none (withoutComment line.toList)

/-- The token under way, unless it is empty. -/
def flush (current : List Char) : List (List Char) := if current = [] then [] else [current]

def isAddressQuote (c : Char) : Bool := c == '"' || c == '\''

def isSeparator (c : Char) : Bool := c == ',' || isSpace c

/-- The loop of `addressTokens`. -/
def tokensFrom (quote : Option Char) (current : List Char) : List Char → Option (List (List Char))
  | [] => if quote.isSome then none else some (flush current)
  | c :: rest =>
    match quote with
    | some q =>
      if c = q then tokensFrom none current rest else tokensFrom quote (current ++ [c]) rest
    | none =>
      if isAddressQuote c then tokensFrom (some c) current rest
      else if isSeparator c then (tokensFrom none [] rest).map (flush current ++ ·)
      else tokensFrom none (current ++ [c]) rest

def addressTokens (head : List Char) : Option (List String) :=
  (tokensFrom none [] head).map fun tokens => tokens.map String.ofList

inductive TopLevel
  | importLine
  | block (site : Option (List String))
  | unknown
deriving DecidableEq, Repr

def trimChars (text : List Char) : List Char := (text.dropWhile isSpace).rdropWhile isSpace

/-- `/^import(\s|$)/`. -/
def isImport (text : List Char) : Bool :=
  "import".toList.isPrefixOf text && (text.drop 6).head?.all isSpace

/-- `/^\([^()\s]+\)$/`. -/
def isSnippetName : List Char → Bool
  | '(' :: rest =>
    rest.getLast? == some ')' && !rest.dropLast.isEmpty &&
      rest.dropLast.all fun c => c != '(' && c != ')' && !isSpace c
  | _ => false

def classifyTopLevel (line : String) : TopLevel :=
  let text := (withoutComment line.toList).rdropWhile isSpace
  if isImport text then .importLine
  else if text.getLast? ≠ some '{' then .unknown
  else
    let head := text.dropLast
    let trimmed := trimChars head
    if trimmed = [] then .block none
    else if !head.getLast?.any isSpace then .unknown
    else if isSnippetName trimmed then .block none
    else if trimmed.getLast? = some ',' then .unknown
    else
      match addressTokens trimmed with
      | none | some [] => .unknown
      | some tokens => .block (some tokens)

def isNeutral (line : String) : Bool :=
  let trimmed := trim line
  trimmed == "" || startsWith trimmed "#"

/-- A line that is not neutral: an indented one is not placed. -/
def topLevel (line : String) : TopLevel :=
  if startsWith line " " || startsWith line "\t" then .unknown else classifyTopLevel line

/-! ## Parsing -/

/-- `takeBlock`, at a depth, with whether the block is closed. -/
def takeBlock (depth : ℤ) : List String → List String × Bool
  | [] => ([], false)
  | line :: rest =>
    let depth := depth + braceBalance line
    if depth ≤ 0 then ([line], true)
    else
      let (taken, closed) := takeBlock depth rest
      (line :: taken, closed)

/-- The item of a block. -/
def blockItem (site : Option (List String)) (lines : List String) : SnippetItem :=
  match site with
  | none => .other true lines
  | some addresses => .site addresses lines

def ParsedSnippet.cons (item : SnippetItem) (unplaced : Bool) (parsed : ParsedSnippet) :
    ParsedSnippet :=
  ⟨item :: parsed.items, unplaced || parsed.uninterpretable⟩

/-- The loop of `parseSnippet`. -/
def parseLines (lines : List String) : ParsedSnippet :=
  match lines with
  | [] => ⟨[], false⟩
  | line :: rest =>
    if isNeutral line then (parseLines rest).cons (.other false [line]) false
    else
      match topLevel line with
      | .block site =>
        let (taken, closed) := takeBlock 0 (line :: rest)
        (parseLines (rest.drop (taken.length - 1))).cons (blockItem site taken) !closed
      | .importLine => (parseLines rest).cons (.other true [line]) false
      | .unknown => (parseLines rest).cons (.other true [line]) true
termination_by lines.length
decreasing_by
  all_goals
    simp only [List.length_cons, List.length_drop]
    omega

def parseSnippet (contents : String) : ParsedSnippet := parseLines (split '\n' contents)

/-! ## Trimming -/

/-- `addressKey`, under the language's `toLowerCase`: lowercase, without a scheme. -/
def addressKey (toLowerCase : String → String) (token : String) : String :=
  let lower := toLowerCase token
  ((afterFront "http://" lower).orElse fun _ => afterFront "https://" lower).getD lower

/-- What the loop of `trimSnippetSites` keeps. -/
structure TrimState where
  out : List String := []
  removed : List String := []
  sitesLeft : ℕ := 0
  otherLeft : Bool := false
  afterDropped : Bool := false
deriving DecidableEq, Repr

/-- The first line of a block with other addresses. -/
def siteHeader (addresses : List String) : String := ", ".intercalate addresses ++ " \x7b"

section

variable (toLowerCase : String → String) (names : List String)

/-- The address is one of the named ones. -/
def isNamed (token : String) : Bool := names.contains (addressKey toLowerCase token)

def trimItem (s : TrimState) : SnippetItem → TrimState
  | .other meaningful lines =>
    if s.afterDropped && !meaningful && trim (lines.headD "") == "" then
      { s with afterDropped := false }
    else
      { s with
        afterDropped := false
        otherLeft := s.otherLeft || meaningful
        out := s.out ++ lines }
  | .site addresses lines =>
    let remaining := addresses.filter fun token => !isNamed toLowerCase names token
    let removed := ((addresses.filter (isNamed toLowerCase names)).map
      (addressKey toLowerCase)).foldl
        (fun removed key => if key ∈ removed then removed else removed ++ [key]) s.removed
    if remaining = [] then { s with removed, afterDropped := true }
    else
      { s with
        removed
        afterDropped := false
        sitesLeft := s.sitesLeft + 1
        out := s.out ++
          if remaining.length < addresses.length then siteHeader remaining :: lines.tail else lines }

structure TrimmedSnippet where
  contents : String
  removed : List String
  sitesLeft : ℕ
  otherLeft : Bool
  uninterpretable : Bool
deriving DecidableEq, Repr

def trimSnippetSites (collator : Collator String) (contents : String) : TrimmedSnippet :=
  let parsed := parseSnippet contents
  let s := parsed.items.foldl (trimItem toLowerCase names) {}
  { contents := "\n".intercalate s.out
    removed := sortBy collator id s.removed
    sitesLeft := s.sitesLeft
    otherLeft := s.otherLeft
    uninterpretable := parsed.uninterpretable }

end

end Turbopaneld.Deploy.Caddy
