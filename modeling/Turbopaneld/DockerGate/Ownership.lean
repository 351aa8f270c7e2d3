/-
# Whose object a request acts on is looked up

The route table, the ownership patterns and the start pattern are separate, each
with its own idea of a name.  Here they are compared: for every request the table
puts in a route whose object must be owned, which object its path names, and
whether the review looks exactly that object up.
-/

import Turbopaneld.DockerGate.Review

namespace Turbopaneld.DockerGate

open JavaScript

variable {Key : Type}

/-- One non-empty path segment. -/
def IsSegment (name : String) : Prop := name ≠ "" ∧ '/' ∉ name.toList

/-- The object a path names on a route whose object must be owned. -/
inductive NamesObject : Route → String → Subject → Prop
  | action {name action : String} (haction : action ∈ containerActions) :
      NamesObject .containersAction ("/containers/" ++ name ++ action) ⟨.container, name⟩
  | exec {name : String} :
      NamesObject .containersExecCreate ("/containers/" ++ name ++ "/exec") ⟨.container, name⟩
  | attach {name : String} :
      NamesObject .containersAttach ("/containers/" ++ name ++ "/attach") ⟨.container, name⟩
  | archiveGet {name : String} :
      NamesObject .containersArchiveGet ("/containers/" ++ name ++ "/archive") ⟨.container, name⟩
  | archivePut {name : String} :
      NamesObject .containersArchivePut ("/containers/" ++ name ++ "/archive") ⟨.container, name⟩
  | remove {name : String} :
      NamesObject .containersRemove ("/containers/" ++ name) ⟨.container, name⟩
  | networkAttach {name action : String} (haction : action ∈ ["/connect", "/disconnect"]) :
      NamesObject .networksAttach ("/networks/" ++ name ++ action) ⟨.network, name⟩
  | networkRemove {name : String} :
      NamesObject .objectRemove ("/networks/" ++ name) ⟨.network, name⟩
  | volumeRemove {name : String} :
      NamesObject .objectRemove ("/volumes/" ++ name) ⟨.volume, name⟩

/-- The review looks up the object, and nothing else, and finds something unless the
object's labels can be read and say whose it is. -/
def OwnershipChecked (facts : RequestFacts) (deps : ReviewDeps Key) (extra : List Violation)
    (subject : Subject) : Prop :=
  ∀ state : ReviewState,
    let reviewed := review facts (classifyRoute facts.method facts.path).route deps extra state
    reviewed.2.looked = state.looked ++ [subject] ∧
      (reviewed.1 = [] → ∃ labels,
        labelsFromDoc (parseInspect (deps.inspect subject)) subject.kind = some labels ∧
          ownerOf labels ≠ .unlabeled)

/-- The names the ownership patterns leave out: a container called `json` unless it is
started, restarted or removed, and a removed network or volume called `create` or
`prune`. -/
def leftOut (method path : String) (subject : Subject) : Bool :=
  match subject.kind with
  | .container => method ≠ "DELETE" && subject.name == "json" &&
      !(["/containers/json/start", "/containers/json/restart"].contains path)
  | _ => method == "DELETE" && notAnObject.contains subject.name

/-! ## Paths and their segments -/

theorem segmentBetween_eq_some_iff {front back path name : String} :
    segmentBetween front back path = some name ↔ path = front ++ name ++ back ∧ IsSegment name := by
  rw [segmentBetween, Option.filter_eq_some_iff, between_eq_some_iff, IsSegment]
  simp [and_assoc]

theorem segmentAfter_eq_some_iff {front path name : String} :
    segmentAfter front path = some name ↔ path = front ++ name ∧ IsSegment name := by
  rw [segmentAfter, Option.filter_eq_some_iff, afterFront_eq_some_iff, IsSegment]
  simp

/-- A text that starts with a slash. -/
def IsTail (back : String) : Prop := back.toList.head? = some '/'

/-- A path has one name. -/
theorem segment_unique {front name name' back back' : String}
    (heq : front ++ name ++ back = front ++ name' ++ back') (hname : IsSegment name)
    (hname' : IsSegment name') (hback : IsTail back) (hback' : IsTail back') :
    name = name' ∧ back = back' := by
  have htake : ∀ {name back : String}, IsSegment name → IsTail back →
      (name.toList ++ back.toList).takeWhile (fun c => decide (c ≠ '/')) = name.toList := by
    intro name back hname hback
    obtain ⟨rest, hrest⟩ := List.head?_eq_some_iff.mp hback
    rw [List.takeWhile_append_of_pos, hrest, List.takeWhile_cons_of_neg (by simp), List.append_nil]
    intro c hc
    exact decide_eq_true fun hslash => hname.2 (hslash ▸ hc)
  have hchars : name.toList ++ back.toList = name'.toList ++ back'.toList := by
    rw [← String.toList_inj] at heq
    simpa [String.toList_append, List.append_assoc] using heq
  have hnames : name.toList = name'.toList := by
    rw [← htake hname hback, hchars, htake hname' hback']
  rw [hnames] at hchars
  exact ⟨String.toList_inj.mp hnames, String.toList_inj.mp (List.append_cancel_left hchars)⟩

/-- The first pattern that matches gives the name, whichever pattern that is. -/
theorem findSome?_segmentBetween {front name back : String} {backs : List String}
    (hbacks : ∀ b ∈ backs, IsTail b) (hname : IsSegment name) (hmem : back ∈ backs) :
    (backs.findSome? fun b => segmentBetween front b (front ++ name ++ back)) = some name := by
  have hsome : (backs.findSome? fun b => segmentBetween front b (front ++ name ++ back)).isSome := by
    rw [List.findSome?_isSome_iff]
    exact ⟨back, hmem, by rw [segmentBetween_eq_some_iff.mpr ⟨rfl, hname⟩]; rfl⟩
  obtain ⟨found, hfound⟩ := Option.isSome_iff_exists.mp hsome
  obtain ⟨b, hb, hseg⟩ := List.exists_of_findSome?_eq_some hfound
  obtain ⟨hpath, hsegment⟩ := segmentBetween_eq_some_iff.mp hseg
  rw [hfound, (segment_unique hpath hname hsegment (hbacks back hmem) (hbacks b hb)).1]

/-- Patterns with other endings do not match. -/
theorem findSome?_segmentBetween_eq_none {front name back : String} {backs : List String}
    (hbacks : ∀ b ∈ backs, IsTail b) (hname : IsSegment name) (hback : IsTail back)
    (hmem : back ∉ backs) :
    (backs.findSome? fun b => segmentBetween front b (front ++ name ++ back)) = none := by
  rw [List.findSome?_eq_none_iff]
  intro b hb
  rw [Option.eq_none_iff_forall_ne_some]
  intro found hseg
  obtain ⟨hpath, hsegment⟩ := segmentBetween_eq_some_iff.mp hseg
  have hsame := (segment_unique hpath hname hsegment hback (hbacks b hb)).2
  exact hmem (hsame ▸ hb)

/-- A path under one collection is not under another. -/
theorem segmentBetween_other {front back path : String}
    (hfront : ∀ rest, path ≠ front ++ rest) : segmentBetween front back path = none := by
  rw [Option.eq_none_iff_forall_ne_some]
  intro found hseg
  obtain ⟨hpath, -⟩ := segmentBetween_eq_some_iff.mp hseg
  rw [String.append_assoc] at hpath
  exact hfront _ hpath

theorem segmentAfter_other {front path : String} (hfront : ∀ rest, path ≠ front ++ rest) :
    segmentAfter front path = none := by
  rw [Option.eq_none_iff_forall_ne_some]
  intro found hseg
  exact hfront _ (segmentAfter_eq_some_iff.mp hseg).1

/-! ## One review -/

section Review

variable {facts : RequestFacts} {deps : ReviewDeps Key} {extra : List Violation}

/-- A start that leaves no finding is of a container whose labels say whose it is. -/
theorem labeled_of_docFindings {name : String} {doc : Option Json}
    (hclean : docFindings name deps (doc.map startDocOf) = []) :
    ∃ labels, labelsFromDoc doc .container = some labels ∧ ownerOf labels ≠ .unlabeled := by
  cases doc with
  | none => exact absurd hclean (by simp [docFindings])
  | some record =>
      refine ⟨(startDocOf record).labels, rfl, ?_⟩
      intro hunlabeled
      simp [docFindings, hunlabeled] at hclean

theorem labeled_of_subjectFindings {subject : Subject} {labels : Option Labels}
    (hclean : subjectFindings facts subject labels = []) :
    ∃ found, labels = some found ∧ ownerOf found ≠ .unlabeled := by
  cases labels with
  | none => exact absurd hclean (by simp [subjectFindings])
  | some found =>
      refine ⟨found, rfl, ?_⟩
      intro hunlabeled
      rw [subjectFindings] at hclean
      split at hclean
      · exact absurd hclean (by simp)
      · rw [if_pos hunlabeled] at hclean
        exact absurd hclean (by simp)

theorem checked_of_start {name : String}
    (hroute : (classifyRoute facts.method facts.path).route ≠ .containersCreate)
    (hstart : startTarget facts = some name) :
    OwnershipChecked facts deps extra ⟨.container, name⟩ := by
  intro state
  rw [review_apply_of_ne_create hroute, unownedFinding_of_start hstart]
  refine ⟨rfl, ?_⟩
  intro hclean
  rw [List.append_eq_nil_iff, List.append_eq_nil_iff] at hclean
  exact labeled_of_docFindings hclean.1.2

theorem checked_of_subject {subject : Subject}
    (hroute : (classifyRoute facts.method facts.path).route ≠ .containersCreate)
    (hstart : startTarget facts = none) (hsubject : ownedSubject facts = some subject) :
    OwnershipChecked facts deps extra subject := by
  intro state
  rw [review_apply_of_ne_create hroute, unownedFinding_of_subject hstart hsubject]
  refine ⟨rfl, ?_⟩
  intro hclean
  rw [List.append_eq_nil_iff, List.append_eq_nil_iff] at hclean
  exact labeled_of_subjectFindings hclean.1.2

theorem not_checked_of_none {subject : Subject}
    (hroute : (classifyRoute facts.method facts.path).route ≠ .containersCreate)
    (hstart : startTarget facts = none) (hsubject : ownedSubject facts = none) :
    ¬ OwnershipChecked facts deps extra subject := by
  intro hchecked
  have hlooked := (hchecked ⟨⟨[], false⟩, .absent, []⟩).1
  rw [review_apply_of_ne_create hroute, unownedFinding_of_none hstart hsubject] at hlooked
  exact absurd hlooked (by simp)

end Review

/-! ## The patterns agree with the table -/

/-- The methods a route of the table is reached by. -/
def routeMethods (route : Route) : List String :=
  (routes.filter fun rule => rule.route = route).flatMap (·.methods)

/-- A request in a route of the table was sent with one of the route's methods. -/
theorem mem_routeMethods {method path : String} {route : Route}
    (hroute : (classifyRoute method path).route = route) (hread : route ≠ .read)
    (hgroup : route ≠ .restrictedGroup) (hunknown : route ≠ .unclassified) :
    method ∈ routeMethods route := by
  rw [classifyRoute] at hroute
  split at hroute
  · rename_i rule hrule
    have happlies := List.find?_some hrule
    rw [RouteRule.applies, Bool.and_eq_true, List.contains_iff_mem] at happlies
    rw [routeMethods, List.mem_flatMap]
    refine ⟨rule, ?_, happlies.1⟩
    rw [List.mem_filter]
    exact ⟨List.mem_of_find?_eq_some hrule, decide_eq_true hroute⟩
  · split at hroute
    · exact absurd hroute.symm hread
    · split at hroute
      · exact absurd hroute.symm hgroup
      · exact absurd hroute.symm hunknown

/-- What the patterns make of a request for an object: the start pattern names it, or
the ownership patterns name it, or it is one they leave out. -/
def Targeted (facts : RequestFacts) (subject : Subject) : Prop :=
  (startTarget facts = some subject.name ∧ subject.kind = .container ∧
    leftOut facts.method (routePath facts.path) subject = false) ∨
  (startTarget facts = none ∧ ownedSubject facts = some subject ∧
    leftOut facts.method (routePath facts.path) subject = false) ∨
  (startTarget facts = none ∧ ownedSubject facts = none ∧
    leftOut facts.method (routePath facts.path) subject = true)

section Targets

variable {facts : RequestFacts} {name back : String}

theorem containerActions_subset : containerActions ⊆ ownedActions := by
  decide

theorem isTail_of_ownedActions : ∀ back ∈ ownedActions, IsTail back := by
  unfold IsTail
  decide

theorem ne_of_heads {front front' : String} (rest rest' : String) {k : ℕ} {c c' : Char}
    (hfront : front.toList[k]? = some c) (hfront' : front'.toList[k]? = some c') (hne : c ≠ c') :
    front ++ rest ≠ front' ++ rest' := by
  intro heq
  rw [← String.toList_inj, String.toList_append, String.toList_append] at heq
  have hk := congrArg (·[k]?) heq
  simp only [List.getElem?_append_left (List.getElem?_eq_some_iff.mp hfront).1,
    List.getElem?_append_left (List.getElem?_eq_some_iff.mp hfront').1, hfront, hfront',
    Option.some.injEq] at hk
  exact hne hk

theorem containers_ne_networks (rest rest' : String) :
    "/containers/" ++ rest ≠ "/networks/" ++ rest' :=
  ne_of_heads rest rest' (show "/containers/".toList[1]? = some 'c' by decide)
    (show "/networks/".toList[1]? = some 'n' by decide) (by decide)

theorem containers_ne_volumes (rest rest' : String) :
    "/containers/" ++ rest ≠ "/volumes/" ++ rest' :=
  ne_of_heads rest rest' (show "/containers/".toList[1]? = some 'c' by decide)
    (show "/volumes/".toList[1]? = some 'v' by decide) (by decide)

theorem networks_ne_volumes (rest rest' : String) :
    "/networks/" ++ rest ≠ "/volumes/" ++ rest' :=
  ne_of_heads rest rest' (show "/networks/".toList[1]? = some 'n' by decide)
    (show "/volumes/".toList[1]? = some 'v' by decide) (by decide)

/-- A path outside the containers is no start. -/
theorem startTarget_other (hpath : ∀ rest, routePath facts.path ≠ "/containers/" ++ rest) :
    startTarget facts = none := by
  rw [startTarget]
  split
  · rfl
  · rw [List.findSome?_eq_none_iff]
    intro action _
    exact segmentBetween_other hpath

theorem ownedObject_other {method path : String}
    (hnetworks : ∀ rest, path ≠ "/networks/" ++ rest)
    (hvolumes : ∀ rest, path ≠ "/volumes/" ++ rest) : ownedObject method path = none := by
  rw [ownedObject, segmentAfter_other hnetworks, segmentAfter_other hvolumes]
  split
  · rfl
  · split
    · rfl
    · rw [Option.map_eq_none_iff, List.findSome?_eq_none_iff]
      intro action _
      exact segmentBetween_other hnetworks

/-- The start pattern on an action of a container. -/
theorem startTarget_action (hname : IsSegment name) (hback : back ∈ ownedActions)
    (hstart : back ∈ ["/start", "/restart"] → facts.method = "POST")
    (hpath : routePath facts.path = "/containers/" ++ name ++ back) :
    startTarget facts = if back ∈ ["/start", "/restart"] then some name else none := by
  have htails : ∀ b ∈ ["/start", "/restart"], IsTail b := by
    unfold IsTail
    decide
  rw [startTarget, hpath]
  by_cases hmem : back ∈ ["/start", "/restart"]
  · rw [if_neg (not_not_intro (hstart hmem)), if_pos hmem]
    exact findSome?_segmentBetween htails hname hmem
  · rw [if_neg hmem]
    split
    · rfl
    · exact findSome?_segmentBetween_eq_none htails hname (isTail_of_ownedActions back hback) hmem

/-- The paths of a started or restarted container called `json`. -/
theorem mem_startPaths_iff (hname : IsSegment name) (hback : back ∈ ownedActions) :
    ("/containers/" ++ name ++ back) ∈ ["/containers/json/start", "/containers/json/restart"] ↔
      name = "json" ∧ back ∈ ["/start", "/restart"] := by
  have hjson : IsSegment "json" := by
    unfold IsSegment
    decide
  have htail := isTail_of_ownedActions back hback
  have hstartTail : IsTail "/start" := isTail_of_ownedActions _ (by decide)
  have hrestartTail : IsTail "/restart" := isTail_of_ownedActions _ (by decide)
  constructor
  · intro hmem
    rcases List.mem_cons.mp hmem with hpath | hmem
    · obtain ⟨hsame, hends⟩ := segment_unique
        (hpath.trans (show _ = "/containers/" ++ "json" ++ "/start" by decide)) hname hjson htail
        hstartTail
      exact ⟨hsame, by simp [hends]⟩
    · obtain ⟨hsame, hends⟩ := segment_unique ((List.mem_singleton.mp hmem).trans
        (show _ = "/containers/" ++ "json" ++ "/restart" by decide)) hname hjson htail hrestartTail
      exact ⟨hsame, by simp [hends]⟩
  · rintro ⟨rfl, hmem⟩
    rcases List.mem_cons.mp hmem with rfl | hmem
    · decide
    · rw [List.mem_singleton.mp hmem]
      decide

/-- An action on a container. -/
theorem targeted_action (hname : IsSegment name) (hback : back ∈ ownedActions)
    (hmethod : facts.method ∈ ["POST", "PUT", "GET", "HEAD"])
    (hstart : back ∈ ["/start", "/restart"] → facts.method = "POST")
    (hpath : routePath facts.path = "/containers/" ++ name ++ back) :
    Targeted facts ⟨.container, name⟩ := by
  have htarget := startTarget_action hname hback hstart hpath
  have hdelete : facts.method ≠ "DELETE" := by
    intro hdelete
    rw [hdelete] at hmethod
    exact absurd hmethod (by decide)
  have hleft : leftOut facts.method (routePath facts.path) ⟨.container, name⟩ =
      (name == "json" && !decide (back ∈ ["/start", "/restart"])) := by
    have hpaths := mem_startPaths_iff hname hback
    simp only [leftOut, hpath, List.contains_eq_mem, hpaths, decide_eq_true hdelete,
      Bool.true_and]
    by_cases hjson : name = "json"
    · simp [hjson]
    · simp [hjson]
  by_cases hmem : back ∈ ["/start", "/restart"]
  · left
    rw [htarget, if_pos hmem, hleft]
    simp [hmem]
  · right
    have hobject : ownedObject facts.method (routePath facts.path) = none := by
      rw [hpath, String.append_assoc]
      exact ownedObject_other (fun rest => containers_ne_networks _ rest)
        fun rest => containers_ne_volumes _ rest
    have howned : ownedTarget facts.method (routePath facts.path) =
        if name = "json" then none else some name := by
      have hcheck : (facts.method == "POST" || facts.method == "PUT" || facts.method == "GET" ||
          facts.method == "HEAD") = true := by
        simpa [or_assoc] using hmethod
      have hnamed : ownedTargetName (routePath facts.path) = some name := by
        rw [ownedTargetName, hpath]
        exact findSome?_segmentBetween isTail_of_ownedActions hname hback
      rw [ownedTarget, if_neg (by simpa using hdelete), if_pos hcheck, hnamed, Option.filter_some]
      by_cases hjson : name = "json"
      · simp [hjson]
      · simp [hjson]
    rw [htarget, if_neg hmem, hleft]
    by_cases hjson : name = "json"
    · right
      refine ⟨rfl, ?_, ?_⟩
      · rw [ownedSubject, howned, if_pos hjson, hobject]
      · simp [hjson, hmem]
    · left
      refine ⟨rfl, ?_, ?_⟩
      · rw [ownedSubject, howned, if_neg hjson]
      · simp [hjson]

/-- The removal of a container. -/
theorem targeted_remove (hname : IsSegment name) (hmethod : facts.method = "DELETE")
    (hpath : routePath facts.path = "/containers/" ++ name) :
    Targeted facts ⟨.container, name⟩ := by
  right
  left
  have hstart : startTarget facts = none := by
    rw [startTarget, if_pos (by rw [hmethod]; decide)]
  have howned : ownedTarget facts.method (routePath facts.path) = some name := by
    rw [ownedTarget, hmethod, hpath]
    exact segmentAfter_eq_some_iff.mpr ⟨rfl, hname⟩
  refine ⟨hstart, ?_, ?_⟩
  · rw [ownedSubject, howned]
  · simp [leftOut, hmethod]

/-- A container joining or leaving a network. -/
theorem targeted_attach (hname : IsSegment name) (hback : back ∈ ["/connect", "/disconnect"])
    (hmethod : facts.method = "POST")
    (hpath : routePath facts.path = "/networks/" ++ name ++ back) :
    Targeted facts ⟨.network, name⟩ := by
  right
  left
  have houtside : ∀ rest, routePath facts.path ≠ "/containers/" ++ rest := by
    intro rest
    rw [hpath, String.append_assoc]
    exact (containers_ne_networks rest _).symm
  have htails : ∀ b ∈ ["/connect", "/disconnect"], IsTail b := by
    unfold IsTail
    decide
  have howned : ownedTarget facts.method (routePath facts.path) = none := by
    have hnamed : ownedTargetName (routePath facts.path) = none := by
      rw [ownedTargetName, List.findSome?_eq_none_iff]
      intro action _
      exact segmentBetween_other houtside
    rw [ownedTarget, hmethod, hnamed]
    rfl
  refine ⟨startTarget_other houtside, ?_, ?_⟩
  · rw [ownedSubject, howned, ownedObject, hmethod, hpath]
    have hfound : (["/connect", "/disconnect"].findSome? fun action =>
        segmentBetween "/networks/" action ("/networks/" ++ name ++ back)) = some name :=
      findSome?_segmentBetween htails hname hback
    simp only [show ("POST" == "DELETE") = false by decide, Bool.false_eq_true, if_false, ne_eq,
      not_true_eq_false]
    rw [hfound]
    rfl
  · simp [leftOut, hmethod]

/-- The removal of a network or a volume, from the object its path names. -/
theorem targeted_objectRemove {subject : Subject} (hkind : subject.kind ≠ .container)
    (hmethod : facts.method = "DELETE")
    (houtside : ∀ rest, routePath facts.path ≠ "/containers/" ++ rest)
    (hobject : ownedObject facts.method (routePath facts.path) =
      if notAnObject.contains subject.name then none else some subject) :
    Targeted facts subject := by
  right
  have howned : ownedTarget facts.method (routePath facts.path) = none := by
    rw [ownedTarget, hmethod]
    exact segmentAfter_other houtside
  have hleft : leftOut facts.method (routePath facts.path) subject =
      notAnObject.contains subject.name := by
    rw [leftOut, hmethod]
    cases hfound : subject.kind with
    | container => exact absurd hfound hkind
    | volume => rfl
    | network => rfl
  have hsubject : ownedSubject facts = if notAnObject.contains subject.name then none
      else some subject := by
    rw [ownedSubject, howned, hobject]
  rw [hsubject, hleft]
  cases notAnObject.contains subject.name with
  | true => exact .inr ⟨startTarget_other houtside, rfl, rfl⟩
  | false => exact .inl ⟨startTarget_other houtside, rfl, rfl⟩

theorem targeted_networkRemove (hname : IsSegment name) (hmethod : facts.method = "DELETE")
    (hpath : routePath facts.path = "/networks/" ++ name) :
    Targeted facts ⟨.network, name⟩ := by
  apply targeted_objectRemove (by simp) hmethod
  · intro rest
    rw [hpath]
    exact (containers_ne_networks rest name).symm
  · have hvolumes : segmentAfter "/volumes/" ("/networks/" ++ name) = none :=
      segmentAfter_other fun rest => networks_ne_volumes name rest
    have hnetworks : segmentAfter "/networks/" ("/networks/" ++ name) = some name :=
      segmentAfter_eq_some_iff.mpr ⟨rfl, hname⟩
    rw [ownedObject, hmethod, hpath, hvolumes, hnetworks]
    rfl

theorem targeted_volumeRemove (hname : IsSegment name) (hmethod : facts.method = "DELETE")
    (hpath : routePath facts.path = "/volumes/" ++ name) :
    Targeted facts ⟨.volume, name⟩ := by
  apply targeted_objectRemove (by simp) hmethod
  · intro rest
    rw [hpath]
    exact (containers_ne_volumes rest name).symm
  · have hvolumes : segmentAfter "/volumes/" ("/volumes/" ++ name) = some name :=
      segmentAfter_eq_some_iff.mpr ⟨rfl, hname⟩
    rw [ownedObject, hmethod, hpath, hvolumes]
    rfl

end Targets

/-- The routes whose object must be owned are routes of the table, and not creates. -/
theorem NamesObject.in_table {route : Route} {path : String} {subject : Subject}
    (hnames : NamesObject route path subject) :
    route ≠ .read ∧ route ≠ .restrictedGroup ∧ route ≠ .unclassified ∧
      route ≠ .containersCreate := by
  cases hnames <;> simp

theorem targeted_of_namesObject {facts : RequestFacts} {subject : Subject}
    (hname : IsSegment subject.name)
    (hnames : NamesObject (classifyRoute facts.method facts.path).route (routePath facts.path)
      subject) : Targeted facts subject := by
  obtain ⟨hread, hgroup, hunknown, -⟩ := hnames.in_table
  have hmethod := mem_routeMethods rfl hread hgroup hunknown
  generalize hroute : (classifyRoute facts.method facts.path).route = route at hnames hmethod
  generalize hpath : routePath facts.path = path at hnames
  cases hnames with
  | action haction =>
      have hpost : facts.method = "POST" := by
        simpa [routeMethods, routes] using hmethod
      exact targeted_action hname (containerActions_subset haction) (by simp [hpost])
        (fun _ => hpost) hpath
  | exec =>
      have hpost : facts.method = "POST" := by
        simpa [routeMethods, routes] using hmethod
      exact targeted_action hname (by decide) (by simp [hpost]) (fun _ => hpost) hpath
  | attach =>
      have hpost : facts.method = "POST" := by
        simpa [routeMethods, routes] using hmethod
      exact targeted_action hname (by decide) (by simp [hpost]) (fun _ => hpost) hpath
  | archiveGet =>
      have hread : facts.method = "GET" ∨ facts.method = "HEAD" := by
        simpa [routeMethods, routes] using hmethod
      exact targeted_action hname (by decide) (by simp [hread]) (fun h => absurd h (by decide)) hpath
  | archivePut =>
      have hput : facts.method = "PUT" := by
        simpa [routeMethods, routes] using hmethod
      exact targeted_action hname (by decide) (by simp [hput]) (fun h => absurd h (by decide)) hpath
  | remove =>
      have hdelete : facts.method = "DELETE" := by
        simpa [routeMethods, routes] using hmethod
      exact targeted_remove hname hdelete hpath
  | networkAttach haction =>
      have hpost : facts.method = "POST" := by
        simpa [routeMethods, routes] using hmethod
      exact targeted_attach hname haction hpost hpath
  | networkRemove =>
      have hdelete : facts.method = "DELETE" := by
        simpa [routeMethods, routes] using hmethod
      exact targeted_networkRemove hname hdelete hpath
  | volumeRemove =>
      have hdelete : facts.method = "DELETE" := by
        simpa [routeMethods, routes] using hmethod
      exact targeted_volumeRemove hname hdelete hpath

/-- For every request that names an object which must be owned, the object is looked up
and its ownership checked exactly when its name is not one the patterns leave out. -/
theorem ownershipChecked_iff (facts : RequestFacts) (deps : ReviewDeps Key)
    (extra : List Violation) (subject : Subject) (hname : IsSegment subject.name)
    (hnames : NamesObject (classifyRoute facts.method facts.path).route (routePath facts.path)
      subject) :
    OwnershipChecked facts deps extra subject ↔
      leftOut facts.method (routePath facts.path) subject = false := by
  have hroute := hnames.in_table.2.2.2
  rcases targeted_of_namesObject hname hnames with
    ⟨hstart, hkind, hkept⟩ | ⟨hstart, hsubject, hkept⟩ | ⟨hstart, hsubject, hleft⟩
  · have hsame : (⟨.container, subject.name⟩ : Subject) = subject := by
      rw [← hkind]
    have hchecked : OwnershipChecked facts deps extra ⟨.container, subject.name⟩ :=
      checked_of_start hroute hstart
    rw [hsame] at hchecked
    exact iff_of_true hchecked hkept
  · exact iff_of_true (checked_of_subject hroute hstart hsubject) hkept
  · apply iff_of_false (not_checked_of_none hroute hstart hsubject)
    rw [hleft]
    exact Bool.true_eq_false.mp

/-! ## A container called `json` -/

example : leftOut "POST" "/containers/json/kill" ⟨.container, "json"⟩ = true := by decide

/-- An engine whose every object has the given labels. -/
def labeledEngine (labels : List (String × Json)) (subject : Subject) : Option Json :=
  match subject.kind with
  | .container => some (.object [("Config", .object [("Labels", .object labels)])])
  | _ => some (.object [("Labels", .object labels)])

/-- The kill of a container. -/
def killOf (name : String) : RequestFacts where
  method := "POST"
  path := "/v1.47/containers/" ++ name ++ "/kill"
  query := []

/-- A container called `json` that nobody stamped is killed without a lookup or a
finding. -/
theorem not_ownershipChecked_json : pathIsCanonical (killOf "json").path = true ∧
    NamesObject (classifyRoute (killOf "json").method (killOf "json").path).route
      (routePath (killOf "json").path) ⟨.container, "json"⟩ ∧
    ¬ OwnershipChecked (killOf "json") (keylessDeps (labeledEngine [])) []
      ⟨.container, "json"⟩ ∧
    (review (killOf "json") .containersAction (keylessDeps (labeledEngine [])) []
      ⟨⟨[], false⟩, .absent, []⟩).1 = [] := by
  have hroute : (classifyRoute (killOf "json").method (killOf "json").path).route =
      .containersAction := by
    decide
  have hpath : routePath (killOf "json").path = "/containers/" ++ "json" ++ "/kill" := by
    decide
  refine ⟨by decide, ?_, ?_, ?_⟩
  · rw [hroute, hpath]
    exact .action (by decide)
  · exact not_checked_of_none (by rw [hroute]; decide) (by decide) (by decide)
  · rw [review_apply_of_ne_create (by decide),
      unownedFinding_of_none (by decide) (by decide)]
    decide

theorem ownershipChecked_web : leftOut "POST" "/containers/web/kill" ⟨.container, "web"⟩ = false ∧
    OwnershipChecked (killOf "web") (keylessDeps (labeledEngine [])) [] ⟨.container, "web"⟩ := by
  have hroute : (classifyRoute (killOf "web").method (killOf "web").path).route =
      .containersAction := by
    decide
  have hpath : routePath (killOf "web").path = "/containers/" ++ "web" ++ "/kill" := by
    decide
  have hname : IsSegment "web" := by
    unfold IsSegment
    decide
  refine ⟨by decide, ?_⟩
  apply (ownershipChecked_iff (killOf "web") (keylessDeps (labeledEngine [])) []
    ⟨.container, "web"⟩ hname ?_).mpr
  · decide
  · rw [hroute, hpath]
    exact .action (by decide)

end Turbopaneld.DockerGate
