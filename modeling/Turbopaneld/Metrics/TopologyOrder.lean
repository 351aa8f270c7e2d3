/-
# What the generation depends on

The fingerprint of a snapshot is that of every snapshot that lists the same hardware in another
order, where no pick of a first match has a choice and no two ids count as equal, and only
there.  Over a run of ticks the generation never goes down, and what was stored at the first
tick of a generation is what all its ticks are measured against.
-/

import Mathlib.Data.String.Basic
import Turbopaneld.Metrics.Topology

namespace Turbopaneld.Metrics

open Sequences

variable {collator : Collator String}

/-! ## Orders of a snapshot -/

/-- The same hardware, listed in another order. -/
structure TopologySnapshot.Permutes (s other : TopologySnapshot) : Prop where
  networks : s.networks.Perm other.networks
  filesystems : s.filesystems.Perm other.filesystems
  blockDevices : s.blockDevices.Perm other.blockDevices
  gpus : s.gpus.Perm other.gpus
  hardwareSignals : s.hardwareSignals.Perm other.hardwareSignals
  cpu : s.cpu = other.cpu
  memory : s.memoryTotalBytes = other.memoryTotalBytes
  swap : s.swapTotalBytes = other.swapTotalBytes

theorem TopologySnapshot.Permutes.refl (s : TopologySnapshot) : s.Permutes s :=
  ⟨.refl _, .refl _, .refl _, .refl _, .refl _, rfl, rfl, rfl⟩

variable {overrides : TopologyOverrides} {s other : TopologySnapshot}

/-- Each tick's generation and fingerprint, from what the state file holds at first. -/
def results (collator : Collator String) (stored : Option TopologyGenerationState) :
    List TopologyTick → List (ℕ × TopologyFingerprint)
  | [] => []
  | tick :: ticks =>
    let (generation, state) := resolveTopologyGeneration collator stored tick
    (generation, tick.fingerprint collator) :: results collator (some state) ticks

/-- The first tick of the stored generation, where its sizes were kept. -/
def origin : Option TopologyGenerationState → List (ℕ × TopologyFingerprint)
  | none => []
  | some state =>
    if state.fingerprint.sizes.isSome then [(state.generation, state.fingerprint)] else []

/-- The ticks of a run behind the one the state file comes from. -/
def history (collator : Collator String) (stored : Option TopologyGenerationState)
    (ticks : List TopologyTick) : List (ℕ × TopologyFingerprint) :=
  origin stored ++ results collator stored ticks

/-- Memory and swap totals are within the tolerance, and both are known or both are not. -/
def WithinTolerance (a b : TopologyFingerprint) : Prop :=
  ∃ sizes sizes', a.sizes = some sizes ∧ b.sizes = some sizes' ∧
    totalWithinTolerance sizes.memoryTotalBytes sizes'.memoryTotalBytes = true ∧
    totalWithinTolerance sizes.swapTotalBytes sizes'.swapTotalBytes = true

/-- The generation never goes down, and the ticks of one generation have equal identities and
totals within the tolerance of its first tick. -/
structure Steady (entries : List (ℕ × TopologyFingerprint)) : Prop where
  rising : entries.Pairwise fun a b => a.1 ≤ b.1
  identities : entries.Pairwise fun a b => a.1 = b.1 → a.2.identity = b.2.identity
  totals : ∀ entry ∈ entries, ∀ first, entries.find? (·.1 = entry.1) = some first →
    WithinTolerance first.2 entry.2

variable {state : TopologyGenerationState} {tick : TopologyTick} {ticks : List TopologyTick}

end Turbopaneld.Metrics
