import BigfleetDashboard.NeedsDelivery
import BigfleetDashboard.SignificantBits
import BigfleetDashboard.WalkOrder

/-!
# The order of arrival on the page

The shard keeps the arrival of a need as a 64-bit integer; the page reads it as a
double. Of two needs of equal priority the page never puts the later first, but it
puts the earlier first only if their arrivals are still two numbers.
-/
namespace BigfleetDashboard.Pages
open Script Handlers SignificantBits

/-- The need of a shard as the page has it. -/
def onPage (n : ShardClient.NeedView) : NeedView := receivedNeed (toAPINeedView n)

theorem needs_receivedNeeds (shardId : String) (snap : ShardClient.NeedsSnapshot) (now : Int) :
    (receivedNeeds (needsResponse shardId snap now)).needs = snap.needs.map onPage := by
  simp only [receivedNeeds, needsResponse, List.map_map]
  rfl

theorem toDouble_natCast (m : ℕ) : toDouble m = roundBits 53 m := by
  cases m with
  | zero => rfl
  | succ m =>
    have hsign : ((m + 1 : ℕ) : Int).sign = 1 := Int.sign_eq_one_of_pos (by omega)
    change ((m + 1 : ℕ) : Int).sign * (roundBits 53 (m + 1) : Int) = roundBits 53 (m + 1)
    rw [hsign, one_mul]

/-- The engine keeps the arrivals of two needs as two numbers for the page. -/
theorem toDouble_lt_iff {a b : Int} (ha : 0 ≤ a) (hb : 0 ≤ b) :
    toDouble a < toDouble b ↔ Separated 53 a.toNat b.toNat := by
  rw [← roundBits_lt_iff (by decide), ← Int.toNat_of_nonneg ha, ← Int.toNat_of_nonneg hb,
    toDouble_natCast, toDouble_natCast, Int.toNat_natCast, Int.toNat_natCast, Nat.cast_lt]

theorem toDouble_le {a b : Int} (ha : 0 ≤ a) (hab : a ≤ b) : toDouble a ≤ toDouble b := by
  rw [← Int.toNat_of_nonneg ha, ← Int.toNat_of_nonneg (ha.trans hab), toDouble_natCast,
    toDouble_natCast, Nat.cast_le]
  exact roundBits_mono (by decide) (Int.toNat_le_toNat hab)

/-- A missing arrival is read as the 0 it was. -/
theorem arrival_onPage (n : ShardClient.NeedView) :
    arrival (onPage n) = toDouble n.arrivalUnixNanos := by
  change (optionalInt n.arrivalUnixNanos).getD 0 = toDouble n.arrivalUnixNanos
  unfold optionalInt
  split_ifs with h
  · rw [h]
    rfl
  · rfl

section Arrivals
variable {first second : ShardClient.NeedView}

theorem precedes_onPage_iff (hpriority : first.priority = second.priority) :
    precedes (onPage first) (onPage second) = true ↔
      toDouble first.arrivalUnixNanos < toDouble second.arrivalUnixNanos := by
  have hequal : (onPage first).priority = (onPage second).priority := congrArg toDouble hpriority
  rw [precedes_iff, arrival_onPage, arrival_onPage]
  omega

/-- The later of two needs never goes first. -/
theorem not_precedes_onPage (hpriority : first.priority = second.priority)
    (hfirst : 0 ≤ first.arrivalUnixNanos)
    (hlater : first.arrivalUnixNanos ≤ second.arrivalUnixNanos) :
    precedes (onPage second) (onPage first) = false := by
  have hle := toDouble_le hfirst hlater
  rw [← Bool.not_eq_true, precedes_onPage_iff hpriority.symm]
  omega

theorem precedes_onPage_iff_separated (hpriority : first.priority = second.priority)
    (hfirst : 0 ≤ first.arrivalUnixNanos) (hsecond : 0 ≤ second.arrivalUnixNanos) :
    precedes (onPage first) (onPage second) = true ↔
      Separated 53 first.arrivalUnixNanos.toNat second.arrivalUnixNanos.toNat := by
  rw [precedes_onPage_iff hpriority, toDouble_lt_iff hfirst hsecond]

/-- The page shows two needs in the order of the engine if a midpoint between two
neighbouring doubles lies between their arrivals. -/
theorem precedes_arrival_iff (hpriority : first.priority = second.priority)
    (hfirst : 0 < first.arrivalUnixNanos)
    (hlater : first.arrivalUnixNanos < second.arrivalUnixNanos) :
    (precedes (onPage first) (onPage second) = true ∧
        precedes (onPage second) (onPage first) = false) ↔
      Separated 53 first.arrivalUnixNanos.toNat second.arrivalUnixNanos.toNat := by
  have hsecond := hfirst.trans hlater
  rw [precedes_onPage_iff_separated hpriority hfirst.le hsecond.le,
    and_iff_left (not_precedes_onPage hpriority hfirst.le hlater.le)]

/-- Arrivals up to `2 ^ 53` keep their order, and so do those that are more than the
spacing of the doubles apart. -/
theorem precedes_of_apart (hpriority : first.priority = second.priority)
    (hfirst : 0 ≤ first.arrivalUnixNanos)
    (hlater : first.arrivalUnixNanos < second.arrivalUnixNanos)
    (hapart : second.arrivalUnixNanos ≤ 2 ^ 53 ∨
      first.arrivalUnixNanos + 2 ^ exponent 53 second.arrivalUnixNanos.toNat <
        second.arrivalUnixNanos) :
    precedes (onPage first) (onPage second) = true := by
  have hsecond := hfirst.trans hlater.le
  rw [precedes_onPage_iff_separated hpriority hfirst hsecond]
  lift first.arrivalUnixNanos to ℕ using hfirst with a
  lift second.arrivalUnixNanos to ℕ using hsecond with b
  simp only [Int.toNat_natCast] at *
  rcases hapart with h | h
  · exact separated_of_lt (by exact_mod_cast hlater) (by exact_mod_cast h)
  · exact separated_of_spacing (by decide) (by exact_mod_cast h)

end Arrivals

/-- A need with only an arrival. -/
def arriving (nanos : Int) : ShardClient.NeedView :=
  { clusterId := "payments"
    priority := 1000
    aggregateResources := none
    minUnit := none
    group := ""
    requirements := []
    spread := []
    interruptionPenaltyBucket := ""
    reclamationPenaltyBucket := ""
    satisfied := false
    residualDeficit := none
    claimedMachineCount := 0
    bootstrapCount := 0
    provisionCount := 0
    sameDomain := ""
    sameSatisfiable := false
    acquisitionParked := false
    parkedAgeCycles := 0
    ageCyclesUnmet := 0
    unmetReason := ""
    arrivalUnixNanos := nanos
    profileFingerprint := ""
    matchingSupply := none
    preemption := none
    sameCandidates := [] }

theorem precedes_arrival_small :
    (precedes (onPage (arriving 1)) (onPage (arriving 2)) = true ∧
        precedes (onPage (arriving 2)) (onPage (arriving 1)) = false) ↔
      Separated 53 1 2 :=
  precedes_arrival_iff rfl (by decide) (by decide)

/-- Two needs of July 2025 that arrived a nanosecond apart. -/
theorem not_precedes_arrival :
    ¬ ∀ first second : ShardClient.NeedView, first.priority = second.priority →
      0 < first.arrivalUnixNanos → first.arrivalUnixNanos < second.arrivalUnixNanos →
      second.arrivalUnixNanos < 2 ^ 63 →
      precedes (onPage first) (onPage second) = true ∧
        precedes (onPage second) (onPage first) = false := by
  intro h
  have hkept := (h (arriving 1753000000000000000) (arriving 1753000000000000001) rfl (by decide)
    (by decide) (by decide)).1
  have hmerged : precedes (onPage (arriving 1753000000000000000))
      (onPage (arriving 1753000000000000001)) = false := by decide
  rw [hmerged] at hkept
  cases hkept

end BigfleetDashboard.Pages
