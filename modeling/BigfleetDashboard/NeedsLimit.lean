import BigfleetDashboard.NeedsDelivery

/-!
# The limit on its way to the shard

The limit of a request is read as a 64-bit number and sent as a 32-bit one. A limit
that does not fit keeps its low bits only, so it arrives as another limit, as a
negative number, or as zero, which asks for everything.
-/
namespace BigfleetDashboard.Handlers
open Go CoordClient ShardClient

def maxInt32 : Int := 2147483647

/-- The limit sent for a positive limit `n` is positive and at most `n`, and it is `n`
if that fits. -/
structure Survives (n sent : Int) : Prop where
  positive : 0 < sent
  capped : sent ≤ n
  kept : n ≤ maxInt32 → sent = n

/-- A smaller limit than the requested one is the largest there is. -/
def RelatedCap (n sent : Int) : Prop := sent < n → sent = maxInt32

theorem needsLimit_of_atoi {v : String} {n : Int} (hv : atoi v = some n) (hn : 0 < n) :
    needsLimit v = n := by
  simp [needsLimit, hv, hn]

/-- A positive number survives the conversion when its low bits are a positive number. -/
theorem survives_wrapInt32_iff {n : Int} (hn : 0 < n) :
    Survives n (wrapInt32 n) ↔ 0 < n % 4294967296 ∧ n % 4294967296 ≤ maxInt32 := by
  simp only [maxInt32]
  constructor
  · intro h
    have hpos := h.positive
    simp only [wrapInt32] at hpos
    omega
  · intro h
    constructor
    case positive =>
      simp only [wrapInt32]
      omega
    case capped =>
      simp only [wrapInt32]
      omega
    case kept =>
      intro hfits
      exact wrapInt32_of_mem (by omega) hfits

theorem survives_related_wrapInt32_iff {n : Int} (hn : 0 < n) :
    (Survives n (wrapInt32 n) ∧ RelatedCap n (wrapInt32 n)) ↔
      n ≤ maxInt32 ∨ n % 4294967296 = maxInt32 := by
  rw [survives_wrapInt32_iff hn]
  simp only [RelatedCap, maxInt32, wrapInt32]
  constructor
  · intro h
    obtain ⟨hlow, hrelated⟩ := h
    by_cases hfits : n ≤ 2147483647
    · exact Or.inl hfits
    · right
      have hsent := hrelated (by omega)
      omega
  · intro h
    rcases h with hfits | hlow
    · refine ⟨by omega, fun hlt => ?_⟩
      omega
    · refine ⟨by omega, fun _ => ?_⟩
      omega

/-- The handler asks the shard for the low 32 bits of the limit. They are a positive
limit up to the requested one exactly when they are positive, and no unrelated one
exactly when the requested limit fits or its low bits are the largest limit. -/
theorem sentLimit_iff {r : Request} {n : Int} (hv : atoi (r.query "limit") = some n) (hn : 0 < n) :
    (∀ (s : Server) (conn : Conn) (now : Int), Dials s r conn →
      needsHandler s r now = answerTo r now (conn (sentRequest r))) ∧
    (Survives n (sentRequest r).limit ↔ 0 < n % 4294967296 ∧ n % 4294967296 ≤ maxInt32) ∧
    ((Survives n (sentRequest r).limit ∧ RelatedCap n (sentRequest r).limit) ↔
      n ≤ maxInt32 ∨ n % 4294967296 = maxInt32) := by
  have hlimit : (sentRequest r).limit = wrapInt32 n := by
    rw [sentRequest, needsLimit_of_atoi hv hn]
  rw [hlimit]
  exact ⟨fun s conn now h => needsHandler_of_dials h now, survives_wrapInt32_iff hn,
    survives_related_wrapInt32_iff hn⟩

/-- A request for a shard with a limit. -/
def limitRequest (limit : String) : Request :=
  Pages.requestOf [("shard", "shard-a"), ("limit", limit)]

theorem sentLimit_small :
    Survives 25 (sentRequest (limitRequest "25")).limit ∧
      RelatedCap 25 (sentRequest (limitRequest "25")).limit :=
  ((sentLimit_iff (r := limitRequest "25") (by decide) (by decide)).2.2).mpr (by decide)

/-- The limit 2^32 arrives as no limit. -/
theorem sentLimit_zero :
    (sentRequest (limitRequest "4294967296")).limit = 0 ∧
    ¬ ∀ (r : Request) (n : Int), atoi (r.query "limit") = some n → 0 < n →
      Survives n (sentRequest r).limit := by
  have hzero : (sentRequest (limitRequest "4294967296")).limit = 0 := by decide
  refine ⟨hzero, fun h => ?_⟩
  have hpos := (h (limitRequest "4294967296") 4294967296 (by decide) (by decide)).positive
  rw [hzero] at hpos
  exact absurd hpos (by decide)

end BigfleetDashboard.Handlers
