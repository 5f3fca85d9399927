import BigfleetDashboard.NumeralKeys
import BigfleetDashboard.ShardReports

/-!
# The keys of the shortfall rows

The topology page gives a shortfall a key made of its priority, its bucket and the text of
its deficit. The age of a shortfall and its place in the report are no part of the key.
-/
namespace BigfleetDashboard.Pages
open Handlers Script StableSort NumeralKeys

/-! ## The key -/

/-- `formatDeficit` of a map that is there. -/
def deficitText (eng : Engine) (fields : List (String × String)) : String :=
  if (propertyOrder fields).isEmpty then "—" else entriesText (byName eng (propertyOrder fields))

/-- What follows the priority in the key. -/
def keyTail (eng : Engine) (s : ShardReportShortfall) : String :=
  s.penaltyBucket ++ "-" ++ deficitText eng (s.deficit.getD [])

/-- Two shortfalls with one priority that have the same text after it. -/
def SameText (eng : Engine) (s s' : ShardReportShortfall) : Prop :=
  s.priority = s'.priority ∧ keyTail eng s = keyTail eng s'

/-- Two shortfalls that may still differ in age. -/
def SameTriple (s s' : ShardReportShortfall) : Prop :=
  s.priority = s'.priority ∧ s.penaltyBucket = s'.penaltyBucket ∧ s.deficit = s'.deficit

section Rows
variable {eng : Engine} {formatInt : Int → String}

theorem topologyRow_key {s : ShardReportShortfall} {row : TopologyRow}
    (h : topologyRow eng formatInt s = .ok row) :
    s.deficit.isSome ∧ row.key = toString s.priority ++ "-" ++ keyTail eng s := by
  cases hdeficit : s.deficit with
  | none =>
    rw [topologyRow, hdeficit] at h
    cases h
  | some fields =>
    rw [topologyRow, hdeficit] at h
    refine ⟨rfl, ?_⟩
    rw [← Except.ok.inj h]
    simp only [keyTail, hdeficit, Option.getD_some, ← String.append_assoc]
    rfl

theorem mapE_topologyRow {xs : List ShardReportShortfall} {rows : List TopologyRow}
    (h : mapE (topologyRow eng formatInt) xs = .ok rows) :
    (∀ s ∈ xs, s.deficit.isSome) ∧
      rows.map TopologyRow.key = xs.map (fun s => toString s.priority ++ "-" ++ keyTail eng s) := by
  induction xs generalizing rows with
  | nil =>
    obtain rfl := Except.ok.inj h
    simp
  | cons s xs ih =>
    obtain ⟨row, hrow, hmore⟩ := bind_eq_ok_iff.mp h
    obtain ⟨rest, hrest, hcons⟩ := bind_eq_ok_iff.mp hmore
    obtain rfl := Except.ok.inj hcons
    obtain ⟨hsome, hkey⟩ := topologyRow_key hrow
    obtain ⟨hsomes, hkeys⟩ := ih hrest
    rw [List.map_cons, List.map_cons, hkey, hkeys]
    exact ⟨List.forall_mem_cons.mpr ⟨hsome, hsomes⟩, rfl⟩

theorem nodup_keys_iff {xs : List ShardReportShortfall} {rows : List TopologyRow}
    (h : mapE (topologyRow eng formatInt) xs = .ok rows) :
    (rows.map TopologyRow.key).Nodup ↔ xs.Pairwise (fun s s' => ¬ SameText eng s s') := by
  rw [(mapE_topologyRow h).2, List.Nodup, List.pairwise_map]
  refine List.Pairwise.iff ?_
  intro s s'
  refine not_congr ⟨fun heq => integer_text_inj heq, ?_⟩
  intro hsame
  rw [hsame.1, hsame.2]

end Rows

/-! ## Deficits and their texts -/

/-- The characters that join a key are not in the texts it is made of. -/
structure Plain (sf : ApiReportShortfall) : Prop where
  bucket : '-' ∉ sf.penaltyBucket.toList
  names : ∀ m, sf.deficit = some m → ∀ e ∈ m.entries, '=' ∉ e.1.toList ∧ ' ' ∉ e.1.toList
  values : ∀ m, sf.deficit = some m → ∀ e ∈ m.entries, ' ' ∉ e.2.toList

theorem eq_nil_iff_of_perm {α : Type} {xs ys : List α} (h : xs.Perm ys) : xs = [] ↔ ys = [] := by
  rw [← List.length_eq_zero_iff, h.length_eq, List.length_eq_zero_iff]

theorem sortedEntries_perm {α : Type} (m : OrderedMap String α) :
    (sortedEntries m).Perm m.entries := List.perm_insertionSort _ _

/-- The document of a map is determined by its entries. -/
theorem sortedEntries_eq_of_perm {m m' : OrderedMap String String}
    (h : (sortedEntries m).Perm (sortedEntries m')) : sortedEntries m = sortedEntries m' := by
  have htotal : Std.Total (fun a b : String × String => a.1 ≤ b.1) :=
    ⟨fun a b => le_total a.1 b.1⟩
  have htrans : IsTrans (String × String) (fun a b => a.1 ≤ b.1) :=
    ⟨fun _ _ _ hab hbc => le_trans hab hbc⟩
  have hsorted : ∀ m : OrderedMap String String,
      (sortedEntries m).Pairwise (fun a b => a.1 ≤ b.1) :=
    fun m => List.pairwise_insertionSort (fun a b : String × String => a.1 ≤ b.1) m.entries
  refine List.Perm.eq_of_pairwise ?_ (hsorted m) (hsorted m') h
  intro a b ha hb hab hba
  have hkey : a.1 = b.1 := le_antisymm hab hba
  have ha' := (sortedEntries_perm m').mem_iff.mp (h.mem_iff.mp ha)
  have hb' := (sortedEntries_perm m').mem_iff.mp hb
  exact List.inj_on_of_nodup_map m'.nodup ha' hb' hkey

section Texts
variable (eng : Engine)

theorem byName_perm (m : OrderedMap String String) :
    (byName eng (propertyOrder (sortedEntries m))).Perm (sortedEntries m) :=
  (eng.sorting.perm _ _).trans (propertyOrder_perm _)

/-- Entries are read off their text. -/
theorem entriesText_inj {xs ys : List (String × String)}
    (hxs : ∀ e ∈ xs, ('=' ∉ e.1.toList ∧ ' ' ∉ e.1.toList) ∧ ' ' ∉ e.2.toList)
    (hys : ∀ e ∈ ys, ('=' ∉ e.1.toList ∧ ' ' ∉ e.1.toList) ∧ ' ' ∉ e.2.toList)
    (hx : xs ≠ []) (hy : ys ≠ []) (h : entriesText xs = entriesText ys) : xs = ys := by
  have hspace : ∀ zs : List (String × String),
      (∀ e ∈ zs, ('=' ∉ e.1.toList ∧ ' ' ∉ e.1.toList) ∧ ' ' ∉ e.2.toList) →
      ∀ t ∈ zs.map (fun e => e.1 ++ "=" ++ e.2), ' ' ∉ t.toList := by
    intro zs hzs t ht
    obtain ⟨e, he, rfl⟩ := List.mem_map.mp ht
    obtain ⟨⟨-, hname⟩, hvalue⟩ := hzs e he
    rw [String.toList_append, String.toList_append]
    simp [hname, hvalue]
  have hparts := join_inj (show " ".toList = [' '] from rfl) (hspace xs hxs) (hspace ys hys)
    (by simpa using hx) (by simpa using hy) h
  clear h hx hy hspace
  induction xs generalizing ys with
  | nil => exact (List.map_eq_nil_iff.mp hparts.symm).symm
  | cons e xs ih =>
    cases ys with
    | nil => cases hparts
    | cons e' ys =>
      obtain ⟨hhead, htail⟩ := List.cons.inj hparts
      obtain ⟨he, hxs⟩ := List.forall_mem_cons.mp hxs
      obtain ⟨he', hys⟩ := List.forall_mem_cons.mp hys
      obtain ⟨hname, hvalue⟩ := pair_inj (show "=".toList = ['='] from rfl) he.1.1 he'.1.1 hhead
      rw [Prod.ext hname hvalue, ih hxs hys htail]

/-- The dash is not the text of any entries. -/
theorem entriesText_ne_dash {xs : List (String × String)} (hx : xs ≠ []) :
    entriesText xs ≠ "—" := by
  obtain ⟨e, xs, rfl⟩ := List.exists_cons_of_ne_nil hx
  intro h
  have hmem : '=' ∈ (entriesText (e :: xs)).toList := by
    rw [entriesText, String.toList_intercalate]
    cases xs with
    | nil => simp
    | cons e' xs => simp
  rw [h] at hmem
  revert hmem
  decide

theorem deficitText_inj {m m' : OrderedMap String String}
    (hm : ∀ e ∈ m.entries, ('=' ∉ e.1.toList ∧ ' ' ∉ e.1.toList) ∧ ' ' ∉ e.2.toList)
    (hm' : ∀ e ∈ m'.entries, ('=' ∉ e.1.toList ∧ ' ' ∉ e.1.toList) ∧ ' ' ∉ e.2.toList)
    (h : deficitText eng (sortedEntries m) = deficitText eng (sortedEntries m')) :
    sortedEntries m = sortedEntries m' := by
  have hperm := byName_perm eng m
  have hperm' := byName_perm eng m'
  have hempty : ∀ m : OrderedMap String String,
      (propertyOrder (sortedEntries m)).isEmpty = true ↔ sortedEntries m = [] := by
    intro m
    rw [List.isEmpty_iff]
    exact eq_nil_iff_of_perm (propertyOrder_perm (sortedEntries m))
  have hnonempty : ∀ m : OrderedMap String String, sortedEntries m ≠ [] →
      byName eng (propertyOrder (sortedEntries m)) ≠ [] := by
    intro m hne heq
    exact hne ((eq_nil_iff_of_perm (byName_perm eng m)).mp heq)
  unfold deficitText at h
  by_cases hnil : sortedEntries m = []
  · by_cases hnil' : sortedEntries m' = []
    · rw [hnil, hnil']
    · rw [if_pos ((hempty m).mpr hnil), if_neg (fun h => hnil' ((hempty m').mp h))] at h
      exact absurd h.symm (entriesText_ne_dash (hnonempty m' hnil'))
  · by_cases hnil' : sortedEntries m' = []
    · rw [if_neg (fun h => hnil ((hempty m).mp h)), if_pos ((hempty m').mpr hnil')] at h
      exact absurd h (entriesText_ne_dash (hnonempty m hnil))
    · rw [if_neg (fun h => hnil ((hempty m).mp h)),
        if_neg (fun h => hnil' ((hempty m').mp h))] at h
      have hentries := entriesText_inj
        (fun e he => hm e ((sortedEntries_perm m).mem_iff.mp (hperm.mem_iff.mp he)))
        (fun e he => hm' e ((sortedEntries_perm m').mem_iff.mp (hperm'.mem_iff.mp he)))
        (hnonempty m hnil) (hnonempty m' hnil') h
      refine sortedEntries_eq_of_perm (hperm.symm.trans ?_)
      rw [hentries]
      exact hperm'

end Texts

/-! ## Distinct keys -/

/-- The shortfalls of a report as the page receives them. -/
def shortfallsOf (rep : ApiShardReport) : List ShardReportShortfall :=
  (receivedReport rep).shortfalls.getD []

theorem mem_shortfallsOf {rep : ApiShardReport} {s : ShardReportShortfall}
    (h : s ∈ shortfallsOf rep) : ∃ sf ∈ rep.shortfalls, receivedShortfall sf = s := by
  unfold shortfallsOf receivedReport at h
  dsimp only at h
  split_ifs at h with hempty
  · cases h
  · exact List.mem_map.mp h

/-- Plain texts make the key tell priority, bucket and deficit apart. -/
theorem sameText_iff (eng : Engine) {sf sf' : ApiReportShortfall} (h : Plain sf) (h' : Plain sf')
    (hsome : sf.deficit.isSome) (hsome' : sf'.deficit.isSome) :
    SameText eng (receivedShortfall sf) (receivedShortfall sf') ↔
      SameTriple (receivedShortfall sf) (receivedShortfall sf') := by
  obtain ⟨m, hm⟩ := Option.isSome_iff_exists.mp hsome
  obtain ⟨m', hm'⟩ := Option.isSome_iff_exists.mp hsome'
  have hdeficit : (receivedShortfall sf).deficit = some (sortedEntries m) := by
    simp only [receivedShortfall, parsedMap, hm, Option.map_some]
  have hdeficit' : (receivedShortfall sf').deficit = some (sortedEntries m') := by
    simp only [receivedShortfall, parsedMap, hm', Option.map_some]
  refine and_congr_right fun _ => ?_
  unfold keyTail
  rw [hdeficit, hdeficit', Option.getD_some, Option.getD_some]
  constructor
  · intro htext
    obtain ⟨hbucket, hdeficits⟩ := pair_inj (show "-".toList = ['-'] from rfl) h.bucket h'.bucket htext
    rw [deficitText_inj eng (fun e he => ⟨h.names m hm e he, h.values m hm e he⟩)
      (fun e he => ⟨h'.names m' hm' e he, h'.values m' hm' e he⟩) hdeficits]
    exact ⟨hbucket, rfl⟩
  · intro htriple
    rw [htriple.1, Option.some.inj htriple.2]

/-- The keys of a report are distinct when no two of its shortfalls have the same texts; if
the texts are plain, when no two agree in priority, bucket and deficit. -/
theorem shortfallKeys_distinct_iff {eng : Engine} {formatInt : Int → String}
    {rep : ApiShardReport} {card : TopologyReport}
    (h : topologyReport eng formatInt (receivedReport rep) = .ok card) :
    ((card.shortfalls.map TopologyRow.key).Nodup ↔
      (shortfallsOf rep).Pairwise (fun s s' => ¬ SameText eng s s')) ∧
    ((∀ sf ∈ rep.shortfalls, Plain sf) →
      ((card.shortfalls.map TopologyRow.key).Nodup ↔
        (shortfallsOf rep).Pairwise (fun s s' => ¬ SameTriple s s'))) := by
  obtain ⟨types, -, hrest⟩ := bind_eq_ok_iff.mp h
  obtain ⟨rows, hrows, hcard⟩ := bind_eq_ok_iff.mp hrest
  have hshortfalls : card.shortfalls = rows := by rw [← Except.ok.inj hcard]
  have hsome := (mapE_topologyRow hrows).1
  have hkeys := nodup_keys_iff hrows
  rw [hshortfalls]
  refine ⟨hkeys, fun hplain => hkeys.trans ?_⟩
  refine List.Pairwise.iff_of_mem ?_
  intro s s' hs hs'
  obtain ⟨sf, hsf, rfl⟩ := mem_shortfallsOf hs
  obtain ⟨sf', hsf', rfl⟩ := mem_shortfallsOf hs'
  have hdeficit := hsome _ hs
  have hdeficit' := hsome _ hs'
  refine not_congr (sameText_iff eng (hplain sf hsf) (hplain sf' hsf') ?_ ?_)
  · simpa [receivedShortfall, parsedMap] using hdeficit
  · simpa [receivedShortfall, parsedMap] using hdeficit'

/-- Shortfalls of one CPU that differ in priority and age. -/
def cpuShortfall (priority age : Int) : ApiReportShortfall :=
  { priority := priority
    deficit := some (OrderedMap.empty.set "cpu" "4")
    ageCycles := age
    penaltyBucket := "PENALTY_BUCKET_PINNED" }

def shortfallReport (shortfalls : List ApiReportShortfall) : ApiShardReport :=
  { shardId := "shard-0"
    cycle := 7
    receivedAtUnixNs := 0
    summary := none
    shortfalls := shortfalls }

def plainEngine : Engine := ⟨ComparisonSort.insertion, fun _ _ => 0, fun _ => .nan⟩

theorem plain_cpuShortfall (priority age : Int) : Plain (cpuShortfall priority age) where
  bucket := by simp [cpuShortfall]
  names := by
    intro m hm e he
    obtain rfl := Option.some.inj hm
    rw [List.mem_singleton.mp he]
    decide
  values := by
    intro m hm e he
    obtain rfl := Option.some.inj hm
    rw [List.mem_singleton.mp he]
    decide

theorem shortfallKeys_distinct_priorities :
    ∃ card, topologyReport plainEngine toString
        (receivedReport (shortfallReport [cpuShortfall 1000 3, cpuShortfall 2000 3])) = .ok card ∧
      ((card.shortfalls.map TopologyRow.key).Nodup ↔
        (shortfallsOf (shortfallReport [cpuShortfall 1000 3, cpuShortfall 2000 3])).Pairwise
          (fun s s' => ¬ SameTriple s s')) := by
  refine ⟨_, rfl, (shortfallKeys_distinct_iff rfl).2 ?_⟩
  intro sf hsf
  rcases List.mem_pair.mp hsf with rfl | rfl
  · exact plain_cpuShortfall 1000 3
  · exact plain_cpuShortfall 2000 3

/-- Two shortfalls that differ in age only have one key. -/
theorem shortfallKeys_not_distinct :
    ¬ ∀ (eng : Engine) (formatInt : Int → String) (rep : ApiShardReport) (card : TopologyReport),
      topologyReport eng formatInt (receivedReport rep) = .ok card →
        (card.shortfalls.map TopologyRow.key).Nodup := by
  intro h
  have hnodup := h plainEngine toString
    (shortfallReport [cpuShortfall 1000 3, cpuShortfall 1000 9]) _ rfl
  have hne := List.pairwise_pair.mp hnodup
  exact hne rfl

end BigfleetDashboard.Pages
