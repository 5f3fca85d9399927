import BigfleetDashboard.Dashboard

/-!
# The two mounts of the API

A path below `/api` and the same path below `/api/v1` are one request: they are clean
together, their segments differ by the mount only, and the handler that answers them sees
neither.
-/
namespace BigfleetDashboard.Web
open Go Handlers PathPatterns Percent

/-! ## Texts in front of a path -/

/-- A character that a path carries as it is. -/
def carried (c : Char) : Bool := c.toNat < 128 && keptInPath c && c ≠ '%' && c ≠ '?'

theorem carried_iff {c : Char} :
    carried c = true ↔ c.toNat < 128 ∧ keptInPath c = true ∧ c ≠ '%' ∧ c ≠ '?' := by
  simp [carried, and_assoc]

theorem pathLiteral_of_carried {c : Char} (h : carried c = true) :
    pathLiteral c = [UInt8.ofNat c.toNat] := bytesOf_singleton (carried_iff.mp h).1

theorem flatMap_pathLiteral (cs : List Char) :
    cs.flatMap pathLiteral = bytesOf (String.ofList cs) := by
  induction cs with
  | nil => rfl
  | cons c cs ih =>
    rw [List.flatMap_cons, bytesOf_ofList_cons, ih]
    rfl

theorem encodeByte_of_carried {c : Char} (h : carried c = true) :
    encodeByte keptByte (UInt8.ofNat c.toNat) = [c] := by
  obtain ⟨hlt, hkept, -⟩ := carried_iff.mp h
  have hbyte : (UInt8.ofNat c.toNat).toNat = c.toNat := by
    rw [UInt8.toNat_ofNat']
    exact Nat.mod_eq_of_lt (by omega)
  have hkeep : keptByte (UInt8.ofNat c.toNat) = true := by
    rw [keptByte, hbyte, Char.ofNat_toNat, hkept]
    simpa using hlt
  rw [encodeByte, if_pos hkeep, hbyte, Char.ofNat_toNat]

theorem encode_carried_append {pre : List Char} (h : pre.all carried = true) (bs : Bytes) :
    encode keptByte (pre.flatMap pathLiteral ++ bs) = pre ++ encode keptByte bs := by
  induction pre with
  | nil => rfl
  | cons c pre ih =>
    rw [List.all_cons, Bool.and_eq_true] at h
    rw [List.flatMap_cons, pathLiteral_of_carried h.1, List.append_assoc]
    have hsplit : ∀ b (cs : Bytes), encode keptByte ([b] ++ cs) =
        encodeByte keptByte b ++ encode keptByte cs := fun _ _ => rfl
    rw [hsplit, encodeByte_of_carried h.1, ih h.2]
    rfl

/-- A text of carried characters in front of a target is in front of its path. -/
theorem parseRequestURI_append {pre : List Char} (h : pre.all carried = true)
    (below : List Char) :
    parseRequestURI (pre ++ below) = (parseRequestURI below).map (fun url =>
      { path := bytesOf (String.ofList pre) ++ url.path
        escapedPath := pre ++ url.escapedPath
        rawQuery := url.rawQuery }) := by
  have hall : ∀ c ∈ pre, carried c = true := List.all_eq_true.mp h
  have hquestion : ∀ c ∈ pre, decide (c ≠ '?') = true := by
    intro c hc
    simpa using (carried_iff.mp (hall c hc)).2.2.2
  have hpercent : '%' ∉ pre := by
    intro hmem
    exact (carried_iff.mp (hall '%' hmem)).2.2.1 rfl
  have hvalid : ∀ path, validEncoded (pre ++ path) = validEncoded path := by
    intro path
    have hpre : validEncoded pre = true := by
      rw [validEncoded, List.all_eq_true]
      intro c hc
      rw [(carried_iff.mp (hall c hc)).2.1, Bool.true_or]
    rw [validEncoded, List.all_append]
    change (validEncoded pre && validEncoded path) = _
    rw [hpre, Bool.true_and]
  unfold parseRequestURI
  dsimp only
  rw [List.takeWhile_append_of_pos hquestion, List.dropWhile_append_of_pos hquestion,
    decode_plain_append pathLiteral hpercent, Option.map_map, Option.map_map]
  congr 1
  funext bs
  show URL.mk _ _ _ = URL.mk _ _ _
  rw [hvalid, flatMap_pathLiteral]
  congr 1
  split_ifs with hpath
  · rfl
  · rw [← flatMap_pathLiteral]
    exact encode_carried_append h bs

/-! ## Clean paths -/

/-- A segment that cleaning keeps. -/
def Ordinary (seg : List Char) : Prop := seg ≠ [] ∧ seg ≠ ['.'] ∧ seg ≠ ['.', '.']

theorem pushSegment_ordinary {seg : List Char} (h : Ordinary seg) (stack : List (List Char)) :
    pushSegment stack seg = stack ++ [seg] := by
  have hskip : ¬ (seg = [] ∨ seg = ['.']) := not_or.mpr ⟨h.1, h.2.1⟩
  rw [pushSegment, if_neg hskip, if_neg h.2.2]

theorem foldl_pushSegment_ordinary {segs : List (List Char)} (h : ∀ seg ∈ segs, Ordinary seg)
    (stack : List (List Char)) : segs.foldl pushSegment stack = stack ++ segs := by
  induction segs generalizing stack with
  | nil => simp
  | cons seg segs ih =>
    rw [List.foldl_cons, pushSegment_ordinary (h seg List.mem_cons_self),
      ih (fun s hs => h s (List.mem_cons_of_mem seg hs)), List.append_assoc]
    rfl

/-- Cleaning keeps ordinary segments of the path only. -/
theorem mem_foldl_pushSegment {segs stack : List (List Char)}
    (hstack : ∀ s ∈ stack, Ordinary s) :
    ∀ s ∈ segs.foldl pushSegment stack, Ordinary s ∧ (s ∈ stack ∨ s ∈ segs) := by
  induction segs generalizing stack with
  | nil =>
    intro s hs
    exact ⟨hstack s hs, Or.inl hs⟩
  | cons seg segs ih =>
    have hpush : ∀ s ∈ pushSegment stack seg, Ordinary s ∧ (s ∈ stack ∨ s = seg) := by
      intro s hs
      unfold pushSegment at hs
      split_ifs at hs with hskip hup
      · exact ⟨hstack s hs, Or.inl hs⟩
      · have hmem := List.mem_of_mem_dropLast hs
        exact ⟨hstack s hmem, Or.inl hmem⟩
      · rw [List.mem_append, List.mem_singleton] at hs
        obtain hs | hs := hs
        · exact ⟨hstack s hs, Or.inl hs⟩
        · rw [not_or] at hskip
          rw [hs]
          exact ⟨⟨hskip.1, hskip.2, hup⟩, Or.inr rfl⟩
    intro s hs
    obtain ⟨hord, hmem⟩ := ih (fun s hs => (hpush s hs).1) s hs
    refine ⟨hord, ?_⟩
    obtain hmem | hmem := hmem
    · obtain hmem | hmem := (hpush s hmem).2
      · exact Or.inl hmem
      · rw [hmem]
        exact Or.inr List.mem_cons_self
    · exact Or.inr (List.mem_cons_of_mem seg hmem)

/-- The segments of a clean path: ordinary ones, and an empty one for a slash at the end. -/
structure Clean (segs : List (List Char)) : Prop where
  shape : ∃ body, (∀ s ∈ body, Ordinary s) ∧ (segs = body ++ [[]] ∨ (segs = body ∧ body ≠ []))

theorem Clean.ne_nil {segs : List (List Char)} (h : Clean segs) : segs ≠ [] := by
  obtain ⟨body, -, rfl | ⟨rfl, hne⟩⟩ := h.shape
  · simp
  · exact hne

theorem clean_cleanSegments (segs : List (List Char)) : Clean (cleanSegments segs) := by
  have hord : ∀ s ∈ segs.foldl pushSegment [], Ordinary s :=
    fun s hs => (mem_foldl_pushSegment (by simp) s hs).1
  unfold cleanSegments
  dsimp only
  split_ifs with hnil hslash
  · exact ⟨[], by simp, Or.inl rfl⟩
  · exact ⟨_, hord, Or.inl rfl⟩
  · exact ⟨_, hord, Or.inr ⟨rfl, hnil⟩⟩

theorem mem_cleanSegments {segs : List (List Char)} {s : List Char} (h : s ∈ cleanSegments segs) :
    s = [] ∨ s ∈ segs := by
  have hmem : ∀ s ∈ segs.foldl pushSegment [], s ∈ segs := by
    intro s hs
    obtain h | h := (mem_foldl_pushSegment (by simp) s hs).2
    · exact absurd h List.not_mem_nil
    · exact h
  unfold cleanSegments at h
  dsimp only at h
  split_ifs at h with hnil hslash
  · exact Or.inl (List.mem_singleton.mp h)
  · rw [List.mem_append, List.mem_singleton] at h
    exact h.symm.imp id (hmem s)
  · exact Or.inr (hmem s h)

/-- Ordinary segments in front of a clean path leave it clean. -/
theorem Clean.append {pre segs : List (List Char)} (hpre : ∀ s ∈ pre, Ordinary s)
    (h : Clean segs) : Clean (pre ++ segs) := by
  obtain ⟨body, hbody, hshape⟩ := h.shape
  refine ⟨pre ++ body, ?_, ?_⟩
  · intro s hs
    rw [List.mem_append] at hs
    exact hs.elim (hpre s) (hbody s)
  · obtain rfl | ⟨rfl, hne⟩ := hshape
    · exact Or.inl (by rw [List.append_assoc])
    · exact Or.inr ⟨rfl, by simp [hne]⟩

theorem Clean.cleanSegments_eq {segs : List (List Char)} (h : Clean segs) :
    cleanSegments segs = segs := by
  obtain ⟨body, hbody, hshape⟩ := h.shape
  have hfold := foldl_pushSegment_ordinary hbody []
  rw [List.nil_append] at hfold
  obtain rfl | ⟨rfl, hne⟩ := hshape
  · have hlast : (body ++ [[]]).foldl pushSegment [] = body := by
      rw [List.foldl_append, hfold, List.foldl_cons, List.foldl_nil, pushSegment,
        if_pos (Or.inl rfl)]
    unfold cleanSegments
    dsimp only
    rw [hlast]
    split_ifs with hnil hslash
    · rw [hnil]
      rfl
    · rfl
    · simp at hslash
  · unfold cleanSegments
    dsimp only
    rw [hfold, if_neg hne]
    refine if_neg ?_
    intro hslash
    exact (hbody _ (List.mem_of_getLast? hslash)).1 rfl

theorem slash_notMem_splitOn (path : List Char) : ∀ seg ∈ path.splitOn '/', '/' ∉ seg := by
  induction path with
  | nil => simp
  | cons c path ih =>
    intro seg hseg
    rw [List.splitOn_cons_eq_if_modifyHead] at hseg
    split_ifs at hseg with hc
    · obtain rfl | hseg := List.mem_cons.mp hseg
      · exact List.not_mem_nil
      · exact ih seg hseg
    · cases hsplit : path.splitOn '/' with
      | nil => exact absurd hsplit (List.splitOn_ne_nil '/' path)
      | cons first rest =>
        rw [hsplit] at ih hseg
        obtain rfl | hseg := List.mem_cons.mp hseg
        · rw [List.mem_cons, not_or]
          refine ⟨?_, ih first List.mem_cons_self⟩
          rw [beq_iff_eq] at hc
          exact Ne.symm hc
        · exact ih seg (List.mem_cons_of_mem first hseg)

/-- The path with these segments. -/
def pathOf (segs : List (List Char)) : List Char := '/' :: ['/'].intercalate segs

theorem pathOf_segmentsOf {path : List Char} (h : path.head? = some '/') :
    pathOf (segmentsOf path) = path := by
  cases path with
  | nil => simp at h
  | cons c rest =>
    obtain rfl : c = '/' := by simpa using h
    rw [pathOf, segmentsOf, List.drop_one, List.tail_cons, List.intercalate_splitOn]

theorem segmentsOf_pathOf {segs : List (List Char)} (hslash : ∀ s ∈ segs, '/' ∉ s)
    (hne : segs ≠ []) : segmentsOf (pathOf segs) = segs :=
  List.splitOn_intercalate '/' hslash hne

theorem pathOf_cons (seg : List Char) {segs : List (List Char)} (hne : segs ≠ []) :
    pathOf (seg :: segs) = '/' :: seg ++ pathOf segs := by
  rw [pathOf, pathOf, List.intercalate_cons_of_ne_nil hne]
  simp

theorem cleanPath_eq (path : List Char) : cleanPath path = pathOf (cleanSegments (segmentsOf path)) :=
  rfl

/-- The segments of a path that cleaning leaves alone. -/
theorem clean_of_cleanPath {path : List Char} (h : cleanPath path = path) :
    Clean (segmentsOf path) := by
  have hslash : ∀ s ∈ cleanSegments (segmentsOf path), '/' ∉ s := by
    intro s hs
    obtain rfl | hs := mem_cleanSegments hs
    · exact List.not_mem_nil
    · exact slash_notMem_splitOn _ s hs
  have hsegs : segmentsOf path = cleanSegments (segmentsOf path) := by
    calc segmentsOf path = segmentsOf (cleanPath path) := by rw [h]
      _ = segmentsOf (pathOf (cleanSegments (segmentsOf path))) := by rw [cleanPath_eq]
      _ = cleanSegments (segmentsOf path) :=
        segmentsOf_pathOf hslash (clean_cleanSegments _).ne_nil
  rw [hsegs]
  exact clean_cleanSegments _

theorem Clean.cleanPath_eq {segs : List (List Char)} (h : Clean segs)
    (hslash : ∀ s ∈ segs, '/' ∉ s) : cleanPath (pathOf segs) = pathOf segs := by
  rw [Web.cleanPath_eq, segmentsOf_pathOf hslash h.ne_nil, h.cleanSegments_eq]

theorem head?_of_cleanPath {path : List Char} (h : cleanPath path = path) :
    path.head? = some '/' := by
  rw [← h]
  rfl

theorem pathUnescape_plain {seg : List Char} (h : '%' ∉ seg) :
    pathUnescape seg = String.ofList seg := by
  have hdecode : decode pathLiteral seg = some (bytesOf (String.ofList seg)) := by
    have happend := decode_plain_append pathLiteral h []
    rw [List.append_nil, decode, flatMap_pathLiteral] at happend
    simpa using happend
  rw [pathUnescape, hdecode]
  show goString _ = _
  rw [goString, textOf_bytesOf, Option.getD_some]

theorem muxSegments_cons {seg : List Char} (hseg : Ordinary seg) (segs : List (List Char)) :
    muxSegments (seg :: segs) = pathUnescape seg :: muxSegments segs := by
  rw [muxSegments]
  exact if_neg (fun h => hseg.1 h.1)

/-! ## The mounts -/

/-- What a mount puts in front of a clean path. -/
structure MountText (text : List Char) (segs : List (List Char)) : Prop where
  carried : text.all carried = true
  ordinary : ∀ s ∈ segs, Ordinary s
  slash : ∀ s ∈ segs, '/' ∉ s
  eq : text = segs.flatMap (fun s => '/' :: s)

theorem MountText.append_pathOf {text : List Char} {segs : List (List Char)}
    (h : MountText text segs) {below : List (List Char)} (hne : below ≠ []) :
    text ++ pathOf below = pathOf (segs ++ below) := by
  rw [h.eq]
  clear h
  induction segs with
  | nil => rfl
  | cons seg segs ih =>
    have hne' : segs ++ below ≠ [] := by simp [hne]
    rw [List.flatMap_cons, List.append_assoc, ih]
    exact (pathOf_cons seg hne').symm

/-- A clean path below a mount is clean, and has the segments of both. -/
theorem MountText.segmentsOf_eq {text : List Char} {segs : List (List Char)}
    (h : MountText text segs) {path : List Char} (hclean : cleanPath path = path) :
    cleanPath (text ++ path) = text ++ path ∧
      segmentsOf (text ++ path) = segs ++ segmentsOf path := by
  have hsegs := clean_of_cleanPath hclean
  have hpath := pathOf_segmentsOf (head?_of_cleanPath hclean)
  have hslash : ∀ s ∈ segs ++ segmentsOf path, '/' ∉ s := by
    intro s hs
    rw [List.mem_append] at hs
    exact hs.elim (h.slash s) (slash_notMem_splitOn _ s)
  have htext : text ++ path = pathOf (segs ++ segmentsOf path) := by
    rw [← h.append_pathOf hsegs.ne_nil, hpath]
  rw [htext]
  refine ⟨(hsegs.append h.ordinary).cleanPath_eq hslash, segmentsOf_pathOf hslash ?_⟩
  simp [hsegs.ne_nil]

def apiMount : List Char := "/api".toList
def v1Mount : List Char := "/api/v1".toList

theorem ordinary_word {seg : List Char} (h : 2 < seg.length ∨ seg = "v1".toList) : Ordinary seg := by
  obtain h | rfl := h
  · refine ⟨?_, ?_, ?_⟩
    all_goals
      rintro rfl
      simp at h
  · refine ⟨?_, ?_, ?_⟩
    all_goals decide

theorem mountText_api : MountText apiMount ["api".toList] where
  carried := rfl
  ordinary := by
    intro s hs
    rw [List.mem_singleton.mp hs]
    exact ordinary_word (Or.inl (by decide))
  slash := by decide
  eq := rfl

theorem mountText_v1 : MountText v1Mount ["api".toList, "v1".toList] where
  carried := rfl
  ordinary := by
    intro s hs
    obtain rfl | hs := List.mem_cons.mp hs
    · exact ordinary_word (Or.inl (by decide))
    · rw [List.mem_singleton.mp hs]
      exact ordinary_word (Or.inr rfl)
  slash := by decide
  eq := rfl

theorem muxSegments_api (segs : List (List Char)) :
    muxSegments ("api".toList :: segs) = "api" :: muxSegments segs := by
  rw [muxSegments_cons (ordinary_word (Or.inl (by decide))), pathUnescape_plain (by decide)]
  rfl

theorem muxSegments_v1 (segs : List (List Char)) :
    muxSegments ("api".toList :: "v1".toList :: segs) = "api" :: "v1" :: muxSegments segs := by
  rw [muxSegments_api, muxSegments_cons (ordinary_word (Or.inr rfl)),
    pathUnescape_plain (by decide)]
  rfl

/-- The router sends a path below one mount where it sends it below the other. -/
theorem findHandler_mounts (rt rt' : Runtime) (method : String) {path : List Char}
    (hclean : cleanPath path = path)
    (hfirst : (muxSegments (segmentsOf path)).head? ≠ some "v1") :
    findHandler (registerRoutes rt) method (apiMount ++ path) =
      findHandler (registerRoutes rt') method (v1Mount ++ path) := by
  obtain ⟨hapi, hsegs⟩ := mountText_api.segmentsOf_eq hclean
  obtain ⟨hv1, hsegs'⟩ := mountText_v1.segmentsOf_eq hclean
  have hclean_api : ¬ (method ≠ "CONNECT" ∧ cleanPath (apiMount ++ path) ≠ apiMount ++ path) :=
    fun h => h.2 hapi
  have hclean_v1 : ¬ (method ≠ "CONNECT" ∧ cleanPath (v1Mount ++ path) ≠ v1Mount ++ path) :=
    fun h => h.2 hv1
  rw [findHandler, findHandler, if_neg hclean_api, if_neg hclean_v1, hsegs, hsegs']
  have hroute := dispatch_v1 rt rt' method hfirst
  rw [List.cons_append, List.nil_append, muxSegments_api, List.cons_append, List.cons_append,
    List.nil_append, muxSegments_v1, hroute]

/-- A path below a mount is no page, whatever the binary was built with. -/
theorem spaHandler_mount (pre : List Char) (rest : Bytes)
    (h : bytesOf "/api/" <+: bytesOf (String.ofList pre) ++ rest) (bundle : Bundle) :
    (spaHandler bundle (bytesOf (String.ofList pre) ++ rest)).1 = .notFound := by
  cases bundle with
  | notBuilt =>
    have hne : bytesOf (String.ofList pre) ++ rest ≠ bytesOf "/" := by
      intro heq
      rw [heq] at h
      have hlen := h.length_le
      revert hlen
      decide
    rw [spaHandler, if_neg hne]
  | embedded stat => rw [spaHandler, if_pos h]

theorem head?_path_of_parse {target : List Char} {url : URL} (htarget : target.head? = some '/')
    (h : parseRequestURI target = some url) : ∃ rest, url.path = 47 :: rest := by
  cases target with
  | nil => simp at htarget
  | cons c rest =>
    obtain rfl : c = '/' := by simpa using htarget
    have happend := parseRequestURI_append (show ['/'].all carried = true from rfl) rest
    rw [List.singleton_append, h] at happend
    obtain ⟨url', -, hurl⟩ := Option.map_eq_some_iff.mp happend.symm
    refine ⟨url'.path, ?_⟩
    rw [← hurl]
    rfl

/-- The frozen contract under `/api/v1` and the routes that the page calls are one API: a
request below either mount gets the same answer, whatever the order in which the routes
were registered, as long as the rest of its path is clean and does not name the second
mount itself. -/
theorem serve_mounts (d : Dashboard) (bundle : Bundle) (rt rt' : Runtime) (method : String)
    {below : List Char} {url : URL} (hbelow : below.head? = some '/')
    (hurl : parseRequestURI below = some url)
    (hclean : cleanPath url.escapedPath = url.escapedPath)
    (hfirst : (muxSegments (segmentsOf url.escapedPath)).head? ≠ some "v1") (clock : Clock) :
    d.serve bundle (registerRoutes rt) method (apiMount ++ below) clock =
      d.serve bundle (registerRoutes rt') method (v1Mount ++ below) clock := by
  obtain ⟨rest, hrest⟩ := head?_path_of_parse hbelow hurl
  have hfind := findHandler_mounts rt rt' method hclean hfirst
  have hpage_api := spaHandler_mount apiMount url.path
    (by rw [hrest]; exact ⟨rest, rfl⟩) bundle
  have hpage_v1 := spaHandler_mount v1Mount url.path
    (by rw [hrest]; exact ⟨bytesOf "v1" ++ 47 :: rest, rfl⟩) bundle
  rw [Dashboard.serve, Dashboard.serve, parseRequestURI_append mountText_api.carried,
    parseRequestURI_append mountText_v1.carried, hurl, Option.map_some, Option.map_some]
  dsimp only
  unfold Dashboard.answer
  dsimp only
  rw [← hfind]
  cases hfound : findHandler (registerRoutes rt) method (apiMount ++ url.escapedPath) with
  | redirect path => rfl
  | notFound => rfl
  | target t values =>
    cases t with
    | spa => exact congrArg Response.page (hpage_api.trans hpage_v1.symm)
    | api h names =>
      dsimp only
      have hreq : requestOfURL ⟨bytesOf (String.ofList apiMount) ++ url.path,
          apiMount ++ url.escapedPath, url.rawQuery⟩ names values =
          requestOfURL ⟨bytesOf (String.ofList v1Mount) ++ url.path,
          v1Mount ++ url.escapedPath, url.rawQuery⟩ names values := rfl
      rw [hreq]
      split
      · rfl
      · rfl

/-- A dashboard that was given no address. -/
def Dashboard.unwired : Dashboard where
  cfg := ⟨":8080", "", "", "", ""⟩
  server := Server.unwired
  counts := ⟨false, [], fun _ => .ok none, fun _ => .ok none⟩
  one_client := ⟨rfl, rfl⟩

/-- A dashboard of a Prometheus without series. -/
def Dashboard.wired : Dashboard where
  cfg := ⟨":8080", "http://prometheus:9090", "", "", ""⟩
  server := { Server.unwired with
    prom := ⟨some ⟨fun _ _ => .ok (.vector []), fun _ _ => .ok (.matrix [])⟩⟩ }
  counts := ⟨false, [], fun _ => .ok none, fun _ => .ok none⟩
  one_client := ⟨rfl, rfl⟩

/-- A runtime that walks maps backwards. -/
def backwards : Runtime :=
  { Runtime.plain with
    mapOrder := fun _ _ xs => xs.reverse
    mapOrder_perm := fun _ _ xs => List.reverse_perm xs }

theorem serve_mounts_shards :
    Dashboard.wired.serve .notBuilt (registerRoutes Runtime.plain) "GET"
        (apiMount ++ "/shards/bigfleet-0/trends?step=5m".toList) ⟨0, 0⟩ =
      Dashboard.wired.serve .notBuilt (registerRoutes backwards) "GET"
        (v1Mount ++ "/shards/bigfleet-0/trends?step=5m".toList) ⟨0, 0⟩ := by
  have hurl : parseRequestURI ("/shards/bigfleet-0/trends".toList ++ "?step=5m".toList) =
      some ⟨bytesOf "/shards/bigfleet-0/trends" ++ [], "/shards/bigfleet-0/trends".toList ++ [],
        "step=5m".toList⟩ :=
    parseRequestURI_append (show "/shards/bigfleet-0/trends".toList.all carried = true from rfl) _
  have hfirst : (muxSegments (segmentsOf "/shards/bigfleet-0/trends".toList)).head? ≠
      some "v1" := by
    show (muxSegments ("shards".toList :: segmentsOf "/bigfleet-0/trends".toList)).head? ≠ some "v1"
    rw [muxSegments_cons (ordinary_word (Or.inl (by decide))), pathUnescape_plain (by decide)]
    simp
  exact serve_mounts Dashboard.wired .notBuilt Runtime.plain backwards "GET" rfl hurl rfl
    hfirst ⟨0, 0⟩

end BigfleetDashboard.Web
