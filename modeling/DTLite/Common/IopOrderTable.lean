import DTLite.Common.HistoryTable
import DTLite.Develop.IopOrder
import DTLite.Reasoning.Text

/-! The module order of an image: the row of `main.module_order`, its text and the list it stands
for. -/

namespace DTLite

open Reasoning List Option IopOrderEntry

-- `DT_IOP_ORDER_CUSTOM`.
def iopOrderCustom : Int := 0

-- `DT_IOP_ORDER_V30`.
def iopOrderV30 : Int := 2

-- The operations of `v30_order`, without the empty one that ends the table.
def v30Operations : List String :=
  ["rawprepare", "temperature", "highlights", "hotpixels", "demosaic", "rotatepixels",
    "scalepixels", "lens", "hazeremoval", "flip", "clipping", "spots", "exposure", "mask_manager",
    "negadoctor", "colorin", "channelmixer", "basecurve", "tonecurve", "colorcorrection",
    "vibrance", "grain", "splittoning", "vignette", "colorout", "finalscale", "overexposed",
    "borders", "gamma"]

-- `_table_to_list(v30_order)`. It sets the order as a double, whose low word is 0 as an `int`.
def v30OrderList : List IopOrderEntry := v30Operations.map fun op => ⟨0, op, 0⟩

-- The walk of `dt_ioppr_get_iop_order_list_kind` along the table.
def followsTable : List String → List IopOrderEntry → Bool
  | _, [] => true
  | [], _ :: _ => false
  | op :: table, entry :: list =>
      op == entry.operation
        -- skip all the other instance of same module if any
        && followsTable table (list.dropWhile fun e => e.operation == op)

variable (db : Database) (iopOrderList : List IopOrderEntry)

def dtIopprGetIopOrderListKind : Int :=
  if followsTable (v30Operations ++ [""]) iopOrderList then iopOrderV30 else iopOrderCustom

def dtIopprHasMultipleInstances : List IopOrderEntry → Bool
  | a :: b :: list => a.operation == b.operation || dtIopprHasMultipleInstances (b :: list)
  | _ => false

def iopOrderFields : List Text :=
  iopOrderList.flatMap fun e => [e.operation.toList, printInt e.instanceNo]

def dtIopprSerializeTextIopOrderList : Text :=
  [','].intercalate (iopOrderFields iopOrderList)

-- `dt_util_str_to_glist(",", text)`.
def dtUtilStrToGlist (text : Text) : List Text := if text = [] then [] else text.splitOn ','

-- `sscanf(data, "%d", &inst)`, with `inst` 0 before.
def scanInstance (data : Text) : Int := ((strtol data).map Prod.fst).getD 0

-- The loop over the fields; the operation is cut to the 19 characters that its array holds.
def iopOrderEntries : List Text → Option (List IopOrderEntry)
  | [] => some []
  | [_] => none
  | op :: data :: fields =>
      (iopOrderEntries fields).map (⟨0, String.ofList (op.take 19), scanInstance data⟩ :: ·)

-- The source reads through `NULL` if the list is empty.
def iopprSanityCheckIopOrder (list : List IopOrderEntry) : Bool :=
  (list.head?.map IopOrderEntry.operation == some "rawprepare")
    && (list.getLast?.map IopOrderEntry.operation == some "gamma")

def dtIopprDeserializeTextIopOrderList (buf : Text) : Option (List IopOrderEntry) :=
  ((iopOrderEntries (dtUtilStrToGlist buf)).map iopprResetIopOrder).filter
    iopprSanityCheckIopOrder

variable (imgid : ImgId)

def dtIopprGetIopOrderVersion : Int :=
  match db.moduleOrder imgid with
  | some row => columnInt row.version
  | none => iopOrderV30

def dtIopprGetIopOrderListVersion (version : Int) : List IopOrderEntry :=
  if version = iopOrderV30 then v30OrderList else []

def ModuleOrder.list? (row : ModuleOrder) : Option (List IopOrderEntry) :=
  if columnInt row.version = iopOrderCustom ∨ row.iopList ≠ none then
    row.iopList.bind dtIopprDeserializeTextIopOrderList
  else if columnInt row.version = iopOrderV30 then some v30OrderList
  else none

/-- The sort that `sorted` asks for is by the numbers just given, so it moves nothing. -/
def dtIopprGetIopOrderList : List IopOrderEntry :=
  (((db.moduleOrder imgid).bind ModuleOrder.list?).map iopprResetIopOrder).getD v30OrderList

def dtIopprWriteIopOrder (kind : Int) (iopOrderList : List IopOrderEntry) (imgid : ImgId) :
    Database :=
  let iopList :=
    if kind = iopOrderCustom ∨ dtIopprHasMultipleInstances iopOrderList then
      some (dtIopprSerializeTextIopOrderList iopOrderList)
    else none
  { db with moduleOrder := Function.update db.moduleOrder imgid (some ⟨some kind, iopList⟩) }

def dtIopprWriteIopOrderList : Database :=
  dtIopprWriteIopOrder db (dtIopprGetIopOrderListKind iopOrderList) iopOrderList imgid

def dtIopprSetDefaultIopOrder (dev : Develop) (imgid : ImgId) : Develop :=
  dtIopprResyncModulesOrder
    { dev with iopOrderList := iopprResetIopOrder (dtIopprGetIopOrderList db imgid) }

def PlainOperation (op : String) : Prop := ',' ∉ op.toList ∧ op.toList.length ≤ 19

variable {list : List IopOrderEntry}

section

variable (hplain : ∀ e ∈ list, PlainOperation e.operation)
include hplain

theorem iopOrderFields_no_comma : ∀ field ∈ iopOrderFields list, ',' ∉ field := by
  intro field hfield
  obtain ⟨e, he, hfield⟩ := mem_flatMap.mp hfield
  rcases mem_cons.mp hfield with rfl | hfield
  · exact (hplain e he).1
  · rw [mem_singleton.mp hfield]
    exact not_mem_printInt (by decide) (by decide) e.instanceNo

theorem iopOrderEntries_fields :
    iopOrderEntries (iopOrderFields list) = some (list.map fun e => { e with iopOrder := 0 }) := by
  induction list with
  | nil => rfl
  | cons e list ih =>
    have hop : String.ofList (e.operation.toList.take 19) = e.operation := by
      rw [take_of_length_le (hplain e mem_cons_self).2, String.ofList_toList]
    have hinst : scanInstance (printInt e.instanceNo) = e.instanceNo := by
      rw [scanInstance, strtol_printInt]
      rfl
    show (iopOrderEntries (iopOrderFields list)).map _ = _
    rw [ih fun x hx => hplain x (mem_cons_of_mem _ hx), hop, hinst]
    rfl

end

theorem iopprResetIopOrder_congr {a b : List IopOrderEntry}
    (h : a.map (fun e => { e with iopOrder := 0 }) = b.map fun e => { e with iopOrder := 0 }) :
    iopprResetIopOrder a = iopprResetIopOrder b := by
  have hreset : ∀ l : List IopOrderEntry, iopprResetIopOrder l =
      iopprResetIopOrder (l.map fun e => { e with iopOrder := 0 }) := by
    intro l
    apply ext_getElem
    · simp [iopprResetIopOrder]
    · intro i hi hi'
      simp [iopprResetIopOrder]
  rw [hreset a, hreset b, h]

@[simp] theorem iopprResetIopOrder_idem (list : List IopOrderEntry) :
    iopprResetIopOrder (iopprResetIopOrder list) = iopprResetIopOrder list := by
  simp only [iopprResetIopOrder, mapIdx_mapIdx]
  rfl

/-- The text of a list gives the list back, with its numbers set anew. -/
theorem deserialize_serialize (hplain : ∀ e ∈ list, PlainOperation e.operation)
    (hsane : iopprSanityCheckIopOrder (iopprResetIopOrder list)) :
    dtIopprDeserializeTextIopOrderList (dtIopprSerializeTextIopOrderList list) =
      some (iopprResetIopOrder list) := by
  have hne : list ≠ [] := by
    rintro rfl
    cases hsane
  obtain ⟨e, rest, rfl⟩ := exists_cons_of_ne_nil hne
  have hfields : iopOrderFields (e :: rest) ≠ [] := cons_ne_nil _ _
  have hsplit := splitOn_intercalate ',' (iopOrderFields_no_comma hplain) hfields
  -- the text has a comma in it, so it is not empty
  have htext : dtIopprSerializeTextIopOrderList (e :: rest) ≠ [] := by
    intro hnil
    rw [show [','].intercalate (iopOrderFields (e :: rest)) = [] from hnil] at hsplit
    have hlen := congrArg length hsplit
    rw [iopOrderFields, flatMap_cons, length_append] at hlen
    simp only [splitOn_nil, length_cons] at hlen
    omega
  rw [dtIopprDeserializeTextIopOrderList, dtUtilStrToGlist, if_neg htext,
    dtIopprSerializeTextIopOrderList, hsplit, iopOrderEntries_fields hplain, map_some,
    iopprResetIopOrder_congr (b := e :: rest) (by simp), filter_some, if_pos hsane]

theorem plain_of_iopOrderEntries {fields : List Text} (hfields : ∀ field ∈ fields, ',' ∉ field)
    (h : iopOrderEntries fields = some list) : ∀ e ∈ list, PlainOperation e.operation := by
  fun_induction iopOrderEntries fields generalizing list with
  | case1 =>
    cases h
    exact fun e he => absurd he not_mem_nil
  | case2 => cases h
  | case3 op data fields ih =>
    obtain ⟨rest, hrest, rfl⟩ := map_eq_some_iff.mp h
    intro e he
    rcases mem_cons.mp he with rfl | he
    · constructor
      · rw [String.toList_ofList]
        exact fun hmem => hfields op mem_cons_self (mem_of_mem_take hmem)
      · rw [String.toList_ofList, length_take]
        omega
    · exact ih (fun field hmem => hfields field (by simp [hmem])) hrest e he

-- A list that keeps its numbers and can be read back from its text.
structure OrderList (list : List IopOrderEntry) : Prop where
  plain : ∀ e ∈ list, PlainOperation e.operation
  sane : iopprSanityCheckIopOrder list
  numbered : iopprResetIopOrder list = list

theorem OrderList.of_deserialize {buf : Text}
    (h : dtIopprDeserializeTextIopOrderList buf = some list) : OrderList list := by
  obtain ⟨hlist, hsane⟩ := filter_eq_some_iff.mp h
  obtain ⟨entries, hentries, rfl⟩ := map_eq_some_iff.mp hlist
  have hfields : ∀ field ∈ dtUtilStrToGlist buf, ',' ∉ field := by
    intro field hfield
    rw [dtUtilStrToGlist] at hfield
    split at hfield
    · cases hfield
    · exact not_mem_of_mem_splitOn hfield
  refine ⟨?_, hsane, iopprResetIopOrder_idem entries⟩
  intro e he
  obtain ⟨i, hi, rfl⟩ := mem_mapIdx.mp he
  exact plain_of_iopOrderEntries hfields hentries entries[i] (getElem_mem hi)

theorem v30OrderList_plain : ∀ e ∈ v30OrderList, PlainOperation e.operation := by
  have hplain : ∀ op ∈ v30Operations, ',' ∉ op.toList ∧ op.toList.length ≤ 19 := by decide +kernel
  intro e he
  obtain ⟨op, hop, rfl⟩ := mem_map.mp he
  exact hplain op hop

theorem OrderList.v30 : OrderList (iopprResetIopOrder v30OrderList) := by
  refine ⟨?_, by decide, iopprResetIopOrder_idem v30OrderList⟩
  intro e he
  obtain ⟨i, hi, rfl⟩ := mem_mapIdx.mp he
  exact v30OrderList_plain v30OrderList[i] (getElem_mem hi)

/-- The list of an image is the table of the code or one that a text can keep. -/
theorem dtIopprGetIopOrderList_cases :
    dtIopprGetIopOrderList db imgid = v30OrderList ∨
      OrderList (dtIopprGetIopOrderList db imgid) := by
  rw [dtIopprGetIopOrderList]
  cases hlist : (db.moduleOrder imgid).bind ModuleOrder.list? with
  | none => exact Or.inl rfl
  | some list =>
    right
    show OrderList (iopprResetIopOrder list)
    obtain ⟨row, -, hrow⟩ := bind_eq_some_iff.mp hlist
    rw [ModuleOrder.list?] at hrow
    split at hrow
    · obtain ⟨text, -, htext⟩ := bind_eq_some_iff.mp hrow
      have horder := OrderList.of_deserialize htext
      rw [horder.numbered]
      exact horder
    · split at hrow
      · cases hrow
        exact OrderList.v30
      · cases hrow

theorem OrderList.deserialize (h : OrderList list) :
    dtIopprDeserializeTextIopOrderList (dtIopprSerializeTextIopOrderList list) = some list := by
  have hsane := h.sane
  rw [← h.numbered] at hsane
  rw [deserialize_serialize h.plain hsane, h.numbered]

/-! ## A list written and read back -/

def KeepsText (list : List IopOrderEntry) : Prop :=
  dtIopprGetIopOrderListKind list = iopOrderCustom ∨ dtIopprHasMultipleInstances list

theorem dtIopprGetIopOrderList_write_text (htext : KeepsText list) (db : Database) (imgid : ImgId) :
    dtIopprGetIopOrderList (dtIopprWriteIopOrderList db list imgid) imgid =
      ((dtIopprDeserializeTextIopOrderList (dtIopprSerializeTextIopOrderList list)).map
        iopprResetIopOrder).getD v30OrderList := by
  have hrow : (dtIopprWriteIopOrderList db list imgid).moduleOrder imgid =
      some ⟨some (dtIopprGetIopOrderListKind list),
        some (dtIopprSerializeTextIopOrderList list)⟩ := by
    rw [dtIopprWriteIopOrderList, dtIopprWriteIopOrder, if_pos (by exact htext)]
    exact Function.update_self ..
  rw [dtIopprGetIopOrderList, hrow, bind_some, ModuleOrder.list?,
    if_pos (Or.inr (some_ne_none _)), bind_some]

theorem dtIopprGetIopOrderList_write_orderList (hlist : OrderList list) (htext : KeepsText list)
    (db : Database) (imgid : ImgId) :
    dtIopprGetIopOrderList (dtIopprWriteIopOrderList db list imgid) imgid = list := by
  rw [dtIopprGetIopOrderList_write_text htext, hlist.deserialize]
  exact hlist.numbered

theorem kind_of_not_keepsText (htext : ¬ KeepsText list) :
    dtIopprGetIopOrderListKind list = iopOrderV30 := by
  apply if_pos
  by_contra hfollows
  exact htext (Or.inl (if_neg hfollows))

theorem dtIopprGetIopOrderList_write_plain (htext : ¬ KeepsText list) (db : Database)
    (imgid : ImgId) :
    dtIopprGetIopOrderList (dtIopprWriteIopOrderList db list imgid) imgid =
      iopprResetIopOrder v30OrderList := by
  have hrow : (dtIopprWriteIopOrderList db list imgid).moduleOrder imgid =
      some ⟨some iopOrderV30, none⟩ := by
    rw [dtIopprWriteIopOrderList, dtIopprWriteIopOrder, if_neg (by exact htext),
      kind_of_not_keepsText htext]
    exact Function.update_self ..
  rw [dtIopprGetIopOrderList, hrow]
  rfl

theorem not_keepsText_version (version : Int) :
    ¬ KeepsText (dtIopprGetIopOrderListVersion version) := by
  rw [KeepsText, dtIopprGetIopOrderListVersion]
  split
  · decide
  · decide

theorem dtIopprHasMultipleInstances_eq_false_iff (list : List IopOrderEntry) :
    dtIopprHasMultipleInstances list = false ↔
      (list.map operation).IsChain (· ≠ ·) := by
  match list with
  | [] => exact iff_of_true rfl List.IsChain.nil
  | [a] => exact iff_of_true rfl (List.IsChain.singleton _)
  | a :: b :: list =>
    have ih := dtIopprHasMultipleInstances_eq_false_iff (b :: list)
    rw [map_cons, map_cons, isChain_cons_cons, dtIopprHasMultipleInstances,
      Bool.or_eq_false_iff, beq_eq_false_iff_ne, ih]
    rfl

theorem followsTable_iff_begins {table : List String}
    (hchain : (list.map operation).IsChain (· ≠ ·)) :
    followsTable table list ↔ list.map operation <+: table := by
  induction list generalizing table with
  | nil => exact iff_of_true (by rw [followsTable]) nil_prefix
  | cons entry list ih =>
    cases table with
    | nil => exact iff_of_false Bool.false_ne_true (by simp)
    | cons op table =>
      rw [followsTable, map_cons, cons_prefix_cons, Bool.and_eq_true, beq_iff_eq, eq_comm]
      refine and_congr_right fun hop => ?_
      have hskip : list.dropWhile (fun e => e.operation == op) = list := by
        cases list with
        | nil => rfl
        | cons next list =>
          have hne : entry.operation ≠ next.operation := (isChain_cons_cons.mp hchain).1
          exact dropWhile_cons_of_neg (by simpa [hop] using hne.symm)
      rw [hskip]
      exact ih hchain.tail

theorem eq_v30Operations_of_begins {ops : List String} (hbegins : ops <+: v30Operations ++ [""])
    (hlast : ops.getLast? = some "gamma") : ops = v30Operations := by
  have htable : ∀ n < 31, ((v30Operations ++ [""]).take n).getLast? = some "gamma" →
      (v30Operations ++ [""]).take n = v30Operations := by
    decide
  have hlen : ops.length < 31 := Nat.lt_succ_of_le hbegins.length_le
  rw [prefix_iff_eq_take.mp hbegins] at hlast ⊢
  exact htable _ hlen hlast

theorem not_keepsText_iff (hlast : (list.map operation).getLast? = some "gamma") :
    ¬ KeepsText list ↔ list.map operation = v30Operations := by
  rw [KeepsText, not_or, Bool.not_eq_true, dtIopprHasMultipleInstances_eq_false_iff]
  constructor
  · rintro ⟨hkind, hchain⟩
    apply eq_v30Operations_of_begins _ hlast
    rw [← followsTable_iff_begins hchain]
    by_contra hfollows
    exact hkind (if_neg hfollows)
  · intro hops
    have hchain : (list.map operation).IsChain (· ≠ ·) := by
      rw [hops]
      decide
    have hfollows : followsTable (v30Operations ++ [""]) list := by
      rw [followsTable_iff_begins hchain, hops]
      exact prefix_append ..
    rw [dtIopprGetIopOrderListKind, if_pos hfollows]
    exact ⟨by decide, hchain⟩

def IopOrderEntry.pair (e : IopOrderEntry) : String × Int := (e.operation, e.instanceNo)

theorem map_pair_reset (list : List IopOrderEntry) :
    (iopprResetIopOrder list).map pair = list.map pair := by
  apply ext_getElem
  · simp [iopprResetIopOrder]
  · intro i hi hi'
    simp [iopprResetIopOrder, pair]

theorem map_operation_reset (list : List IopOrderEntry) :
    (iopprResetIopOrder list).map operation = list.map operation := by
  have h := congrArg (List.map Prod.fst) (map_pair_reset list)
  rw [List.map_map, List.map_map] at h
  exact h

theorem sane_reset (hfirst : (list.map operation).head? = some "rawprepare")
    (hlast : (list.map operation).getLast? = some "gamma") :
    iopprSanityCheckIopOrder (iopprResetIopOrder list) := by
  rw [iopprSanityCheckIopOrder, ← head?_map, ← getLast?_map, map_operation_reset, hfirst, hlast]
  rfl

theorem map_pair_v30_iff (hops : list.map operation = v30Operations) :
    v30OrderList.map pair = list.map pair ↔
      ∀ e ∈ list, e.instanceNo = 0 := by
  have hzero : v30OrderList.map pair = list.map fun e => (e.operation, (0 : Int)) := by
    rw [v30OrderList, ← hops, List.map_map, List.map_map]
    rfl
  rw [hzero, map_inj_left]
  exact forall₂_congr fun e _ => by simp [pair, eq_comm]

theorem no_comma_of_get : ∀ e ∈ dtIopprGetIopOrderList db imgid, ',' ∉ e.operation.toList := by
  rcases dtIopprGetIopOrderList_cases db imgid with h | h
  · rw [h]
    exact fun e he => (v30OrderList_plain e he).1
  · exact fun e he => (h.plain e he).1

theorem deserialize_serialize_pairs {list : List IopOrderEntry}
    (hfirst : (list.map IopOrderEntry.operation).head? = some "rawprepare")
    (hlast : (list.map IopOrderEntry.operation).getLast? = some "gamma")
    (hplain : ∀ e ∈ list, PlainOperation e.operation) :
    ∃ list', dtIopprDeserializeTextIopOrderList (dtIopprSerializeTextIopOrderList list) =
        some list' ∧ list'.map IopOrderEntry.pair = list.map IopOrderEntry.pair ∧
      (list'.map IopOrderEntry.iopOrder).Pairwise (· < ·) := by
  refine ⟨_, deserialize_serialize hplain (sane_reset hfirst hlast), map_pair_reset list, ?_⟩
  simp [iopprResetIopOrder, pairwise_iff_getElem]

/-- The list read back has the modules of the list written unless a comma splits an operation, or
the list passes for the built-in order while an instance is not the first one. -/
theorem dtIopprGetIopOrderList_write_iff {list : List IopOrderEntry}
    (hfirst : (list.map IopOrderEntry.operation).head? = some "rawprepare")
    (hlast : (list.map IopOrderEntry.operation).getLast? = some "gamma")
    (hfits : ∀ e ∈ list, e.operation.toList.length ≤ 19) (db : Database) (imgid : ImgId) :
    (dtIopprGetIopOrderList (dtIopprWriteIopOrderList db list imgid) imgid).map
        IopOrderEntry.pair = list.map IopOrderEntry.pair ↔
      (∀ e ∈ list, ',' ∉ e.operation.toList) ∧
        (list.map IopOrderEntry.operation = v30Operations → ∀ e ∈ list, e.instanceNo = 0) := by
  constructor
  · intro h
    constructor
    · intro e he
      have hmem : e.pair ∈ list.map pair := mem_map_of_mem he
      rw [← h] at hmem
      obtain ⟨e', he', hpair⟩ := mem_map.mp hmem
      have hop : e'.operation = e.operation := congrArg Prod.fst hpair
      exact hop ▸ no_comma_of_get _ imgid e' he'
    · intro hops
      rw [dtIopprGetIopOrderList_write_plain ((not_keepsText_iff hlast).mpr hops)] at h
      exact (map_pair_v30_iff hops).mp h
  · rintro ⟨hcomma, hzero⟩
    by_cases htext : KeepsText list
    · rw [dtIopprGetIopOrderList_write_text htext,
        deserialize_serialize (fun e he => ⟨hcomma e he, hfits e he⟩)
          (sane_reset hfirst hlast), map_some,
        getD_some, map_pair_reset, map_pair_reset]
    · have hops := (not_keepsText_iff hlast).mp htext
      rw [dtIopprGetIopOrderList_write_plain htext]
      exact (map_pair_v30_iff hops).mpr (hzero hops)

def sampleOrder : List IopOrderEntry :=
  [⟨1, "rawprepare", 0⟩, ⟨2, "exposure", 1⟩, ⟨3, "gamma", 0⟩]

theorem dtIopprGetIopOrderList_write_sample :
    (dtIopprGetIopOrderList (dtIopprWriteIopOrderList (sampleDb 0 []) sampleOrder 1) 1).map
      IopOrderEntry.pair = [("rawprepare", 0), ("exposure", 1), ("gamma", 0)] :=
  (dtIopprGetIopOrderList_write_iff (by decide) (by decide) (by decide) (sampleDb 0 []) 1).mpr
    ⟨by decide, fun h => absurd h (by decide)⟩

theorem deserialize_serialize_sample :
    ∃ list', dtIopprDeserializeTextIopOrderList "rawprepare,0,exposure,1,gamma,0".toList =
        some list' ∧ list'.map IopOrderEntry.pair = sampleOrder.map IopOrderEntry.pair ∧
      (list'.map IopOrderEntry.iopOrder).Pairwise (· < ·) :=
  @deserialize_serialize_pairs sampleOrder (by decide) (by decide)
    (by unfold PlainOperation; decide)

def secondExposure : List IopOrderEntry :=
  v30OrderList.map fun e => if e.operation = "exposure" then { e with instanceNo := 1 } else e

/-- The operations pass for the built-in order, so the number of the instance is not kept. -/
theorem secondExposure_not_read_back :
    (secondExposure.map IopOrderEntry.operation).head? = some "rawprepare" ∧
      (secondExposure.map IopOrderEntry.operation).getLast? = some "gamma" ∧
      (dtIopprGetIopOrderList (dtIopprWriteIopOrderList (sampleDb 0 []) secondExposure 1) 1).map
        IopOrderEntry.pair ≠ secondExposure.map IopOrderEntry.pair := by
  decide

end DTLite
