import DTLite.Develop.MasksHash
import DTLite.Reasoning.Slots

/-!
# Dropping the forms that are not used

`dt_masks_cleanup_unused_from_list` takes the forms that no mask leads to out of the history.  The
ids that the masks lead to are collected in a table with one slot for each form; an id takes a slot
also if there is no form with it.
-/

namespace DTLite

open Reasoning Relation List

variable {μ : Type}

/-- The table `used` with the id and everything it leads to, `none` if the groups are nested deeper
than `n`. -/
def cleanupUnusedRecurs (forms : List MasksForm) : Nat → List Int → Int → Option (List Int)
  | 0, _, _ => none
  | n + 1, used, formid =>
      (groupMembers forms formid).foldlM (cleanupUnusedRecurs forms n) (store 0 formid used)

variable (history : List (HistoryItem μ))

def usedMasks (historyEnd : Nat) : List Int :=
  ((history.take historyEnd).filter fun hist => 0 < blendMaskId hist.blendParams).map
    fun hist => blobInt hist.blendParams 16

def usedTable (n : Nat) (forms : List MasksForm) (masks : List Int) : Option (List Int) :=
  masks.foldlM (cleanupUnusedRecurs forms n) (List.replicate forms.length 0)

/-- The forms that stay. -/
def masksCleanupUnused (n : Nat) (forms : List MasksForm) (history : List (HistoryItem μ))
    (historyEnd : Nat) : Option (List MasksForm) :=
  (usedTable n forms (usedMasks history historyEnd)).map fun used =>
    forms.filter fun f => holds 0 f.formid used

def isCleaned (hist : HistoryItem μ) : Bool := hist.forms ≠ [] && hist.opName == "mask_manager"

-- the loop from the last item to the first; `num` items are left
def cleanupLoop (n : Nat) :
    Nat → Nat → List (HistoryItem μ) → Option (List (HistoryItem μ))
  | 0, _, history => some history
  | num + 1, historyEnd, history =>
      match history[num]? with
      | none => some history
      | some hist =>
          if isCleaned hist then
            (masksCleanupUnused n hist.forms history historyEnd).bind fun forms =>
              cleanupLoop n num num (history.set num { hist with forms := forms })
          else cleanupLoop n num historyEnd history

def dtMasksCleanupUnusedFromList (n : Nat) (history : List (HistoryItem μ)) :
    Option (List (HistoryItem μ)) :=
  cleanupLoop n history.length history.length history

section Visited

variable {forms : List MasksForm}

-- enough steps for every walk over groups without cycles
def walkBound (forms : List MasksForm) : Nat :=
  (forms.flatMap fun form => form.points.map pointFormid).length + 1

/-- The ids on the way from the masks, each group before its members. -/
def visited (forms : List MasksForm) (masks : List Int) : List Int :=
  (concatM (walk (groupMembers forms) (walkBound forms)) masks).getD []

theorem cleanupUnusedRecurs_eq (n : Nat) (used : List Int) (formid : Int) :
    cleanupUnusedRecurs forms n used formid =
      (walk (groupMembers forms) n formid).map
        (·.foldl (fun used id => store 0 id used) used) := by
  induction n generalizing used formid with
  | zero => rfl
  | succ n ih =>
    rw [cleanupUnusedRecurs, walk, foldlM_eq_concatM ih, Option.map_map]
    rfl

section

variable (hacyclic : Acyclic fun i j => j ∈ groupMembers forms i)
include hacyclic

theorem concatM_walk_eq_visited {n : Nat} (hn : walkBound forms ≤ n) (masks : List Int) :
    concatM (walk (groupMembers forms) n) masks = some (visited forms masks) := by
  obtain ⟨rank, hle, hrank⟩ :=
    hacyclic.exists_rank fun _ _ => mem_pointFormids_of_mem_groupMembers
  have hwalk : ∀ id ∈ masks, (walk (groupMembers forms) (walkBound forms) id).isSome :=
    fun id _ => walk_isSome hrank (Nat.lt_succ_of_le (hle id))
  obtain ⟨w, hw⟩ := Option.isSome_iff_exists.mp (concatM_isSome hwalk)
  unfold visited
  rw [hw]
  exact concatM_mono (fun id _ v => walk_mono hn) hw

theorem mem_visited {masks : List Int}
    {id : Int} : id ∈ visited forms masks ↔ ∃ mask ∈ masks, LeadsTo forms mask id := by
  have hall := concatM_walk_eq_visited hacyclic le_rfl masks
  rw [mem_concatM hall]
  refine exists_congr fun mask => and_congr_right fun hmask => ?_
  obtain ⟨v, hv⟩ := exists_of_concatM hall hmask
  rw [LeadsTo, ← mem_walk hv, hv]
  simp

end

end Visited

/-- The forms of a mask list have different positive ids, and no group contains itself. -/
structure GoodForms (forms : List MasksForm) : Prop where
  nodup : (forms.map MasksForm.formid).Nodup
  pos : ∀ f ∈ forms, 0 < f.formid
  acyclic : Acyclic fun i j => j ∈ groupMembers forms i

/-- Each form that the masks lead to comes, on the way, behind fewer different ids than there are
forms. -/
def SlotsSuffice (forms : List MasksForm) (masks : List Int) : Prop :=
  ∀ f ∈ forms, f.formid ∈ visited forms masks →
    (firstSeen ((visited forms masks).filter (· ≠ 0))).idxOf f.formid < forms.length

section Kept

variable {forms : List MasksForm} {masks : List Int}

def slotIds (forms : List MasksForm) (masks : List Int) : List Int :=
  (firstSeen ((visited forms masks).filter (· ≠ 0))).take forms.length

section

variable (hforms : GoodForms forms)
include hforms

theorem usedTable_eq {n : Nat} (hn : walkBound forms ≤ n) :
    usedTable n forms masks =
      some (slots 0 forms.length (firstSeen ((visited forms masks).filter (· ≠ 0)))) := by
  unfold usedTable
  rw [foldlM_eq_concatM (cleanupUnusedRecurs_eq n), concatM_walk_eq_visited hforms.acyclic hn,
    Option.map_some]
  have hslots : replicate forms.length 0 = slots (0 : Int) forms.length [] := by
    simp [slots]
  rw [hslots, foldl_store not_mem_nil]
  rfl

theorem masksCleanupUnused_eq {n : Nat} (hn : walkBound forms ≤ n)
    (history : List (HistoryItem μ)) (historyEnd : Nat) :
    masksCleanupUnused n forms history historyEnd =
      some (forms.filter fun f => f.formid ∈ slotIds forms (usedMasks history historyEnd)) := by
  unfold masksCleanupUnused
  rw [usedTable_eq hforms hn, Option.map_some]
  congr 1
  apply filter_congr
  intro f hf
  have hzero : (0 : Int) ∉
      firstSeen ((visited forms (usedMasks history historyEnd)).filter (· ≠ 0)) := by
    simp [mem_firstSeen]
  have hpos := hforms.pos f hf
  rw [Bool.eq_iff_iff, holds_slots hzero (by omega)]
  simp [slotIds]

/-- Of the forms that the masks lead to all stay if and only if the slots suffice. -/
theorem filter_slotIds_iff :
    (∀ f, f ∈ forms.filter (fun f => f.formid ∈ slotIds forms masks) ↔
      f ∈ forms ∧ ∃ mask ∈ masks, LeadsTo forms mask f.formid) ↔ SlotsSuffice forms masks := by
  have hslot : ∀ f ∈ forms, f.formid ∈ slotIds forms masks ↔
      f.formid ∈ visited forms masks ∧
        (firstSeen ((visited forms masks).filter (· ≠ 0))).idxOf f.formid < forms.length := by
    intro f hf
    have hpos := hforms.pos f hf
    have hmem : f.formid ∈ firstSeen ((visited forms masks).filter (· ≠ 0)) ↔
        f.formid ∈ visited forms masks := by
      rw [mem_firstSeen, mem_filter]
      simp only [decide_not, Bool.not_eq_eq_eq_not, Bool.not_true, decide_eq_false_iff_not,
        and_iff_left_iff_imp]
      omega
    rw [← hmem]
    constructor
    · intro h
      have hseen := mem_of_mem_take h
      exact ⟨hseen, (mem_take_iff_idxOf_lt hseen).mp h⟩
    · intro h
      exact (mem_take_iff_idxOf_lt h.1).mpr h.2
  simp only [mem_filter, decide_eq_true_eq, ← mem_visited hforms.acyclic]
  constructor
  · intro h f hf hvisited
    exact ((hslot f hf).mp ((h f).mpr ⟨hf, hvisited⟩).2).2
  · intro h f
    refine and_congr_right fun hf => ?_
    rw [hslot f hf]
    exact ⟨And.left, fun hvisited => ⟨hvisited, h f hf hvisited⟩⟩

end

end Kept

/-! ## The whole history -/

/-- The range of the list at position `k`: up to the next item whose forms are cleaned. -/
def rangeEnd (k : Nat) : Nat :=
  k + 1 + (history.drop (k + 1)).findIdx isCleaned

def cleanedItem (k : Nat) (hist : HistoryItem μ) : HistoryItem μ :=
  if isCleaned hist then
    { hist with
      forms := hist.forms.filter fun f =>
        f.formid ∈ slotIds hist.forms (usedMasks history (rangeEnd history k)) }
  else hist

theorem usedMasks_congr {history history' : List (HistoryItem μ)}
    (h : history.map HistoryItem.blendParams = history'.map HistoryItem.blendParams)
    (historyEnd : Nat) : usedMasks history historyEnd = usedMasks history' historyEnd := by
  have hblend : ∀ items : List (HistoryItem μ), usedMasks items historyEnd =
      (((items.map HistoryItem.blendParams).take historyEnd).filter
        fun blend => 0 < blendMaskId blend).map fun blend => blobInt blend 16 := by
    intro items
    rw [← List.map_take, List.filter_map, List.map_map]
    rfl
  rw [hblend, hblend, h]

theorem set_eq_self_of_getElem? {α : Type*} {l : List α} {i : Nat} {a : α} (h : l[i]? = some a) :
    l.set i a = l := by
  obtain ⟨hi, rfl⟩ := List.getElem?_eq_some_iff.mp h
  exact List.set_getElem_self hi

section Loop

variable {n : Nat} {orig : List (HistoryItem μ)}

/-- The loop has cleaned the items from `num` on, and the range of the next list is known. -/
structure Cleaning (orig : List (HistoryItem μ)) (num historyEnd : Nat)
    (cur : List (HistoryItem μ)) : Prop where
  below : ∀ i, i < num → cur[i]? = orig[i]?
  above : ∀ i, num ≤ i → cur[i]? = orig[i]?.map (cleanedItem orig i)
  blend : cur.map HistoryItem.blendParams = orig.map HistoryItem.blendParams
  historyEnd_eq : historyEnd = num + (orig.drop num).findIdx isCleaned

theorem Cleaning.start (orig : List (HistoryItem μ)) :
    Cleaning orig orig.length orig.length orig where
  below _ _ := rfl
  above i hi := by
    rw [getElem?_eq_none hi]
    rfl
  blend := rfl
  historyEnd_eq := by simp

variable {num historyEnd : Nat} {cur : List (HistoryItem μ)} {hist : HistoryItem μ}

theorem Cleaning.step (h : Cleaning orig (num + 1) historyEnd cur) (hget : orig[num]? = some hist) :
    Cleaning orig num (if isCleaned hist then num else historyEnd)
      (cur.set num (cleanedItem orig num hist)) := by
  have hlt : num < orig.length := (List.getElem?_eq_some_iff.mp hget).1
  have hlen : cur.length = orig.length := by
    have hmap := congrArg length h.blend
    rwa [length_map, length_map] at hmap
  refine ⟨?_, ?_, ?_, ?_⟩
  · intro i hi
    rw [getElem?_set_ne (by omega)]
    exact h.below i (by omega)
  · intro i hi
    by_cases hin : i = num
    · rw [hin, getElem?_set_self (by omega), hget]
      rfl
    · rw [getElem?_set_ne (Ne.symm hin)]
      exact h.above i (by omega)
  · -- the item keeps its blend params
    have hblend : (cleanedItem orig num hist).blendParams = hist.blendParams := by
      unfold cleanedItem
      split <;> rfl
    rw [map_set, hblend, h.blend]
    apply set_eq_self_of_getElem?
    rw [getElem?_map, hget]
    rfl
  · have hdrop : orig.drop num = hist :: orig.drop (num + 1) := by
      rw [List.drop_eq_getElem_cons hlt, (List.getElem?_eq_some_iff.mp hget).2]
    rw [hdrop, List.findIdx_cons, h.historyEnd_eq]
    cases isCleaned hist
    · simp only [Bool.false_eq_true, if_false, cond_false]
      omega
    · rfl

theorem cleanupLoop_eq_some (h : Cleaning orig num historyEnd cur) (hnum : num ≤ orig.length)
    (hgood : ∀ hist ∈ orig, isCleaned hist → GoodForms hist.forms ∧ walkBound hist.forms ≤ n) :
    ∃ res end', cleanupLoop n num historyEnd cur = some res ∧ Cleaning orig 0 end' res := by
  induction num generalizing historyEnd cur with
  | zero => exact ⟨cur, historyEnd, rfl, h⟩
  | succ num ih =>
    obtain ⟨hist, hget⟩ : ∃ hist, orig[num]? = some hist := ⟨_, getElem?_eq_getElem (by omega)⟩
    have hcur : cur[num]? = some hist := (h.below num (Nat.lt_succ_self num)).trans hget
    have hstep := h.step hget
    rw [cleanupLoop, hcur]
    dsimp only
    by_cases hclean : isCleaned hist
    · obtain ⟨hforms, hn⟩ := hgood hist (mem_of_getElem? hget) hclean
      have hend : historyEnd = rangeEnd orig num := h.historyEnd_eq
      rw [if_pos hclean] at hstep
      rw [if_pos hclean, masksCleanupUnused_eq hforms hn, usedMasks_congr h.blend, hend]
      unfold cleanedItem at hstep
      rw [if_pos hclean] at hstep
      exact ih hstep (by omega)
    · have hsame : cleanedItem orig num hist = hist := if_neg hclean
      rw [if_neg hclean, hsame, set_eq_self_of_getElem? hcur] at hstep
      rw [if_neg hclean]
      exact ih hstep (by omega)

end Loop

theorem exists_walkBound_le : ∃ n, ∀ hist ∈ history, walkBound hist.forms ≤ n := by
  induction history with
  | nil => exact ⟨0, by simp⟩
  | cons hist history ih =>
    obtain ⟨n, hn⟩ := ih
    refine ⟨max (walkBound hist.forms) n, ?_⟩
    intro h hmem
    rcases mem_cons.mp hmem with rfl | hmem
    · exact Nat.le_max_left _ _
    · exact (hn h hmem).trans (Nat.le_max_right _ _)

/-- The clean-up comes to an end, and a list that it has cleaned holds exactly the forms that the
masks in its range lead to if and only if its slots suffice. -/
theorem dtMasksCleanupUnusedFromList_exact_iff (history : List (HistoryItem μ))
    (hgood : ∀ hist ∈ history, isCleaned hist → GoodForms hist.forms) :
    ∃ n history', dtMasksCleanupUnusedFromList n history = some history' ∧
      ∀ k hist, history[k]? = some hist → isCleaned hist →
        ∃ hist', history'[k]? = some hist' ∧
          ((∀ f, f ∈ hist'.forms ↔ f ∈ hist.forms ∧
              ∃ mask ∈ usedMasks history (rangeEnd history k), LeadsTo hist.forms mask f.formid) ↔
            SlotsSuffice hist.forms (usedMasks history (rangeEnd history k))) := by
  obtain ⟨n, hn⟩ := exists_walkBound_le history
  obtain ⟨history', _, hres, hclean⟩ := cleanupLoop_eq_some (n := n) (Cleaning.start history) le_rfl
    fun hist hmem hcleaned => ⟨hgood hist hmem hcleaned, hn hist hmem⟩
  refine ⟨n, history', hres, ?_⟩
  intro k hist hget hcleaned
  have hk := hclean.above k (Nat.zero_le k)
  rw [hget] at hk
  refine ⟨cleanedItem history k hist, hk, ?_⟩
  rw [← filter_slotIds_iff (hgood hist (mem_of_getElem? hget) hcleaned)]
  unfold cleanedItem
  rw [if_pos hcleaned]

-- exposure uses the mask 1; then the mask manager holds the forms
def maskedHistory (members : List UInt8) : List (HistoryItem ModuleRef) :=
  [{ sampleItem 2 with blendParams := List.replicate 16 0 ++ [1, 0, 0, 0] },
   { sampleItem 0 with opName := "mask_manager", forms := groupAndCircle members }]

section

variable {members : List UInt8} (h : ∀ id ∈ members, pointFormid (groupPoint id) ≠ 1)
include h

theorem goodForms_groupAndCircle : GoodForms (groupAndCircle members) where
  nodup := by simp [groupAndCircle]
  pos := by simp [groupAndCircle]
  acyclic := acyclic_groupAndCircle h

theorem goodForms_maskedHistory :
    ∀ hist ∈ maskedHistory members, isCleaned hist → GoodForms hist.forms := by
  intro hist hmem hclean
  simp only [maskedHistory, mem_cons, not_mem_nil, or_false] at hmem
  rcases hmem with rfl | rfl
  · cases hclean
  · exact goodForms_groupAndCircle h

end

theorem dtMasksCleanupUnusedFromList_exact_circle :
    ∃ n history', dtMasksCleanupUnusedFromList n (maskedHistory [2]) = some history' ∧
      ∃ hist', history'[1]? = some hist' ∧
        ∀ f, f ∈ hist'.forms ↔ f ∈ groupAndCircle [2] ∧
          ∃ mask ∈ usedMasks (maskedHistory [2]) (rangeEnd (maskedHistory [2]) 1),
            LeadsTo (groupAndCircle [2]) mask f.formid := by
  obtain ⟨n, history', hclean, hexact⟩ := dtMasksCleanupUnusedFromList_exact_iff (maskedHistory [2])
    (goodForms_maskedHistory (forall_mem_singleton.mpr (by decide)))
  obtain ⟨hist', hget, hiff⟩ := hexact 1 _ rfl rfl
  have hslots : SlotsSuffice (groupAndCircle [2])
      (usedMasks (maskedHistory [2]) (rangeEnd (maskedHistory [2]) 1)) := by
    unfold SlotsSuffice
    decide
  exact ⟨n, history', hclean, hist', hget, hiff.mpr hslots⟩

/-- The mask of exposure is a group of the form 99, which is gone, and the circle 2: with the two
forms there are two slots, which the group and the missing form take, and the circle is dropped. -/
theorem cleanup_drops_used :
    (∀ hist ∈ maskedHistory [99, 2], isCleaned hist → GoodForms hist.forms) ∧
    (1 ∈ usedMasks (maskedHistory [99, 2]) (rangeEnd (maskedHistory [99, 2]) 1) ∧
      LeadsTo (groupAndCircle [99, 2]) 1 2) ∧
    ∃ history', dtMasksCleanupUnusedFromList 2 (maskedHistory [99, 2]) = some history' ∧
      (history'[1]?.map fun hist => hist.forms.map MasksForm.formid) = some [1] := by
  have hmembers : ∀ id ∈ [(99 : UInt8), 2], pointFormid (groupPoint id) ≠ 1 :=
    forall_mem_cons.mpr ⟨by decide, forall_mem_singleton.mpr (by decide)⟩
  refine ⟨goodForms_maskedHistory hmembers, ⟨by decide, .single (by decide)⟩, ?_⟩
  exact ⟨_, rfl, by decide⟩

end DTLite
