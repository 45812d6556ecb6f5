import DTLite.Common.Undo
import DTLite.Reasoning.Runs

/-!
# The time line of the undo lists

With a filter that matches everything, undo and redo only move a cursor along one sequence of items,
and a redo takes back an undo where both stop at the same places.
-/

namespace DTLite

open Reasoning List

variable {α : Type}

-- All items from the oldest to the newest; the undo list is what is before the cursor.
def Undo.timeline (u : Undo α) : List (UndoItem α) := u.undoList.reverse ++ u.redoList

def Undo.cursor (u : Undo α) : Nat := u.undoList.length

def Undo.MatchesAll (u : Undo α) (filter : UInt32) : Prop :=
  ∀ item ∈ u.undoList ++ u.redoList, item.matchesFilter filter

instance Undo.decidableMatchesAll (u : Undo α) (filter : UInt32) :
    Decidable (u.MatchesAll filter) :=
  inferInstanceAs (Decidable (∀ item ∈ _, _))

abbrev UndoCall := UndoAction × UInt32

def undoStep (u : Undo α) (call : UndoCall) : Undo α := (undoDoUndoRedo u call.2 call.1).1

def undoCallbacks (u : Undo α) (call : UndoCall) : List (UndoItem α) :=
  (undoDoUndoRedo u call.2 call.1).2

variable {u : Undo α} {filter : UInt32}

theorem undoRedoLists_takes_all {src : List (UndoItem α)}
    (hall : ∀ item ∈ src, item.matchesFilter filter) (dst : List (UndoItem α)) :
    ∃ rest, (undoRedoLists filter dst src).Takes src dst [] (callSpan filter src) rest := by
  obtain ⟨rest, h⟩ := undoRedoLists_takes filter dst src
  have hskip : src.takeWhile (!·.matchesFilter filter) = [] := by
    cases src with
    | nil => rfl
    | cons item src =>
      exact takeWhile_cons_of_neg (by simp [hall item mem_cons_self])
  rw [hskip] at h
  exact ⟨rest, h⟩

/-- An undo moves the newest items, a redo the oldest ones that were undone. -/
theorem undoStep_undo (hall : u.MatchesAll filter) :
    ∃ rest, u.undoList = callSpan filter u.undoList ++ rest ∧
      undoStep u (.undo, filter) =
        { u with undoList := rest
                 redoList := (callSpan filter u.undoList).reverse ++ u.redoList } ∧
      undoCallbacks u (.undo, filter) = (callSpan filter u.undoList).filter (!·.isGroup) := by
  obtain ⟨rest, h⟩ := undoRedoLists_takes_all
    (fun item hitem => hall item (mem_append_left _ hitem)) u.redoList
  refine ⟨rest, h.before, ?_, h.called_eq⟩
  show { u with undoList := _, redoList := _ } = _
  rw [h.src_eq, h.dst_eq]
  rfl

theorem undoStep_redo (hall : u.MatchesAll filter) :
    ∃ rest, u.redoList = callSpan filter u.redoList ++ rest ∧
      undoStep u (.redo, filter) =
        { u with undoList := (callSpan filter u.redoList).reverse ++ u.undoList
                 redoList := rest } ∧
      undoCallbacks u (.redo, filter) = (callSpan filter u.redoList).filter (!·.isGroup) := by
  obtain ⟨rest, h⟩ := undoRedoLists_takes_all
    (fun item hitem => hall item (mem_append_right _ hitem)) u.undoList
  refine ⟨rest, h.before, ?_, h.called_eq⟩
  show { u with redoList := _, undoList := _ } = _
  rw [h.src_eq, h.dst_eq]
  rfl

theorem timeline_undoStep {call : UndoCall} (hall : u.MatchesAll call.2) :
    (undoStep u call).timeline = u.timeline := by
  obtain ⟨action, filter⟩ := call
  cases action with
  | undo =>
    obtain ⟨rest, hbefore, hafter, -⟩ := undoStep_undo hall
    rw [hafter]
    show rest.reverse ++ ((callSpan filter u.undoList).reverse ++ u.redoList) = u.timeline
    rw [← append_assoc, ← reverse_append, ← hbefore]
    rfl
  | redo =>
    obtain ⟨rest, hbefore, hafter, -⟩ := undoStep_redo hall
    rw [hafter]
    show ((callSpan filter u.redoList).reverse ++ u.undoList).reverse ++ rest = u.timeline
    rw [reverse_append, reverse_reverse, append_assoc, ← hbefore]
    rfl

/-- Callbacks are for the items between the old and the new cursor, without the group items, newest
first for an undo and oldest first for a redo. -/
def CallbacksBetween (u : Undo α) (call : UndoCall) : Prop :=
  let after := undoStep u call
  match call.1 with
  | .undo =>
      after.cursor ≤ u.cursor ∧
        undoCallbacks u call =
          (((u.timeline.take u.cursor).drop after.cursor).reverse).filter (!·.isGroup)
  | .redo =>
      u.cursor ≤ after.cursor ∧
        undoCallbacks u call =
          ((u.timeline.take after.cursor).drop u.cursor).filter (!·.isGroup)

theorem take_cursor_timeline (u : Undo α) : u.timeline.take u.cursor = u.undoList.reverse := by
  rw [Undo.timeline, Undo.cursor, ← length_reverse, take_left]

theorem callbacksBetween {call : UndoCall} (hall : u.MatchesAll call.2) :
    CallbacksBetween u call := by
  have htimeline := timeline_undoStep hall
  obtain ⟨action, filter⟩ := call
  cases action with
  | undo =>
    obtain ⟨rest, hbefore, hafter, hcalled⟩ := undoStep_undo hall
    have hcursor : (undoStep u (.undo, filter)).cursor = rest.length := by
      rw [hafter]
      rfl
    show _ ≤ _ ∧ _ = _
    rw [hcursor, take_cursor_timeline, hcalled]
    constructor
    · rw [Undo.cursor, hbefore, length_append]
      omega
    · conv => rhs; rw [hbefore]
      rw [reverse_append, show rest.length = rest.reverse.length from
        length_reverse.symm, drop_left, reverse_reverse]
  | redo =>
    obtain ⟨rest, hbefore, hafter, hcalled⟩ := undoStep_redo hall
    have hundo : (undoStep u (.redo, filter)).undoList =
        (callSpan filter u.redoList).reverse ++ u.undoList := by
      rw [hafter]
    show _ ≤ _ ∧ _ = _
    rw [← htimeline, take_cursor_timeline, hcalled]
    constructor
    · rw [Undo.cursor, Undo.cursor, hundo, length_append]
      omega
    · rw [hundo, reverse_append, reverse_reverse, show u.cursor =
        u.undoList.reverse.length from length_reverse.symm, drop_left]

/-- Along every run of undo and redo calls whose filters match all items, the time line stays what
it was, and each call is back for the items that its cursor passes. -/
theorem undo_redo_timeline {u : Undo α} {calls : List UndoCall}
    (hall : AllSteps undoStep (fun u call => u.MatchesAll call.2) u calls) :
    AllStates undoStep (fun v => v.timeline = u.timeline) u calls ∧
      AllSteps undoStep CallbacksBetween u calls := by
  constructor
  · refine allStates_of_allSteps (fun v call hv hcall => ?_) rfl hall
    rw [timeline_undoStep hcall, hv]
  · exact hall.mono fun v call => callbacksBetween

-- Two changes of the ratings in one period and one before it.
def sampleTimeline : Undo Nat :=
  { dtUndoInit with
    undoList := [⟨some 3, 8, 10, false⟩, ⟨some 2, 8, 39 / 4, false⟩, ⟨some 1, 8, 0, false⟩] }

theorem undo_redo_timeline_sample :
    AllStates undoStep (fun v => v.timeline = sampleTimeline.timeline) sampleTimeline
        [(.undo, 8), (.undo, 8), (.redo, 24)] ∧
      AllSteps undoStep CallbacksBetween sampleTimeline [(.undo, 8), (.undo, 8), (.redo, 24)] :=
  undo_redo_timeline (by decide +kernel)

/-! ## Redo after undo -/

-- Each item is in a group that began behind the first item, or near that item.
def InPeriod (firstItemTs : Rat) : Bool → List (UndoItem α) → Prop
  | _, [] => True
  | inGroup, item :: list =>
      (inGroup ∨ item.isNear firstItemTs) ∧ InPeriod firstItemTs (inGroup ^^ item.isGroup) list

def inGroupAfter (inGroup : Bool) (list : List (UndoItem α)) : Bool :=
  list.foldl (fun inGroup item => inGroup ^^ item.isGroup) inGroup

/-- A group up to its other group item or the end of the list; or the items of a period, with the
one behind them neither in the period nor in a group that is still open. -/
def OneStop (stop rest : List (UndoItem α)) : Prop :=
  match stop with
  | [] => False
  | first :: stop =>
      if first.isGroup then
        (stop.dropLast.all (!·.isGroup) ∧ stop.getLast?.any (·.isGroup)) ∨
          (stop.all (!·.isGroup) ∧ rest = [])
      else
        InPeriod first.ts false stop ∧
          rest.head?.all fun next => !(inGroupAfter false stop || next.isNear first.ts)

theorem groupSpan_eq_iff (stop rest : List (UndoItem α)) :
    groupSpan (stop ++ rest) = stop ↔
      (stop.dropLast.all (!·.isGroup) ∧ stop.getLast?.any (·.isGroup)) ∨
        (stop.all (!·.isGroup) ∧ rest = []) := by
  induction stop with
  | nil =>
    cases rest with
    | nil => simp [groupSpan]
    | cons item rest =>
      simp only [nil_append, groupSpan]
      split <;> simp
  | cons item stop ih =>
    rw [cons_append, groupSpan]
    cases hitem : item.isGroup with
    | true =>
      -- the group ends here, so there is nothing behind
      cases stop with
      | nil => simp [hitem]
      | cons next stop => simp [hitem]
    | false =>
      rw [if_neg (by decide), cons.injEq, ih]
      cases stop with
      | nil => simp [hitem]
      | cons next stop => simp [hitem]

variable {stop rest : List (UndoItem α)}

theorem periodSpan_eq_iff (firstItemTs : Rat) (inGroup : Bool)
    (hall : ∀ item ∈ stop ++ rest, item.matchesFilter filter) :
    periodSpan filter firstItemTs inGroup (stop ++ rest) = stop ↔
      InPeriod firstItemTs inGroup stop ∧
        rest.head?.all fun next => !(inGroupAfter inGroup stop || next.isNear firstItemTs) := by
  induction stop generalizing inGroup with
  | nil =>
    cases rest with
    | nil => simp [periodSpan, InPeriod]
    | cons item rest =>
      have hitem := hall item mem_cons_self
      simp only [nil_append, periodSpan, hitem, InPeriod,
        head?_cons, Option.all_some, inGroupAfter, foldl_nil]
      cases inGroup || item.isNear firstItemTs <;> simp
  | cons item stop ih =>
    have hitem := hall item mem_cons_self
    rw [cons_append, periodSpan, hitem, Bool.true_and, InPeriod]
    by_cases hin : (inGroup || item.isNear firstItemTs) = true
    · rw [if_pos hin, cons.injEq, eq_self, true_and,
        ih _ fun item' hitem' => hall item' (mem_cons_of_mem _ hitem')]
      rw [Bool.or_eq_true] at hin
      rw [and_iff_right hin]
      rfl
    · rw [if_neg hin]
      rw [Bool.or_eq_true] at hin
      exact iff_of_false (cons_ne_nil _ _).symm fun h => hin h.1.1

/-- A call takes exactly the items of one stop. -/
theorem callSpan_eq_iff
    (hall : ∀ item ∈ stop ++ rest, item.matchesFilter filter) (hne : stop ++ rest ≠ []) :
    callSpan filter (stop ++ rest) = stop ↔ OneStop stop rest := by
  cases stop with
  | nil =>
    obtain ⟨item, list, rfl⟩ := exists_cons_of_ne_nil hne
    rw [nil_append, callSpan, if_pos (hall item mem_cons_self)]
    exact iff_of_false (cons_ne_nil _ _) id
  | cons first stop =>
    have htail := fun item hitem => hall item (mem_cons_of_mem first hitem)
    rw [cons_append, callSpan, if_pos (hall first mem_cons_self), cons.injEq,
      eq_self, true_and, OneStop]
    split
    · exact groupSpan_eq_iff stop rest
    · exact periodSpan_eq_iff first.ts false htail

/-- A redo takes back an undo exactly if it takes what the undo moved. -/
theorem redo_undo_lists_iff (hall : u.MatchesAll filter) :
    let redone := undoStep (undoStep u (.undo, filter)) (.redo, filter)
    let moved := callSpan filter u.undoList
    (redone.undoList = u.undoList ∧ redone.redoList = u.redoList) ↔
      callSpan filter (moved.reverse ++ u.redoList) = moved.reverse := by
  intro redone moved
  obtain ⟨rest, hbefore, hundone, -⟩ := undoStep_undo hall
  have hredoList : (undoStep u (.undo, filter)).redoList = moved.reverse ++ u.redoList := by
    rw [hundone]
  have hundoList : (undoStep u (.undo, filter)).undoList = rest := by rw [hundone]
  have hallUndone : (undoStep u (.undo, filter)).MatchesAll filter := by
    intro item hitem
    rw [hundoList, hredoList] at hitem
    apply hall item
    rw [hbefore]
    simp only [mem_append, mem_reverse] at hitem ⊢
    tauto
  obtain ⟨rest', hbefore', hredone, -⟩ := undoStep_redo hallUndone
  rw [hredoList] at hbefore'
  have hundoList' : redone.undoList =
      (callSpan filter (moved.reverse ++ u.redoList)).reverse ++ rest := by
    rw [show redone = _ from hredone, hredoList, hundoList]
  have hredoList' : redone.redoList = rest' := by rw [show redone = _ from hredone]
  rw [hundoList', hredoList', show u.undoList = moved ++ rest from hbefore]
  constructor
  · rintro ⟨hundo, -⟩
    exact reverse_eq_iff.mp (append_cancel_right hundo)
  · intro hspan
    rw [hspan] at hbefore'
    rw [hspan, reverse_reverse]
    exact ⟨rfl, (append_cancel_left hbefore').symm⟩

/-- A redo after an undo restores both lists exactly if the items that were one stop for the undo
are also one stop for the redo. -/
theorem redo_undo_restores_iff {u : Undo α} {filter : UInt32} (hall : u.MatchesAll filter)
    (hmoved : u.undoList ≠ []) :
    let redone := undoStep (undoStep u (.undo, filter)) (.redo, filter)
    (redone.undoList = u.undoList ∧ redone.redoList = u.redoList) ↔
      ∃ stop rest, u.undoList = stop ++ rest ∧ OneStop stop rest ∧
        OneStop stop.reverse u.redoList := by
  intro redone
  have hmatches : ∀ {stop rest : List (UndoItem α)}, u.undoList = stop ++ rest →
      (∀ item ∈ stop ++ rest, item.matchesFilter filter) ∧
        ∀ item ∈ stop.reverse ++ u.redoList, item.matchesFilter filter := by
    intro stop rest heq
    refine ⟨fun item hitem => hall item (mem_append_left _ (heq ▸ hitem)), ?_⟩
    intro item hitem
    apply hall item
    rw [heq]
    simp only [mem_append, mem_reverse] at hitem ⊢
    tauto
  -- a stop is what a call takes, on both sides
  have hstops : ∀ {stop rest : List (UndoItem α)}, u.undoList = stop ++ rest →
      (OneStop stop rest ↔ callSpan filter u.undoList = stop) := by
    intro stop rest heq
    rw [← callSpan_eq_iff (hmatches heq).1 (heq ▸ hmoved), ← heq]
  have hreversed : ∀ {stop rest : List (UndoItem α)}, u.undoList = stop ++ rest → stop ≠ [] →
      (OneStop stop.reverse u.redoList ↔
        callSpan filter (stop.reverse ++ u.redoList) = stop.reverse) := by
    intro stop rest heq hne
    exact (callSpan_eq_iff (hmatches heq).2 (by simp [hne])).symm
  have hne : ∀ {stop rest : List (UndoItem α)}, OneStop stop rest → stop ≠ [] := by
    rintro stop rest h rfl
    exact h
  refine (redo_undo_lists_iff hall).trans ?_
  constructor
  · intro hspan
    obtain ⟨rest, hbefore, -⟩ := undoStep_undo hall
    have hfirst := (hstops hbefore).mpr rfl
    exact ⟨_, rest, hbefore, hfirst, (hreversed hbefore (hne hfirst)).mpr hspan⟩
  · rintro ⟨stop, rest, heq, hstop, hsecond⟩
    rw [(hstops heq).mp hstop]
    exact (hreversed heq (hne hstop)).mp hsecond

theorem redo_undo_restores_sample :
    let redone := undoStep (undoStep sampleTimeline (.undo, 8)) (.redo, 8)
    redone.undoList = sampleTimeline.undoList ∧ redone.redoList = sampleTimeline.redoList :=
  (redo_undo_restores_iff (by decide +kernel) (by decide)).mpr
    ⟨[⟨some 3, 8, 10, false⟩, ⟨some 2, 8, 39 / 4, false⟩], [⟨some 1, 8, 0, false⟩], rfl,
      ⟨⟨Or.inr (by decide +kernel), trivial⟩, by decide +kernel⟩,
      ⟨⟨Or.inr (by decide +kernel), trivial⟩, by decide +kernel⟩⟩

-- Three changes of the ratings, the second 0.4 seconds after the first and the third 0.3 later.
def sampleThree : Undo Nat :=
  { dtUndoInit with
    undoList := [⟨some 3, 8, 103 / 10, false⟩, ⟨some 2, 8, 10, false⟩, ⟨some 1, 8, 48 / 5, false⟩] }

/-- The first undo stops before the oldest change. Seen from that one the second change is in the
same period, so that a redo after the second undo takes both. -/
theorem redo_after_undo_takes_more :
    let undone := undoStep sampleThree (.undo, 8)
    let redone := undoStep (undoStep undone (.undo, 8)) (.redo, 8)
    undone.MatchesAll 8 ∧
      undone.undoList = [⟨some 1, 8, 48 / 5, false⟩] ∧
      redone.undoList = [⟨some 2, 8, 10, false⟩, ⟨some 1, 8, 48 / 5, false⟩] ∧
      ¬ (redone.undoList = undone.undoList ∧ redone.redoList = undone.redoList) := by
  decide +kernel

end DTLite
