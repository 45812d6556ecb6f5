import Mathlib.Algebra.Order.Field.Rat
import Mathlib.Data.List.Basic

/-!
# The undo lists

Changes are recorded at the head of the undo list.  One call of undo or redo moves some of them from
one list to the head of the other and calls back for each; what one call takes is a group between
two markers, or the items of a short period of time.
-/

namespace DTLite

open List

-- `dt_undo_action_t`.
inductive UndoAction where
  | undo
  | redo
deriving DecidableEq, Repr

-- `DT_UNDO_NONE`.
def undoNone : UInt32 := 0

/-- `dt_undo_item_t`. `data` stands for `user_data`, `data` and the callbacks, which are `NULL` in a
group item. -/
structure UndoItem (α : Type) where
  data : Option α
  type : UInt32
  ts : Rat
  isGroup : Bool
deriving DecidableEq, Repr

/-- `dt_undo_t`. -/
structure Undo (α : Type) where
  undoList : List (UndoItem α)
  redoList : List (UndoItem α)
  group : UInt32
  groupIndent : Int
  locked : Bool
  disableNext : Bool
deriving DecidableEq, Repr

variable {α : Type}

def dtUndoInit : Undo α where
  undoList := []
  redoList := []
  group := undoNone
  groupIndent := 0
  locked := false
  disableNext := false

variable (self : Undo α)

def undoRecord (item : UndoItem α) : Undo α :=
  if self.disableNext then { self with disableNext := false }
  -- in an undo or redo callback the event is skipped
  else if self.locked then self
  -- recording an undo data invalidates all the redo
  else { self with undoList := item :: self.undoList, redoList := [] }

def groupItem (type : UInt32) (ts : Rat) : UndoItem α := ⟨none, type, ts, true⟩

def dtUndoStartGroup (type : UInt32) (ts : Rat) : Undo α :=
  if self.group = undoNone then
    undoRecord { self with group := type, groupIndent := 1 } (groupItem type ts)
  else { self with groupIndent := self.groupIndent + 1 }

-- Asserts that a group is open.
def dtUndoEndGroup (ts : Rat) : Undo α :=
  let self := { self with groupIndent := self.groupIndent - 1 }
  if self.groupIndent = 0 then
    { undoRecord self (groupItem self.group ts) with group := undoNone }
  else self

def dtUndoRecord (type : UInt32) (data : α) (ts : Rat) : Undo α :=
  undoRecord self ⟨some data, type, ts, false⟩

-- `item->type & filter`.
def UndoItem.matchesFilter (item : UndoItem α) (filter : UInt32) : Bool := item.type &&& filter != 0

-- `fabs(item->ts - first_item_ts) < MAX_TIME_PERIOD`.
def UndoItem.isNear (item : UndoItem α) (firstItemTs : Rat) : Bool :=
  |item.ts - firstItemTs| < 1 / 2

/-- What follows in the FROM list, the TO list, and the items called back for, in order. -/
structure UndoMove (α : Type) where
  src : List (UndoItem α)
  dst : List (UndoItem α)
  called : List (UndoItem α)
deriving DecidableEq, Repr

open UndoMove

-- Up to the next group item. No item is in the lists twice, so `g_list_remove` takes out this one.
def groupLoop : List (UndoItem α) → List (UndoItem α) → List (UndoItem α) → UndoMove α
  | [], dst, called => ⟨[], dst, called⟩
  | item :: src, dst, called =>
      if item.isGroup then ⟨src, item :: dst, called⟩
      else groupLoop src (item :: dst) (called ++ [item])

-- "handle all items of the same type and in the same time period".
def periodLoop (filter : UInt32) (firstItemTs : Rat) :
    Bool → List (UndoItem α) → List (UndoItem α) → List (UndoItem α) → UndoMove α
  | _, [], dst, called => ⟨[], dst, called⟩
  | inGroup, item :: src, dst, called =>
      if item.matchesFilter filter && (inGroup || item.isNear firstItemTs) then
        if item.isGroup then periodLoop filter firstItemTs (!inGroup) src (item :: dst) called
        else periodLoop filter firstItemTs inGroup src (item :: dst) (called ++ [item])
      else ⟨item :: src, dst, called⟩

-- From the first item on that is matching the given pattern.
def undoRedoLists (filter : UInt32) (dst : List (UndoItem α)) : List (UndoItem α) → UndoMove α
  | [] => ⟨[], dst, []⟩
  | item :: src =>
      if item.matchesFilter filter then
        if item.isGroup then groupLoop src (item :: dst) []
        else periodLoop filter item.ts false src (item :: dst) [item]
      else
        let r := undoRedoLists filter dst src
        { r with src := item :: r.src }

variable (filter : UInt32)

/-- With the items that are called back for. -/
def undoDoUndoRedo : UndoAction → Undo α × List (UndoItem α)
  | .undo =>
      let r := undoRedoLists filter self.redoList self.undoList
      ({ self with undoList := r.src, redoList := r.dst }, r.called)
  | .redo =>
      let r := undoRedoLists filter self.undoList self.redoList
      ({ self with redoList := r.src, undoList := r.dst }, r.called)

-- `dt_undo_do_undo` and `dt_undo_do_redo`.
def dtUndoDoUndo : Undo α × List (UndoItem α) :=
  undoDoUndoRedo self filter .undo
def dtUndoDoRedo : Undo α × List (UndoItem α) :=
  undoDoUndoRedo self filter .redo

/-- The items `moved` went from one head to the other, one by one, all but group items called back
for. -/
structure UndoMove.Moves (r : UndoMove α) (src dst called moved : List (UndoItem α)) : Prop where
  src_eq : src = moved ++ r.src
  dst_eq : r.dst = moved.reverse ++ dst
  called_eq : r.called = called ++ moved.filter (!·.isGroup)

theorem UndoMove.Moves.cons {r : UndoMove α} {item : UndoItem α}
    {src dst called moved : List (UndoItem α)}
    (h : r.Moves src (item :: dst) (called ++ if item.isGroup then [] else [item]) moved) :
    r.Moves (item :: src) dst called (item :: moved) where
  src_eq := congrArg (item :: ·) h.src_eq
  dst_eq := by rw [h.dst_eq, reverse_cons, append_assoc, singleton_append]
  called_eq := by
    rw [h.called_eq, append_assoc, filter_cons]
    cases item.isGroup <;> rfl

variable (src dst called : List (UndoItem α))

theorem UndoMove.Moves.nil : Moves ⟨src, dst, called⟩ src dst called [] :=
  ⟨rfl, rfl, (append_nil called).symm⟩

def groupSpan : List (UndoItem α) → List (UndoItem α)
  | [] => []
  | item :: src => if item.isGroup then [item] else item :: groupSpan src

def periodSpan (filter : UInt32) (firstItemTs : Rat) :
    Bool → List (UndoItem α) → List (UndoItem α)
  | _, [] => []
  | inGroup, item :: src =>
      if item.matchesFilter filter && (inGroup || item.isNear firstItemTs) then
        item :: periodSpan filter firstItemTs (inGroup ^^ item.isGroup) src
      else []

theorem groupLoop_moves : (groupLoop src dst called).Moves src dst called (groupSpan src) := by
  induction src generalizing dst called with
  | nil => exact Moves.nil [] dst called
  | cons item src ih =>
    rw [groupLoop, groupSpan]
    split
    · next hitem =>
      apply Moves.cons
      rw [if_pos hitem, append_nil]
      exact Moves.nil src (item :: dst) called
    · next hitem =>
      apply Moves.cons
      rw [if_neg hitem]
      exact ih (item :: dst) (called ++ [item])

theorem periodLoop_moves (firstItemTs : Rat) (inGroup : Bool) (src dst called : List (UndoItem α)) :
    (periodLoop filter firstItemTs inGroup src dst called).Moves src dst called
      (periodSpan filter firstItemTs inGroup src) := by
  induction src generalizing inGroup dst called with
  | nil => exact Moves.nil [] dst called
  | cons item src ih =>
    rw [periodLoop, periodSpan]
    split
    · apply Moves.cons
      cases hitem : item.isGroup with
      | true =>
        rw [if_pos rfl, if_pos rfl, append_nil, Bool.xor_true]
        exact ih (!inGroup) (item :: dst) called
      | false =>
        rw [Bool.xor_false]
        exact ih inGroup (item :: dst) (called ++ [item])
    · exact Moves.nil (item :: src) dst called

-- The items that a call moves: a group or a period from the first item on that matches.
def callSpan (filter : UInt32) : List (UndoItem α) → List (UndoItem α)
  | [] => []
  | item :: src =>
      if item.matchesFilter filter then
        item :: if item.isGroup then groupSpan src else periodSpan filter item.ts false src
      else callSpan filter src

/-- A call passes over `skipped`, moves `moved` and leaves `rest`. -/
structure UndoMove.Takes (r : UndoMove α) (src dst skipped moved rest : List (UndoItem α)) :
    Prop where
  before : src = skipped ++ (moved ++ rest)
  src_eq : r.src = skipped ++ rest
  dst_eq : r.dst = moved.reverse ++ dst
  called_eq : r.called = moved.filter (!·.isGroup)

theorem UndoMove.Moves.takes {r : UndoMove α} {src dst moved : List (UndoItem α)}
    (h : r.Moves src dst [] moved) : r.Takes src dst [] moved r.src :=
  ⟨h.src_eq, rfl, h.dst_eq, h.called_eq⟩

/-- One call of undo or redo, with any filter. -/
theorem undoRedoLists_takes (dst src : List (UndoItem α)) :
    ∃ rest, (undoRedoLists filter dst src).Takes src dst
      (src.takeWhile (!·.matchesFilter filter)) (callSpan filter src) rest := by
  induction src with
  | nil => exact ⟨[], rfl, rfl, rfl, rfl⟩
  | cons item src ih =>
    rw [undoRedoLists, callSpan]
    split
    · next hmatch =>
      rw [takeWhile_cons_of_neg (by simp [hmatch])]
      split
      · next hitem =>
        refine ⟨_, Moves.takes (Moves.cons ?_)⟩
        rw [if_pos hitem]
        exact groupLoop_moves src (item :: dst) []
      · next hitem =>
        refine ⟨_, Moves.takes (Moves.cons ?_)⟩
        rw [if_neg hitem]
        exact periodLoop_moves filter item.ts false src (item :: dst) [item]
    · next hmatch =>
      obtain ⟨rest, h⟩ := ih
      rw [takeWhile_cons_of_pos (by simp [hmatch])]
      exact ⟨rest, congrArg (item :: ·) h.before, congrArg (item :: ·) h.src_eq, h.dst_eq,
        h.called_eq⟩

def undoClearList (filter : UInt32) : List (UndoItem α) → List (UndoItem α) × List (UndoItem α)
  | [] => ([], [])
  | item :: list =>
      let r := undoClearList filter list
      if item.matchesFilter filter then (r.1, item :: r.2) else (item :: r.1, r.2)

/-- With the items that are freed. -/
def dtUndoClear : Undo α × List (UndoItem α) :=
  let undo := undoClearList filter self.undoList
  let redo := undoClearList filter self.redoList
  ({ self with undoList := [], redoList := [], disableNext := false }, undo.2 ++ redo.2)

theorem undoClearList_eq (list : List (UndoItem α)) :
    undoClearList filter list =
      (list.filter (!·.matchesFilter filter), list.filter (·.matchesFilter filter)) := by
  induction list with
  | nil => rfl
  | cons item list ih =>
    rw [undoClearList, ih]
    cases hmatch : item.matchesFilter filter with
    | true => simp [hmatch]
    | false => simp [hmatch]

/-- The lists keep the items that do not match, and the others are freed. -/
structure Undo.Cleared (before : Undo α) (filter : UInt32) (after : Undo α)
    (freed : List (UndoItem α)) : Prop where
  undoList : after.undoList = before.undoList.filter (!·.matchesFilter filter)
  redoList : after.redoList = before.redoList.filter (!·.matchesFilter filter)
  freed : freed = (before.undoList ++ before.redoList).filter (·.matchesFilter filter)

/-- `dt_undo_clear` empties both lists, so it does what it says only if everything matches. -/
theorem dtUndoClear_cleared_iff (self : Undo α) (filter : UInt32) :
    self.Cleared filter (dtUndoClear self filter).1 (dtUndoClear self filter).2 ↔
      ∀ item ∈ self.undoList ++ self.redoList, item.matchesFilter filter := by
  have hfreed : (dtUndoClear self filter).2 =
      (self.undoList ++ self.redoList).filter (·.matchesFilter filter) := by
    show (undoClearList filter self.undoList).2 ++ (undoClearList filter self.redoList).2 = _
    rw [undoClearList_eq, undoClearList_eq, filter_append]
  have hnone : ∀ list : List (UndoItem α), [] = list.filter (!·.matchesFilter filter) ↔
      ∀ item ∈ list, item.matchesFilter filter := by
    intro list
    simp
  rw [forall_mem_append, ← hnone, ← hnone]
  exact ⟨fun h => ⟨h.undoList, h.redoList⟩, fun h => ⟨h.1, h.2, hfreed⟩⟩

-- A change of the ratings (`DT_UNDO_RATINGS`) above one of the tags (`DT_UNDO_TAGS`).
def sampleUndo : Undo Nat :=
  { dtUndoInit with undoList := [⟨some 2, 8, 10, false⟩, ⟨some 1, 32, 0, false⟩] }

/-- Clearing the ratings loses the change of the tags, which is not freed either. -/
theorem dtUndoClear_loses_tags :
    (dtUndoClear sampleUndo 8).1.undoList = [] ∧
      (dtUndoClear sampleUndo 8).2 = [⟨some 2, 8, 10, false⟩] ∧
      ¬ sampleUndo.Cleared 8 (dtUndoClear sampleUndo 8).1 (dtUndoClear sampleUndo 8).2 :=
  ⟨rfl, by decide, fun h => absurd h.undoList (by decide)⟩

end DTLite
