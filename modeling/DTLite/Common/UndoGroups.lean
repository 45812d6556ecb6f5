import DTLite.Common.Undo
import DTLite.Reasoning.Runs

/-!
# Groups in the undo lists

A group is a run of items between two group items, and nothing tells the first of the two from the
second.  The lists are shown to be made of blocks, each a single item or a whole group of one type,
and a call of undo or redo to move blocks.
-/

namespace DTLite

open Reasoning List

variable {α : Type}

/-- An item outside of the groups, or a group with the times of its group items. -/
inductive UndoBlock (α : Type) where
  | single (data : Option α) (type : UInt32) (ts : Rat)
  | group (type : UInt32) (firstTs : Rat) (inner : List (Option α × Rat)) (lastTs : Rat)
deriving DecidableEq, Repr

namespace UndoBlock

def innerItems (type : UInt32) (inner : List (Option α × Rat)) : List (UndoItem α) :=
  inner.map fun x => ⟨x.1, type, x.2, false⟩

def items : UndoBlock α → List (UndoItem α)
  | single data type ts => [⟨data, type, ts, false⟩]
  | group type firstTs inner lastTs =>
      groupItem type firstTs :: (innerItems type inner ++ [groupItem type lastTs])

def type : UndoBlock α → UInt32
  | single _ type _ => type
  | group type _ _ _ => type

def ts : UndoBlock α → Rat
  | single _ _ ts => ts
  | group _ firstTs _ _ => firstTs

def reverse : UndoBlock α → UndoBlock α
  | single data type ts => single data type ts
  | group type firstTs inner lastTs => group type lastTs inner.reverse firstTs

variable (block : UndoBlock α)

def matchesFilter (filter : UInt32) : Bool := block.type &&& filter != 0

def isNear (firstItemTs : Rat) : Bool := |block.ts - firstItemTs| < 1 / 2

theorem items_ne_nil : block.items ≠ [] := by
  cases block with
  | single data type ts => exact cons_ne_nil _ _
  | group type firstTs inner lastTs => exact cons_ne_nil _ _

theorem items_group_append (type : UInt32) (firstTs : Rat) (inner : List (Option α × Rat))
    (lastTs : Rat) (src : List (UndoItem α)) :
    (group type firstTs inner lastTs).items ++ src =
      groupItem type firstTs :: (innerItems type inner ++ groupItem type lastTs :: src) := by
  show groupItem type firstTs :: (innerItems type inner ++ [groupItem type lastTs] ++ src) = _
  rw [append_assoc, singleton_append]

theorem items_reverse : block.reverse.items = block.items.reverse := by
  cases block with
  | single data type ts => rfl
  | group type firstTs inner lastTs =>
    show groupItem type lastTs :: (innerItems type inner.reverse ++ [groupItem type firstTs]) =
      (groupItem type firstTs :: (innerItems type inner ++ [groupItem type lastTs])).reverse
    rw [reverse_cons, reverse_append, innerItems, map_reverse]
    rfl

theorem matchesFilter_of_mem {block : UndoBlock α} {item : UndoItem α} (h : item ∈ block.items)
    (filter : UInt32) : item.matchesFilter filter = block.matchesFilter filter := by
  have htype : item.type = block.type := by
    cases block with
    | single data type ts => rw [mem_singleton.mp h]; rfl
    | group type firstTs inner lastTs =>
      simp only [items, innerItems, mem_cons, mem_append, mem_map, not_mem_nil, or_false] at h
      rcases h with rfl | ⟨x, -, rfl⟩ | rfl
      · rfl
      · rfl
      · rfl
  rw [UndoItem.matchesFilter, matchesFilter, htype]

end UndoBlock

def blockItems (blocks : List (UndoBlock α)) : List (UndoItem α) := blocks.flatMap UndoBlock.items

theorem blockItems_cons (block : UndoBlock α) (blocks : List (UndoBlock α)) :
    blockItems (block :: blocks) = block.items ++ blockItems blocks :=
  flatMap_cons

variable (filter : UInt32) (blocks : List (UndoBlock α))

theorem blockItems_append (blocks' : List (UndoBlock α)) :
    blockItems (blocks ++ blocks') = blockItems blocks ++ blockItems blocks' :=
  flatMap_append

theorem blockItems_reverse :
    blockItems (blocks.map UndoBlock.reverse).reverse = (blockItems blocks).reverse := by
  induction blocks with
  | nil => rfl
  | cons block blocks ih =>
    rw [map_cons, reverse_cons, blockItems_append, ih, blockItems_cons, blockItems_cons,
      reverse_append, UndoBlock.items_reverse]
    show _ ++ (block.items.reverse ++ []) = _
    rw [append_nil]

/-! ## What one call moves -/

-- The blocks that a call passes over, moves and leaves.
structure BlockSplit (α : Type) where
  skipped : List (UndoBlock α)
  moved : List (UndoBlock α)
  rest : List (UndoBlock α)
deriving DecidableEq, Repr

-- A group is moved on its own, a single item with the blocks of its period.
def UndoBlock.takesAlong : UndoBlock α → UndoBlock α → Bool
  | group .., _ => false
  | single _ _ ts, block => block.matchesFilter filter && block.isNear ts

def splitBlocks (filter : UInt32) : List (UndoBlock α) → BlockSplit α
  | [] => ⟨[], [], []⟩
  | block :: blocks =>
      if block.matchesFilter filter then
        ⟨[], block :: blocks.takeWhile (block.takesAlong filter),
          blocks.dropWhile (block.takesAlong filter)⟩
      else
        let r := splitBlocks filter blocks
        { r with skipped := block :: r.skipped }

theorem splitBlocks_append :
    blocks = (splitBlocks filter blocks).skipped ++
      ((splitBlocks filter blocks).moved ++ (splitBlocks filter blocks).rest) := by
  induction blocks with
  | nil => rfl
  | cons block blocks ih =>
    rw [splitBlocks]
    split
    · show _ = block :: (blocks.takeWhile _ ++ blocks.dropWhile _)
      rw [takeWhile_append_dropWhile]
    · exact congrArg (block :: ·) ih

theorem groupSpan_inner (type : UInt32) (inner : List (Option α × Rat)) (lastTs : Rat)
    (src : List (UndoItem α)) :
    groupSpan (UndoBlock.innerItems type inner ++ groupItem type lastTs :: src) =
      UndoBlock.innerItems type inner ++ [groupItem type lastTs] := by
  induction inner with
  | nil => rfl
  | cons x inner ih => exact congrArg (_ :: ·) ih

variable {type : UInt32}

theorem periodSpan_inner {filter : UInt32} (hmatch : (type &&& filter != 0) = true)
    (firstItemTs : Rat) (inner : List (Option α × Rat)) (lastTs : Rat)
    (src : List (UndoItem α)) :
    periodSpan filter firstItemTs true
        (UndoBlock.innerItems type inner ++ groupItem type lastTs :: src) =
      UndoBlock.innerItems type inner ++
        groupItem type lastTs :: periodSpan filter firstItemTs false src := by
  induction inner with
  | nil =>
    show periodSpan filter firstItemTs true (groupItem type lastTs :: src) = _
    rw [periodSpan, if_pos (by rw [Bool.true_or, Bool.and_true]; exact hmatch)]
    rfl
  | cons x inner ih =>
    show periodSpan filter firstItemTs true (_ :: (UndoBlock.innerItems type inner ++ _)) = _
    rw [periodSpan, if_pos (by rw [Bool.true_or, Bool.and_true]; exact hmatch)]
    exact congrArg (_ :: ·) ih

theorem periodSpan_block (firstItemTs : Rat) (block : UndoBlock α) (src : List (UndoItem α)) :
    periodSpan filter firstItemTs false (block.items ++ src) =
      if block.matchesFilter filter && block.isNear firstItemTs then
        block.items ++ periodSpan filter firstItemTs false src
      else [] := by
  cases block with
  | single data type ts =>
    rfl
  | group type firstTs inner lastTs =>
    rw [UndoBlock.items_group_append, UndoBlock.items_group_append, periodSpan]
    split
    · next hin =>
      have hmatch : (type &&& filter != 0) = true := (Bool.and_eq_true_iff.mp hin).1
      rw [if_pos (by exact hin)]
      exact congrArg (_ :: ·) (periodSpan_inner hmatch firstItemTs inner lastTs src)
    · next hin => rw [if_neg (by exact hin)]

theorem periodSpan_blocks (firstItemTs : Rat) (blocks : List (UndoBlock α)) :
    periodSpan filter firstItemTs false (blockItems blocks) =
      blockItems (blocks.takeWhile fun b => b.matchesFilter filter && b.isNear firstItemTs) := by
  induction blocks with
  | nil => rfl
  | cons block blocks ih =>
    rw [blockItems_cons, periodSpan_block, takeWhile_cons]
    split
    · rw [ih, blockItems_cons]
    · rfl

theorem callSpan_block {filter : UInt32} {block : UndoBlock α}
    (hmatch : block.matchesFilter filter) (blocks : List (UndoBlock α)) :
    callSpan filter (block.items ++ blockItems blocks) =
      block.items ++ blockItems (blocks.takeWhile (block.takesAlong filter)) := by
  cases block with
  | single data type ts =>
    show callSpan filter (_ :: blockItems blocks) = _
    rw [callSpan, if_pos (by exact hmatch), periodSpan_blocks]
    rfl
  | group type firstTs inner lastTs =>
    have halone : blocks.takeWhile ((UndoBlock.group type firstTs inner lastTs).takesAlong filter) =
        [] := by
      cases blocks with
      | nil => rfl
      | cons block blocks => exact takeWhile_cons_of_neg Bool.false_ne_true
    rw [halone, UndoBlock.items_group_append, callSpan, if_pos (by exact hmatch),
      groupSpan_inner, UndoBlock.items_group_append]
    rfl

theorem callSpan_append_of_not_matches {filter : UInt32} {items : List (UndoItem α)}
    (hskip : ∀ item ∈ items, item.matchesFilter filter = false) (src : List (UndoItem α)) :
    callSpan filter (items ++ src) = callSpan filter src := by
  induction items with
  | nil => rfl
  | cons item items ih =>
    rw [forall_mem_cons] at hskip
    rw [cons_append, callSpan, if_neg (by rw [hskip.1]; decide), ih hskip.2]

/-- A call passes over whole blocks and moves whole blocks. -/
theorem callSpan_blocks :
    (blockItems blocks).takeWhile (!·.matchesFilter filter) =
        blockItems (splitBlocks filter blocks).skipped ∧
      callSpan filter (blockItems blocks) = blockItems (splitBlocks filter blocks).moved := by
  induction blocks with
  | nil => exact ⟨rfl, rfl⟩
  | cons block blocks ih =>
    have hitem : ∀ item ∈ block.items, item.matchesFilter filter = block.matchesFilter filter :=
      fun item h => UndoBlock.matchesFilter_of_mem h filter
    rw [blockItems_cons, splitBlocks]
    split
    · next hmatch =>
      refine ⟨?_, callSpan_block hmatch blocks⟩
      obtain ⟨first, others, hfirst⟩ := exists_cons_of_ne_nil block.items_ne_nil
      have hmatch' : first.matchesFilter filter = true :=
        (hitem first (hfirst ▸ mem_cons_self)).trans hmatch
      rw [hfirst, cons_append, takeWhile_cons_of_neg (by rw [hmatch']; decide)]
      rfl
    · next hmatch =>
      have hskip : ∀ item ∈ block.items, item.matchesFilter filter = false :=
        fun item h => (hitem item h).trans (Bool.not_eq_true _ ▸ hmatch)
      rw [takeWhile_append_of_pos (fun item h => by rw [hskip item h]; rfl), ih.1,
        callSpan_append_of_not_matches hskip, ih.2]
      exact ⟨(blockItems_cons _ _).symm, rfl⟩

/-! ## Runs -/

inductive UndoEvent (α : Type) where
  | startGroup (type : UInt32) (ts : Rat)
  | record (type : UInt32) (data : α) (ts : Rat)
  | endGroup (ts : Rat)
  | call (action : UndoAction) (filter : UInt32)
deriving DecidableEq, Repr

def Undo.handle (u : Undo α) : UndoEvent α → Undo α
  | .startGroup type ts => dtUndoStartGroup u type ts
  | .record type data ts => dtUndoRecord u type data ts
  | .endGroup ts => dtUndoEndGroup u ts
  | .call action filter => (undoDoUndoRedo u filter action).1

/-- A group has a type (`DT_UNDO_NONE` stands for no group), which the records in it have too; only
an open group is ended (`dt_undo_end_group` asserts it), and undo and redo are called outside of
groups. -/
def UndoEvent.Allowed (u : Undo α) : UndoEvent α → Prop
  | .startGroup type _ => type ≠ undoNone
  | .record type _ _ => u.group = undoNone ∨ type = u.group
  | .endGroup _ => 0 < u.groupIndent
  | .call _ _ => u.group = undoNone

instance (u : Undo α) : (e : UndoEvent α) → Decidable (e.Allowed u)
  | .startGroup type _ => inferInstanceAs (Decidable (type ≠ undoNone))
  | .record type _ _ => inferInstanceAs (Decidable (u.group = undoNone ∨ type = u.group))
  | .endGroup _ => inferInstanceAs (Decidable (0 < u.groupIndent))
  | .call _ _ => inferInstanceAs (Decidable (u.group = undoNone))

/-- The group being recorded: type, begin, content (newest first) and the calls that have yet to end
it. -/
structure OpenGroup (α : Type) where
  type : UInt32
  firstTs : Rat
  inner : List (Option α × Rat)
  depth : Nat
deriving DecidableEq, Repr

/-- What the lists stand for: blocks, and at most one group that is not ended. -/
structure UndoBlocks (α : Type) where
  undoBlocks : List (UndoBlock α)
  redoBlocks : List (UndoBlock α)
  openGroup : Option (OpenGroup α)
deriving DecidableEq, Repr

namespace UndoBlocks

def init : UndoBlocks α := ⟨[], [], none⟩

-- The blocks a call moves go over in reverse, each turned round.
def call (b : UndoBlocks α) (filter : UInt32) : UndoAction → UndoBlocks α
  | .undo =>
      let s := splitBlocks filter b.undoBlocks
      { b with
        undoBlocks := s.skipped ++ s.rest
        redoBlocks := (s.moved.map UndoBlock.reverse).reverse ++ b.redoBlocks }
  | .redo =>
      let s := splitBlocks filter b.redoBlocks
      { b with
        redoBlocks := s.skipped ++ s.rest
        undoBlocks := (s.moved.map UndoBlock.reverse).reverse ++ b.undoBlocks }

def handle (b : UndoBlocks α) : UndoEvent α → UndoBlocks α
  | .startGroup type ts =>
      match b.openGroup with
      | none => { b with redoBlocks := [], openGroup := some ⟨type, ts, [], 0⟩ }
      | some g => { b with openGroup := some { g with depth := g.depth + 1 } }
  | .record type data ts =>
      match b.openGroup with
      | none =>
          { b with undoBlocks := .single (some data) type ts :: b.undoBlocks, redoBlocks := [] }
      | some g =>
          { b with
            redoBlocks := []
            openGroup := some { g with inner := (some data, ts) :: g.inner } }
  | .endGroup ts =>
      match b.openGroup with
      | none => b
      | some g =>
          match g.depth with
          | 0 =>
              { b with
                undoBlocks := .group g.type ts g.inner g.firstTs :: b.undoBlocks
                redoBlocks := []
                openGroup := none }
          | depth + 1 => { b with openGroup := some { g with depth } }
  | .call action filter => b.call filter action

end UndoBlocks

def OpenGroup.items (g : OpenGroup α) : List (UndoItem α) :=
  UndoBlock.innerItems g.type g.inner ++ [groupItem g.type g.firstTs]

/-- The group items of both lists come in pairs around the items of one group, but for the group
that is not ended, which is at the head of the undo list. -/
structure Undo.Bracketed (u : Undo α) (b : UndoBlocks α) : Prop where
  undoList : u.undoList = b.openGroup.elim [] OpenGroup.items ++ blockItems b.undoBlocks
  redoList : u.redoList = blockItems b.redoBlocks
  group : u.group = b.openGroup.elim undoNone OpenGroup.type
  typed : ∀ g, b.openGroup = some g → g.type ≠ undoNone
  groupIndent : u.groupIndent = b.openGroup.elim 0 fun g => (g.depth : Int) + 1
  unlocked : u.locked = false
  enabled : u.disableNext = false

theorem undoRecord_of_unlocked {u : Undo α} (hlock : u.locked = false)
    (hnext : u.disableNext = false) (item : UndoItem α) :
    undoRecord u item = { u with undoList := item :: u.undoList, redoList := [] } := by
  rw [undoRecord, hnext, hlock, if_neg Bool.false_ne_true, if_neg Bool.false_ne_true]

namespace Undo.Bracketed

variable {u : Undo α} {b : UndoBlocks α}

theorem init : (dtUndoInit : Undo α).Bracketed UndoBlocks.init where
  undoList := rfl
  redoList := rfl
  group := rfl
  typed := fun _ h => nomatch h
  groupIndent := rfl
  unlocked := rfl
  enabled := rfl

section

variable (h : u.Bracketed b)
include h

theorem openGroup_eq_none (hgroup : u.group = undoNone) : b.openGroup = none := by
  cases hopen : b.openGroup with
  | none => rfl
  | some g =>
    rw [h.group, hopen] at hgroup
    exact absurd hgroup (h.typed g hopen)

theorem startGroup (htype : type ≠ undoNone) (ts : Rat) :
    (dtUndoStartGroup u type ts).Bracketed (b.handle (.startGroup type ts)) := by
  obtain ⟨undoBlocks, redoBlocks, _ | g⟩ := b
  · rw [dtUndoStartGroup, if_pos (by exact h.group),
      undoRecord_of_unlocked (by exact h.unlocked) (by exact h.enabled)]
    exact ⟨congrArg (_ :: ·) h.undoList, rfl, rfl, fun g hg => by cases hg; exact htype, rfl,
      h.unlocked, h.enabled⟩
  · have hgroup : u.group ≠ undoNone := h.group ▸ h.typed g rfl
    rw [dtUndoStartGroup, if_neg hgroup]
    exact { h with
      typed := fun g' hg => by cases hg; exact h.typed g rfl
      groupIndent := congrArg (· + 1) h.groupIndent }

theorem record
    (htype : u.group = undoNone ∨ type = u.group) (data : α) (ts : Rat) :
    (dtUndoRecord u type data ts).Bracketed (b.handle (.record type data ts)) := by
  rw [dtUndoRecord, undoRecord_of_unlocked h.unlocked h.enabled]
  obtain ⟨undoBlocks, redoBlocks, _ | g⟩ := b
  · exact { h with
      undoList := congrArg (_ :: ·) h.undoList
      redoList := rfl }
  · have hin : type = g.type := (htype.resolve_left (h.group ▸ h.typed g rfl)).trans h.group
    subst hin
    exact { h with
      undoList := congrArg (_ :: ·) h.undoList
      redoList := rfl
      typed := fun g' hg => by cases hg; exact h.typed g rfl }

theorem endGroup (hopen : 0 < u.groupIndent) (ts : Rat) :
    (dtUndoEndGroup u ts).Bracketed (b.handle (.endGroup ts)) := by
  obtain ⟨undoBlocks, redoBlocks, _ | ⟨type, firstTs, inner, _ | depth⟩⟩ := b
  · have hindent : u.groupIndent = 0 := h.groupIndent
    omega
  · -- the end of the outermost group
    have hindent : u.groupIndent - 1 = 0 := by rw [h.groupIndent]; rfl
    have hgroup : u.group = type := h.group
    rw [dtUndoEndGroup, if_pos hindent,
      undoRecord_of_unlocked (by exact h.unlocked) (by exact h.enabled)]
    refine ⟨?_, rfl, rfl, fun _ hg => (nomatch hg), hindent, h.unlocked, h.enabled⟩
    rw [h.undoList, hgroup]
    rfl
  · have hindent : u.groupIndent = (depth : Int) + 1 + 1 := h.groupIndent
    rw [dtUndoEndGroup, if_neg (by show ¬ u.groupIndent - 1 = 0; omega)]
    exact { h with
      typed := fun g' hg => by cases hg; exact h.typed ⟨type, firstTs, inner, depth + 1⟩ rfl
      groupIndent := by show u.groupIndent - 1 = (depth : Int) + 1; omega }

end

end Undo.Bracketed

/-! ### Undo and redo -/

def Undo.source (u : Undo α) : UndoAction → List (UndoItem α)
  | .undo => u.undoList
  | .redo => u.redoList
def Undo.target (u : Undo α) : UndoAction → List (UndoItem α)
  | .undo => u.redoList
  | .redo => u.undoList

def UndoBlocks.source (b : UndoBlocks α) : UndoAction → List (UndoBlock α)
  | .undo => b.undoBlocks
  | .redo => b.redoBlocks

/-- The call takes the blocks `moved` out of its list, each one whole and none of the others, and
puts their items in front of the other list. -/
structure Undo.MovesBlocks (u : Undo α) (b : UndoBlocks α) (filter : UInt32) (action : UndoAction)
    (skipped moved rest : List (UndoBlock α)) : Prop where
  before : b.source action = skipped ++ (moved ++ rest)
  source : (undoDoUndoRedo u filter action).1.source action = blockItems (skipped ++ rest)
  target : (undoDoUndoRedo u filter action).1.target action =
    (blockItems moved).reverse ++ u.target action

theorem undoRedoLists_blocks (dst : List (UndoItem α)) (blocks : List (UndoBlock α)) :
    (undoRedoLists filter dst (blockItems blocks)).src =
        blockItems ((splitBlocks filter blocks).skipped ++ (splitBlocks filter blocks).rest) ∧
      (undoRedoLists filter dst (blockItems blocks)).dst =
        (blockItems (splitBlocks filter blocks).moved).reverse ++ dst := by
  obtain ⟨rest, h⟩ := undoRedoLists_takes filter dst (blockItems blocks)
  have hspan := callSpan_blocks filter blocks
  rw [hspan.1, hspan.2] at h
  have hrest : rest = blockItems (splitBlocks filter blocks).rest := by
    have hbefore := h.before
    rw [splitBlocks_append filter blocks, blockItems_append, blockItems_append,
      ← splitBlocks_append filter blocks] at hbefore
    exact (append_cancel_left (append_cancel_left hbefore)).symm
  exact ⟨by rw [h.src_eq, hrest, blockItems_append], h.dst_eq⟩

namespace Undo.Bracketed

variable {u : Undo α} {b : UndoBlocks α}

theorem source_eq (h : u.Bracketed b) (hgroup : u.group = undoNone) (action : UndoAction) :
    u.source action = blockItems (b.source action) := by
  cases action with
  | undo =>
    have hlist := h.undoList
    rw [h.openGroup_eq_none hgroup] at hlist
    exact hlist
  | redo => exact h.redoList

theorem movesBlocks (h : u.Bracketed b) (hgroup : u.group = undoNone) (filter : UInt32)
    (action : UndoAction) :
    u.MovesBlocks b filter action (splitBlocks filter (b.source action)).skipped
      (splitBlocks filter (b.source action)).moved
      (splitBlocks filter (b.source action)).rest := by
  have hlists := undoRedoLists_blocks filter (u.target action) (b.source action)
  rw [← h.source_eq hgroup action] at hlists
  cases action with
  | undo => exact ⟨splitBlocks_append filter _, hlists.1, hlists.2⟩
  | redo => exact ⟨splitBlocks_append filter _, hlists.1, hlists.2⟩

theorem undo_called {firstTs lastTs : Rat} {inner : List (Option α × Rat)}
    {blocks redo : List (UndoBlock α)}
    (h : u.Bracketed ⟨.group type firstTs inner lastTs :: blocks, redo, none⟩) {filter : UInt32}
    (hfilter : (type &&& filter != 0) = true) :
    (dtUndoDoUndo u filter).2 = UndoBlock.innerItems type inner := by
  have hlist : u.undoList = groupItem type firstTs ::
      (UndoBlock.innerItems type inner ++ groupItem type lastTs :: blockItems blocks) := by
    rw [← UndoBlock.items_group_append]
    exact h.undoList
  have hmatch : (groupItem type firstTs : UndoItem α).matchesFilter filter = true := hfilter
  have hgroup : (groupItem type firstTs : UndoItem α).isGroup = true := rfl
  show (undoRedoLists filter u.redoList u.undoList).called = _
  rw [hlist, undoRedoLists, if_pos hmatch, if_pos hgroup, (groupLoop_moves ..).called_eq,
    groupSpan_inner, filter_append, filter_eq_self.mpr]
  · simp [groupItem]
  · intro item hitem
    obtain ⟨x, -, rfl⟩ := mem_map.mp hitem
    rfl

theorem call (h : u.Bracketed b) (hgroup : u.group = undoNone) (action : UndoAction)
    (filter : UInt32) :
    (undoDoUndoRedo u filter action).1.Bracketed (b.handle (.call action filter)) := by
  have hmoves := h.movesBlocks hgroup filter action
  have hnone := h.openGroup_eq_none hgroup
  cases action with
  | undo =>
    refine { h with undoList := ?_, redoList := ?_ }
    · show (undoDoUndoRedo u filter .undo).1.source .undo = b.openGroup.elim [] _ ++ _
      rw [hnone, hmoves.source]
      rfl
    · show (undoDoUndoRedo u filter .undo).1.target .undo = blockItems (_ ++ b.redoBlocks)
      rw [hmoves.target, blockItems_append, blockItems_reverse, ← h.redoList]
      rfl
  | redo =>
    refine { h with undoList := ?_, redoList := ?_ }
    · show (undoDoUndoRedo u filter .redo).1.target .redo =
        b.openGroup.elim [] _ ++ blockItems (_ ++ b.undoBlocks)
      rw [hnone, hmoves.target, blockItems_append, blockItems_reverse]
      exact congrArg (_ ++ ·) (h.source_eq hgroup .undo)
    · exact hmoves.source

theorem handle (h : u.Bracketed b) {e : UndoEvent α} (he : e.Allowed u) :
    (u.handle e).Bracketed (b.handle e) := by
  cases e with
  | startGroup type ts => exact h.startGroup he ts
  | record type data ts => exact h.record he data ts
  | endGroup ts => exact h.endGroup he ts
  | call action filter => exact h.call he action filter

theorem run (h : u.Bracketed b) {es : List (UndoEvent α)}
    (hes : AllSteps Undo.handle (fun u e => e.Allowed u) u es) :
    (es.foldl Undo.handle u).Bracketed (es.foldl UndoBlocks.handle b) := by
  induction es generalizing u b with
  | nil => exact h
  | cons e es ih => exact ih (h.handle hes.1) hes.2

end Undo.Bracketed

/-- After every run both lists are well bracketed, and undo and redo move each group as a whole or
not at all. -/
theorem undo_groups_whole (es : List (UndoEvent α))
    (hes : AllSteps Undo.handle (fun u e => e.Allowed u) dtUndoInit es) :
    let u := es.foldl Undo.handle dtUndoInit
    let b := es.foldl UndoBlocks.handle UndoBlocks.init
    u.Bracketed b ∧ ∀ filter action, u.group = undoNone →
      ∃ skipped moved rest, u.MovesBlocks b filter action skipped moved rest := by
  intro u b
  have h : u.Bracketed b := Undo.Bracketed.init.run hes
  exact ⟨h, fun filter action hgroup => ⟨_, _, _, h.movesBlocks hgroup filter action⟩⟩

-- A group in a group, with a change of the history in it, and a change of the tags behind it.
def sampleGroups : List (UndoEvent Nat) :=
  [.startGroup 1 0, .startGroup 1 1, .record 1 10 2, .endGroup 3, .endGroup 4, .record 32 20 5,
    .call .undo 1]

-- Undoing the history passes over the tags.
example : ((sampleGroups.foldl Undo.handle dtUndoInit).undoList.map (·.type),
    (sampleGroups.foldl Undo.handle dtUndoInit).redoList.map (·.isGroup)) =
      ([32], [true, false, true]) := by
  decide

theorem undo_groups_whole_sample :
    AllSteps Undo.handle (fun u e => e.Allowed u) dtUndoInit sampleGroups ∧
      (sampleGroups.foldl Undo.handle dtUndoInit).Bracketed
        (sampleGroups.foldl UndoBlocks.handle UndoBlocks.init) :=
  ⟨by decide, (undo_groups_whole sampleGroups (by decide)).1⟩

end DTLite
