import DTLite.Develop.Basic
import Mathlib.Data.List.Sort

/-! The order of the modules in the pipe: `iop_order` numbers and the sort by them. -/

namespace DTLite

variable (iopOrderList : List IopOrderEntry)

def dtIopprGetIopOrderEntry (opName : String) (multiPriority : Int) : Option IopOrderEntry :=
  iopOrderList.find? fun e =>
    e.operation == opName && (e.instanceNo == multiPriority || multiPriority == -1)

def dtIopprGetIopOrder (opName : String) (multiPriority : Int) : Int :=
  match dtIopprGetIopOrderEntry iopOrderList opName multiPriority with
  | some e => e.iopOrder
  | none => intMax

def iopprResetIopOrder : List IopOrderEntry :=
  iopOrderList.mapIdx fun i e => { e with iopOrder := i + 1 }

variable (dev : Develop) (mods : ModuleRef → IopModule)

-- `dt_sort_iop_by_order` under the stable `g_list_sort`.
def sortIopByOrder (iop : List ModuleRef) : List ModuleRef :=
  iop.insertionSort fun a b => (mods a).iopOrder ≤ (mods b).iopOrder

def setIopOrder (m : ModuleRef) (order : Int) : ModuleRef → IopModule :=
  Function.update mods m { mods m with iopOrder := order }

def dtIopprResyncModulesOrder : Develop :=
  let iopOrderList := iopprResetIopOrder dev.iopOrderList
  let mods := dev.iop.foldl (fun mods m =>
    if (mods m).iopOrder ≠ intMax then
      setIopOrder mods m
        (dtIopprGetIopOrder iopOrderList (mods m).op (mods m).multiPriority)
    else mods) dev.mods
  { dev with iopOrderList := iopOrderList, mods := mods, iop := sortIopByOrder mods dev.iop }

-- `a += (b - a) / 2.0` on an `int`: the sum is rounded towards zero.
def halfway (a b : Int) : Int := (2 * a + (b - a)).tdiv 2

-- `_ioppr_search_history_by_module`, as a test.
def inHistory (history : List (HistoryItem ModuleRef)) (m : ModuleRef) : Bool :=
  history.any fun h => h.module == m

/-- `dt_ioppr_check_duplicate_iop_order`, at the node `mod` of the list whose earlier nodes are
`before`, nearest first, and whose later ones are `after`. `start` is the list the walk restarts
from after a recursive call; the source has no bound on these restarts, `fuel` is ours. -/
def checkDuplicateLoop (history : List (HistoryItem ModuleRef)) :
    Nat → List ModuleRef × List ModuleRef → List ModuleRef → List ModuleRef →
      (ModuleRef → IopModule) → ModuleRef → IopModule
  | 0, _, _, _, mods => mods
  | _ + 1, _, _, [], mods => mods
  | fuel + 1, start, [], mod :: after, mods =>
      checkDuplicateLoop history fuel start [mod] after mods
  | fuel + 1, start, prev :: before, mod :: after, mods =>
      if (mods mod).iopOrder = (mods prev).iopOrder ∧ (mods mod).iopOrder ≠ intMax then
        if !(mods mod).enabled && !inHistory history mod then
          match after with
          | next :: _ =>
              if (mods mod).iopOrder ≠ (mods next).iopOrder then
                checkDuplicateLoop history fuel start (mod :: prev :: before) after
                  (setIopOrder mods mod (halfway (mods mod).iopOrder (mods next).iopOrder))
              else
                -- the recursive call on the list from `mod` on, then from the start again
                let mods := checkDuplicateLoop history fuel (prev :: before, mod :: after)
                  (mod :: prev :: before) after mods
                checkDuplicateLoop history fuel start start.1 start.2 mods
          | [] => setIopOrder mods mod ((mods mod).iopOrder + 1)
        else if !(mods prev).enabled && !inHistory history prev then
          match before with
          | next :: _ =>
              if (mods prev).iopOrder ≠ (mods next).iopOrder then
                checkDuplicateLoop history fuel start (mod :: prev :: before) after
                  (setIopOrder mods prev (halfway (mods prev).iopOrder (mods next).iopOrder))
              else checkDuplicateLoop history fuel start (mod :: prev :: before) after mods
          | [] =>
              checkDuplicateLoop history fuel start (mod :: prev :: before) after
                (setIopOrder mods prev ((2 * (mods prev).iopOrder - 1).tdiv 2))
        else checkDuplicateLoop history fuel start (mod :: prev :: before) after mods
      else checkDuplicateLoop history fuel start (mod :: prev :: before) after mods

/-- `dt_ioppr_check_duplicate_iop_order(&dev->iop, dev->history)`. -/
def dtIopprCheckDuplicateIopOrder : Develop :=
  { dev with
    mods := checkDuplicateLoop dev.history (dev.iop.length * dev.iop.length + 1) ([], dev.iop) []
      dev.iop dev.mods }

-- Two modules that differ in their iop order at most.
def SameButOrder (a b : IopModule) : Prop := { a with iopOrder := b.iopOrder } = b

theorem SameButOrder.refl (a : IopModule) : SameButOrder a a := rfl

theorem SameButOrder.trans {a b c : IopModule} (hab : SameButOrder a b) (hbc : SameButOrder b c) :
    SameButOrder a c := by
  rw [← hab] at hbc
  exact hbc

theorem SameButOrder.obs {γ : Type} {a b : IopModule} (h : SameButOrder a b) (obs : IopModule → γ)
    (hobs : ∀ module order, obs { module with iopOrder := order } = obs module) :
    obs b = obs a := by
  rw [← h, hobs]

theorem setIopOrder_same (m : ModuleRef) (order : Int) (n : ModuleRef) :
    SameButOrder (mods n) (setIopOrder mods m order n) := by
  unfold setIopOrder
  by_cases hn : n = m
  · subst hn
    rw [Function.update_self]
    rfl
  · rw [Function.update_of_ne hn]
    exact .refl _

theorem resyncOrders_same (orders : List IopOrderEntry) (iop : List ModuleRef)
    (mods : ModuleRef → IopModule) (n : ModuleRef) :
    SameButOrder (mods n) (iop.foldl (fun mods m =>
      if (mods m).iopOrder ≠ intMax then
        setIopOrder mods m (dtIopprGetIopOrder orders (mods m).op (mods m).multiPriority)
      else mods) mods n) := by
  induction iop generalizing mods with
  | nil => exact .refl _
  | cons m iop ih =>
    rw [List.foldl_cons]
    refine SameButOrder.trans ?_ (ih _)
    split
    · exact setIopOrder_same ..
    · exact .refl _

theorem checkDuplicateLoop_same (history : List (HistoryItem ModuleRef)) (fuel : Nat)
    (start : List ModuleRef × List ModuleRef) (before after : List ModuleRef)
    (mods : ModuleRef → IopModule) (n : ModuleRef) :
    SameButOrder (mods n) (checkDuplicateLoop history fuel start before after mods n) := by
  -- one case for each way round the loop; every way but the restart moves at most one order
  fun_induction checkDuplicateLoop history fuel start before after mods with
  | case1 => exact .refl _
  | case2 => exact .refl _
  | case3 _ _ _ _ _ ih => exact ih
  | case4 _ _ _ _ _ _ _ _ _ _ _ ih => exact (setIopOrder_same ..).trans ih
  | case5 _ _ _ _ _ _ _ _ _ _ _ _ ih₁ ih₂ => exact ih₁.trans ih₂
  | case6 => exact setIopOrder_same ..
  | case7 _ _ _ _ _ _ _ _ _ _ _ _ ih => exact (setIopOrder_same ..).trans ih
  | case8 _ _ _ _ _ _ _ _ _ _ _ _ ih => exact ih
  | case9 _ _ _ _ _ _ _ _ _ ih => exact (setIopOrder_same ..).trans ih
  | case10 _ _ _ _ _ _ _ _ _ _ ih => exact ih
  | case11 _ _ _ _ _ _ _ _ ih => exact ih

theorem dtIopprResyncModulesOrder_same (n : ModuleRef) :
    SameButOrder (dev.mods n) ((dtIopprResyncModulesOrder dev).mods n) :=
  resyncOrders_same ..

theorem dtIopprCheckDuplicateIopOrder_same (n : ModuleRef) :
    SameButOrder (dev.mods n) ((dtIopprCheckDuplicateIopOrder dev).mods n) :=
  checkDuplicateLoop_same ..

theorem dtIopprResyncModulesOrder_perm : (dtIopprResyncModulesOrder dev).iop.Perm dev.iop :=
  List.perm_insertionSort ..

end DTLite
