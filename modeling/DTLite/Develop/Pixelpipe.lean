import DTLite.Develop.HistoryEdits

/-!
# The pixelpipe

A piece of the pipe works on the params that were last committed to it.  The pipe is brought up to
date from the history in `dt_dev_pixelpipe_change`, which redoes everything, or only the top item
if the history says that nothing else has changed.
-/

namespace DTLite

open Reasoning List Function

-- `dt_dev_pixelpipe_iop_t`: `params` is what `commit_params` of the module was last given
structure Piece where
  module : ModuleRef
  enabled : Bool
  params : Blob
  blendopData : Blob
deriving DecidableEq, Repr

open Piece

-- `dt_dev_pixelpipe_t`
structure Pixelpipe where
  iop : List ModuleRef
  nodes : List Piece
  changed : PipeChanged

/-- What a piece does to the image: nothing, or its operation with these params. -/
def Piece.shown (piece : Piece) : Option (Blob × Blob) :=
  if piece.enabled then some (piece.params, piece.blendopData) else none

section Synch

-- whether the module's own `commit_params` leaves a piece enabled with these params
variable (commitEnabled : ModuleRef → Blob → Bool)

-- what `dt_iop_commit_params` does to the piece
def Piece.commit (params blendopParams : Blob) (piece : Piece) : Piece :=
  if piece.enabled then
    { piece with
      params := params
      blendopData := blendopParams
      enabled := commitEnabled piece.module params }
  else piece

variable (dev : Develop)

-- The blend params of an enabled piece go to the module as well
def dtIopCommitParams (params blendopParams : Blob) (piece : Piece) :
    Develop × Piece :=
  let module := dev.mods piece.module
  (if piece.enabled then dev.setModule piece.module { module with blendParams := blendopParams }
    else dev,
   piece.commit commitEnabled params blendopParams)

-- a loop over `pipe->nodes` whose body may write to the modules
def forNodes (body : Develop → Piece → Develop × Piece) (dev : Develop) :
    List Piece → Develop × List Piece
  | [] => (dev, [])
  | piece :: nodes =>
      let done := body dev piece
      let rest := forNodes body done.1 nodes
      (rest.1, done.2 :: rest.2)

def dtDevPixelpipeSynch (nodes : List Piece) (hist : HistoryItem ModuleRef) :
    Develop × List Piece :=
  forNodes (fun dev piece =>
    if piece.module = hist.module then
      dtIopCommitParams commitEnabled dev hist.params hist.blendParams
        { piece with enabled := hist.enabled }
    else (dev, piece)) dev nodes

-- "call reset_params on all pieces first"
def resetPieces (nodes : List Piece) : Develop × List Piece :=
  forNodes (fun dev piece =>
    let module := dev.mods piece.module
    dtIopCommitParams commitEnabled dev module.defaultParams module.defaultBlendopParams
      { piece with enabled := module.defaultEnabled }) dev nodes

def dtDevPixelpipeSynchAll (nodes : List Piece) : Develop × List Piece :=
  dev.active.foldl (fun s hist => dtDevPixelpipeSynch commitEnabled s.1 s.2 hist)
    (resetPieces commitEnabled dev nodes)

def dtDevPixelpipeSynchTop (nodes : List Piece) : Develop × List Piece :=
  match topItem dev with
  | none => (dev, nodes)
  | some hist => dtDevPixelpipeSynch commitEnabled dev nodes hist

-- Nothing is committed yet
def dtDevPixelpipeCreateNodes (dev : Develop) : List Piece :=
  dev.iop.map fun m =>
    { module := m, enabled := (dev.mods m).enabled, params := [], blendopData := [] }

def dtDevPixelpipeChange (pipe : Pixelpipe) : Develop × Pixelpipe :=
  let (dev, nodes) :=
    if pipe.changed.topChanged then dtDevPixelpipeSynchTop commitEnabled dev pipe.nodes
    else (dev, pipe.nodes)
  let (dev, nodes) :=
    if pipe.changed.synch then dtDevPixelpipeSynchAll commitEnabled dev nodes else (dev, nodes)
  let (dev, nodes) :=
    if pipe.changed.remove then
      dtDevPixelpipeSynchAll commitEnabled dev (dtDevPixelpipeCreateNodes dev)
    else (dev, nodes)
  let iop := if pipe.changed.remove then dev.iop else pipe.iop
  (dev, { iop := iop, nodes := nodes, changed := {} })

/-! ## What a synchronised piece shows -/

/-- The develops differ in nothing but the blend params of the modules. -/
def SameButBlend (dev₀ dev : Develop) : Prop :=
  ∃ blend : ModuleRef → Blob,
    dev = { dev₀ with mods := fun m => { dev₀.mods m with blendParams := blend m } }

variable (items : List (HistoryItem ModuleRef)) (mods : ModuleRef → IopModule) (dev : Develop)
  (hist : HistoryItem ModuleRef) (piece : Piece) (params : Blob) (nodes : List Piece)

theorem SameButBlend.refl : SameButBlend dev dev := ⟨fun m => (dev.mods m).blendParams, rfl⟩

theorem SameButBlend.trans {dev₁ dev₂ dev₃ : Develop} (h₁₂ : SameButBlend dev₁ dev₂)
    (h₂₃ : SameButBlend dev₂ dev₃) : SameButBlend dev₁ dev₃ := by
  obtain ⟨blend₂, rfl⟩ := h₁₂
  obtain ⟨blend₃, rfl⟩ := h₂₃
  exact ⟨blend₃, rfl⟩

theorem dtIopCommitParams_sameButBlend (blendopParams : Blob) (piece : Piece) :
    SameButBlend dev (dtIopCommitParams commitEnabled dev params blendopParams piece).1 := by
  unfold dtIopCommitParams
  by_cases hen : piece.enabled = true
  · refine ⟨update (fun m => (dev.mods m).blendParams) piece.module blendopParams, ?_⟩
    simp only [hen, if_true, Develop.setModule]
    congr 1
    funext m
    by_cases hm : m = piece.module
    · subst hm
      rw [update_self, update_self]
    · rw [update_of_ne hm, update_of_ne hm]
  · simp only [hen]
    exact SameButBlend.refl dev

/-- A loop whose body commits something to each piece, in any develop that agrees with `dev₀`. -/
theorem forNodes_spec {body : Develop → Piece → Develop × Piece} {g : Piece → Piece}
    {dev₀ : Develop}
    (hbody : ∀ dev piece, SameButBlend dev₀ dev →
      SameButBlend dev₀ (body dev piece).1 ∧ (body dev piece).2 = g piece)
    {dev : Develop} (hdev : SameButBlend dev₀ dev) (nodes : List Piece) :
    SameButBlend dev₀ (forNodes body dev nodes).1 ∧
      (forNodes body dev nodes).2 = nodes.map g := by
  induction nodes generalizing dev with
  | nil => exact ⟨hdev, rfl⟩
  | cons piece nodes ih =>
    obtain ⟨hsame, hpiece⟩ := hbody dev piece hdev
    obtain ⟨hrest, hnodes⟩ := ih hsame
    refine ⟨hrest, ?_⟩
    change (body dev piece).2 :: (forNodes body (body dev piece).1 nodes).2 = _
    rw [hpiece, hnodes, map_cons]

def Piece.synch (piece : Piece) : Piece :=
  if piece.module = hist.module then
    ({ piece with enabled := hist.enabled } : Piece).commit commitEnabled hist.params
      hist.blendParams
  else piece

def Piece.reset (piece : Piece) : Piece :=
  ({ piece with enabled := (mods piece.module).defaultEnabled } : Piece).commit commitEnabled
    (mods piece.module).defaultParams (mods piece.module).defaultBlendopParams

theorem dtDevPixelpipeSynch_spec (hist : HistoryItem ModuleRef) :
    SameButBlend dev (dtDevPixelpipeSynch commitEnabled dev nodes hist).1 ∧
      (dtDevPixelpipeSynch commitEnabled dev nodes hist).2 =
        nodes.map (synch commitEnabled hist) := by
  refine forNodes_spec (fun dev' piece hdev' => ?_) (SameButBlend.refl dev) nodes
  unfold synch
  by_cases hmod : piece.module = hist.module
  · rw [if_pos hmod, if_pos hmod]
    exact ⟨hdev'.trans (dtIopCommitParams_sameButBlend ..), rfl⟩
  · rw [if_neg hmod, if_neg hmod]
    exact ⟨hdev', rfl⟩

theorem resetPieces_spec :
    SameButBlend dev (resetPieces commitEnabled dev nodes).1 ∧
      (resetPieces commitEnabled dev nodes).2 = nodes.map (reset commitEnabled dev.mods) := by
  refine forNodes_spec (fun dev' piece hdev' => ?_) (SameButBlend.refl dev) nodes
  refine ⟨hdev'.trans (dtIopCommitParams_sameButBlend ..), ?_⟩
  obtain ⟨blend, rfl⟩ := hdev'
  rfl

theorem foldl_synch_spec :
    let s := items.foldl (fun s => dtDevPixelpipeSynch commitEnabled s.1 s.2) (dev, nodes)
    SameButBlend dev s.1 ∧
      s.2 = nodes.map fun piece ↦ items.foldl (fun p hist ↦ p.synch commitEnabled hist) piece := by
  induction items generalizing dev nodes with
  | nil => exact ⟨SameButBlend.refl dev, (map_id nodes).symm⟩
  | cons hist items ih =>
    obtain ⟨hsame, hnodes⟩ := dtDevPixelpipeSynch_spec commitEnabled dev nodes hist
    obtain ⟨hrest, hmap⟩ := ih (dtDevPixelpipeSynch commitEnabled dev nodes hist).1
      (dtDevPixelpipeSynch commitEnabled dev nodes hist).2
    refine ⟨hsame.trans hrest, ?_⟩
    refine hmap.trans ?_
    rw [hnodes, map_map]
    rfl

theorem dtDevPixelpipeSynchAll_spec :
    SameButBlend dev (dtDevPixelpipeSynchAll commitEnabled dev nodes).1 ∧
      (dtDevPixelpipeSynchAll commitEnabled dev nodes).2 = nodes.map fun piece =>
        dev.active.foldl (fun p hist => p.synch commitEnabled hist)
          (piece.reset commitEnabled dev.mods) := by
  obtain ⟨hreset, hnodes⟩ := resetPieces_spec commitEnabled dev nodes
  obtain ⟨hitems, hmap⟩ := foldl_synch_spec commitEnabled dev.active
    (resetPieces commitEnabled dev nodes).1 (resetPieces commitEnabled dev nodes).2
  refine ⟨hreset.trans hitems, hmap.trans ?_⟩
  rw [hnodes, map_map]
  rfl

def commitShown (m : ModuleRef) (params blendParams : Blob) (enabled : Bool) :
    Option (Blob × Blob) :=
  if enabled && commitEnabled m params then some (params, blendParams) else none

/-- What a piece of the module `m` shows after the replay of `items`: its last item decides. -/
def shownAfter (m : ModuleRef) : Option (Blob × Blob) :=
  match lastFor HistoryItem.module m items with
  | some h => commitShown commitEnabled m h.params h.blendParams h.enabled
  | none => commitShown commitEnabled m (mods m).defaultParams (mods m).defaultBlendopParams
      (mods m).defaultEnabled

theorem commit_shown (blendParams : Blob) (enabled : Bool) :
    (({ piece with enabled := enabled } : Piece).commit commitEnabled params blendParams).shown =
      commitShown commitEnabled piece.module params blendParams enabled := by
  cases enabled with
  | false => rfl
  | true => simp [commit, shown, commitShown]

theorem commit_module (blendParams : Blob) :
    (piece.commit commitEnabled params blendParams).module = piece.module := by
  unfold commit
  split <;> rfl

theorem synch_module : (piece.synch commitEnabled hist).module = piece.module := by
  unfold synch
  split
  · exact commit_module ..
  · rfl

theorem reset_module : (piece.reset commitEnabled mods).module = piece.module := commit_module ..

theorem synch_shown :
    (piece.synch commitEnabled hist).shown = if piece.module = hist.module then
      commitShown commitEnabled piece.module hist.params hist.blendParams hist.enabled
    else piece.shown := by
  unfold synch
  split
  · exact commit_shown ..
  · rfl

theorem foldl_synch_module :
    (items.foldl (fun p hist => p.synch commitEnabled hist) piece).module = piece.module := by
  induction items generalizing piece with
  | nil => rfl
  | cons hist items ih => rw [foldl_cons, ih, synch_module]

theorem foldl_synch_shown :
    (items.foldl (fun p hist => p.synch commitEnabled hist)
      (piece.reset commitEnabled mods)).shown =
        shownAfter commitEnabled items mods piece.module := by
  unfold shownAfter
  induction items using reverseRecOn with
  | nil => exact commit_shown ..
  | append_singleton items h ih =>
    rw [foldl_append, foldl_cons, foldl_nil, synch_shown, foldl_synch_module, reset_module]
    by_cases hmod : piece.module = h.module
    · rw [if_pos hmod, lastFor_concat_self _ _ hmod.symm]
    · rw [if_neg hmod, lastFor_concat_ne _ _ (Ne.symm hmod)]
      exact ih

/-- Every piece shows what the active items say. -/
def Synched (dev : Develop) (nodes : List Piece) : Prop :=
  ∀ piece ∈ nodes, piece.shown = shownAfter commitEnabled dev.active dev.mods piece.module

theorem synched_iff_synchAll :
    nodes.map shown =
        (dtDevPixelpipeSynchAll commitEnabled dev nodes).2.map shown ↔
      Synched commitEnabled dev nodes := by
  rw [(dtDevPixelpipeSynchAll_spec commitEnabled dev nodes).2, map_map, map_inj_left]
  simp only [comp_apply, foldl_synch_shown]
  rfl

theorem SameButBlend.synched_iff {dev dev' : Develop} (hsame : SameButBlend dev dev')
    (nodes : List Piece) : Synched commitEnabled dev' nodes ↔ Synched commitEnabled dev nodes := by
  obtain ⟨blend, rfl⟩ := hsame
  rfl

theorem synchAll_synched :
    Synched commitEnabled (dtDevPixelpipeSynchAll commitEnabled dev nodes).1
      (dtDevPixelpipeSynchAll commitEnabled dev nodes).2 := by
  obtain ⟨hsame, hnodes⟩ := dtDevPixelpipeSynchAll_spec commitEnabled dev nodes
  rw [hsame.synched_iff, hnodes]
  intro piece hpiece
  obtain ⟨piece₀, -, rfl⟩ := mem_map.mp hpiece
  rw [foldl_synch_shown, foldl_synch_module, reset_module]

theorem synchTop_spec :
    SameButBlend dev (dtDevPixelpipeSynchTop commitEnabled dev nodes).1 ∧
      (dtDevPixelpipeSynchTop commitEnabled dev nodes).2 =
        nodes.map fun piece => (topItem dev).elim piece (piece.synch commitEnabled) := by
  unfold dtDevPixelpipeSynchTop
  cases topItem dev with
  | none => exact ⟨SameButBlend.refl dev, (map_id nodes).symm⟩
  | some hist => exact dtDevPixelpipeSynch_spec commitEnabled dev nodes hist

theorem change_synched_of_all (pipe : Pixelpipe)
    (hall : pipe.changed.synch = true ∨ pipe.changed.remove = true) :
    Synched commitEnabled (dtDevPixelpipeChange commitEnabled dev pipe).1
      (dtDevPixelpipeChange commitEnabled dev pipe).2.nodes := by
  unfold dtDevPixelpipeChange
  by_cases hremove : pipe.changed.remove = true
  · simp only [hremove]
    exact synchAll_synched commitEnabled _ _
  · have hsynch : pipe.changed.synch = true := hall.resolve_right hremove
    simp only [hremove, hsynch]
    exact synchAll_synched commitEnabled _ _

theorem change_eq_of_top (pipe : Pixelpipe) (hsynch : pipe.changed.synch = false)
    (hremove : pipe.changed.remove = false) :
    dtDevPixelpipeChange commitEnabled dev pipe =
      let s := if pipe.changed.topChanged then dtDevPixelpipeSynchTop commitEnabled dev pipe.nodes
        else (dev, pipe.nodes)
      (s.1, { iop := pipe.iop, nodes := s.2, changed := {} }) := by
  unfold dtDevPixelpipeChange
  simp [hsynch, hremove]

end Synch

end DTLite
