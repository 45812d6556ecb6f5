import DTLite.Common.Selection
import DTLite.Reasoning.Runs

/-!
# The images to act on

`dt_view_get_images_to_act_on` keeps the list it has made last and the place of the pointer it was
made for, and returns it again as long as these have not changed.
-/

namespace DTLite

open Reasoning

variable (env : Gallery)

-- `g_list_append`, unless `g_list_find_custom` finds the image.
def appendNew (list : List Int) (imgid : Int) : List Int :=
  if list.contains imgid then list else list ++ [imgid]

def imagesToActOnInsertInList (onlyVisible : Bool) (list : List Int) (imgid : Int) : List Int :=
  if onlyVisible then appendNew list imgid
  else
    match env.groupOf imgid with
    | none => list
    | some group =>
        if env.single group || env.collection.isNone then appendNew list imgid
        else (env.actOnGroup group).foldl appendNew list

-- `SELECT m.imgid … WHERE m.imgid=s.imgid ORDER BY m.rowid`.
def selectedImages (selected : Int → Bool) : List Int := env.collected.filter selected

def makeList (selected : Int → Bool) (mouseOver : Int) (mouseInside : Bool)
    (activeImages : List Int) (onlyVisible : Bool) : List Int :=
  let insertAll (ids : List Int) : List Int :=
    ids.foldl (imagesToActOnInsertInList env onlyVisible) []
  if 0 < mouseOver then
    if mouseInside then
      if selected mouseOver then insertAll (selectedImages env selected)
      else insertAll [mouseOver]
    else insertAll [mouseOver]
  else if activeImages ≠ [] then insertAll activeImages
  else insertAll (selectedImages env selected)

-- The loop that compares the active images, as far as both lists go.
def sameImages : List Int → List Int → Bool
  | x :: xs, y :: ys => x == y && sameImages xs ys
  | _, _ => true

-- Was the cached list made for this place of the pointer?
def Browser.SamePlace (b : Browser) : Prop :=
  b.actOn.ok ∧ b.actOn.imageOver = b.mouseOver ∧ b.actOn.insideTable = b.mouseInside

instance decidableSamePlace (b : Browser) : Decidable b.SamePlace :=
  inferInstanceAs (Decidable (_ ∧ _ ∧ _))

/-- "if possible, we return the cached list". -/
def Browser.UsesCached (b : Browser) : Prop :=
  b.SamePlace ∧ b.actOn.activeImgs.length = b.activeImages.length ∧
    -- we test active images if mouse outside table
    (b.mouseInside = false ∧ b.actOn.activeImgs ≠ [] →
      sameImages b.actOn.activeImgs b.activeImages)

instance decidableUsesCached (b : Browser) : Decidable b.UsesCached :=
  inferInstanceAs (Decidable (_ ∧ _ ∧ (_ → _)))

def dtViewGetImagesToActOn (b : Browser) (onlyVisible force : Bool) : Browser × List Int :=
  if force = false ∧ b.UsesCached then (b, b.actOn.images)
  else
    let list := makeList env b.selected b.mouseOver b.mouseInside b.activeImages onlyVisible
    ({ b with
        actOn :=
          { images := list, ok := true, imageOver := b.mouseOver, insideTable := b.mouseInside,
            activeImgs := b.activeImages } }, list)

def dtControlSetMouseOverId (b : Browser) (value : Int) : Browser := { b with mouseOver := value }

-- To leave the table for a thumbnail in it is not a real leave.
def eventLeaveNotify (b : Browser) (visible inferior : Bool) : Browser :=
  if !visible then { b with mouseInside := false }
  else if inferior then b
  else dtControlSetMouseOverId { b with mouseInside := false } (-1)

def eventEnterNotify (b : Browser) (inferior : Bool) : Browser :=
  if inferior then dtControlSetMouseOverId b (-1) else b

def eventMotionNotify (b : Browser) : Browser := { b with mouseInside := true }

def dtViewActiveImagesReset (b : Browser) : Browser := { b with activeImages := [] }

def dtViewActiveImagesAdd (b : Browser) (imgid : Int) : Browser :=
  { b with activeImages := b.activeImages ++ [imgid] }

inductive BrowserEvent
  | mouseOver (imgid : Int)
  | leaveNotify (visible inferior : Bool)
  | enterNotify (inferior : Bool)
  | motionNotify
  | activeImagesReset
  | activeImagesAdd (imgid : Int)
  | selection (call : SelectionCall)
  | imagesToActOn (onlyVisible force : Bool)
deriving DecidableEq, Repr

/-- The browser, and which `only_visible` the cached list was made with; the code does not keep
that. -/
structure Session where
  browser : Browser
  madeWith : Bool

open Session

def Session.step (s : Session) : BrowserEvent → Session
  | .mouseOver imgid => { s with browser := dtControlSetMouseOverId s.browser imgid }
  | .leaveNotify visible inferior =>
      { s with browser := eventLeaveNotify s.browser visible inferior }
  | .enterNotify inferior => { s with browser := eventEnterNotify s.browser inferior }
  | .motionNotify => { s with browser := eventMotionNotify s.browser }
  | .activeImagesReset => { s with browser := dtViewActiveImagesReset s.browser }
  | .activeImagesAdd imgid => { s with browser := dtViewActiveImagesAdd s.browser imgid }
  | .selection call => { s with browser := call.run env s.browser }
  | .imagesToActOn onlyVisible force =>
      { browser := (dtViewGetImagesToActOn env s.browser onlyVisible force).1
        madeWith := if force = false ∧ s.browser.UsesCached then s.madeWith else onlyVisible }

/-! ## When the cached list is the right one -/

/-- The cached list is what would be made now, were the pointer and the active images where they
were then. -/
def Session.Valid (s : Session) : Prop :=
  s.browser.actOn.ok →
    s.browser.actOn.images =
      makeList env s.browser.selected s.browser.actOn.imageOver s.browser.actOn.insideTable
        s.browser.actOn.activeImgs s.madeWith

/-- Asking with another `only_visible` than before, other active images while the pointer is in the
table but over no image, and `dt_selection_select_single` on no image. -/
def Session.Clear (s : Session) : BrowserEvent → Prop
  | .imagesToActOn onlyVisible false =>
      s.browser.SamePlace →
        onlyVisible = s.madeWith ∧
          (s.browser.mouseInside → s.browser.mouseOver < 1 →
            s.browser.actOn.activeImgs = s.browser.activeImages)
  | .selection (.selectSingle imgid) => 1 ≤ imgid ∨ ∀ id, s.browser.selected id = false
  | _ => True

variable {env} {s : Session}

theorem Session.Valid.of_discards (h : s.Valid env) {b : Browser}
    (hb : s.browser.Discards b) : Valid env { s with browser := b } := by
  intro hok
  rcases hb with hfalse | ⟨hselected, hactOn⟩
  · rw [hfalse] at hok
    cases hok
  · have hold : s.browser.actOn.ok := by
      rw [← hactOn]
      exact hok
    rw [hselected, hactOn]
    exact h hold

theorem discards_of_eq {b b' : Browser} (hselected : b'.selected = b.selected)
    (hactOn : b'.actOn = b.actOn) : b.Discards b' := .inr ⟨hselected, hactOn⟩

theorem Session.Valid.call (h : s.Valid env) (onlyVisible force : Bool) :
    (s.step env (.imagesToActOn onlyVisible force)).Valid env := by
  by_cases hcached : force = false ∧ s.browser.UsesCached
  · have hstep : s.step env (.imagesToActOn onlyVisible force) = s := by
      simp only [step, dtViewGetImagesToActOn, if_pos hcached]
    rw [hstep]
    exact h
  · intro _
    simp only [step, dtViewGetImagesToActOn, if_neg hcached]

theorem Session.Valid.step (h : s.Valid env) {event : BrowserEvent}
    (hclear : s.Clear event) : (s.step env event).Valid env := by
  cases event with
  | mouseOver imgid => exact h.of_discards (discards_of_eq rfl rfl)
  | leaveNotify visible inferior =>
    apply h.of_discards
    cases visible with
    | false => exact discards_of_eq rfl rfl
    | true => cases inferior <;> exact discards_of_eq rfl rfl
  | enterNotify inferior =>
    apply h.of_discards
    cases inferior <;> exact discards_of_eq rfl rfl
  | motionNotify => exact h.of_discards (discards_of_eq rfl rfl)
  | activeImagesReset => exact h.of_discards (discards_of_eq rfl rfl)
  | activeImagesAdd imgid => exact h.of_discards (discards_of_eq rfl rfl)
  | selection call =>
    apply h.of_discards
    apply SelectionCall.discards
    rintro imgid rfl
    exact hclear
  | imagesToActOn onlyVisible force => exact h.call onlyVisible force

theorem sameImages_eq {xs ys : List Int} (hlength : xs.length = ys.length)
    (h : sameImages xs ys) : xs = ys := by
  induction xs generalizing ys with
  | nil => exact (List.length_eq_zero_iff.mp hlength.symm).symm
  | cons x xs ih =>
    cases ys with
    | nil => cases hlength
    | cons y ys =>
      rw [sameImages, Bool.and_eq_true, beq_iff_eq] at h
      rw [h.1, ih (Nat.succ.inj hlength) h.2]

theorem makeList_over {selected : Int → Bool} {mouseOver : Int} (hover : 0 < mouseOver)
    (xs ys : List Int) (onlyVisible : Bool) :
    makeList env selected mouseOver true xs onlyVisible =
      makeList env selected mouseOver true ys onlyVisible := by
  simp only [makeList, if_pos hover]

theorem Session.Valid.answer (h : s.Valid env) {onlyVisible : Bool}
    (hclear : s.Clear (.imagesToActOn onlyVisible false)) :
    (dtViewGetImagesToActOn env s.browser onlyVisible false).2 =
      (dtViewGetImagesToActOn env s.browser onlyVisible true).2 := by
  by_cases hcached : s.browser.UsesCached
  · obtain ⟨hplace, hlength, hsame⟩ := hcached
    obtain ⟨hok, hover, hinside⟩ := hplace
    obtain ⟨hmade, hactive⟩ := hclear ⟨hok, hover, hinside⟩
    rw [dtViewGetImagesToActOn, if_pos ⟨rfl, ⟨hok, hover, hinside⟩, hlength, hsame⟩,
      dtViewGetImagesToActOn, if_neg (by simp)]
    rw [h hok, hover, hinside, ← hmade]
    by_cases hin : s.browser.mouseInside
    · by_cases hpos : 0 < s.browser.mouseOver
      · rw [hin]
        exact makeList_over hpos ..
      · rw [hactive hin (by omega)]
    · have heq : s.browser.actOn.activeImgs = s.browser.activeImages := by
        by_cases hnil : s.browser.actOn.activeImgs = []
        · rw [hnil] at hlength ⊢
          exact (List.length_eq_zero_iff.mp hlength.symm).symm
        · exact sameImages_eq hlength (hsame ⟨by simpa using hin, hnil⟩)
      rw [heq]
  · rw [dtViewGetImagesToActOn, if_neg fun hc => hcached hc.2, dtViewGetImagesToActOn,
      if_neg (by simp)]

variable (env)

/-- Along every run that keeps clear of the three cases, a call with force off returns what a call
with force on would return at that moment. -/
theorem imagesToActOn_run (b : Browser) (hstart : b.actOn.ok = false) (madeWith : Bool)
    (events : List BrowserEvent)
    (hclear : AllSteps (Session.step env) Session.Clear ⟨b, madeWith⟩ events) :
    AllSteps (Session.step env)
      (fun s event => ∀ onlyVisible, event = .imagesToActOn onlyVisible false →
        (dtViewGetImagesToActOn env s.browser onlyVisible false).2 =
          (dtViewGetImagesToActOn env s.browser onlyVisible true).2)
      ⟨b, madeWith⟩ events := by
  have hvalid : Valid env ⟨b, madeWith⟩ := by
    intro hok
    rw [hstart] at hok
    cases hok
  have hstates := allStates_of_allSteps (fun s e hs => hs.step) hvalid hclear
  apply (hstates.allSteps.and hclear).mono
  rintro s event ⟨hs, hc⟩ onlyVisible rfl
  exact hs.answer hc

def twoImages : Gallery where
  images := [5, 6]
  filmOf _ := some 1
  groupOf := some
  collected := [5, 6]
  grouping := false
  expandedGroupId := -1
  collection := none
  actOnGroup _ := []

-- The image 5 is in the darkroom, and the pointer between the images of the filmstrip.
def overNoImage : Browser where
  mouseOver := -1
  mouseInside := true
  activeImages := [5]
  selected _ := false
  lastSingleId := -1
  actOn := { images := [], ok := false, imageOver := 0, insideTable := false, activeImgs := [] }

-- The pointer goes from image to image, and the second call finds the list of the first one.
theorem imagesToActOn_run_pointer :
    AllSteps (Session.step twoImages)
      (fun s event => ∀ onlyVisible, event = .imagesToActOn onlyVisible false →
        (dtViewGetImagesToActOn twoImages s.browser onlyVisible false).2 =
          (dtViewGetImagesToActOn twoImages s.browser onlyVisible true).2)
      ⟨overNoImage, true⟩
      [.selection (.select 5), .mouseOver 5, .imagesToActOn true false, .imagesToActOn true false,
        .mouseOver 6, .imagesToActOn false false] := by
  apply imagesToActOn_run twoImages overNoImage rfl
  simp only [AllSteps, Clear]
  decide

-- The darkroom goes on to the image 6, and the list is still that of the image 5.
theorem imagesToActOn_stale :
    let s := [BrowserEvent.imagesToActOn true false, .activeImagesReset, .activeImagesAdd 6].foldl
      (step twoImages) ⟨overNoImage, true⟩
    (dtViewGetImagesToActOn twoImages s.browser true false).2 = [5] ∧
      (dtViewGetImagesToActOn twoImages s.browser true true).2 = [6] := by
  decide

end DTLite
