import DTLite.Common.ImageEffects
import DTLite.Reasoning.Runs

/-! Local copies. When `dt_image_local_copy_reset` spares the copy of an image whose original is
away, and which runs of setting and resetting keep a copy of every picture. -/

namespace DTLite

open Reasoning List World

section Names

variable {conf : Conf} {w : World} {imgid : Nat} {filename : Path}

theorem length_le_dtImagePathAppendVersion (lib : Library) (imgid : Nat) (pathname : Path) :
    pathname.length ≤ (dtImagePathAppendVersion lib imgid pathname).length := by
  have hsplit := length_lastSplit '.' pathname
  rw [dtImagePathAppendVersion, dtImagePathAppendVersionNoDb]
  split
  · simp only [length_append]
    omega
  · exact le_rfl

section

variable (conf : Conf)

theorem length_lt_localCopyXmp (w : World) (imgid : Nat) :
    (w.imageLocalCopyFullPath conf imgid).length < (w.localCopyXmp conf imgid).length := by
  have hle := length_le_dtImagePathAppendVersion w.lib imgid (w.imageLocalCopyFullPath conf imgid)
  have hext : xmpExt.length = 4 := rfl
  rw [localCopyXmp, length_append]
  omega

theorem length_newName_lt_oldName (imgid : Nat) (filename : Path) :
    (localCopyNewName conf filename).length < (localCopyOldName conf imgid filename).length := by
  simp only [localCopyNewName, localCopyOldName, length_append, length_cons]
  omega

theorem userCacheDir_infix_oldName (imgid : Nat) (filename : Path) :
    conf.userCacheDir <:+: localCopyOldName conf imgid filename := by
  rw [localCopyOldName, append_assoc, append_assoc, append_assoc]
  exact (prefix_append _ _).isInfix

theorem userCacheDir_infix_newName (filename : Path) :
    conf.userCacheDir <:+: localCopyNewName conf filename := by
  rw [localCopyNewName, append_assoc, append_assoc]
  exact (prefix_append _ _).isInfix

theorem dtImageFullPath_false (w : World) (imgid : Nat) :
    w.dtImageFullPath conf imgid false = ((w.lib.path? imgid).getD [], false) := rfl

theorem imageLocalCopyFullPath_cases (hpath : w.lib.path? imgid = some filename) :
    (localCopyOldName conf imgid filename ∈ w.disk.files ∧
        w.imageLocalCopyFullPath conf imgid = localCopyOldName conf imgid filename) ∨
      (localCopyOldName conf imgid filename ∉ w.disk.files ∧
        w.imageLocalCopyFullPath conf imgid = localCopyNewName conf filename) := by
  simp only [imageLocalCopyFullPath, hpath, exists?, decide_eq_true_eq]
  by_cases hold : localCopyOldName conf imgid filename ∈ w.disk.files
  · exact Or.inl ⟨hold, if_pos hold⟩
  · exact Or.inr ⟨hold, if_neg hold⟩

end

theorem dtImageFullPath_true_of_exists
    (h : w.exists? (w.imageLocalCopyFullPath conf imgid) = true) :
    w.dtImageFullPath conf imgid true = (w.imageLocalCopyFullPath conf imgid, true) := by
  simp [dtImageFullPath, h]

end Names

def localCopyNames (conf : Conf) (w : World) (imgid : Nat) : List Path :=
  match w.lib.path? imgid with
  | none => []
  | some filename => [localCopyOldName conf imgid filename, localCopyNewName conf filename]

def LocalCopyKept (conf : Conf) (o : Outcomes) (w : World) (imgid : Nat) : Prop :=
  ∀ p ∈ localCopyNames conf w imgid, p ∈ w.disk.files →
    p ∈ (w.dtImageLocalCopyReset conf o imgid).1.disk.files

instance (conf : Conf) (o : Outcomes) (w : World) (imgid : Nat) :
    Decidable (LocalCopyKept conf o w imgid) := by
  unfold LocalCopyKept
  infer_instance

/-- Nothing to reset, edits waiting next to the copy, no copy there, or a duplicate that uses it. -/
def ResetSpares (conf : Conf) (w : World) (imgid : Nat) : Prop :=
  w.hasLocalCopyFlag imgid = false ∨
    w.exists? (w.localCopyXmp conf imgid) = true ∨
    w.exists? (w.imageLocalCopyFullPath conf imgid) = false ∨
    w.lib.nbOtherLocalCopyFor imgid ≠ 0

instance (conf : Conf) (w : World) (imgid : Nat) : Decidable (ResetSpares conf w imgid) := by
  unfold ResetSpares
  infer_instance

section Reset

variable {conf : Conf} {o : Outcomes} {w : World} {imgid : Nat} {p : Path}

theorem localCopyResetRefused_of_exists
    (h : w.exists? (w.imageLocalCopyFullPath conf imgid) = true) :
    w.localCopyResetRefused conf imgid =
      (w.exists? (w.localCopyXmp conf imgid) &&
        !w.exists? (w.dtImageFullPath conf imgid false).1) := by
  rw [localCopyResetRefused, dtImageFullPath_true_of_exists h, localCopyXmp]

-- The sidecar next to the copy is longer than either name of the copy, so deleting it is not
-- deleting the copy.
theorem ne_xmp_of_mem_localCopyNames (hp : p ∈ localCopyNames conf w imgid)
    (hfile : p ∈ w.disk.files) :
    p ≠ w.localCopyXmp conf imgid := by
  intro heq
  have hxmp := length_lt_localCopyXmp conf w imgid
  rw [← heq] at hxmp
  cases hpath : w.lib.path? imgid with
  | none => simp [localCopyNames, hpath] at hp
  | some filename =>
    have hlt := length_newName_lt_oldName conf imgid filename
    simp only [localCopyNames, hpath, mem_cons, not_mem_nil, or_false] at hp
    obtain ⟨hold, hL⟩ | ⟨hold, hL⟩ := imageLocalCopyFullPath_cases conf hpath
    · rw [hL] at hxmp
      obtain rfl | rfl := hp <;> omega
    · rw [hL] at hxmp
      obtain rfl | rfl := hp
      · exact hold hfile
      · omega

theorem localCopyKept_of_spares (horig : w.exists? (w.dtImageFullPath conf imgid false).1 = false)
    (h : ResetSpares conf w imgid) : LocalCopyKept conf o w imgid := by
  intro p hp hfile
  cases hflag : w.hasLocalCopyFlag imgid with
  | false => rwa [reset_of_no_flag hflag]
  | true =>
    cases hrefused : w.localCopyResetRefused conf imgid with
    | true => rwa [reset_of_refused hflag hrefused]
    | false =>
      -- the reset goes on, so what it deletes is the unshared copy or the sidecar next to it
      refine ((quiet_dtImageLocalCopyReset w imgid).kept p hfile).resolve_right fun hlost ↦ ?_
      obtain ⟨-, -, hcopy, -, ⟨-, hnb⟩ | ⟨hxmp, -⟩⟩ := mem_cacheFiles.1 hlost
      · rw [localCopyResetRefused_of_exists hcopy, horig] at hrefused
        obtain h | h | h | h := h
        · exact absurd h (by simp [hflag])
        · simp [h] at hrefused
        · exact absurd h (by simp [hcopy])
        · exact h hnb
      · exact ne_xmp_of_mem_localCopyNames hp hfile hxmp

theorem not_mem_localCopyDelete (hcopy : w.exists? (w.imageLocalCopyFullPath conf imgid) = true)
    (hcache : conf.userCacheDir <:+: w.imageLocalCopyFullPath conf imgid)
    (hnb : w.lib.nbOtherLocalCopyFor imgid = 0) :
    w.imageLocalCopyFullPath conf imgid ∉
      (w.localCopyDelete conf allSucceed imgid).disk.files := by
  simp only [localCopyDelete]
  rw [if_pos ⟨hcopy, hcache⟩]
  have hdeleted : w.imageLocalCopyFullPath conf imgid ∉
      ((w.dtImageWriteSidecarFile conf allSucceed imgid).deleteCachedFile allSucceed imgid
        (w.imageLocalCopyFullPath conf imgid)).disk.files := by
    rw [deleteCachedFile, dtImageWriteSidecarFile_lib, if_pos hnb, deleteFile]
    simp [allSucceed]
  rw [deleteCachedXmp]
  split
  · rw [deleteFile, Disk.mem_remove]
    exact fun hmem => hdeleted hmem.1
  · exact hdeleted

theorem spares_of_localCopyKept (horig : w.exists? (w.dtImageFullPath conf imgid false).1 = false)
    (h : ∀ o, LocalCopyKept conf o w imgid) : ResetSpares conf w imgid := by
  by_contra hspares
  simp only [ResetSpares, not_or, Bool.not_eq_false, not_not, Bool.not_eq_true] at hspares
  obtain ⟨hflag, hxmp, hcopy, hnb⟩ := hspares
  have hrefused : w.localCopyResetRefused conf imgid = false := by
    rw [localCopyResetRefused_of_exists hcopy, hxmp, Bool.false_and]
  cases hpath : w.lib.path? imgid with
  | none =>
    -- a row without a path has no copy: both paths are empty
    rw [dtImageFullPath_false, hpath] at horig
    rw [imageLocalCopyFullPath, hpath] at hcopy
    exact absurd hcopy (by simpa using horig)
  | some filename =>
    have hmem : w.imageLocalCopyFullPath conf imgid ∈ localCopyNames conf w imgid ∧
        conf.userCacheDir <:+: w.imageLocalCopyFullPath conf imgid := by
      obtain ⟨-, hL⟩ | ⟨-, hL⟩ := imageLocalCopyFullPath_cases conf hpath
      · rw [hL]
        exact ⟨by simp [localCopyNames, hpath], userCacheDir_infix_oldName conf imgid filename⟩
      · rw [hL]
        exact ⟨by simp [localCopyNames, hpath], userCacheDir_infix_newName conf filename⟩
    have hkept := h allSucceed _ hmem.1 (by simpa [exists?] using hcopy)
    rw [reset_of_not_refused hflag hrefused] at hkept
    exact not_mem_localCopyDelete hcopy hmem.2 hnb hkept

end Reset

section Runs

variable {conf : Conf} {o : Outcomes}

inductive LocalCopyEvent where
  | set (imgid : Nat)
  | reset (imgid : Nat)
  deriving DecidableEq, Repr

def localCopyStep (conf : Conf) (o : Outcomes) (w : World) : LocalCopyEvent → World
  | .set imgid => (w.dtImageLocalCopySet conf o imgid).1
  | .reset imgid => (w.dtImageLocalCopyReset conf o imgid).1

-- A picture is the file of some image of the library.
def Library.pictures (lib : Library) : List Path := lib.rows.filterMap lib.rowPath?

-- The file itself and the local copies any of its images can have.
def Library.copyNames (conf : Conf) (lib : Library) (filename : Path) : List Path :=
  filename :: (lib.rows.filter fun file => lib.rowPath? file = some filename).flatMap fun file =>
    [localCopyOldName conf file.id filename, localCopyNewName conf filename]

def HasCopy (conf : Conf) (w : World) (filename : Path) : Prop :=
  ∃ p ∈ w.lib.copyNames conf filename, p ∈ w.disk.files

instance (conf : Conf) (w : World) (filename : Path) : Decidable (HasCopy conf w filename) := by
  unfold HasCopy
  infer_instance

/-- The files a reset deletes are no copy of a picture, but for the image's own local copy. -/
def CacheFilesApart (conf : Conf) (o : Outcomes) (w : World) (imgid : Nat) : Prop :=
  ∀ p ∈ w.cacheFiles conf o imgid, ∀ filename ∈ w.lib.pictures,
    p ∈ w.lib.copyNames conf filename →
      p = w.imageLocalCopyFullPath conf imgid ∧ w.lib.path? imgid = some filename ∧ p ≠ filename

/-- A reset goes on only with the original in place, or where it spares the copy, and deletes no
other picture. -/
def ResetSafe (conf : Conf) (o : Outcomes) (w : World) (imgid : Nat) : Prop :=
  (w.exists? (w.dtImageFullPath conf imgid false).1 = true ∨ ResetSpares conf w imgid) ∧
    CacheFilesApart conf o w imgid

def LocalCopyEvent.Safe (conf : Conf) (o : Outcomes) (w : World) : LocalCopyEvent → Prop
  | .set _ => True
  | .reset imgid => ResetSafe conf o w imgid

instance (conf : Conf) (o : Outcomes) (w : World) (imgid : Nat) :
    Decidable (ResetSafe conf o w imgid) := by
  unfold ResetSafe CacheFilesApart
  infer_instance

instance decidableEventSafe (conf : Conf) (o : Outcomes) (w : World) :
    (e : LocalCopyEvent) → Decidable (e.Safe conf o w)
  | .set _ => isTrue trivial
  | .reset imgid => inferInstanceAs (Decidable (ResetSafe conf o w imgid))

variable {w w' : World} {imgid : Nat} {filename : Path} {lost : Path → Prop}

theorem World.Quiet.pictures (h : Quiet lost w w') : w'.lib.pictures = w.lib.pictures := by
  rw [Library.pictures, Library.pictures, h.rows, Library.rowPath?_congr h.filmRolls]

theorem World.Quiet.copyNames (h : Quiet lost w w') :
    w'.lib.copyNames conf filename = w.lib.copyNames conf filename := by
  rw [Library.copyNames, Library.copyNames, h.rows, Library.rowPath?_congr h.filmRolls]

theorem World.quiet_dtImageLocalCopySet (lost : Path → Prop) (w : World) (imgid : Nat) :
    Quiet lost w (w.dtImageLocalCopySet conf o imgid).1 := by
  simp only [dtImageLocalCopySet]
  split_ifs
  · exact Quiet.refl lost w
  · exact quiet_writeFile lost w _
  · exact (quiet_writeFile lost w _).trans (quiet_updateRow lost _ imgid _)
  · exact quiet_updateRow lost w imgid _

theorem hasCopy_reset (hsafe : ResetSafe conf o w imgid) (hpic : filename ∈ w.lib.pictures)
    (h : HasCopy conf w filename) :
    HasCopy conf (w.dtImageLocalCopyReset conf o imgid).1 filename := by
  cases hflag : w.hasLocalCopyFlag imgid with
  | false => rwa [reset_of_no_flag hflag]
  | true =>
  cases hrefused : w.localCopyResetRefused conf imgid with
  | true => rwa [reset_of_refused hflag hrefused]
  | false =>
  have hquiet : Quiet (· ∈ w.cacheFiles conf o imgid) w
      (w.dtImageLocalCopyReset conf o imgid).1 := quiet_dtImageLocalCopyReset w imgid
  obtain ⟨p, hname, hfile⟩ := h
  obtain hkept | hlost := hquiet.kept p hfile
  · exact ⟨p, by rwa [hquiet.copyNames], hkept⟩
  · -- the copy at hand is deleted: it is the image's own local copy, and not a shared one
    obtain ⟨hp, hpath, -⟩ := hsafe.2 p hlost filename hpic hname
    obtain ⟨-, -, hcopy, -, hwhich⟩ := mem_cacheFiles.1 hlost
    have hnb : w.lib.nbOtherLocalCopyFor imgid = 0 := by
      obtain ⟨-, hnb⟩ | ⟨hxmp, -⟩ := hwhich
      · exact hnb
      · have hlt := length_lt_localCopyXmp conf w imgid
        rw [← hxmp, hp] at hlt
        exact absurd hlt (lt_irrefl _)
    have horig : filename ∈ w.disk.files := by
      rw [localCopyResetRefused_of_exists hcopy] at hrefused
      have hexists : w.exists? (w.dtImageFullPath conf imgid false).1 = true := by
        obtain hexists | hflag' | hxmp | hgone | hshared := hsafe.1
        · exact hexists
        · simp [hflag] at hflag'
        · simpa [hxmp] using hrefused
        · simp [hcopy] at hgone
        · exact absurd hnb hshared
      simpa [dtImageFullPath_false, hpath, exists?] using hexists
    refine ⟨filename, mem_cons_self, (hquiet.kept filename horig).resolve_right fun hlost => ?_⟩
    exact (hsafe.2 filename hlost filename hpic mem_cons_self).2.2 rfl

theorem hasCopy_step (hpic : filename ∈ w.lib.pictures) (h : HasCopy conf w filename)
    (e : LocalCopyEvent) (hsafe : e.Safe conf o w) :
    filename ∈ (localCopyStep conf o w e).lib.pictures ∧
      HasCopy conf (localCopyStep conf o w e) filename := by
  cases e with
  | set imgid =>
    have hquiet : Quiet (fun _ => False) w (w.dtImageLocalCopySet conf o imgid).1 :=
      quiet_dtImageLocalCopySet _ w imgid
    obtain ⟨p, hname, hfile⟩ := h
    have hkept : p ∈ (w.dtImageLocalCopySet conf o imgid).1.disk.files :=
      (hquiet.kept p hfile).resolve_right id
    rw [localCopyStep, hquiet.pictures]
    exact ⟨hpic, p, by rwa [hquiet.copyNames], hkept⟩
  | reset imgid =>
    refine ⟨?_, hasCopy_reset hsafe hpic h⟩
    rwa [localCopyStep, (quiet_dtImageLocalCopyReset w imgid).pictures]

end Runs

/-- With the original away, a reset keeps the image's local copy whatever the file system does
exactly where `ResetSpares` holds; and a run of sets and resets whose steps are safe keeps a copy of
every picture that had one. -/
theorem localCopyReset_keeps_copies (conf : Conf) :
    (∀ (w : World) (imgid : Nat), w.exists? (w.dtImageFullPath conf imgid false).1 = false →
      ((∀ o, LocalCopyKept conf o w imgid) ↔ ResetSpares conf w imgid)) ∧
    (∀ (o : Outcomes) (w : World) (es : List LocalCopyEvent),
      AllSteps (localCopyStep conf o) (LocalCopyEvent.Safe conf o) w es →
        AllStates (localCopyStep conf o)
          (fun s => ∀ filename ∈ w.lib.pictures, HasCopy conf w filename →
            HasCopy conf s filename) w es) := by
  constructor
  · intro w imgid horig
    exact ⟨spares_of_localCopyKept horig, fun hspares o => localCopyKept_of_spares horig hspares⟩
  · intro o w es hsafe
    -- the pictures themselves stay the same along the run, which the invariant has to say
    have hrun : AllStates (localCopyStep conf o) (fun s => ∀ filename ∈ w.lib.pictures,
        HasCopy conf w filename → filename ∈ s.lib.pictures ∧ HasCopy conf s filename) w es := by
      refine allStates_of_allSteps ?_ (fun filename hpic hcopy => ⟨hpic, hcopy⟩) hsafe
      intro s e hinv hsafe filename hpic hcopy
      obtain ⟨hpic', hcopy'⟩ := hinv filename hpic hcopy
      exact hasCopy_step hpic' hcopy' e hsafe
    exact hrun.mono fun s h filename hpic hcopy => (h filename hpic hcopy).2

-- The local copy is all that is left of the image, and no edit has put a sidecar next to it.
def copyOnlyWorld : World := sampleWorld [sampleA true] (by decide) ["/c/img-A.raw"]

def mountedWorld : World := sampleWorld [sampleA true] (by decide) ["/p/A.raw"]

theorem localCopyReset_keeps_copies_setReset :
    AllSteps (localCopyStep sampleConf allSucceed) (LocalCopyEvent.Safe sampleConf allSucceed)
        mountedWorld [.set 1, .reset 1] ∧
      HasCopy sampleConf
        ([LocalCopyEvent.set 1, .reset 1].foldl (localCopyStep sampleConf allSucceed) mountedWorld)
        "/p/A.raw".toList := by
  refine ⟨by decide, ?_⟩
  have hrun := (localCopyReset_keeps_copies sampleConf).2 allSucceed mountedWorld
    [.set 1, .reset 1] (by decide)
  exact hrun.last "/p/A.raw".toList (by decide) (by decide)

theorem reset_deletes_last_copy :
    copyOnlyWorld.exists? (copyOnlyWorld.dtImageFullPath sampleConf 1 false).1 = false ∧
      HasCopy sampleConf copyOnlyWorld "/p/A.raw".toList ∧
      ¬ LocalCopyKept sampleConf allSucceed copyOnlyWorld 1 ∧
      ¬ HasCopy sampleConf (localCopyStep sampleConf allSucceed copyOnlyWorld (.reset 1))
        "/p/A.raw".toList := by
  decide

end DTLite
